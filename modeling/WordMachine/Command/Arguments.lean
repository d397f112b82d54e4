import WordMachine.Command.Path
import WordMachine.Listing.Target

/-!
# Arguments

What the words of a command line ask for.

The first word names a command, the others are its options and its one file, in
any order. An option with a value takes it from the same word, after an equals
sign, or from the next word, provided that one does not look like an option. A
word of two hyphens ends the options. No option can be given twice, and what is
not understood is refused: `Command.parse` gives no reason, since all refusals
end the same way.

## Main definitions

* `Argument`: The form of a word.
* `Arguments`: The words of a command, sorted by form.
* `Command`: What a command line asks for.
* `Command.parse`: Understanding a command line.
-/

namespace WordMachine

/-- The form of a word of the command line. -/
inductive Argument
  /-- A file name. -/
  | path (text : Text)
  /-- The word that ends the options. -/
  | separator
  /-- An option, with its value if the same word holds one. -/
  | option (name : Text) (value : Option Text)
  deriving DecidableEq, Repr

namespace Argument

/-- The name of an option that is written with one letter. Letters without a
    meaning give names that no command has. -/
def shortName (letter : Char) : Text :=
  if letter = 'o' then "output".toList else ['-', letter]

/-- The value that follows the letter of a short option in the same word. -/
def attached? : Text → Option Text
  | [] => none
  | '=' :: value => some value
  | value => some value

/-- The form of a word. -/
def ofText : Text → Argument
  | ['-', '-'] => .separator
  | '-' :: '-' :: body =>
    match body.dropWhile (· != '=') with
    | [] => .option body none
    | _ :: value => .option (body.takeWhile (· != '=')) (some value)
  | '-' :: letter :: rest => .option (shortName letter) (attached? rest)
  | text => .path text

end Argument

/-- The words of a command, sorted by form. -/
structure Arguments where
  paths : List Text := []
  flags : List Text := []
  values : List (Text × Text) := []
  deriving DecidableEq, Repr

namespace Arguments

/-- Sorts the words of a command. `flags` are the options without a value and
    `valued` those with one. -/
def sort (flags valued : List Text) : List Text → Option Arguments
  | [] => some {}
  | word :: rest =>
    match Argument.ofText word with
    | .separator => some { paths := rest }
    | .path path => (sort flags valued rest).map fun a => { a with paths := path :: a.paths }
    | .option name (some value) =>
      if name ∈ valued then
        (sort flags valued rest).map fun a => { a with values := (name, value) :: a.values }
      else none
    | .option name none =>
      if name ∈ flags then
        (sort flags valued rest).map fun a => { a with flags := name :: a.flags }
      else if name ∈ valued then
        match rest with
        | [] => none
        | next :: rest =>
          match Argument.ofText next with
          | .path value =>
            (sort flags valued rest).map fun a => { a with values := (name, value) :: a.values }
          | _ => none
      else none

/-- Sorts the words of a command that takes one file, each option once. Gives the
    file and the other words. -/
def parse (flags valued : List Text) (words : List Text) : Option (Text × Arguments) :=
  match sort flags valued words with
  | some arguments =>
    match arguments.paths with
    | [path] =>
      if path ≠ [] ∧ arguments.flags.Nodup ∧ (arguments.values.map Prod.fst).Nodup then
        some (path, arguments)
      else none
    | _ => none
  | none => none

/-- Whether a flag is given. -/
def has (a : Arguments) (flag : String) : Bool := a.flags.contains flag.toList

/-- The value of an option, if it is given. -/
def value? (a : Arguments) (option : String) : Option Text := a.values.lookup option.toList

end Arguments

/-- What a command line asks for. -/
inductive Command
  /-- Execute a program, for at most a number of steps if one is given. -/
  | run (program : Text) (maxSteps : Option Nat)
  /-- Assemble a source into a file, and show its symbols if asked to. -/
  | asm (source output : Text) (symbols : Bool)
  /-- Show a program as source text. -/
  | disasm (program : Text) (options : Listing.Options)
  deriving DecidableEq, Repr

namespace Command

/-- The largest number of steps that can be counted. It bounds a session that
    is given no other bound. -/
def maxCount : Nat := 18446744073709551615

/-- A number of steps. It can be written with a plus sign. -/
def parseCount (text : Text) : Option Nat :=
  let digits := match text with
    | '+' :: digits => digits
    | digits => digits
  if !digits.isEmpty && digits.all Char.isDigit && Decimal.value digits ≤ maxCount then
    some (Decimal.value digits)
  else none

/-- The command of the words after `run`. -/
def parseRun (words : List Text) : Option Command :=
  match Arguments.parse [] ["max-steps".toList] words with
  | some (program, arguments) =>
    match arguments.value? "max-steps" with
    | none => some (.run program none)
    | some text => (parseCount text).map fun count => .run program (some count)
  | none => none

/-- The command of the words after `asm`. -/
def parseAsm (words : List Text) : Option Command :=
  match Arguments.parse ["symbols".toList] ["output".toList] words with
  | some (source, arguments) =>
    let output := (arguments.value? "output").getD (Path.withExtension "bin".toList source)
    if output.isEmpty then none else some (.asm source output (arguments.has "symbols"))
  | none => none

/-- The flags of `disasm`. -/
def listingFlags : List Text :=
  ["fold-output".toList, "label-jumps".toList, "label-calls".toList, "label-memory".toList,
   "address-comments".toList, "all".toList]

/-- The command of the words after `disasm`. -/
def parseDisasm (words : List Text) : Option Command :=
  match Arguments.parse listingFlags [] words with
  | some (program, arguments) =>
    let asked (flag : String) : Bool := arguments.has "all" || arguments.has flag
    some (.disasm program {
      foldOutput := asked "fold-output"
      labelJumps := asked "label-jumps"
      labelCalls := asked "label-calls"
      labelMemory := asked "label-memory"
      addressComments := asked "address-comments" })
  | none => none

/-- What a command line asks for, if it is understood. -/
def parse : List Text → Option Command
  | [] => none
  | name :: words =>
    if name = "run".toList then parseRun words
    else if name = "asm".toList then parseAsm words
    else if name = "disasm".toList then parseDisasm words
    else none

end Command

end WordMachine
