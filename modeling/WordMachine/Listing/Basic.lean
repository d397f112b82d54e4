import WordMachine.Assembly.Shorthand
import WordMachine.Listing.Target

/-!
# Listings

A loaded program as source text.

A listing is emitted in one pass over the boundaries of the program: the labels of an
address, the address itself if it is to be shown, and the instruction. If output is
to be folded, an output instruction of a printable character is held back instead,
and the run of such characters is listed as a print shorthand once it ends: after a
line break, before a label, before anything that is not output of a printable
character, and at the end of the program.

Listing never fails. A word that is no instruction is listed as a raw word, and an
operand word that names nothing is listed as a number.

## Main definitions

* `Listing.foldable?`: The character that an output instruction adds to a run.
* `Listing.OutputRun`: A run of output that is not listed yet.
* `Listing.Emission`: How far a listing has come.
* `Listing.Emission.visit`: Listing what is at an address.
* `disassemble`: The listing of a loaded program.
* `disassemblyRecords`: The records of a listing.
-/

namespace WordMachine

namespace Listing

/-- Whether a word is the code of a character that print shorthands can hold: a
    line break, or a printable ASCII character other than the quote. -/
def isFoldable (code : Word) : Bool :=
  code == 10 || (32 ≤ code && code ≤ 126 && code.toNat != Shorthand.quote.toNat)

/-- The character that an output instruction adds to a run. -/
def foldable? (i : Instruction) : Option Char :=
  match i.opcode, i.operands with
  | some .out, [code] => if isFoldable code then some (Char.ofNat code.toNat) else none
  | _, _ => none

/-- The print shorthand of a run. -/
def printText (text : Text) (newline : Bool) : Text :=
  (if newline then Shorthand.printlnName else Shorthand.printName)
    ++ [' ', Shorthand.quote] ++ text ++ [Shorthand.quote]

/-- The comment that gives an address. -/
def addressComment (address : Nat) : Text := '#' :: ' ' :: Decimal.write address

/-- The comment that reports an unaligned target. -/
def unalignedComment (t : Target) : Text := "# Unaligned ".toList ++ t.label

/-- A run of output that is not listed yet. -/
structure OutputRun where
  start : Nat
  text : Array Char

/-- How far a listing has come. -/
structure Emission where
  /-- The targets that are still to be labelled. -/
  pending : Survey
  lines : Array Text
  run : Option OutputRun

namespace Emission

/-- Lists a text, after its address if that is shown. -/
def list (options : Options) (address : Nat) (text : Text) (e : Emission) : Emission :=
  let lines :=
    if options.addressComments then e.lines.push (addressComment address) else e.lines
  { e with lines := lines.push text }

/-- Lists the run of output, if there is one. -/
def flush (options : Options) (e : Emission) : Emission :=
  match e.run with
  | none => e
  | some run => { e with run := none }.list options run.start (printText run.text.toList false)

/-- Lists the labels of an address. A run of output ends before a label. -/
def label (options : Options) (address : Nat) (e : Emission) : Emission :=
  let labels := e.pending.labelsAt address
  let e := if labels.isEmpty then e else e.flush options
  { e with
    pending := e.pending.without address
    lines := e.lines ++ labels.map Target.label }

/-- Adds a character to the run of output, which a line break ends. -/
def collect (options : Options) (address : Nat) (c : Char) (e : Emission) : Emission :=
  let run := e.run.getD ⟨address, #[]⟩
  if c = '\n' then
    { e with run := none }.list options run.start (printText run.text.toList true)
  else { e with run := some { run with text := run.text.push c } }

/-- Lists an instruction, or collects the character that it prints. -/
def instruction (s : Survey) (options : Options) (address : Nat) (i : Instruction)
    (e : Emission) : Emission :=
  let text := i.textWith (s.operandText options)
  if options.foldOutput then
    match foldable? i with
    | some c => e.collect options address c
    | none => (e.flush options).list options address text
  else e.list options address text

/-- Lists what is at an address. -/
def visit (m : Machine) (s : Survey) (options : Options) (e : Emission) (address : Nat) :
    Emission :=
  (e.label options address).instruction s options address (m.decode (UInt16.ofNat address))

end Emission

end Listing

/-- A loaded program as source text: the unaligned targets, then what is at the
    boundaries. -/
def disassemble (m : Machine) (options : Listing.Options) : List Text :=
  let s := Survey.ofMachine m options
  let reports := (s.unaligned.map Listing.unalignedComment).toArray
  let e := m.boundaries.foldl (Listing.Emission.visit m s options) ⟨s, reports, none⟩
  (e.flush options).lines.toList

/-- The records of a listing that has these lines. -/
def disassemblyRecords (m : Machine) (options : Listing.Options) (lines : List Text) :
    List Log.Record :=
  (Survey.ofMachine m options).unaligned.map (fun target =>
    Log.warn .lister s!"{target.label.str} is not on an instruction boundary")
  ++ [Log.debug .lister s!"disassembled {m.wordCount} words into {lines.length} lines"]

end WordMachine
