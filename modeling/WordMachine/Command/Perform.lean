import WordMachine.Assembly.Program
import WordMachine.Command.Arguments
import WordMachine.Command.Session
import WordMachine.Listing.Basic

/-!
# Commands

What each command does.

A command reads one file, and `asm` writes one. The outer layer does the reading
and writing: it reads the file that `Command.inputFile` names, writes the one that
`Command.product` gives, and hands the results, which are either what was read or
why it could not be, to `Command.report`. Everything else about a command is
decided here.

## Main definitions

* `Command.inputFile`: The file that a command reads.
* `Command.product`: The file that a command writes.
* `Command.runProgram`: A program at a console.
* `Command.report`: What a command prints and records, and whether it succeeds.
-/

namespace WordMachine

namespace Command

/-- What came of reading a file: its bytes, or why they could not be read. -/
abbrev Contents := Except FileFault (List UInt8)

/-- The file that a command reads. -/
def inputFile : Command → Text
  | .run program _ => program
  | .asm source _ _ => source
  | .disasm program _ => program

/-- The characters of a source file. -/
def sourceText (contents : Contents) : Except FileFault Text := do
  match String.fromUTF8? (← contents).toByteArray with
  | some text => return text.toList
  | none => .error .notText

/-- The file that a command writes, with its content. -/
def product (command : Command) (contents : Contents) : Option (Text × List UInt8) :=
  match command with
  | .asm _ output _ =>
    match sourceText contents with
    | .ok text =>
      match assemble text with
      | .ok program => some (output, program.bytes)
      | .error _ => none
    | .error _ => none
  | _ => none

/-- A machine with the program of a file, or why there is none. -/
def loadProgram (path : Text) (contents : Contents) : Except Failure Machine := do
  let bytes ← contents.mapError (Failure.onRead path)
  (Machine.ofBytes bytes).mapError fun fault => Failure.onFile "load" path fault.message

/-- The records of loading the program of a file. -/
def loadRecords (path : Text) (m : Machine) : List Log.Record :=
  [Machine.loadRecord m.wordCount,
   Log.info .tool s!"loaded {m.wordCount} words from {Path.quoted path}"]

/-- Runs a loaded program at a console. Gives the failure that the run ends with, if it
    does. -/
def runProgram {μ : Type → Type} [Monad μ] (console : Console μ) (filter : Log.Filter)
    (path : Text) (maxSteps : Option Nat) (m : Machine) : μ (Option Failure) := do
  console.tell (filter.select (loadRecords path m))
  let ending ← Session.converse console filter (maxSteps.getD maxCount) { machine := m }
  console.tell (filter.select ending.records)
  return ending.failure?

/-- The report of a run against a given input. -/
def reportRun (filter : Log.Filter) (path : Text) (maxSteps : Option Nat)
    (contents : Contents) (input : List UInt8) : Report :=
  match loadProgram path contents with
  | .error failure => { failure := failure }
  | .ok m =>
    let (failure, tape) := (runProgram Tape.console filter path maxSteps m).run { unread := input }
    { printed := tape.printed.toList
      records := tape.records.toList
      failure := failure }

/-- A symbol as a line of a table. -/
def symbolLine (s : Symbol) : Text :=
  let address := List.leftpad 5 ' ' (Decimal.writeWord s.address)
  match s.kind with
  | .label => address ++ " :".toList ++ s.name ++ ['\n']
  | .data value count =>
    address ++ " .".toList ++ s.name ++ [' '] ++ Decimal.writeWord value ++ " x".toList
      ++ Decimal.writeWord count ++ ['\n']

/-- The record of writing an assembled program. -/
def writeRecord (output : Text) (p : Program) : Log.Record :=
  Log.info .tool
    s!"wrote {p.words.length} words ({p.codeSize} code, {p.dataSize} data) to {Path.quoted output}"

/-- The report of an assembly. `written` is what came of writing the product. -/
def reportAsm (filter : Log.Filter) (source output : Text) (symbols : Bool)
    (contents : Contents) (written : Except FileFault Unit) : Report :=
  match sourceText contents with
  | .error fault => { failure := Failure.onRead source fault }
  | .ok text =>
    match assemble text with
    | .error errors =>
      { records := filter.select (errors.map fun e => Log.error .tool e.display)
        failure := some
          ⟨s!"assembly of {Path.quoted source} failed with {errors.length} error(s)", none⟩ }
    | .ok program =>
      match written with
      | .error fault =>
        { records := filter.select program.records
          failure := Failure.onWrite output fault }
      | .ok () =>
        { printed := if symbols then program.symbols.flatMap symbolLine else []
          records := filter.select (program.records ++ [writeRecord output program]) }

/-- The report of a listing. -/
def reportDisasm (filter : Log.Filter) (path : Text) (options : Listing.Options)
    (contents : Contents) : Report :=
  match loadProgram path contents with
  | .error failure => { failure := failure }
  | .ok m =>
    let lines := disassemble m options
    { printed := lines.flatMap (· ++ ['\n'])
      records := filter.select (loadRecords path m ++ disassemblyRecords m options lines) }

/-- What a command prints and records, and whether it succeeds. -/
def report (command : Command) (filter : Log.Filter) (contents : Contents)
    (written : Except FileFault Unit) (input : List UInt8) : Report :=
  match command with
  | .run program maxSteps => reportRun filter program maxSteps contents input
  | .asm source output symbols => reportAsm filter source output symbols contents written
  | .disasm program options => reportDisasm filter program options contents

end Command

end WordMachine
