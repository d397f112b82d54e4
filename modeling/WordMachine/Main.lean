import WordMachine.Command.Display
import WordMachine.Command.Perform
import WordMachine.Log.Setting

/-!
# The Command Line

The outermost layer: files, streams and the exit code.

What the commands do is decided elsewhere. Here the file that a command reads is
read, the file that it writes is written, and the report is shown. A program that is
run converses with the terminal, so that it can be talked to.

## Main definitions

* `CommandLine.terminal`: The terminal, as a console.
* `main`: The program.
-/

namespace WordMachine

namespace CommandLine

/-- The fault that an error of the operating system is. Its number comes negated
    from some calls. -/
def faultOf : IO.Error → FileFault
  | .noFileOrDirectory .. => .missing
  | e@(.inappropriateType _ code _) =>
    if code = 20 || 0 - code = 20 then .notDirectory
    else if code = 21 || 0 - code = 21 then .isDirectory
    else .other (toString e)
  | e@(.invalidArgument _ code _) =>
    if code = 36 || 0 - code = 36 then .nameTooLong else .other (toString e)
  | e@(.resourceExhausted _ code _) =>
    if code = 28 || 0 - code = 28 then .noSpace else .other (toString e)
  | e => .other (toString e)

/-- Runs an action on files and says what went wrong with it, if anything. -/
def attempt {α : Type} (act : IO α) : IO (Except FileFault α) :=
  try return .ok (← act) catch e => return .error (faultOf e)

/-- Shows a report and gives its exit code. -/
def showReport (r : Report) : IO UInt32 := do
  IO.print r.printed.str
  IO.eprint r.errorText
  return UInt32.ofNat r.exitCode

/-- The terminal. What was printed is on the screen before a byte is waited for. -/
def terminal : Console IO where
  tell records := records.forM fun r => IO.eprint r.line.str
  print char := IO.print (String.singleton char)
  read := do
    (← IO.getStdout).flush
    return (← (← IO.getStdin).read 1).toList.head?

/-- Runs a program at the terminal. -/
def runProgram (filter : Log.Filter) (path : Text) (maxSteps : Option Nat)
    (contents : Command.Contents) : IO UInt32 := do
  match Command.loadProgram path contents with
  | .error failure => showReport { failure := failure }
  | .ok m => showReport { failure := ← Command.runProgram terminal filter path maxSteps m }

/-- Does what a command asks for. -/
def perform (filter : Log.Filter) (command : Command) : IO UInt32 := do
  let bytes ← attempt (IO.FS.readBinFile command.inputFile.str)
  let contents : Command.Contents := bytes.map ByteArray.toList
  match command with
  | .run program maxSteps => runProgram filter program maxSteps contents
  | _ =>
    let written ← match command.product contents with
      | some (path, content) => attempt (IO.FS.writeBinFile path.str content.toByteArray)
      | none => pure (.ok ())
    showReport (command.report filter contents written [])

/-- What to say of a command line that is not understood. -/
def usage : String :=
  "usage: run PROGRAM [--max-steps N]\n"
    ++ "       asm SOURCE [-o FILE] [--symbols]\n"
    ++ "       disasm PROGRAM [--fold-output] [--label-jumps] [--label-calls]\n"
    ++ "              [--label-memory] [--address-comments] [--all]\n"

end CommandLine

end WordMachine

open WordMachine in
/-- Understands the command line and does what it asks for. -/
def main (args : List String) : IO UInt32 := do
  let setting := (← IO.getEnv "SYNVM_LOG").map String.toList
  let (filter, notices) := Log.Filter.ofSetting setting
  IO.eprint notices
  match Command.parse (args.map String.toList) with
  | some command => CommandLine.perform filter command
  | none =>
    IO.eprint CommandLine.usage
    return 2
