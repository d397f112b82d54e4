import WordMachine.Command.Path
import WordMachine.Log.Basic

/-!
# Reports

What a command leaves behind.

A command prints characters, emits log records and either succeeds or fails with
a reason, which decides the exit code. A failure to read or write a file is told in
the words of the operating system.

## Main definitions

* `FileFault`: Why a file cannot be read or written.
* `Failure`: Why a command failed.
* `Report`: What a command did.
* `Report.exitCode`: The exit code of a command.
-/

namespace WordMachine

/-- Why a file cannot be read or written. -/
inductive FileFault
  | missing
  | notDirectory
  | isDirectory
  | nameTooLong
  | noSpace
  /-- The file is no text. -/
  | notText
  /-- Something else, in the words of the operating system. -/
  | other (text : String)
  deriving DecidableEq, Repr

/-- The wording of a fault. -/
def FileFault.message : FileFault → String
  | .missing => "No such file or directory (os error 2)"
  | .notDirectory => "Not a directory (os error 20)"
  | .isDirectory => "Is a directory (os error 21)"
  | .noSpace => "No space left on device (os error 28)"
  | .nameTooLong => "File name too long (os error 36)"
  | .notText => "stream did not contain valid UTF-8"
  | .other text => text

/-- Why a command failed. -/
structure Failure where
  message : String
  /-- What went wrong below, if the message is only about the attempt. -/
  cause : Option String := none
  deriving DecidableEq, Repr

namespace Failure

/-- A failure to do something with a file. -/
def onFile (action : String) (path : Text) (cause : String) : Failure :=
  ⟨s!"failed to {action} {Path.quoted path}", some cause⟩

/-- A failure to read a file. -/
def onRead (path : Text) (fault : FileFault) : Failure := onFile "read" path fault.message

/-- A failure to write a file. -/
def onWrite (path : Text) (fault : FileFault) : Failure := onFile "write" path fault.message

end Failure

/-- What a command did. -/
structure Report where
  /-- The characters printed. -/
  printed : Text := []
  records : List Log.Record := []
  failure : Option Failure := none
  deriving DecidableEq, Repr

/-- The exit code: zero for success and one for failure. -/
def Report.exitCode (r : Report) : Nat := if r.failure.isSome then 1 else 0

end WordMachine
