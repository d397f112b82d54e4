import WordMachine.Command.Report
import WordMachine.Text.Terminal

/-!
# Display

How a report is shown.

The characters that a command prints go to one stream. The other one gets a line for
each log record, and then the failure, if there is one. A message can quote source
text, so the line of a record is shown without terminal control.

## Main definitions

* `Log.Record.line`: The line of a record.
* `Failure.text`: A failure as shown at the end of a command.
* `Report.errorText`: What is shown besides the characters printed.
-/

namespace WordMachine

/-- The line of a record. A timed record is shown without the time, which is never the
    same twice. -/
def Log.Record.line (r : Log.Record) : Text :=
  Terminal.plain s!"{r.level.name} {r.source.target}: {r.message}\n".toList

/-- A failure as shown at the end of a command. -/
def Failure.text (f : Failure) : String :=
  match f.cause with
  | none => s!"Error: {f.message}\n"
  | some cause => s!"Error: {f.message}\n\nCaused by:\n    {cause}\n"

/-- What is shown besides the characters printed: the log records and then the
    failure. -/
def Report.errorText (r : Report) : String :=
  Text.str (r.records.flatMap Log.Record.line)
    ++ match r.failure with
      | some failure => failure.text
      | none => ""

end WordMachine
