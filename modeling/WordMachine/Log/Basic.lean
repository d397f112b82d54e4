/-!
# Log Records

What the parts of the program tell about their work.

A record is a value: each operation has a companion function that lists the
records it emits, in order, and the outer layer decides which of them to show.
Keeping the records beside the operations rather than inside them leaves the
operations pure and their results free of bookkeeping.

Which records are shown is for a `Filter` to say, and nothing else is known of it
here. A filter also tells which levels it reaches at all, so that records that are
never shown need not be made.

## Main definitions

* `Log.Level`: How much a record matters.
* `Log.Source`: The part of the program that emits a record.
* `Log.Record`: A record.
* `Log.error`, `Log.warn`, `Log.info`, `Log.debug`, `Log.trace`: The records of each level.
* `Log.Filter`: Which records are shown.

## Theorems

* `Log.Filter.select_eq_nil`: A filter that does not reach a level shows nothing that
  detailed.
-/

namespace WordMachine

namespace Log

/-- How much a record matters. -/
inductive Level
  | error | warn | info | debug | trace
  deriving DecidableEq, Repr

namespace Level

/-- The position of a level: the larger, the more detailed. -/
def detail : Level → Nat
  | .error => 1
  | .warn => 2
  | .info => 3
  | .debug => 4
  | .trace => 5

/-- The name of a level. -/
def name : Level → String
  | .error => "ERROR"
  | .warn => "WARN"
  | .info => "INFO"
  | .debug => "DEBUG"
  | .trace => "TRACE"

end Level

/-- The part of the program that emits a record. -/
inductive Source
  | tool | processor | device | assembler | lister
  deriving DecidableEq, Repr

/-- The name under which a part of the program appears in the log. -/
def Source.target : Source → String
  | .tool => "synvm"
  | .processor => "synvm::cpu"
  | .device => "synvm::instructions::io"
  | .assembler => "synvm::assembler"
  | .lister => "synvm::disassembler"

/-- One thing told about the work. -/
structure Record where
  level : Level
  source : Source
  message : String
  /-- Whether the message goes on with the time that the work took. -/
  timed : Bool := false
  deriving DecidableEq, Repr

/-- A record of a failure. -/
def error (source : Source) (message : String) : Record := { level := .error, source, message }

/-- A record of something doubtful. -/
def warn (source : Source) (message : String) : Record := { level := .warn, source, message }

/-- A record of what was done. -/
def info (source : Source) (message : String) : Record := { level := .info, source, message }

/-- A record of how it was done. -/
def debug (source : Source) (message : String) : Record := { level := .debug, source, message }

/-- A record of a single step. -/
def trace (source : Source) (message : String) : Record := { level := .trace, source, message }

/-- Which records are shown. -/
structure Filter where
  /-- Whether a record is shown. -/
  admits : Record → Bool
  /-- Whether a record of a level, or a more detailed one, might be shown. -/
  reaches : Level → Bool
  reaches_of_admits : ∀ {r : Record} {level : Level}, admits r = true →
    level.detail ≤ r.level.detail → reaches level = true

namespace Filter

/-- The records that are shown. -/
def select (f : Filter) (records : List Record) : List Record := records.filter f.admits

/-- A filter that does not reach a level shows nothing that detailed. -/
theorem select_eq_nil {f : Filter} {level : Level} {records : List Record}
    (hf : f.reaches level = false)
    (hrecords : ∀ r ∈ records, level.detail ≤ r.level.detail) : f.select records = [] := by
  rw [select, List.filter_eq_nil_iff]
  intro r hr hadmits
  rw [f.reaches_of_admits hadmits (hrecords r hr)] at hf
  cases hf

end Filter

end Log

end WordMachine
