import WordMachine.Command.Report
import WordMachine.Machine.Step

/-!
# Sessions

A program run from the command line.

A session takes its machine one turn at a time. A turn executes one instruction
and says what the person at the terminal has to do with it: nothing, show a
character, or give a byte, which becomes the value the instruction waits for.

Where characters go and bytes come from is the business of a `Console`, and
`Session.converse` is the loop for any of them. The program converses with a
terminal. A `Tape` holds the whole input and keeps all output, and `Session.play` is
the same conversation with a tape.

## Main definitions

* `Ending`: How a session ends.
* `Session`: A machine and the number of steps it has taken.
* `Session.turn`: Executing one instruction.
* `Session.answer`: Giving a byte.
* `Console`: Where a session is shown and answered.
* `Session.converse`: A session at a console.
* `Tape`, `Session.play`: A session against a given input.

## Theorems

* `Session.turnRecords_eq`, `Session.answerRecords_eq`: The records shown are the selected
  ones.
-/

namespace WordMachine

/-- How a session ends. -/
inductive Ending
  /-- The machine halted. -/
  | halted (steps : Nat)
  /-- The largest number of steps was taken. -/
  | limited (steps : Nat)
  /-- A step failed. -/
  | faulted (steps : Nat) (fault : Fault)
  /-- The input ended while a byte was awaited. -/
  | inputClosed
  /-- The machine refused the byte it was given. -/
  | refused (fault : Fault)
  deriving DecidableEq, Repr

namespace Ending

/-- The record of an ending. Only a session that ran to its end is timed. -/
def records : Ending → List Log.Record
  | .halted steps => [{ Log.info .tool s!"halted after {steps} steps" with timed := true }]
  | .limited steps => [Log.info .tool s!"stopped after {steps} steps"]
  | _ => []

/-- The failure that an ending is, if it is one. -/
def failure? : Ending → Option Failure
  | .halted _ | .limited _ => none
  | .faulted steps fault => some ⟨s!"execution failed at step {steps}", some fault.message⟩
  | .inputClosed => some ⟨"input closed while the program was waiting for IN", none⟩
  | .refused fault => some ⟨fault.message, none⟩

end Ending

/-- A machine and the number of steps it has taken. -/
structure Session where
  machine : Machine
  steps : Nat := 0

/-- What a turn comes to. -/
inductive Turn
  /-- Nothing to do. -/
  | quiet (next : Session)
  /-- A character to show. -/
  | prints (char : Char) (next : Session)
  /-- A byte to give. -/
  | asks (destination : Operand) (next : Session)
  /-- The session is over. -/
  | ends (ending : Ending)

namespace Session

/-- The character with a given code. Codes that are no characters show as the
    replacement character. -/
def charOf (code : Word) : Char :=
  if code.toNat.isValidChar then Char.ofNat code.toNat else Char.ofNat 0xFFFD

/-- Executes one instruction. -/
def turn (s : Session) : Turn :=
  match s.machine.step with
  | ⟨.ok .none, machine⟩ => .quiet ⟨machine, s.steps + 1⟩
  | ⟨.ok .halt, _⟩ => .ends (.halted (s.steps + 1))
  | ⟨.ok (.output code), machine⟩ => .prints (charOf code) ⟨machine, s.steps + 1⟩
  | ⟨.ok (.input destination), machine⟩ => .asks destination ⟨machine, s.steps + 1⟩
  | ⟨.error fault, _⟩ => .ends (.faulted (s.steps + 1) fault)

/-- Gives a byte for a destination. -/
def answer (s : Session) (destination : Operand) (byte : UInt8) : Except Ending Session :=
  match s.machine.resolve destination byte.toUInt16 with
  | ⟨.ok (), machine⟩ => .ok { s with machine := machine }
  | ⟨.error fault, _⟩ => .error (.refused fault)

/-- The records of a turn that are shown. -/
def turnRecords (filter : Log.Filter) (s : Session) : List Log.Record :=
  if filter.reaches .debug then filter.select s.machine.stepRecords else []

/-- The records of an answer that are shown. -/
def answerRecords (filter : Log.Filter) (s : Session) (destination : Operand)
    (byte : UInt8) : List Log.Record :=
  if filter.reaches .debug then
    filter.select (s.machine.resolveRecords destination byte.toUInt16)
  else []

/-- The guard of `turnRecords` only saves work. -/
theorem turnRecords_eq (filter : Log.Filter) (s : Session) :
    s.turnRecords filter = filter.select s.machine.stepRecords := by
  unfold turnRecords
  split
  · rfl
  · rename_i hreaches
    exact (Log.Filter.select_eq_nil (by simpa using hreaches)
      fun _ hr => Machine.debug_le_of_mem_stepRecords hr).symm

/-- The guard of `answerRecords` only saves work. -/
theorem answerRecords_eq (filter : Log.Filter) (s : Session) (destination : Operand)
    (byte : UInt8) :
    s.answerRecords filter destination byte
      = filter.select (s.machine.resolveRecords destination byte.toUInt16) := by
  unfold answerRecords
  split
  · rfl
  · rename_i hreaches
    exact (Log.Filter.select_eq_nil (by simpa using hreaches)
      fun _ hr => Machine.debug_le_of_mem_resolveRecords hr).symm

end Session

/-- Where a session is shown and answered. -/
structure Console (μ : Type → Type) where
  /-- Shows log records. -/
  tell : List Log.Record → μ Unit
  /-- Shows a character. -/
  print : Char → μ Unit
  /-- Waits for a byte, unless there are no more. -/
  read : μ (Option UInt8)

namespace Session

/-- A session at a console, for at most the given number of turns. -/
@[specialize]
def converse {μ : Type → Type} [Monad μ] (console : Console μ) (filter : Log.Filter) :
    Nat → Session → μ Ending
  | 0, s => return .limited s.steps
  | turns + 1, s => do
    console.tell (s.turnRecords filter)
    match s.turn with
    | .quiet next => converse console filter turns next
    | .prints char next =>
      console.print char
      converse console filter turns next
    | .ends ending => return ending
    | .asks destination next =>
      match ← console.read with
      | none => return .inputClosed
      | some byte =>
        console.tell (next.answerRecords filter destination byte)
        match next.answer destination byte with
        | .ok resumed => converse console filter turns resumed
        | .error ending => return ending

end Session

/-- The input of a session, and what it has printed and recorded. -/
structure Tape where
  printed : Array Char := #[]
  records : Array Log.Record := #[]
  /-- The bytes that were not asked for. -/
  unread : List UInt8

namespace Tape

/-- Takes a byte from the input. -/
def take (t : Tape) : Option UInt8 × Tape :=
  match t.unread with
  | [] => (none, t)
  | byte :: rest => (some byte, { t with unread := rest })

/-- A tape as a console. -/
def console : Console (StateM Tape) where
  tell records := modify fun t => { t with records := t.records ++ records }
  print char := modify fun t => { t with printed := t.printed.push char }
  read := modifyGet take

end Tape

/-- A session that is over. -/
structure Transcript where
  printed : Array Char
  records : Array Log.Record
  ending : Ending
  /-- The bytes that were not asked for. -/
  unread : List UInt8

namespace Session

/-- Plays a session for at most the given number of turns, against the bytes of
    `input`, adding to what was printed and recorded so far. -/
def playFrom (filter : Log.Filter) (printed : Array Char) (records : Array Log.Record)
    (turns : Nat) (s : Session) (input : List UInt8) : Transcript :=
  let (ending, tape) := (converse Tape.console filter turns s).run ⟨printed, records, input⟩
  ⟨tape.printed, tape.records, ending, tape.unread⟩

/-- Plays a session from its start. -/
def play (filter : Log.Filter) (turns : Nat) (m : Machine) (input : List UInt8) :
    Transcript :=
  playFrom filter #[] #[] turns { machine := m } input

end Session

end WordMachine
