import WordMachine.Assembly.Program
import WordMachine.Listing.Basic
import WordMachine.Machine.Step

/-!
# The Embedded Machine

The machine as seen by a host that knows only numbers and texts.

Such a host has no operands, interrupts or faults of its own: a step is reported
as a kind with one number, operands are exchanged as the words that encode them,
and whatever goes wrong is a text. Each operation is the machine's own, with its
arguments decoded and its result encoded, so a host loses nothing but the types.

## Main definitions

* `Host.StepReport`: The report of a step.
* `Host.Reply`: A result or a text, with the machine afterwards.
* `Host.step`, `Host.resolve`: The operations whose arguments or results change
  form.
* `Host.AssemblyReport`: The report of an assembly.
-/

namespace WordMachine

namespace Host

/-- The kinds of step reports. -/
inductive StepKind
  | none | halt | output | input
  deriving DecidableEq, Repr

/-- The number of a kind. -/
def StepKind.code : StepKind → Nat
  | .none => 0
  | .halt => 1
  | .output => 2
  | .input => 3

/-- The report of a step: the character code of output, the encoded destination of
    input, and zero otherwise. -/
structure StepReport where
  kind : StepKind
  value : Word
  deriving DecidableEq, Repr

/-- An interrupt as a report. -/
def StepReport.ofInterrupt : Interrupt → StepReport
  | .none => ⟨.none, 0⟩
  | .halt => ⟨.halt, 0⟩
  | .output code => ⟨.output, code⟩
  | .input destination => ⟨.input, destination.toWord⟩

/-- A result or the text of what went wrong, with the machine afterwards. -/
structure Reply (α : Type) where
  result : Except String α
  machine : Machine

/-- An outcome as a reply. -/
def Reply.ofOutcome {α β : Type} (encode : α → β) (outcome : Outcome α) : Reply β :=
  ⟨(outcome.result.map encode).mapError Fault.message, outcome.machine⟩

/-- A machine with a binary program loaded. -/
def create (bytes : List UInt8) : Except String Machine :=
  (Machine.ofBytes bytes).mapError Fault.message

/-- Executes one instruction. -/
def step (m : Machine) : Reply StepReport := .ofOutcome StepReport.ofInterrupt m.step

/-- The wording for a word that encodes no operand. -/
def notAnOperand (word : Word) : String := s!"{word} is not a valid operand"

/-- Supplies an awaited value. The destination is given by the word that encodes
    it. -/
def resolve (m : Machine) (destination value : Word) : Reply Unit :=
  match Operand.ofWord? destination with
  | some operand => .ofOutcome id (m.resolve operand value)
  | none => ⟨.error (notAnOperand destination), m⟩

/-- Overwrites a register. -/
def setRegister (m : Machine) (index : Nat) (value : Word) : Reply Unit :=
  .ofOutcome id (m.setRegister index value)

/-- Moves the instruction pointer. -/
def setIp (m : Machine) (address : Nat) : Reply Unit := .ofOutcome id (m.setIp address)

/-- Overwrites a memory cell. -/
def setCell (m : Machine) (address : Nat) (word : Word) : Reply Unit :=
  .ofOutcome id (m.setCell address word)

/-- Overwrites a stack entry. -/
def setStack (m : Machine) (index : Nat) (value : Word) : Reply Unit :=
  .ofOutcome id (m.setStack index value)

/-- The report of an assembly: the binary program, or the errors with their
    places. -/
structure AssemblyReport where
  success : Bool
  bytes : List UInt8
  errors : List String
  deriving DecidableEq, Repr

/-- Assembles a source. -/
def assemble (source : Text) : AssemblyReport :=
  match WordMachine.assemble source with
  | .ok program => ⟨true, program.bytes, []⟩
  | .error errors => ⟨false, [], errors.map AssemblyError.display⟩

end Host

end WordMachine
