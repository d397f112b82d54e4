import WordMachine.Opcode

/-!
# Faults

Why the machine refuses to do what it is asked.

A fault says what went wrong in terms of the machine: an address, the word found
there, the instruction that could not go on. The wording is one function, so
that what can go wrong and how it is told are separate questions.

## Main definitions

* `Quantity`: The things a host can name out of range.
* `Fault`: The ways an operation can fail.
* `Fault.message`: The wording.
-/

namespace WordMachine

/-- The numbers that a host hands to the machine and that are checked. -/
inductive Quantity
  | inputValue
  | register
  | registerValue
  | address
  | stackIndex
  | stackValue
  deriving DecidableEq, Repr

/-- The name of a quantity in messages. -/
def Quantity.name : Quantity → String
  | .inputValue => "input value"
  | .register => "register"
  | .registerValue => "register value"
  | .address => "address"
  | .stackIndex => "stack index"
  | .stackValue => "stack value"

/-- Why an operation on the machine failed. -/
inductive Fault
  /-- The word to execute is no opcode. -/
  | illegalOpcode (address word : Word)
  /-- An operand word names neither a literal nor a register. -/
  | invalidOperand (address word : Word)
  /-- The instruction takes a stack entry and there is none. -/
  | stackUnderflow (address : Word) (opcode : Opcode)
  /-- The instruction divides by zero. -/
  | divisionByZero (address : Word)
  /-- A program has more words than there are cells. -/
  | outOfMemory (words : Nat)
  /-- The host named something that is not there. -/
  | outOfRange (quantity : Quantity) (index limit : Nat)
  /-- The machine has halted and executes nothing more. -/
  | machineHalted
  /-- A value was supplied that no instruction waits for. -/
  | inputNotPending
  deriving DecidableEq, Repr

/-- The wording of a fault. -/
def Fault.message : Fault → String
  | .illegalOpcode address word =>
    s!"word {word} at address {address} is not a valid opcode"
  | .invalidOperand address word =>
    s!"operand word {word} at address {address} is neither a literal nor a register"
  | .stackUnderflow address opcode =>
    s!"{opcode.mnemonic} at address {address} on an empty stack"
  | .divisionByZero address => s!"MOD at address {address} divides by zero"
  | .outOfMemory words =>
    s!"program of {words} words exceeds memory of {memorySize} words"
  | .outOfRange quantity index limit =>
    s!"{quantity.name} {index} is out of range (limit {limit})"
  | .machineHalted => "machine has halted"
  | .inputNotPending => "no input is pending"

end WordMachine
