import WordMachine.Instruction
import WordMachine.Log.Basic

/-!
# The Machine

The state of a machine, how a host reads it, and how a host edits it.

A machine exclusively holds its state: an instruction pointer, eight registers,
the memory, an unbounded stack, the length of the loaded program, whether it has
halted, and the progress of an input instruction.

Operations work on the machine in place, one change after another. An operation
that fails halfway keeps the changes it has made so far: nothing takes them back.
So every operation gives back both its result and the machine the host holds
afterwards, and "a failed operation changes nothing" is a statement about the order
in which the operations check, read and write. It is not true of an `Action` as such.

Input spans several steps, so part of the state is a suspended input
instruction. It remembers the address it was suspended at: once the instruction
pointer is elsewhere the suspension is stale and reads as idle, although it is
still held.

## Main definitions

* `Input`: The progress of an input instruction.
* `Machine`: The state.
* `Outcome`: The result of an operation together with the machine after it.
* `Action`, `Action.outcome`: An operation in place, and what comes of it.
* `Machine.load`: Installing a program.
* `Machine.resolve`: Supplying the value that an input instruction waits for.
* `Machine.setRegister`, `Machine.setIp`, `Machine.setCell`, `Machine.setStack`:
  Edits by the host.
-/

namespace WordMachine

/-- The progress of the input instruction at an address. -/
inductive Input
  /-- No input instruction is under way. -/
  | idle
  /-- The instruction at `address` waits for a value for `destination`. -/
  | pending (address : Word) (destination : Operand)
  /-- The instruction at `address` has its value and completes when executed. -/
  | supplied (address : Word)
  deriving DecidableEq, Repr

/-- The state of a machine. -/
structure Machine where
  /-- The address of the next instruction. -/
  ip : Word
  registers : Vector Word registerCount
  memory : Memory
  /-- The stack, its top first. -/
  stack : List Word
  /-- The number of words of the loaded program. -/
  wordCount : Nat
  halted : Bool
  input : Input
  deriving DecidableEq

/-- The result of an operation and the machine after it. -/
structure Outcome (α : Type) where
  result : Except Fault α
  machine : Machine

/-- An operation on a machine in place. What was changed before a failure stays
    changed. -/
abbrev Action := EStateM Fault Machine

/-- What comes of an action. -/
def Action.outcome {α : Type} (action : Action α) (m : Machine) : Outcome α :=
  match action.run m with
  | .ok a next => ⟨.ok a, next⟩
  | .error fault next => ⟨.error fault, next⟩

namespace Machine

/-- A machine with nothing loaded. -/
def empty : Machine where
  ip := 0
  registers := Vector.replicate registerCount 0
  memory := Memory.empty
  stack := []
  wordCount := 0
  halted := false
  input := .idle

/-! ### Reading -/

/-- The content of a register. -/
def register (m : Machine) (index : Nat) : Word := m.registers[index]?.getD 0

/-- What an operand stands for when it is read as a value. -/
def valueOf (m : Machine) : Operand → Word
  | .literal value => value
  | .register index => m.register index

/-- The progress of the input instruction at the instruction pointer. -/
def inputHere (m : Machine) : Input :=
  match m.input with
  | .idle => .idle
  | .pending address destination =>
    if address = m.ip then .pending address destination else .idle
  | .supplied address => if address = m.ip then .supplied address else .idle

/-- The destination that an input instruction waits to fill, if one does. -/
def pendingInput (m : Machine) : Option Operand :=
  match m.inputHere with
  | .pending _ destination => some destination
  | _ => none

/-- The instruction at an address. -/
def decode (m : Machine) (address : Word) : Instruction :=
  Instruction.decode m.memory address

/-- The number of words of the instruction at an address. -/
def sizeAt (m : Machine) (address : Word) : Nat := Instruction.sizeAt m.memory address

/-- The instruction at an address as source text. -/
def textAt (m : Machine) (address : Word) : Text := (m.decode address).text

/-! ### Actions -/

/-- The machine with `value` in a destination: a register, or the cell a literal
    names. -/
def store (m : Machine) (destination : Operand) (value : Word) : Machine :=
  match destination with
  | .register index => { m with registers := m.registers.setIfInBounds index value }
  | .literal address => { m with memory := m.memory.write address value }

/-- Refuses a number the host gave if it reaches the limit. -/
def check (quantity : Quantity) (index limit : Nat) : Except Fault Unit :=
  if index < limit then .ok () else .error (.outOfRange quantity index limit)

end Machine

namespace Action

/-- Goes on with what is read off the machine, or fails as the reading does. -/
def read {α : Type} (f : Machine → Except Fault α) : Action α := do
  match f (← get) with
  | .ok a => return a
  | .error fault => throw fault

/-- Fails if a number the host gave reaches the limit. -/
def check (quantity : Quantity) (index limit : Nat) : Action Unit :=
  read fun _ => Machine.check quantity index limit

/-- Writes a value to a destination. -/
def write (destination : Operand) (value : Word) : Action Unit :=
  modify (·.store destination value)

/-- Fills the memory with zeros and copies a program to address zero. A program that
    does not fit is refused first. -/
def fillMemory (words : List Word) : Action Unit := do
  if memorySize < words.length then
    throw (.outOfMemory words.length)
  modify fun m => { m with memory := m.memory.cleared }
  modify fun m => { m with memory := m.memory.copied words }

/-- Installs a program at address zero and resets everything else. -/
def load (words : List Word) : Action Unit := do
  fillMemory words
  modify fun m => { m with ip := 0 }
  modify fun m => { m with registers := Vector.replicate registerCount 0 }
  modify fun m => { m with stack := [] }
  modify fun m => { m with wordCount := words.length }
  modify fun m => { m with halted := false }
  modify fun m => { m with input := .idle }

/-- Supplies the value for the input instruction that waits at the instruction
    pointer. -/
def resolve (destination : Operand) (value : Word) : Action Unit := do
  match (← get).inputHere with
  | .pending address _ =>
    check .inputValue value.toNat memorySize
    write destination value
    modify fun m => { m with input := .supplied address }
  | _ => throw .inputNotPending

/-- Overwrites a register with a value. -/
def setRegister (index : Nat) (value : Word) : Action Unit := do
  check .register index registerCount
  check .registerValue value.toNat memorySize
  modify fun m => { m with registers := m.registers.setIfInBounds index value }

/-- Moves the instruction pointer and abandons an input instruction under way. -/
def setIp (address : Nat) : Action Unit := do
  check .address address memorySize
  modify fun m => { m with ip := UInt16.ofNat address }
  modify fun m => { m with input := .idle }

/-- Overwrites a memory cell with any word. -/
def setCell (address : Nat) (word : Word) : Action Unit := do
  check .address address memorySize
  modify fun m => { m with memory := m.memory.write (UInt16.ofNat address) word }

/-- Overwrites a stack entry with a value. Entries are counted from the bottom. -/
def setStack (index : Nat) (value : Word) : Action Unit := do
  check .stackIndex index (← get).stack.length
  check .stackValue value.toNat memorySize
  modify fun m => { m with stack := m.stack.set (m.stack.length - 1 - index) value }

end Action

namespace Machine

/-! ### Loading -/

/-- The machine that has just loaded `words`. -/
def loaded (memory : Memory) (words : List Word) : Machine :=
  { empty with memory := memory, wordCount := words.length }

/-- Installs a program at address zero and resets everything else. A program that
    does not fit is refused. -/
def load (m : Machine) (words : List Word) : Outcome Unit := (Action.load words).outcome m

/-- Installs a program given in the binary format. -/
def loadBytes (m : Machine) (bytes : List UInt8) : Outcome Unit := m.load (Word.ofBytes bytes)

/-- A machine with `words` loaded. -/
def ofWords (words : List Word) : Except Fault Machine :=
  let outcome := empty.load words
  outcome.result.map fun _ => outcome.machine

/-- A machine with a binary program loaded. -/
def ofBytes (bytes : List UInt8) : Except Fault Machine := ofWords (Word.ofBytes bytes)

/-- The record of having loaded a program. -/
def loadRecord (wordCount : Nat) : Log.Record :=
  Log.debug .processor s!"loaded program of {wordCount} words"

/-- The record of loading `words`. A program that is refused leaves none. -/
def loadRecords (words : List Word) : List Log.Record :=
  if words.length ≤ memorySize then [loadRecord words.length] else []

/-! ### Writing -/

/-- Supplies the value for the input instruction that waits at the instruction
    pointer. The next step completes it. -/
def resolve (m : Machine) (destination : Operand) (value : Word) : Outcome Unit :=
  (Action.resolve destination value).outcome m

/-- The record of supplying a value. A refused value leaves none. -/
def resolveRecords (m : Machine) (destination : Operand) (value : Word) :
    List Log.Record :=
  match (m.resolve destination value).result with
  | .ok () =>
    [Log.debug .processor s!"input {value} resolved into {destination.text.str}"]
  | .error _ => []

/-- All records of supplying an input value are for debugging. -/
theorem debug_le_of_mem_resolveRecords {m : Machine} {destination : Operand} {value : Word}
    {r : Log.Record} (h : r ∈ m.resolveRecords destination value) :
    Log.Level.debug.detail ≤ r.level.detail := by
  unfold resolveRecords at h
  split at h <;> simp_all [Log.debug]

/-- Overwrites a register with a value. -/
def setRegister (m : Machine) (index : Nat) (value : Word) : Outcome Unit :=
  (Action.setRegister index value).outcome m

/-- Moves the instruction pointer. An input instruction that was under way is
    abandoned. -/
def setIp (m : Machine) (address : Nat) : Outcome Unit := (Action.setIp address).outcome m

/-- Overwrites a memory cell with any word. -/
def setCell (m : Machine) (address : Nat) (word : Word) : Outcome Unit :=
  (Action.setCell address word).outcome m

/-- Overwrites a stack entry with a value. Entries are counted from the bottom. -/
def setStack (m : Machine) (index : Nat) (value : Word) : Outcome Unit :=
  (Action.setStack index value).outcome m

end Machine

end WordMachine
