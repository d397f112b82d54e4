import WordMachine.Machine.Basic

/-!
# Execution

One instruction at a time.

An instruction is an action: it reads its operands one after another, then changes
the machine, and each of these happens in the order in which it is written down
here. Reading can fail and changing cannot, so an instruction that fails has
changed nothing as long as it reads everything before its first change. That is a
property of each of these programs, and nothing in their type sees to it: one that
wrote its result before it looked at its last operand would leave that result
behind.

`IN` is the only instruction that takes more than one step. Executed with no
input under way it suspends and leaves the instruction pointer where it is;
executed again it reports the same suspension; once its value has been supplied,
it completes.

## Main definitions

* `Interrupt`: What a step reports.
* `Machine.operand`, `Machine.value`: The operands of the instruction at the
  instruction pointer.
* `Action.execute`: What an opcode does.
* `Action.step`: Fetching an instruction and executing it.
* `Machine.step`: Executing one instruction.
* `Machine.stepRecords`: The log records of a step.
-/

namespace WordMachine

/-- What a step reports to the host. -/
inductive Interrupt
  /-- Nothing: go on with the next step. -/
  | none
  /-- The machine has halted. -/
  | halt
  /-- A character code to print. -/
  | output (code : Word)
  /-- A value is awaited for this destination. -/
  | input (destination : Operand)
  deriving DecidableEq, Repr

namespace Machine

/-- The operand at position `n` of the instruction at the instruction pointer. -/
def operand (m : Machine) (n : Nat) : Except Fault Operand :=
  let address := Word.after m.ip (n + 1)
  let word := m.memory.read address
  match Operand.ofWord? word with
  | some operand => .ok operand
  | none => .error (.invalidOperand address word)

/-- The value of the operand at position `n`. -/
def value (m : Machine) (n : Nat) : Except Fault Word := do
  return m.valueOf (← m.operand n)

end Machine

namespace Action

/-! ### Parts of instructions -/

/-- Decodes the operand at position `n`. -/
def operand (n : Nat) : Action Operand := read (·.operand n)

/-- Decodes the operand at position `n` and takes its value. -/
def value (n : Nat) : Action Word := read (·.value n)

/-- Moves past an instruction. -/
def advance (op : Opcode) : Action Unit :=
  modify fun m => { m with ip := Word.after m.ip op.size }

/-- Moves to an address. -/
def jump (target : Word) : Action Unit :=
  modify fun m => { m with ip := Word.low target }

/-- Puts a value on the stack. -/
def push (value : Word) : Action Unit :=
  modify fun m => { m with stack := value :: m.stack }

/-- Takes the top off the stack, for an instruction that needs it. -/
def pop (op : Opcode) : Action Word := do
  match (← get).stack with
  | value :: rest =>
    modify fun m => { m with stack := rest }
    return value
  | [] => throw (.stackUnderflow (← get).ip op)

/-- Writes the first operand with a function of the two others. -/
def binary (op : Opcode) (compute : Word → Word → Except Fault Word) : Action Interrupt := do
  let destination ← operand 0
  let b ← value 1
  let c ← value 2
  let result ← read fun _ => compute b c
  write destination result
  advance op
  return .none

/-- Moves to the second operand if `taken` holds of the first. -/
def branch (op : Opcode) (taken : Word → Bool) : Action Interrupt := do
  let condition ← value 0
  let target ← value 1
  if taken condition then jump target else advance op
  return .none

/-! ### Instructions -/

/-- Suspends an input instruction, keeps it waiting, or completes it, by its
    progress. -/
def input (op : Opcode) : Action Interrupt := do
  match (← get).inputHere with
  | .idle =>
    let destination ← operand 0
    modify fun m => { m with input := .pending m.ip destination }
    return .input destination
  | .pending _ destination => return .input destination
  | .supplied _ =>
    modify fun m => { m with input := .idle }
    advance op
    return .none

/-- Does what an opcode at the instruction pointer says. -/
def execute (op : Opcode) : Action Interrupt :=
  match op with
  | .halt => do
    modify fun m => { m with halted := true }
    return .halt
  | .set => do
    let destination ← operand 0
    let result ← value 1
    write destination result
    advance op
    return .none
  | .push => do
    let result ← value 0
    push result
    advance op
    return .none
  | .pop => do
    let destination ← operand 0
    let result ← pop op
    write destination result
    advance op
    return .none
  | .eq => binary op fun b c => .ok (Word.ofTruth (b == c))
  | .gt => binary op fun b c => .ok (Word.ofTruth (b > c))
  | .jmp => do
    jump (← value 0)
    return .none
  | .jt => branch op (· != 0)
  | .jf => branch op (· == 0)
  | .add => binary op fun b c => .ok (Word.sum b c)
  | .mul => binary op fun b c => .ok (Word.product b c)
  | .mod => do
    let address := (← get).ip
    binary op fun b c => if c = 0 then .error (.divisionByZero address) else .ok (b % c)
  | .and => binary op fun b c => .ok (b &&& c)
  | .or => binary op fun b c => .ok (b ||| c)
  | .not => do
    let destination ← operand 0
    let b ← value 1
    write destination (Word.complement b)
    advance op
    return .none
  | .rmem => do
    let destination ← operand 0
    let address ← value 1
    let word := (← get).memory.read address
    write destination (Word.low word)
    advance op
    return .none
  | .wmem => do
    let address ← value 0
    let result ← value 1
    modify fun m => { m with memory := m.memory.write address result }
    advance op
    return .none
  | .call => do
    let target ← value 0
    advance op
    push (← get).ip
    jump target
    return .none
  | .ret => do
    jump (← pop op)
    return .none
  | .out => do
    let code ← value 0
    advance op
    return .output code
  | .inp => input op
  | .nop => do
    advance op
    return .none

/-- Fetches the instruction at the instruction pointer and executes it. -/
def step : Action Interrupt := do
  if (← get).halted then
    throw .machineHalted
  let address := (← get).ip
  let word := (← get).memory.read address
  match Opcode.ofWord? word with
  | some op => execute op
  | none => throw (.illegalOpcode address word)

end Action

namespace Machine

/-- Executes one instruction. -/
def step (m : Machine) : Outcome Interrupt := Action.step.outcome m

/-- A number padded with zeros to five digits. -/
def paddedAddress (address : Word) : Text :=
  List.leftpad 5 '0' (Decimal.writeWord address)

/-- The record of an input instruction that suspends now. -/
def suspendRecords (m : Machine) : List Log.Record :=
  match m.inputHere, m.operand 0 with
  | .idle, .ok destination =>
    [Log.debug .device s!"IN at {m.ip} waiting for input into {destination.text.str}"]
  | _, _ => []

/-- The records of a step: the instruction, once it is known to be one, and the
    suspension of an input instruction. -/
def stepRecords (m : Machine) : List Log.Record :=
  match m.halted, Opcode.ofWord? (m.memory.read m.ip) with
  | false, some op =>
    Log.trace .processor s!"{(paddedAddress m.ip).str}: {(m.textAt m.ip).str}"
      :: if op = .inp then m.suspendRecords else []
  | _, _ => []

/-- All records of a step are for debugging. -/
theorem debug_le_of_mem_stepRecords {m : Machine} {r : Log.Record} (h : r ∈ m.stepRecords) :
    Log.Level.debug.detail ≤ r.level.detail := by
  have suspend : ∀ r ∈ m.suspendRecords, Log.Level.debug.detail ≤ r.level.detail := by
    intro r hr
    unfold suspendRecords at hr
    split at hr <;> simp_all [Log.debug]
  unfold stepRecords at h
  split at h
  · rcases List.mem_cons.mp h with rfl | h
    · simp [Log.trace, Log.Level.detail]
    · split at h
      · exact suspend r h
      · simp at h
  · simp at h

end Machine

end WordMachine
