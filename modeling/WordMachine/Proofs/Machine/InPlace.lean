import WordMachine.Machine.Step

/-!
# Operations in Place

What operations on the machine come to, with all of their checks made first.

An operation is written as a sequence of checks, reads and changes, and what it leaves
when it fails depends on where in the sequence that happens. Here each operation is shown
to be one change, made after everything that can go wrong has been ruled out. For the
edits of a host that change is `Machine.edit`, and for an instruction it is an `Effect`.
So an operation that fails has changed nothing, and from here on nothing looks at the
order in which an operation does its work.

For instructions that is `Action.outcome_execute`. Reading leaves the machine as it is, so
what is read first can be read before the effect is worked out
(`Action.outcome_read_bind`), and what remains of each instruction after its last read
cannot fail. An instruction with a change before its last read has no such proof. `POP` and
`RET` change the stack by reading it, and that is the last thing they read.

An effect has few parts: at most one write to a register or cell, at most one movement of
the stack, the next instruction pointer, and, for the instructions concerned, a new input
state or the halt. What a step can change is read off this type.

## Main definitions

* `Machine.edit`: A change that is made if a check passes.
* `Effect`, `Effect.apply`: What an instruction does, and doing it.
* `Machine.effect`: The effect of the instruction at the instruction pointer.
* `Machine.commit`: Carrying out an effect, if there is one.

## Theorems

* `Action.outcome_bind`: One action after another.
* `Machine.load_eq`: Loading installs a memory and resets the rest, or does nothing.
* `Machine.resolve_eq`, `Machine.setRegister_eq`, `Machine.setIp_eq`,
  `Machine.setCell_eq`, `Machine.setStack_eq`: Edits as changes after a check.
* `Action.outcome_execute`: An instruction carries out its effect.
* `Machine.step_eq`: A step carries out the effect of the next instruction.
* `Machine.step_of_ok`, `Machine.step_of_error`: A step by its effect.
* `Machine.step_result_eq_error_iff`: When a step fails.
-/

namespace WordMachine

namespace Action

/-! ### Putting actions together -/

/-- The second action starts from what the first one left, and is not begun if the first
    one failed. -/
theorem outcome_bind {α β : Type} (action : Action α) (rest : α → Action β) (m : Machine) :
    (action >>= rest).outcome m =
      match action.outcome m with
      | ⟨.ok a, next⟩ => (rest a).outcome next
      | ⟨.error fault, next⟩ => ⟨.error fault, next⟩ := by
  simp only [outcome, EStateM.run_bind]
  cases action.run m <;> rfl

/-- An action that changes something before it fails has changed it. -/
example (m : Machine) :
    ((do modify fun m => { m with halted := true }
         throw .machineHalted : Action Unit).outcome m).machine.halted = true := rfl

theorem outcome_get (m : Machine) : (get : Action Machine).outcome m = ⟨.ok m, m⟩ := rfl

/-- Reading leaves the machine as it is, whether it fails or not. -/
theorem outcome_read {α : Type} (f : Machine → Except Fault α) (m : Machine) :
    (read f).outcome m = ⟨f m, m⟩ := by
  rw [read, outcome_bind, outcome_get]
  cases h : f m <;> simp only [h] <;> rfl

theorem outcome_check (quantity : Quantity) (index limit : Nat) (m : Machine) :
    (check quantity index limit).outcome m = ⟨Machine.check quantity index limit, m⟩ :=
  outcome_read _ m

end Action

namespace Machine

/-! ### Edits -/

/-- The machine after an edit that is made only if its checks pass. -/
def edit (m : Machine) (checks : Except Fault Unit) (change : Machine → Machine) :
    Outcome Unit :=
  match checks with
  | .ok () => ⟨.ok (), change m⟩
  | .error fault => ⟨.error fault, m⟩

/-- An edit that is refused changes nothing. -/
theorem machine_edit_of_error {m : Machine} {checks : Except Fault Unit}
    {change : Machine → Machine} {fault : Fault}
    (h : (m.edit checks change).result = .error fault) :
    (m.edit checks change).machine = m := by
  unfold edit at h ⊢
  split
  · cases h
  · rfl

end Machine

/-! ### Effects -/

/-- What an instruction does to the stack. -/
inductive StackMove
  | keep
  | push (value : Word)
  | drop
  deriving DecidableEq, Repr

/-- The stack after a movement. -/
def StackMove.apply (stack : List Word) : StackMove → List Word
  | .keep => stack
  | .push value => value :: stack
  | .drop => stack.tail

/-- What an instruction does. -/
structure Effect where
  /-- The instruction pointer afterwards. -/
  next : Word
  /-- The destination written, with its value. -/
  write : Option (Operand × Word) := none
  stack : StackMove := .keep
  /-- The input state afterwards, if it changes. -/
  input : Option Input := none
  halts : Bool := false
  interrupt : Interrupt := .none

/-- The machine after an effect. -/
def Effect.apply (e : Effect) (m : Machine) : Machine :=
  let m := match e.write with
    | some (destination, value) => m.store destination value
    | none => m
  { m with
    ip := e.next
    stack := e.stack.apply m.stack
    input := e.input.getD m.input
    halted := m.halted || e.halts }

namespace Machine

/-- The effect of writing the first operand with a function of the two others. -/
def binary (m : Machine) (next : Word) (compute : Word → Word → Except Fault Word) :
    Except Fault Effect := do
  let destination ← m.operand 0
  let b ← m.value 1
  let c ← m.value 2
  return { next := next, write := some (destination, ← compute b c) }

/-- The effect of moving to the second operand if `taken` holds of the first. -/
def branch (m : Machine) (next : Word) (taken : Word → Bool) : Except Fault Effect := do
  let condition ← m.value 0
  let target ← m.value 1
  return { next := if taken condition then Word.low target else next }

/-- The top of the stack, for an instruction that takes it. -/
def top (m : Machine) (op : Opcode) : Except Fault Word :=
  match m.stack with
  | value :: _ => .ok value
  | [] => .error (.stackUnderflow m.ip op)

/-- The effect of an input instruction, by its progress. -/
def inputEffect (m : Machine) (next : Word) : Except Fault Effect :=
  match m.inputHere with
  | .idle => do
    let destination ← m.operand 0
    return { next := m.ip, input := some (.pending m.ip destination),
             interrupt := .input destination }
  | .pending _ destination => .ok { next := m.ip, interrupt := .input destination }
  | .supplied _ => .ok { next := next, input := some .idle }

/-- The effect of an opcode found at the instruction pointer. -/
def execute (m : Machine) (op : Opcode) : Except Fault Effect :=
  let next := Word.after m.ip op.size
  match op with
  | .halt => .ok { next := m.ip, halts := true, interrupt := .halt }
  | .set => do
    let destination ← m.operand 0
    return { next := next, write := some (destination, ← m.value 1) }
  | .push => do
    return { next := next, stack := .push (← m.value 0) }
  | .pop => do
    let destination ← m.operand 0
    return { next := next, write := some (destination, ← m.top op), stack := .drop }
  | .eq => m.binary next fun b c => .ok (Word.ofTruth (b == c))
  | .gt => m.binary next fun b c => .ok (Word.ofTruth (b > c))
  | .jmp => do
    return { next := Word.low (← m.value 0) }
  | .jt => m.branch next (· != 0)
  | .jf => m.branch next (· == 0)
  | .add => m.binary next fun b c => .ok (Word.sum b c)
  | .mul => m.binary next fun b c => .ok (Word.product b c)
  | .mod => m.binary next fun b c =>
    if c = 0 then .error (.divisionByZero m.ip) else .ok (b % c)
  | .and => m.binary next fun b c => .ok (b &&& c)
  | .or => m.binary next fun b c => .ok (b ||| c)
  | .not => do
    let destination ← m.operand 0
    return { next := next, write := some (destination, Word.complement (← m.value 1)) }
  | .rmem => do
    let destination ← m.operand 0
    let address ← m.value 1
    return { next := next, write := some (destination, Word.low (m.memory.read address)) }
  | .wmem => do
    let address ← m.value 0
    return { next := next, write := some (.literal address, ← m.value 1) }
  | .call => do
    return { next := Word.low (← m.value 0), stack := .push next }
  | .ret => do
    return { next := Word.low (← m.top op), stack := .drop }
  | .out => do
    return { next := next, interrupt := .output (← m.value 0) }
  | .inp => m.inputEffect next
  | .nop => .ok { next := next }

/-- The effect of the instruction at the instruction pointer, or why it cannot be
    executed. -/
def effect (m : Machine) : Except Fault Effect :=
  if m.halted then .error .machineHalted
  else
    let word := m.memory.read m.ip
    match Opcode.ofWord? word with
    | some op => m.execute op
    | none => .error (.illegalOpcode m.ip word)

/-- The machine after the effect of an instruction. An instruction that has none leaves
    the machine as it is. -/
def commit (m : Machine) : Except Fault Effect → Outcome Interrupt
  | .ok effect => ⟨.ok effect.interrupt, effect.apply m⟩
  | .error fault => ⟨.error fault, m⟩

theorem stack_store (m : Machine) (destination : Operand) (value : Word) :
    (m.store destination value).stack = m.stack := by
  cases destination <;> rfl

/-- An effect with a write makes it first. -/
theorem commit_of_write (m : Machine) (next : Word) (destination : Operand) (value : Word)
    (stack : StackMove) :
    m.commit (.ok { next := next, write := some (destination, value), stack := stack }) =
      ⟨.ok .none, { m.store destination value with
        ip := next, stack := stack.apply m.stack }⟩ := by
  simp only [commit, Effect.apply, stack_store, Option.getD_none, Bool.or_false]

end Machine

namespace Action

theorem outcome_get_bind {α : Type} (rest : Machine → Action α) (m : Machine) :
    (get >>= rest).outcome m = (rest m).outcome m := by
  rw [outcome_bind, outcome_get]

/-! ### Edits made at once -/

/-- The last check, with nothing but changes after it. -/
theorem outcome_check_last {quantity : Quantity} {index limit : Nat} {rest : Unit → Action Unit}
    {m : Machine} {change : Machine → Machine} (h : (rest ()).outcome m = ⟨.ok (), change m⟩) :
    (check quantity index limit >>= rest).outcome m =
      m.edit (Machine.check quantity index limit) change := by
  rw [outcome_bind, outcome_check]
  cases Machine.check quantity index limit with
  | error fault => rfl
  | ok u => exact h

/-- A check before other checks. -/
theorem outcome_check_first {quantity : Quantity} {index limit : Nat}
    {rest : Unit → Action Unit} {m : Machine} {checks : Except Fault Unit}
    {change : Machine → Machine} (h : (rest ()).outcome m = m.edit checks change) :
    (check quantity index limit >>= rest).outcome m =
      m.edit (do Machine.check quantity index limit; checks) change := by
  rw [outcome_bind, outcome_check]
  cases Machine.check quantity index limit with
  | error fault => rfl
  | ok u => exact h

end Action

namespace Machine

/-- Loading resets everything, or nothing if the program does not fit. -/
theorem load_eq (m : Machine) (words : List Word) :
    m.load words =
      match Memory.load words with
      | .ok memory => ⟨.ok (), loaded memory words⟩
      | .error fault => ⟨.error fault, m⟩ := by
  simp only [load, Action.load, Action.fillMemory, Memory.load]
  by_cases h : memorySize < words.length
  · rw [if_pos h, if_neg (Nat.not_le.mpr h)]
    rfl
  · rw [if_neg h, if_pos (Nat.not_lt.mp h)]
    rfl

theorem resolve_eq (m : Machine) (destination : Operand) (value : Word) :
    m.resolve destination value =
      match m.inputHere with
      | .pending address _ =>
        m.edit (check .inputValue value.toNat memorySize) fun m =>
          { m.store destination value with input := .supplied address }
      | _ => ⟨.error .inputNotPending, m⟩ := by
  rw [resolve, Action.resolve, Action.outcome_get_bind]
  cases m.inputHere with
  | idle => rfl
  | supplied address => rfl
  | pending address awaited => exact Action.outcome_check_last rfl

theorem setRegister_eq (m : Machine) (index : Nat) (value : Word) :
    m.setRegister index value =
      m.edit (do check .register index registerCount
                 check .registerValue value.toNat memorySize) fun m =>
        { m with registers := m.registers.setIfInBounds index value } :=
  Action.outcome_check_first (Action.outcome_check_last rfl)

theorem setIp_eq (m : Machine) (address : Nat) :
    m.setIp address =
      m.edit (check .address address memorySize) fun m =>
        { m with ip := UInt16.ofNat address, input := .idle } :=
  Action.outcome_check_last rfl

theorem setCell_eq (m : Machine) (address : Nat) (word : Word) :
    m.setCell address word =
      m.edit (check .address address memorySize) fun m =>
        { m with memory := m.memory.write (UInt16.ofNat address) word } :=
  Action.outcome_check_last rfl

theorem setStack_eq (m : Machine) (index : Nat) (value : Word) :
    m.setStack index value =
      m.edit (do check .stackIndex index m.stack.length
                 check .stackValue value.toNat memorySize) fun m =>
        { m with stack := m.stack.set (m.stack.length - 1 - index) value } := by
  rw [setStack, Action.setStack, Action.outcome_get_bind]
  exact Action.outcome_check_first (Action.outcome_check_last rfl)

end Machine

namespace Action

/-! ### Instructions carried out at once -/

/-- What is read first can be read before the effect is worked out. -/
theorem outcome_read_bind {α : Type} {f : Machine → Except Fault α} {rest : α → Action Interrupt}
    {m : Machine} {effect : α → Except Fault Effect}
    (h : ∀ a, (rest a).outcome m = m.commit (effect a)) :
    (read f >>= rest).outcome m = m.commit (f m >>= effect) := by
  rw [outcome_bind, outcome_read]
  cases f m with
  | error fault => rfl
  | ok a => exact h a

/-- Taking the top off the stack either fails and leaves the stack as it is, or leaves the
    rest of it to what follows. -/
theorem outcome_pop_bind {op : Opcode} {rest : Word → Action Interrupt} {m : Machine}
    {effect : Word → Except Fault Effect}
    (h : ∀ w, (rest w).outcome { m with stack := m.stack.tail } = m.commit (effect w)) :
    (pop op >>= rest).outcome m = m.commit (m.top op >>= effect) := by
  rw [outcome_bind, pop, outcome_get_bind, Machine.top]
  cases hstack : m.stack with
  | nil => rfl
  | cons w below =>
      rw [hstack] at h
      exact h w

/-- Changes without a write or a halt carry out an effect without them. Some may have been
    made before. -/
theorem outcome_of_no_write {action : Action Interrupt} {e : Effect} {m begun : Machine}
    (hwrite : e.write = none) (hhalts : e.halts = false)
    (h : action.outcome begun = ⟨.ok e.interrupt,
      { m with ip := e.next, stack := e.stack.apply m.stack, input := e.input.getD m.input }⟩) :
    action.outcome begun = m.commit (.ok e) := by
  simp only [h, Machine.commit, Effect.apply, hwrite, hhalts, Bool.or_false]

/-- Writing a result and moving on. -/
theorem outcome_write_advance (m : Machine) (op : Opcode) (destination : Operand)
    (result : Word) :
    (do write destination result
        advance op
        return .none : Action Interrupt).outcome m =
      m.commit (.ok { next := Word.after m.ip op.size, write := some (destination, result) }) := by
  rw [Machine.commit_of_write]
  cases destination <;> rfl

theorem outcome_binary (m : Machine) (op : Opcode) (compute : Word → Word → Except Fault Word) :
    (binary op compute).outcome m = m.commit (m.binary (Word.after m.ip op.size) compute) := by
  refine outcome_read_bind fun destination => ?_
  refine outcome_read_bind fun b => ?_
  refine outcome_read_bind fun c => ?_
  refine outcome_read_bind fun result => ?_
  exact outcome_write_advance m op destination result

theorem outcome_branch (m : Machine) (op : Opcode) (taken : Word → Bool) :
    (branch op taken).outcome m = m.commit (m.branch (Word.after m.ip op.size) taken) := by
  refine outcome_read_bind fun condition => ?_
  refine outcome_read_bind fun target => ?_
  refine outcome_of_no_write rfl rfl ?_
  cases taken condition <;> rfl

theorem outcome_input (m : Machine) (op : Opcode) :
    (input op).outcome m = m.commit (m.inputEffect (Word.after m.ip op.size)) := by
  rw [input, outcome_get_bind, Machine.inputEffect]
  cases m.inputHere with
  | idle =>
      refine outcome_read_bind fun destination => ?_
      exact outcome_of_no_write rfl rfl rfl
  | pending address destination => exact outcome_of_no_write rfl rfl rfl
  | supplied address => exact outcome_of_no_write rfl rfl rfl

/-- Every instruction carries out its effect, or has none and changes nothing. -/
theorem outcome_execute (m : Machine) (op : Opcode) :
    (execute op).outcome m = m.commit (m.execute op) := by
  cases op with
  | inp => exact outcome_input m _
  | eq | gt | add | mul | and | or => exact outcome_binary m _ _
  | mod =>
      rw [execute, outcome_get_bind]
      exact outcome_binary m _ _
  | jt | jf => exact outcome_branch m _ _
  -- Nothing is read, so nothing can fail.
  | halt =>
      simp only [Machine.execute, Machine.commit, Effect.apply, StackMove.apply, Bool.or_true,
        Option.getD_none]
      rfl
  | nop => exact outcome_of_no_write rfl rfl rfl
  -- One value is read, and then everything is changed.
  | push | jmp | call | out =>
      refine outcome_read_bind fun _ => ?_
      exact outcome_of_no_write rfl rfl rfl
  -- The destination is decoded before the value, and written after it.
  | set | not =>
      refine outcome_read_bind fun destination => ?_
      refine outcome_read_bind fun _ => ?_
      exact outcome_write_advance m _ destination _
  | rmem =>
      refine outcome_read_bind fun destination => ?_
      refine outcome_read_bind fun address => ?_
      rw [outcome_get_bind]
      exact outcome_write_advance m _ destination _
  | wmem =>
      refine outcome_read_bind fun address => ?_
      refine outcome_read_bind fun result => ?_
      exact outcome_write_advance m _ (.literal address) result
  -- The top is off the stack before the write, and what is below it is what is kept.
  | ret =>
      refine outcome_pop_bind fun _ => ?_
      exact outcome_of_no_write rfl rfl rfl
  | pop =>
      refine outcome_read_bind fun destination => ?_
      refine outcome_pop_bind fun _ => ?_
      refine Eq.trans ?_ (Machine.commit_of_write m _ destination _ .drop).symm
      cases destination <;> rfl

end Action

namespace Machine

/-! ### Steps -/

/-- A step carries out the effect of the instruction at the instruction pointer. -/
theorem step_eq (m : Machine) : m.step = m.commit m.effect := by
  rw [step, Action.step, Action.outcome_get_bind, effect]
  cases hhalted : m.halted with
  | true => rfl
  | false =>
      simp only [Bool.false_eq_true, if_false]
      rw [Action.outcome_get_bind, Action.outcome_get_bind]
      cases Opcode.ofWord? (m.memory.read m.ip) with
      | none => rfl
      | some op => exact Action.outcome_execute m op

theorem step_of_ok {m : Machine} {effect : Effect} (h : m.effect = .ok effect) :
    m.step = ⟨.ok effect.interrupt, effect.apply m⟩ := by
  rw [step_eq, h, commit]

theorem step_of_error {m : Machine} {fault : Fault} (h : m.effect = .error fault) :
    m.step = ⟨.error fault, m⟩ := by
  rw [step_eq, h, commit]

/-- A step fails exactly when the instruction has no effect to carry out. -/
theorem step_result_eq_error_iff (m : Machine) (fault : Fault) :
    m.step.result = .error fault ↔ m.effect = .error fault := by
  cases h : m.effect with
  | ok effect => simp [step_of_ok h]
  | error f => simp [step_of_error h]

end Machine

end WordMachine
