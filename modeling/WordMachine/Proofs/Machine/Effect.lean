import WordMachine.Proofs.Machine.InPlace
import WordMachine.Proofs.Success

/-!
# The Effects of Instructions

When an instruction has an effect, and which.

The parts that instructions are put together from are operands, their values, the top
of the stack, and a few ways to combine them. Each part has one theorem here that says
exactly when it gives a result, so that the effect of an instruction is taken apart
into what was read and what is done with it, and no proof about instructions looks at
how a part is computed.

Only `IN` touches the state of the input and reports a wait for it. That is
`Machine.input_of_execute`, the one place where all the other instructions are gone
through for what they do not do.

## Main definitions

* `Input.address?`: The address of the instruction whose input is under way.

## Theorems

* `Machine.operand_eq_ok_iff`, `Machine.value_eq_ok_iff`, `Machine.top_eq_ok_iff`: What
  an instruction reads.
* `Machine.inputHere_eq`, `Machine.inputHere_eq_iff`: The input at the instruction
  pointer.
* `Machine.binary_eq_ok_iff`, `Machine.branch_eq_ok_iff`: What the instructions of a
  family do.
* `Machine.inputEffect_eq_ok_iff`: What an input instruction does.
* `Machine.input_of_execute`: No other instruction touches the input.
* `Machine.effect_eq_ok_iff`: When the next instruction has an effect.
* `Machine.machine_edit`: What an edit leaves.
* `Machine.execute_of_zero_divisor`: A remainder by zero.
* `Machine.step_jmp`, `Machine.step_nop`, `Machine.step_wmem`, `Machine.step_out`,
  `Machine.step_halt`: The steps of some instructions.
-/

namespace WordMachine

/-- The address of the instruction whose input is under way. -/
def Input.address? : Input → Option Word
  | .idle => none
  | .pending address _ => some address
  | .supplied address => some address

namespace Machine

/-! ### What instructions read -/

theorem operand_eq_ok_iff (m : Machine) (n : Nat) (operand : Operand) :
    m.operand n = .ok operand ↔
      Operand.ofWord? (m.memory.read (Word.after m.ip (n + 1))) = some operand := by
  unfold Machine.operand
  cases h : Operand.ofWord? (m.memory.read (Word.after m.ip (n + 1))) with
  | none => simp [h]
  | some found => simp [h]

theorem value_eq_ok_iff (m : Machine) (n : Nat) (w : Word) :
    m.value n = .ok w ↔ ∃ operand, m.operand n = .ok operand ∧ m.valueOf operand = w := by
  rw [value, bind_eq_ok_iff]
  simp only [pure, Except.pure, Except.ok.injEq]

theorem top_eq_ok_iff (m : Machine) (op : Opcode) (w : Word) :
    m.top op = .ok w ↔ m.stack.head? = some w := by
  unfold top
  cases h : m.stack with
  | nil => simp
  | cons value rest => simp

/-- What is under way at the instruction pointer is what is held, if it belongs there. -/
theorem inputHere_eq (m : Machine) :
    m.inputHere = if m.input.address? = some m.ip then m.input else .idle := by
  unfold inputHere
  cases m.input with
  | idle => rfl
  | pending address destination => simp only [Input.address?, Option.some.injEq]
  | supplied address => simp only [Input.address?, Option.some.injEq]

theorem inputHere_eq_iff (m : Machine) {progress : Input} (h : progress ≠ .idle) :
    m.inputHere = progress ↔ m.input = progress ∧ progress.address? = some m.ip := by
  rw [inputHere_eq]
  constructor
  · intro heq
    split at heq
    · rename_i haddress
      rw [heq] at haddress
      exact ⟨heq, haddress⟩
    · exact absurd heq.symm h
  · rintro ⟨rfl, haddress⟩
    rw [if_pos haddress]

theorem inputHere_eq_pending_iff (m : Machine) (address : Word) (destination : Operand) :
    m.inputHere = .pending address destination ↔
      m.input = .pending address destination ∧ address = m.ip := by
  have hne : Input.pending address destination ≠ .idle := nofun
  rw [m.inputHere_eq_iff hne, Input.address?, Option.some.injEq]

theorem inputHere_eq_supplied_iff (m : Machine) (address : Word) :
    m.inputHere = .supplied address ↔ m.input = .supplied address ∧ address = m.ip := by
  have hne : Input.supplied address ≠ .idle := nofun
  rw [m.inputHere_eq_iff hne, Input.address?, Option.some.injEq]

/-! ### What instructions do -/

theorem binary_eq_ok_iff (m : Machine) (next : Word) (compute : Word → Word → Except Fault Word)
    (e : Effect) :
    m.binary next compute = .ok e ↔
      ∃ destination b c r, m.operand 0 = .ok destination ∧ m.value 1 = .ok b ∧
        m.value 2 = .ok c ∧ compute b c = .ok r ∧
        e = { next := next, write := some (destination, r) } := by
  simp only [binary, bind_eq_ok_iff, pure, Except.pure, Except.ok.injEq]
  constructor
  · rintro ⟨destination, hdestination, b, hb, c, hc, r, hr, rfl⟩
    exact ⟨destination, b, c, r, hdestination, hb, hc, hr, rfl⟩
  · rintro ⟨destination, b, c, r, hdestination, hb, hc, hr, rfl⟩
    exact ⟨destination, hdestination, b, hb, c, hc, r, hr, rfl⟩

theorem branch_eq_ok_iff (m : Machine) (next : Word) (taken : Word → Bool) (e : Effect) :
    m.branch next taken = .ok e ↔
      ∃ condition target, m.value 0 = .ok condition ∧ m.value 1 = .ok target ∧
        e = { next := if taken condition then Word.low target else next } := by
  simp only [branch, bind_eq_ok_iff, pure, Except.pure, Except.ok.injEq]
  constructor
  · rintro ⟨condition, hcondition, target, htarget, rfl⟩
    exact ⟨condition, target, hcondition, htarget, rfl⟩
  · rintro ⟨condition, target, hcondition, htarget, rfl⟩
    exact ⟨condition, hcondition, target, htarget, rfl⟩

/-- An input instruction suspends, waits on, or completes, by the progress of the input
    at its address. -/
theorem inputEffect_eq_ok_iff (m : Machine) (next : Word) (e : Effect) :
    m.inputEffect next = .ok e ↔
      (∃ destination, m.inputHere = .idle ∧ m.operand 0 = .ok destination ∧
        e = { next := m.ip, input := some (.pending m.ip destination),
              interrupt := .input destination }) ∨
      (∃ address destination, m.inputHere = .pending address destination ∧
        e = { next := m.ip, interrupt := .input destination }) ∨
      (∃ address, m.inputHere = .supplied address ∧ e = { next := next, input := some .idle }) := by
  unfold inputEffect
  cases h : m.inputHere with
  | idle =>
      simp only [bind_eq_ok_iff, pure, Except.pure, Except.ok.injEq, true_and, reduceCtorEq,
        false_and, exists_false, or_false]
      constructor
      · rintro ⟨destination, hdestination, rfl⟩
        exact ⟨destination, hdestination, rfl⟩
      · rintro ⟨destination, hdestination, rfl⟩
        exact ⟨destination, hdestination, rfl⟩
  | pending address destination => simp [eq_comm]
  | supplied address => simp [eq_comm]

/-- No other instruction touches the state of the input or waits for one. -/
theorem input_of_execute {m : Machine} {op : Opcode} {e : Effect} (h : m.execute op = .ok e)
    (hop : op ≠ .inp) : e.input = none ∧ ∀ destination, e.interrupt ≠ .input destination := by
  -- The instructions of a family differ in what they compute, which is no input.
  have hbinary : ∀ {next compute}, m.binary next compute = .ok e →
      e.input = none ∧ ∀ destination, e.interrupt ≠ .input destination := by
    intro next compute h
    rcases (binary_eq_ok_iff _ _ _ _).mp h with ⟨_, _, _, _, _, _, _, _, rfl⟩
    exact ⟨rfl, fun _ => Interrupt.noConfusion⟩
  have hbranch : ∀ {next taken}, m.branch next taken = .ok e →
      e.input = none ∧ ∀ destination, e.interrupt ≠ .input destination := by
    intro next taken h
    rcases (branch_eq_ok_iff _ _ _ _).mp h with ⟨_, _, _, _, rfl⟩
    exact ⟨rfl, fun _ => Interrupt.noConfusion⟩
  cases op with
  | inp => exact absurd rfl hop
  | eq | gt | add | mul | mod | and | or => exact hbinary h
  | jt | jf => exact hbranch h
  | halt | nop =>
      cases h
      exact ⟨rfl, fun _ => Interrupt.noConfusion⟩
  | push | jmp | call | ret | out =>
      rcases (bind_eq_ok_iff _ _ _).mp h with ⟨_, _, hpure⟩
      cases hpure
      exact ⟨rfl, fun _ => Interrupt.noConfusion⟩
  | set | pop | not | rmem | wmem =>
      rcases (bind_eq_ok_iff _ _ _).mp h with ⟨_, _, h⟩
      rcases (bind_eq_ok_iff _ _ _).mp h with ⟨_, _, hpure⟩
      cases hpure
      exact ⟨rfl, fun _ => Interrupt.noConfusion⟩

/-! ### Steps and edits -/

theorem effect_eq_ok_iff (m : Machine) (e : Effect) :
    m.effect = .ok e ↔ m.halted = false ∧
      ∃ op, Opcode.ofWord? (m.memory.read m.ip) = some op ∧ m.execute op = .ok e := by
  unfold effect
  cases hhalted : m.halted with
  | true => simp
  | false =>
      cases hop : Opcode.ofWord? (m.memory.read m.ip) with
      | none => simp [hop]
      | some op => simp [hop]

/-- A step leaves the machine as it is or carries out its effect. -/
theorem machine_step (m : Machine) :
    m.step.machine = m ∨ ∃ e, m.effect = .ok e ∧ m.step.machine = e.apply m := by
  cases h : m.effect with
  | error fault => exact Or.inl (by rw [step_of_error h])
  | ok e => exact Or.inr ⟨e, rfl, by rw [step_of_ok h]⟩

/-- A step whose instruction has a known effect. -/
theorem step_of_execute {m : Machine} {op : Opcode} {e : Effect} (hhalted : m.halted = false)
    (hop : Opcode.ofWord? (m.memory.read m.ip) = some op) (he : m.execute op = .ok e) :
    m.step = ⟨.ok e.interrupt, e.apply m⟩ :=
  step_of_ok ((effect_eq_ok_iff _ _).mpr ⟨hhalted, op, hop, he⟩)

/-- An edit leaves the machine as it is or, if its checks pass, is made. -/
theorem machine_edit (m : Machine) (checks : Except Fault Unit) (change : Machine → Machine) :
    (m.edit checks change).machine = m ∨
      checks = .ok () ∧ (m.edit checks change).machine = change m := by
  cases h : checks with
  | error fault => exact Or.inl rfl
  | ok u => exact Or.inr ⟨rfl, rfl⟩

theorem check_eq_ok_iff (quantity : Quantity) (index limit : Nat) :
    check quantity index limit = .ok () ↔ index < limit := by
  unfold check
  split
  · rename_i h
    simp [h]
  · rename_i h
    simp [h]

/-! ### Single instructions -/

theorem value_of_literal {m : Machine} {n : Nat} {w : Word}
    (h : Operand.ofWord? (m.memory.read (Word.after m.ip (n + 1))) = some (.literal w)) :
    m.value n = .ok w :=
  (value_eq_ok_iff _ _ _).mpr ⟨.literal w, (operand_eq_ok_iff _ _ _).mpr h, rfl⟩

/-- A remainder by zero is a fault, although all operands are good. -/
theorem execute_of_zero_divisor {m : Machine} {destination : Operand} {dividend : Word}
    (hdestination : m.operand 0 = .ok destination) (hdividend : m.value 1 = .ok dividend)
    (hzero : m.value 2 = .ok 0) : m.execute .mod = .error (.divisionByZero m.ip) := by
  simp only [execute, binary, hdestination, hdividend, hzero]
  rfl

theorem step_jmp {m : Machine} {target : Word} (hhalted : m.halted = false)
    (hop : Opcode.ofWord? (m.memory.read m.ip) = some .jmp) (htarget : m.value 0 = .ok target) :
    m.step = ⟨.ok .none, { m with ip := Word.low target }⟩ := by
  rw [step_of_execute hhalted hop ((bind_eq_ok_iff _ _ _).mpr ⟨target, htarget, rfl⟩)]
  simp only [Effect.apply, StackMove.apply, Option.getD_none, Bool.or_false]

theorem step_nop {m : Machine} (hhalted : m.halted = false)
    (hop : Opcode.ofWord? (m.memory.read m.ip) = some .nop) :
    m.step = ⟨.ok .none, { m with ip := Word.after m.ip 1 }⟩ := by
  rw [step_of_execute hhalted hop rfl]
  simp only [Effect.apply, StackMove.apply, Option.getD_none, Bool.or_false]
  rfl

theorem step_wmem {m : Machine} {address value : Word} (hhalted : m.halted = false)
    (hop : Opcode.ofWord? (m.memory.read m.ip) = some .wmem) (haddress : m.value 0 = .ok address)
    (hvalue : m.value 1 = .ok value) :
    m.step = ⟨.ok .none,
      { m with memory := m.memory.write address value, ip := Word.after m.ip 3 }⟩ := by
  have he : m.execute .wmem = .ok _ := (bind_eq_ok_iff _ _ _).mpr
    ⟨address, haddress, (bind_eq_ok_iff _ _ _).mpr ⟨value, hvalue, rfl⟩⟩
  rw [step_of_execute hhalted hop he]
  simp only [Effect.apply, StackMove.apply, Option.getD_none, Bool.or_false, store]
  rfl

theorem step_out {m : Machine} {code : Word} (hhalted : m.halted = false)
    (hop : Opcode.ofWord? (m.memory.read m.ip) = some .out) (hcode : m.value 0 = .ok code) :
    m.step = ⟨.ok (.output code), { m with ip := Word.after m.ip 2 }⟩ := by
  rw [step_of_execute hhalted hop ((bind_eq_ok_iff _ _ _).mpr ⟨code, hcode, rfl⟩)]
  simp only [Effect.apply, StackMove.apply, Option.getD_none, Bool.or_false]
  rfl

theorem step_halt {m : Machine} (hhalted : m.halted = false)
    (hop : Opcode.ofWord? (m.memory.read m.ip) = some .halt) :
    m.step = ⟨.ok .halt, { m with halted := true }⟩ := by
  rw [step_of_execute hhalted hop rfl]
  simp only [Effect.apply, StackMove.apply, Option.getD_none, Bool.or_true]

end Machine

end WordMachine
