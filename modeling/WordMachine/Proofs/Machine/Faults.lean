import WordMachine.Proofs.Machine.Effect
import WordMachine.Proofs.Value

/-!
# Faults of a Step

When a step fails, and with which fault.

Several things can be wrong with an instruction at once: an operand word that encodes no
operand, an empty stack, a divisor that is zero. A host is told of one of them only, and
which one is decided by the order in which the instruction looks at things. That order is
the same for all of them. First comes the machine, which may have halted, then the word at
the instruction pointer, then every operand in the order of encoding, whether or not the
instruction goes on to use it, and only then the stack or the divisor. An input instruction
that is under way looks at nothing any more, and cannot fail.

`Machine.Faults` is that order as a relation, in terms of the words in memory. The causes
exclude one another, so a machine is in at most one of its cases, and the step fails
exactly as that case says (`Machine.result_step_eq_error_iff`).

The order in which operands are looked at is not visible in the definitions of the
instructions as such, since each of them reads its operands on its own. It is
`Machine.execute_of_operand_error`, the one place where they are gone through for it.

## Main definitions

* `Machine.operandAddress`, `Machine.operandWord`: Where an operand is, and what is there.
* `Machine.Begins`: The machine is about to execute an instruction from its start.
* `Machine.Faults`: Why a step of the machine fails.

## Theorems

* `Machine.operand_eq_error_iff`, `Machine.exists_operand_iff`: Which operands can be read.
* `Machine.execute_of_operand_error`: The first operand that cannot be read is reported.
* `Machine.exists_execute`: An instruction with nothing wrong about it has an effect.
* `Machine.effect_of_faults`, `Machine.exists_effect_of_not_faults`: What is wrong is
  reported, and if nothing is wrong there is an effect.
* `Machine.step_fails_exactly`: When a step fails, and when it does not.
-/

namespace WordMachine

/-- Exactly the words above that of the last opcode encode none. -/
theorem Opcode.ofWord?_eq_none_iff (w : Word) : ofWord? w = none ↔ 21 < w := by
  rw [ofWord?, List.getElem?_eq_none_iff, UInt16.lt_iff_toNat_lt]
  exact Iff.rfl

namespace Machine

/-! ### What can be wrong -/

/-- The address of the operand at position `i`. Addresses wrap around at the top of
    memory. -/
def operandAddress (m : Machine) (i : Nat) : Word :=
  UInt16.ofNat ((m.ip.toNat + 1 + i) % memorySize)

/-- The word of the operand at position `i`. -/
def operandWord (m : Machine) (i : Nat) : Word := m.memory.read (m.operandAddress i)

/-- The machine is about to execute `op` from its start: it has not halted, the opcode is at
    the instruction pointer, and it is no input instruction that is under way already. -/
structure Begins (m : Machine) (op : Opcode) : Prop where
  halted : m.halted = false
  opcode : m.memory.read m.ip = op.word
  idle : op = .inp → m.inputHere = .idle

/-- Why a step of the machine fails. Each cause takes for granted that there is none of the
    causes before it. -/
inductive Faults (m : Machine) : Fault → Prop
  /-- The machine has halted. -/
  | halted (h : m.halted = true) : Faults m .machineHalted
  /-- The word at the instruction pointer is no opcode. -/
  | opcode (hhalted : m.halted = false) (h : 21 < m.memory.read m.ip) :
      Faults m (.illegalOpcode m.ip (m.memory.read m.ip))
  /-- An operand word encodes no operand, and it is the first one that does not. -/
  | operand {op : Opcode} {i : Nat} (hbegins : m.Begins op) (hi : i < op.arity)
      (hbefore : ∀ j, j < i → m.operandWord j ≤ 32775) (h : 32775 < m.operandWord i) :
      Faults m (.invalidOperand (m.operandAddress i) (m.operandWord i))
  /-- All operands are good, but the instruction takes a stack entry and there is none. -/
  | stack {op : Opcode} (hbegins : m.Begins op)
      (hoperands : ∀ i, i < op.arity → m.operandWord i ≤ 32775) (hop : op = .pop ∨ op = .ret)
      (h : m.stack = []) : Faults m (.stackUnderflow m.ip op)
  /-- All operands are good, but the last one of a remainder is zero. -/
  | divisor {divisor : Operand} (hbegins : m.Begins .mod)
      (hoperands : ∀ i, i < Opcode.mod.arity → m.operandWord i ≤ 32775)
      (hdivisor : Operand.ofWord? (m.operandWord 2) = some divisor)
      (h : m.valueOf divisor = 0) : Faults m (.divisionByZero m.ip)

/-! ### Operands -/

theorem operandAddress_eq (m : Machine) (i : Nat) :
    m.operandAddress i = Word.after m.ip (i + 1) := by
  apply UInt16.toNat_inj.mp
  rw [operandAddress, Word.toNat_ofNat_mod, Word.toNat_after, Nat.add_assoc, Nat.add_comm 1 i]

theorem operandWord_eq (m : Machine) (i : Nat) :
    m.operandWord i = m.memory.read (Word.after m.ip (i + 1)) := by
  rw [operandWord, operandAddress_eq]

theorem exists_operand_iff (m : Machine) (i : Nat) :
    (∃ operand, m.operand i = .ok operand) ↔ m.operandWord i ≤ 32775 := by
  simp only [operand_eq_ok_iff, ← operandWord_eq]
  rw [← Option.isSome_iff_exists]
  exact Operand.ofWord?_isSome_iff _

theorem operand_eq_error_iff (m : Machine) (i : Nat) (fault : Fault) :
    m.operand i = .error fault ↔
      32775 < m.operandWord i ∧ fault = .invalidOperand (m.operandAddress i) (m.operandWord i) := by
  rw [← UInt16.not_le, ← exists_operand_iff, operandWord_eq, operandAddress_eq]
  unfold operand
  cases h : Operand.ofWord? (m.memory.read (Word.after m.ip (i + 1))) with
  | none => simp [h, eq_comm]
  | some operand => simp [h]

/-- Reading the value of an operand is reading the operand first. -/
theorem value_bind {α : Type} (m : Machine) (n : Nat) (next : Word → Except Fault α) :
    (m.value n >>= next) = m.operand n >>= fun operand => next (m.valueOf operand) := by
  unfold value
  cases m.operand n with
  | error fault => rfl
  | ok operand => rfl

/-- An instruction reports the first of its operands that cannot be read, whatever it would
    have done with it. -/
theorem execute_of_operand_error {m : Machine} {op : Opcode} {i : Nat} {fault : Fault}
    (hidle : op = .inp → m.inputHere = .idle) (hi : i < op.arity)
    (hbefore : ∀ j, j < i → ∃ operand, m.operand j = .ok operand)
    (h : m.operand i = .error fault) : m.execute op = .error fault := by
  -- Up to the bad operand, reading one fails or goes on to what comes after it.
  have hread : ∀ n, n ≤ i → ∀ next : Operand → Except Fault Effect,
      (n < i → ∀ a, next a = .error fault) → (m.operand n >>= next) = .error fault := by
    intro n hn next hlater
    by_cases hlt : n < i
    · rcases hbefore n hlt with ⟨a, ha⟩
      rw [ha]
      exact hlater hlt a
    · obtain rfl : n = i := by omega
      rw [h]
      rfl
  -- With no more operands than the instruction has, it cannot get past all of them.
  have hone : op.arity = 1 → ∀ next : Operand → Except Fault Effect,
      (m.operand 0 >>= next) = .error fault := by
    intro harity next
    exact hread 0 (Nat.zero_le i) next fun hpast => by omega
  have htwo : op.arity = 2 → ∀ next : Operand → Operand → Except Fault Effect,
      (m.operand 0 >>= fun a => m.operand 1 >>= next a) = .error fault := by
    intro harity next
    refine hread 0 (Nat.zero_le i) _ fun hpast a => ?_
    exact hread 1 hpast (next a) fun hpast => by omega
  have hthree : op.arity = 3 → ∀ next : Operand → Operand → Operand → Except Fault Effect,
      (m.operand 0 >>= fun a => m.operand 1 >>= fun b => m.operand 2 >>= next a b) =
        .error fault := by
    intro harity next
    refine hread 0 (Nat.zero_le i) _ fun hpast a => ?_
    refine hread 1 hpast _ fun hpast b => ?_
    exact hread 2 hpast (next a b) fun hpast => by omega
  cases op with
  | halt | ret | nop => exact absurd hi (Nat.not_lt_zero i)
  | inp =>
      simp only [execute, inputEffect, hidle rfl]
      exact hone rfl _
  | pop => exact hone rfl _
  | push | jmp | call | out =>
      simp only [execute, value_bind]
      exact hone rfl _
  | set | not | rmem | jt | jf | wmem =>
      simp only [execute, branch, value_bind]
      exact htwo rfl _
  | eq | gt | add | mul | mod | and | or =>
      simp only [execute, binary, value_bind]
      exact hthree rfl _

/-! ### Instructions -/

/-- An instruction whose operands are good has an effect, unless it takes from an empty
    stack or divides by zero. -/
theorem exists_execute {m : Machine} {op : Opcode}
    (hoperands : ∀ i, i < op.arity → ∃ operand, m.operand i = .ok operand)
    (hstack : op = .pop ∨ op = .ret → m.stack ≠ []) (hdivisor : op = .mod → m.value 2 ≠ .ok 0) :
    ∃ e, m.execute op = .ok e := by
  have hvalues : ∀ i, i < op.arity → ∃ w, m.value i = .ok w := by
    intro i hi
    rcases hoperands i hi with ⟨operand, hoperand⟩
    exact ⟨m.valueOf operand, (value_eq_ok_iff _ _ _).mpr ⟨operand, hoperand, rfl⟩⟩
  have htop : op = .pop ∨ op = .ret → ∃ w, m.top op = .ok w := by
    intro hop
    rcases List.exists_cons_of_ne_nil (hstack hop) with ⟨w, rest, hw⟩
    exact ⟨w, (top_eq_ok_iff _ _ _).mpr (by rw [hw, List.head?_cons])⟩
  -- A computation on two values has an effect if it gives a result for them.
  have hbinary : op.arity = 3 → ∀ next compute,
      (∀ b c, m.value 2 = .ok c → ∃ r, compute b c = .ok r) →
        ∃ e, m.binary next compute = .ok e := by
    intro harity next compute hcompute
    rcases hoperands 0 (by omega) with ⟨destination, hdestination⟩
    rcases hvalues 1 (by omega) with ⟨b, hb⟩
    rcases hvalues 2 (by omega) with ⟨c, hc⟩
    rcases hcompute b c hc with ⟨r, hr⟩
    exact ⟨_, (binary_eq_ok_iff _ _ _ _).mpr ⟨destination, b, c, r, hdestination, hb, hc, hr, rfl⟩⟩
  have hbranch : op.arity = 2 → ∀ next taken, ∃ e, m.branch next taken = .ok e := by
    intro harity next taken
    rcases hvalues 0 (by omega) with ⟨condition, hcondition⟩
    rcases hvalues 1 (by omega) with ⟨target, htarget⟩
    exact ⟨_, (branch_eq_ok_iff _ _ _ _).mpr ⟨condition, target, hcondition, htarget, rfl⟩⟩
  cases op with
  | halt | nop => exact ⟨_, rfl⟩
  | eq | gt | add | mul | and | or => exact hbinary rfl _ _ fun b c _ => ⟨_, rfl⟩
  | mod =>
      refine hbinary rfl _ _ fun b c hc => ?_
      have hne : c ≠ 0 := by
        rintro rfl
        exact hdivisor rfl hc
      exact ⟨b % c, if_neg hne⟩
  | jt | jf => exact hbranch rfl _ _
  | inp =>
      rcases hoperands 0 (by decide) with ⟨destination, hdestination⟩
      simp only [execute, inputEffect]
      split
      · exact ⟨_, (bind_eq_ok_iff _ _ _).mpr ⟨destination, hdestination, rfl⟩⟩
      · exact ⟨_, rfl⟩
      · exact ⟨_, rfl⟩
  | ret =>
      rcases htop (Or.inr rfl) with ⟨w, hw⟩
      exact ⟨_, (bind_eq_ok_iff _ _ _).mpr ⟨w, hw, rfl⟩⟩
  | pop =>
      rcases hoperands 0 (by decide) with ⟨destination, hdestination⟩
      rcases htop (Or.inl rfl) with ⟨w, hw⟩
      exact ⟨_, (bind_eq_ok_iff _ _ _).mpr ⟨destination, hdestination,
        (bind_eq_ok_iff _ _ _).mpr ⟨w, hw, rfl⟩⟩⟩
  | push | jmp | call | out =>
      rcases hvalues 0 (by decide) with ⟨w, hw⟩
      exact ⟨_, (bind_eq_ok_iff _ _ _).mpr ⟨w, hw, rfl⟩⟩
  | set | not | rmem =>
      rcases hoperands 0 (by decide) with ⟨destination, hdestination⟩
      rcases hvalues 1 (by decide) with ⟨w, hw⟩
      exact ⟨_, (bind_eq_ok_iff _ _ _).mpr ⟨destination, hdestination,
        (bind_eq_ok_iff _ _ _).mpr ⟨w, hw, rfl⟩⟩⟩
  | wmem =>
      rcases hvalues 0 (by decide) with ⟨address, haddress⟩
      rcases hvalues 1 (by decide) with ⟨w, hw⟩
      exact ⟨_, (bind_eq_ok_iff _ _ _).mpr ⟨address, haddress,
        (bind_eq_ok_iff _ _ _).mpr ⟨w, hw, rfl⟩⟩⟩

/-- With good operands, taking from an empty stack fails. -/
theorem execute_of_empty_stack {m : Machine} {op : Opcode} (hop : op = .pop ∨ op = .ret)
    (hoperands : ∀ i, i < op.arity → ∃ operand, m.operand i = .ok operand) (h : m.stack = []) :
    m.execute op = .error (.stackUnderflow m.ip op) := by
  have htop : m.top op = .error (.stackUnderflow m.ip op) := by
    unfold top
    rw [h]
  rcases hop with rfl | rfl
  · rcases hoperands 0 (by decide) with ⟨destination, hdestination⟩
    simp only [execute, hdestination, htop]
    rfl
  · simp only [execute, htop]
    rfl

/-! ### Steps -/

theorem effect_of_begins {m : Machine} {op : Opcode} (h : m.Begins op) :
    m.effect = m.execute op := by
  simp only [effect, h.halted, h.opcode, Opcode.ofWord?_word, Bool.false_eq_true, if_false]

/-- What is wrong with the next instruction is what a step reports. -/
theorem effect_of_faults {m : Machine} {fault : Fault} (h : m.Faults fault) :
    m.effect = .error fault := by
  cases h with
  | halted h => rw [effect, if_pos h]
  | opcode hhalted h =>
      simp only [effect, hhalted, (Opcode.ofWord?_eq_none_iff _).mpr h, Bool.false_eq_true,
        if_false]
  | operand hbegins hi hbefore h =>
      rw [effect_of_begins hbegins]
      exact execute_of_operand_error hbegins.idle hi
        (fun j hj => (exists_operand_iff _ _).mpr (hbefore j hj))
        ((operand_eq_error_iff _ _ _).mpr ⟨h, rfl⟩)
  | stack hbegins hoperands hop h =>
      rw [effect_of_begins hbegins]
      exact execute_of_empty_stack hop
        (fun i hi => (exists_operand_iff _ _).mpr (hoperands i hi)) h
  | divisor hbegins hoperands hdivisor h =>
      rw [effect_of_begins hbegins]
      rcases (exists_operand_iff _ _).mpr (hoperands 0 (by decide)) with ⟨_, hdestination⟩
      rcases (exists_operand_iff _ _).mpr (hoperands 1 (by decide)) with ⟨dividend, hdividend⟩
      rw [operandWord_eq, ← operand_eq_ok_iff] at hdivisor
      exact execute_of_zero_divisor hdestination
        ((value_eq_ok_iff _ _ _).mpr ⟨dividend, hdividend, rfl⟩)
        ((value_eq_ok_iff _ _ _).mpr ⟨_, hdivisor, h⟩)

/-- If nothing is wrong with an instruction that is about to be executed, it has an
    effect. -/
theorem exists_execute_of_not_faults {m : Machine} {op : Opcode} (hbegins : m.Begins op)
    (h : ∀ fault, ¬ m.Faults fault) : ∃ e, m.execute op = .ok e := by
  have hoperands : ∀ i, i < op.arity → m.operandWord i ≤ 32775 := by
    -- Going up, an operand that is bad would be the first one.
    intro i
    induction i using Nat.strongRecOn with
    | ind i ih =>
        intro hi
        by_contra hbad
        exact h _ (Faults.operand hbegins hi (fun j hj => ih j hj (by omega))
          (UInt16.not_le.mp hbad))
  refine exists_execute (fun i hi => (exists_operand_iff _ _).mpr (hoperands i hi)) ?_ ?_
  · intro hop hempty
    exact h _ (Faults.stack hbegins hoperands hop hempty)
  · rintro rfl hzero
    rcases (value_eq_ok_iff _ _ _).mp hzero with ⟨divisor, hdivisor, hvalue⟩
    rw [operand_eq_ok_iff, ← operandWord_eq] at hdivisor
    exact h _ (Faults.divisor hbegins hoperands hdivisor hvalue)

/-- If nothing is wrong, a step has an effect. -/
theorem exists_effect_of_not_faults {m : Machine} (h : ∀ fault, ¬ m.Faults fault) :
    ∃ e, m.effect = .ok e := by
  have hhalted : m.halted = false := by
    by_contra hhalted
    exact h _ (Faults.halted (by simpa using hhalted))
  rcases hop : Opcode.ofWord? (m.memory.read m.ip) with _ | op
  · exact absurd (Faults.opcode hhalted ((Opcode.ofWord?_eq_none_iff _).mp hop)) (h _)
  have hword : m.memory.read m.ip = op.word := (Opcode.word_of_ofWord? hop).symm
  simp only [effect_eq_ok_iff, hhalted, hop, Option.some.injEq, true_and, exists_eq_left']
  by_cases hidle : op = .inp → m.inputHere = .idle
  · exact exists_execute_of_not_faults ⟨hhalted, hword, hidle⟩ h
  · -- An input instruction that is under way only looks at how far it is.
    rw [Classical.not_imp] at hidle
    rcases hidle with ⟨rfl, hunderway⟩
    simp only [execute, inputEffect]
    split
    · rename_i hidle
      exact absurd hidle hunderway
    · exact ⟨_, rfl⟩
    · exact ⟨_, rfl⟩

/-- A step fails exactly with what is wrong. -/
theorem result_step_eq_error_iff (m : Machine) (fault : Fault) :
    m.step.result = .error fault ↔ m.Faults fault := by
  rw [step_result_eq_error_iff]
  constructor
  · intro herror
    by_contra hnot
    -- Something else cannot be wrong, since that would be reported instead.
    have hnone : ∀ other, ¬ m.Faults other := by
      intro other hother
      have hsame : fault = other := by
        rw [effect_of_faults hother] at herror
        exact (Except.error.inj herror).symm
      exact hnot (hsame ▸ hother)
    rcases exists_effect_of_not_faults hnone with ⟨e, he⟩
    rw [he] at herror
    cases herror
  · exact effect_of_faults

/-- A step fails exactly if something is wrong, with the first thing that is: the machine has
    halted, the word at the instruction pointer is no opcode, an operand word encodes no
    operand, the stack is empty, or the divisor is zero. Otherwise it succeeds. -/
theorem step_fails_exactly (m : Machine) :
    (∀ fault, m.step.result = .error fault ↔ m.Faults fault) ∧
      ((∃ report, m.step.result = .ok report) ↔ ∀ fault, ¬ m.Faults fault) := by
  refine ⟨m.result_step_eq_error_iff, ?_⟩
  simp only [← result_step_eq_error_iff]
  cases m.step.result with
  | ok report => simp
  | error fault => simp

end Machine

end WordMachine
