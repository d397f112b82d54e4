import WordMachine.Proofs.Machine.Frame

/-!
# Arithmetic Instructions

What the instructions that compute leave in their destination.

`Opcode.result?` says on plain numbers what each of them computes, with no word of any width
in sight. The instructions compute on words. They agree with it because a source is a value
of fifteen bits, so that sums and products of two of them fit in thirty-two bits before they
are reduced, the bitwise operations have no bit to lose, and the complement in sixteen bits,
cut down to fifteen, is what is missing to the largest value.

Sources are read before anything is written. So it makes no difference if the destination is
one of the sources, or a cell in which the instruction itself stands.

## Main definitions

* `Opcode.arithmetic`: The instructions that compute.
* `Opcode.result?`: What they compute, on numbers.

## Theorems

* `Word.toNat_sum`, `Word.toNat_product`, `Word.toNat_complement`, `Word.toNat_ofTruth`:
  Arithmetic on words as arithmetic on numbers.
* `Word.toNat_add_of_wide`, `Word.toNat_mul_of_wide`: Thirty-two bits are enough.
* `Machine.binary_of_operandWords`, `Machine.execute_not`: Two sources, and a single one.
* `Machine.execute_arithmetic`: The effect of an instruction that computes.
* `Machine.step_arithmetic`: The step of an instruction that computes.
* `Machine.arithmetic_is_exact`: What the step leaves in the machine.
-/

namespace WordMachine

namespace Word

theorem toNat_sum (b c : Word) : (sum b c).toNat = (b.toNat + c.toNat) % memorySize :=
  toNat_ofNat_mod _

theorem toNat_product (b c : Word) : (product b c).toNat = b.toNat * c.toNat % memorySize :=
  toNat_ofNat_mod _

/-- The complement of a value is what is missing to the largest value. -/
theorem toNat_complement {b : Word} (h : b.IsValue) :
    (complement b).toNat = memorySize - 1 - b.toNat := by
  have hlt : b.toNat < memorySize := h
  rw [complement, toNat_low, UInt16.toNat_not]
  simp only [UInt16.size, memorySize] at hlt ⊢
  omega

theorem toNat_ofTruth (b : Bool) : (ofTruth b).toNat = if b then 1 else 0 := by
  cases b <;> rfl

/-- The sum of two words does not overflow in thirty-two bits. -/
theorem toNat_add_of_wide (b c : Word) :
    (b.toUInt32 + c.toUInt32).toNat = b.toNat + c.toNat := by
  have hb := b.toNat_lt
  have hc := c.toNat_lt
  rw [UInt32.toNat_add, UInt16.toNat_toUInt32, UInt16.toNat_toUInt32]
  omega

/-- The product of two words does not overflow in thirty-two bits. -/
theorem toNat_mul_of_wide (b c : Word) :
    (b.toUInt32 * c.toUInt32).toNat = b.toNat * c.toNat := by
  have hlt : b.toNat * c.toNat < 2 ^ 16 * 2 ^ 16 := Nat.mul_lt_mul'' b.toNat_lt c.toNat_lt
  rw [← Nat.pow_add] at hlt
  rw [UInt32.toNat_mul, UInt16.toNat_toUInt32, UInt16.toNat_toUInt32, Nat.mod_eq_of_lt hlt]

end Word

namespace Opcode

/-- The instructions that compute a value from their sources, and do nothing else. -/
def arithmetic : List Opcode := [.add, .mul, .mod, .and, .or, .not, .eq, .gt]

/-- The number that an instruction computes from those that its sources stand for. -/
def result? : Opcode → List Nat → Option Nat
  | .add, [b, c] => some ((b + c) % memorySize)
  | .mul, [b, c] => some (b * c % memorySize)
  | .mod, [b, c] => if c = 0 then none else some (b % c)
  | .and, [b, c] => some (b &&& c)
  | .or, [b, c] => some (b ||| c)
  | .not, [b] => some (memorySize - 1 - b)
  | .eq, [b, c] => some (if b = c then 1 else 0)
  | .gt, [b, c] => some (if b > c then 1 else 0)
  | _, _ => none

end Opcode

namespace Machine

/-! ### Operands that are known -/

section Operands

variable {m : Machine} {op : Opcode} {destination : Operand} {sources : List Operand}

theorem operand_of_operandWords {operands : List Operand}
    (h : (Instruction.operandWords m.memory m.ip op).map Operand.ofWord? = operands.map some)
    {i : Nat} {operand : Operand} (hi : operands[i]? = some operand) :
    m.operand i = .ok operand := by
  have hat := congrArg (·[i]?) h
  simp only [Instruction.operandWords_eq, List.map_map, List.getElem?_map, hi, Option.map_some] at hat
  rcases Option.map_eq_some_iff.mp hat with ⟨n, hn, hword⟩
  rw [List.getElem?_eq_some_iff] at hn
  rcases hn with ⟨_, hn⟩
  rw [List.getElem_range] at hn
  subst hn
  exact (operand_eq_ok_iff _ _ _).mpr hword

theorem value_of_operandWords
    (h : (Instruction.operandWords m.memory m.ip op).map Operand.ofWord? =
      (destination :: sources).map some) {i : Nat} {source : Operand}
    (hi : sources[i]? = some source) : m.value (i + 1) = .ok (m.valueOf source) :=
  (value_eq_ok_iff _ _ _).mpr ⟨source, operand_of_operandWords h hi, rfl⟩

theorem length_of_operandWords
    (h : (Instruction.operandWords m.memory m.ip op).map Operand.ofWord? =
      (destination :: sources).map some) : sources.length + 1 = op.arity := by
  have hlength := congrArg List.length h
  simpa [Instruction.operandWords_eq] using hlength.symm

/-! ### Steps -/

/-- An instruction with two sources writes what it computes from their values. -/
theorem binary_of_operandWords {b c : Operand}
    (hoperands : (Instruction.operandWords m.memory m.ip op).map Operand.ofWord? =
      [destination, b, c].map some) (next : Word) (compute : Word → Word → Except Fault Word)
    {value : Word} (h : compute (m.valueOf b) (m.valueOf c) = .ok value) :
    m.binary next compute = .ok { next := next, write := some (destination, value) } := by
  have hdestination : m.operand 0 = .ok destination := operand_of_operandWords hoperands rfl
  have hb : m.value 1 = .ok (m.valueOf b) := value_of_operandWords hoperands rfl
  have hc : m.value 2 = .ok (m.valueOf c) := value_of_operandWords hoperands rfl
  exact (binary_eq_ok_iff _ _ _ _).mpr ⟨destination, _, _, value, hdestination, hb, hc, h, rfl⟩

/-- The complement is the one instruction that computes from a single source. -/
theorem execute_not (hregisters : ∀ w ∈ m.registers, w.IsValue) {b : Operand}
    (hoperands : (Instruction.operandWords m.memory m.ip .not).map Operand.ofWord? =
      [destination, b].map some) :
    ∃ value : Word, value.toNat = memorySize - 1 - (m.valueOf b).toNat ∧
      m.execute .not = .ok { next := Word.after m.ip 3, write := some (destination, value) } := by
  have hdestination : m.operand 0 = .ok destination := operand_of_operandWords hoperands rfl
  have hb : m.value 1 = .ok (m.valueOf b) := value_of_operandWords hoperands rfl
  have hvalue : (m.valueOf b).IsValue := isValue_of_value hregisters hb
  refine ⟨Word.complement (m.valueOf b), Word.toNat_complement hvalue, ?_⟩
  exact (bind_eq_ok_iff _ _ _).mpr
    ⟨destination, hdestination, (bind_eq_ok_iff _ _ _).mpr ⟨_, hb, rfl⟩⟩

/-- An instruction that computes writes its result to its destination, and goes on. -/
theorem execute_arithmetic (hregisters : ∀ w ∈ m.registers, w.IsValue)
    (hop : op ∈ Opcode.arithmetic)
    (hoperands : (Instruction.operandWords m.memory m.ip op).map Operand.ofWord? =
      (destination :: sources).map some)
    (hdivisor : op = .mod → m.value 2 ≠ .ok 0) :
    ∃ value : Word, op.result? (sources.map fun s => (m.valueOf s).toNat) = some value.toNat ∧
      m.execute op =
        .ok { next := Word.after m.ip op.size, write := some (destination, value) } := by
  have hlength := length_of_operandWords hoperands
  simp only [Opcode.arithmetic, List.mem_cons, List.not_mem_nil, or_false] at hop
  by_cases hnot : op = .not
  · subst hnot
    have hone : sources.length = 1 := Nat.succ.inj hlength
    obtain ⟨b, rfl⟩ := List.length_eq_one_iff.mp hone
    rcases execute_not hregisters hoperands with ⟨value, hvalue, hexecute⟩
    exact ⟨value, by rw [hvalue]; rfl, hexecute⟩
  · have harity : op.arity = 3 := by
      rcases hop with rfl | rfl | rfl | rfl | rfl | rfl | rfl | rfl <;> first | rfl | contradiction
    obtain ⟨b, c, rfl⟩ := List.length_eq_two.mp (show sources.length = 2 by omega)
    have hbinary := binary_of_operandWords hoperands (Word.after m.ip op.size)
    rcases hop with rfl | rfl | rfl | rfl | rfl | rfl | rfl | rfl
    · exact ⟨_, by rw [Word.toNat_sum]; rfl, hbinary _ rfl⟩
    · exact ⟨_, by rw [Word.toNat_product]; rfl, hbinary _ rfl⟩
    · -- A divisor that is no zero word is no zero number.
      have hc : m.value 2 = .ok (m.valueOf c) := value_of_operandWords hoperands rfl
      have hne : m.valueOf c ≠ 0 := by
        intro hzero
        exact hdivisor rfl (by rw [hc, hzero])
      have hpos : (m.valueOf c).toNat ≠ 0 := fun hzero => hne (UInt16.toNat_inj.mp hzero)
      refine ⟨m.valueOf b % m.valueOf c, ?_, hbinary _ (if_neg hne)⟩
      rw [UInt16.toNat_mod]
      exact if_neg hpos
    · exact ⟨_, by rw [UInt16.toNat_and]; rfl, hbinary _ rfl⟩
    · exact ⟨_, by rw [UInt16.toNat_or]; rfl, hbinary _ rfl⟩
    · exact absurd rfl hnot
    · refine ⟨_, ?_, hbinary _ rfl⟩
      simp only [Word.toNat_ofTruth, beq_iff_eq, ← UInt16.toNat_inj]
      rfl
    · refine ⟨_, ?_, hbinary _ rfl⟩
      simp only [Word.toNat_ofTruth, decide_eq_true_eq, gt_iff_lt, UInt16.lt_iff_toNat_lt]
      rfl

/-- The step of an instruction that computes. -/
theorem step_arithmetic (hhalted : m.halted = false) (hregisters : ∀ w ∈ m.registers, w.IsValue)
    (hword : m.memory.read m.ip = op.word) (hop : op ∈ Opcode.arithmetic)
    (hoperands : (Instruction.operandWords m.memory m.ip op).map Operand.ofWord? =
      (destination :: sources).map some)
    (hdivisor : op = .mod → m.value 2 ≠ .ok 0) :
    ∃ value : Word, op.result? (sources.map fun s => (m.valueOf s).toNat) = some value.toNat ∧
      m.step = ⟨.ok .none, { m.store destination value with ip := Word.after m.ip op.size }⟩ := by
  rcases execute_arithmetic hregisters hop hoperands hdivisor with ⟨value, hresult, hexecute⟩
  refine ⟨value, hresult, ?_⟩
  have hopcode : Opcode.ofWord? (m.memory.read m.ip) = some op := by
    rw [hword, Opcode.ofWord?_word]
  rw [step_of_execute hhalted hopcode hexecute]
  simp only [Effect.apply, StackMove.apply, Option.getD_none, Bool.or_false]

/-- An instruction that computes leaves in its destination the number that it should be, on
    the values that its sources had before the step. Control goes on behind the instruction,
    and everything else stays as it is. The sums and products on the way do not overflow. -/
theorem arithmetic_is_exact (hhalted : m.halted = false)
    (hregisters : ∀ w ∈ m.registers, w.IsValue) (hword : m.memory.read m.ip = op.word)
    (hop : op ∈ Opcode.arithmetic)
    (hoperands : (Instruction.operandWords m.memory m.ip op).map Operand.ofWord? =
      (destination :: sources).map some)
    (hdivisor : op = .mod → m.value 2 ≠ .ok 0) :
    ∃ (m' : Machine) (value : Word), m.step = ⟨.ok .none, m'⟩ ∧
      op.result? (sources.map fun s => (m.valueOf s).toNat) = some value.toNat ∧
      m.Writes m' value destination ∧ m'.ip.toNat = (m.ip.toNat + op.size) % memorySize ∧
      m'.stack = m.stack ∧ m'.wordCount = m.wordCount ∧ m'.halted = m.halted ∧
      m'.input = m.input ∧
      ∀ b ∈ sources, ∀ c ∈ sources,
        ((m.valueOf b).toUInt32 + (m.valueOf c).toUInt32).toNat =
          (m.valueOf b).toNat + (m.valueOf c).toNat ∧
        ((m.valueOf b).toUInt32 * (m.valueOf c).toUInt32).toNat =
          (m.valueOf b).toNat * (m.valueOf c).toNat := by
  rcases step_arithmetic hhalted hregisters hword hop hoperands hdivisor with
    ⟨value, hresult, hstep⟩
  have hdestination : m.operand 0 = .ok destination := operand_of_operandWords hoperands rfl
  have hplace : destination.InRange := inRange_of_operand hdestination
  refine ⟨_, value, hstep, hresult, writes_of_store hplace rfl rfl, Word.toNat_after _ _,
    m.stack_store _ _, ?_, ?_, ?_, fun b _ c _ => ⟨Word.toNat_add_of_wide _ _,
      Word.toNat_mul_of_wide _ _⟩⟩
  · cases destination <;> rfl
  · cases destination <;> rfl
  · cases destination <;> rfl

end Operands

/-- A machine near the top of memory that is about to add a register to itself, into the cell
    of the opcode of that very instruction. The last two operands stand at the bottom. -/
def doubling : Machine :=
  { empty.store (.register 0) 20000 with
    memory := ((Memory.image [32768, 32768]).write 32766 9).write 32767 32766
    ip := 32766 }

/-- The sum is reduced, and takes the place of the opcode. -/
theorem arithmetic_is_exact_doubling :
    doubling.valueOf (.register 0) = 20000 ∧
    ∃ m', doubling.step = ⟨.ok .none, m'⟩ ∧ doubling.Writes m' 7232 (.literal 32766) ∧
      m'.ip.toNat = 2 ∧ m'.stack = [] := by
  have hread : ∀ address, doubling.memory.read address =
      if Word.cell 32767 = Word.cell address then 32766
        else if Word.cell 32766 = Word.cell address then 9
          else [32768, 32768].getD (Word.cell address).val 0 := by
    intro address
    change (((Memory.image [32768, 32768]).write 32766 9).write 32767 32766).read address = _
    rw [Memory.read_write, Memory.read_write, Memory.read_image]
  have hword : doubling.memory.read doubling.ip = Opcode.add.word := by
    rw [hread]
    decide
  have hoperands : (Instruction.operandWords doubling.memory doubling.ip .add).map
      Operand.ofWord? = [Operand.literal 32766, .register 0, .register 0].map some := by
    simp only [Instruction.operandWords, hread]
    decide
  have hregisters : ∀ w ∈ doubling.registers, w.IsValue :=
    (inRange_store inRange_empty (.register 0) (by decide)).registers
  have hregister : doubling.valueOf (.register 0) = 20000 := by decide
  rcases arithmetic_is_exact rfl hregisters hword (by decide) hoperands
      (fun hmod => absurd hmod (by decide)) with
    ⟨m', value, hstep, hresult, hwrites, hip, hstack, _⟩
  have hvalue : value = 7232 := by
    simp only [List.map_cons, List.map_nil, hregister] at hresult
    have hsum : some (UInt16.toNat 7232) = some value.toNat := hresult
    exact (UInt16.toNat_inj.mp (Option.some.inj hsum)).symm
  exact ⟨hregister, m', hstep, hvalue ▸ hwrites, hip, hstack⟩

end Machine

end WordMachine
