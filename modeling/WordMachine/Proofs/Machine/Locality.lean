import WordMachine.Proofs.Loading
import WordMachine.Proofs.Machine.Frame

/-!
# What a Step Depends On

A step looks at the words of its own instruction and at no other memory.

The law is about two machines at once. If they agree outside of memory and on the words of
the instruction that is next, then whatever their memories hold elsewhere, the step has the
same result in both, leaves them in agreement outside of memory, and writes the same word to
the same cell, if it writes to one at all. `RMEM` is the one instruction that reads a cell
it does not stand in, and for it that cell has to agree too, if its operands are good
enough for the cell to be read.

What an instruction does is worked out before anything is touched, so the argument is an
equation between two effects (`Machine.effect_congr`). Everything else is about carrying out
one and the same effect on two machines.

## Main definitions

* `Machine.AgreesHere`: Two machines between which the next step cannot tell.

## Theorems

* `Machine.execute_congr`: An instruction depends on its operands, and `RMEM` on one cell.
* `Machine.effect_congr`: Machines that agree have the same effect next.
* `Effect.memory_apply_congr`: One effect on two memories.
* `Machine.step_is_local`: Machines that agree take the same step.
-/

namespace WordMachine

namespace Machine

/-- The machines agree outside of memory, on the words of the next instruction, and, if that
    is an `RMEM` with good operands, on the cell that it reads. The lengths of their programs
    may differ. -/
structure AgreesHere (m m' : Machine) : Prop where
  ip : m'.ip = m.ip
  registers : m'.registers = m.registers
  stack : m'.stack = m.stack
  halted : m'.halted = m.halted
  input : m'.input = m.input
  words : ∀ n, n < m.sizeAt m.ip →
    m'.memory.read (Word.after m.ip n) = m.memory.read (Word.after m.ip n)
  source : m.memory.read m.ip = Opcode.rmem.word → ∀ destination address,
    m.operand 0 = .ok destination → m.value 1 = .ok address →
      m'.memory.read address = m.memory.read address

/-! ### Effects -/

section Congruence

variable {m m' : Machine}

theorem valueOf_congr (h : m'.registers = m.registers) (operand : Operand) :
    m'.valueOf operand = m.valueOf operand := by
  cases operand with
  | literal value => rfl
  | register index => rw [valueOf, valueOf, register, register, h]

theorem value_congr (h : m'.registers = m.registers) {n : Nat}
    (hoperand : m'.operand n = m.operand n) : m'.value n = m.value n := by
  rw [value, value, hoperand]
  simp only [valueOf_congr h]

theorem top_congr (hip : m'.ip = m.ip) (hstack : m'.stack = m.stack) (op : Opcode) :
    m'.top op = m.top op := by
  rw [top, top, hip, hstack]

theorem inputHere_congr (hip : m'.ip = m.ip) (hinput : m'.input = m.input) :
    m'.inputHere = m.inputHere := by
  rw [inputHere_eq, inputHere_eq, hip, hinput]

/-- What an instruction does depends on its operands, on the machine outside of memory and,
    for `RMEM`, on the cell that it reads. -/
theorem execute_congr {op : Opcode} (hip : m'.ip = m.ip) (hregisters : m'.registers = m.registers)
    (hstack : m'.stack = m.stack) (hinput : m'.input = m.input)
    (hoperands : ∀ n, n < op.arity → m'.operand n = m.operand n)
    (hsource : op = .rmem → ∀ destination address, m.operand 0 = .ok destination →
      m.value 1 = .ok address → m'.memory.read address = m.memory.read address) :
    m'.execute op = m.execute op := by
  have hvalues : ∀ n, n < op.arity → m'.value n = m.value n := fun n hn =>
    value_congr hregisters (hoperands n hn)
  cases op with
  | halt | nop => rw [execute, execute, hip]
  | push | jmp | call | out =>
      have hvalue := hvalues 0 (by decide)
      simp only [execute, hip, hvalue]
  | pop =>
      have hoperand := hoperands 0 (by decide)
      simp only [execute, hip, hoperand, top_congr hip hstack]
  | ret => simp only [execute, top_congr hip hstack]
  | jt | jf =>
      have hcondition := hvalues 0 (by decide)
      have htarget := hvalues 1 (by decide)
      simp only [execute, branch, hip, hcondition, htarget]
  | set | not =>
      have hoperand := hoperands 0 (by decide)
      have hvalue := hvalues 1 (by decide)
      simp only [execute, hip, hoperand, hvalue]
  | wmem =>
      have haddress := hvalues 0 (by decide)
      have hvalue := hvalues 1 (by decide)
      simp only [execute, hip, haddress, hvalue]
  | eq | gt | add | mul | mod | and | or =>
      have hoperand := hoperands 0 (by decide)
      have hb := hvalues 1 (by decide)
      have hc := hvalues 2 (by decide)
      simp only [execute, binary, hip, hoperand, hb, hc]
  | inp =>
      have hoperand := hoperands 0 (by decide)
      simp only [execute, inputEffect, hip, inputHere_congr hip hinput, hoperand]
  | rmem =>
      have hoperand := hoperands 0 (by decide)
      have hvalue := hvalues 1 (by decide)
      simp only [execute, hip, hoperand, hvalue]
      -- The cell is read only after both operands.
      cases hdestination : m.operand 0 with
      | error fault => rfl
      | ok destination =>
          cases haddress : m.value 1 with
          | error fault => rfl
          | ok address =>
              have hread := hsource rfl destination address hdestination haddress
              simp only [bind, Except.bind, hread]

/-- Machines that agree have the same effect next. -/
theorem effect_congr (h : m.AgreesHere m') : m'.effect = m.effect := by
  have hword : m'.memory.read m'.ip = m.memory.read m.ip := by
    have hfirst := h.words 0 (Instruction.sizeAt_pos _ _)
    have hzero : Word.after m.ip 0 = Word.low m.ip := by
      rw [Word.after, show UInt16.ofNat 0 = 0 from rfl, UInt16.add_zero]
    rw [hzero, Memory.read_low, Memory.read_low] at hfirst
    rw [h.ip, hfirst]
  rw [effect, effect, h.halted, hword, h.ip]
  cases hop : Opcode.ofWord? (m.memory.read m.ip) with
  | none => simp only [hop]
  | some op =>
      have hexecute : m'.execute op = m.execute op := by
        refine execute_congr h.ip h.registers h.stack h.input ?_ ?_
        · intro n hn
          -- The operand is one of the words after the first.
          have hlt : n + 1 < m.sizeAt m.ip := by
            rw [sizeAt_of_opcode hop, op.size_eq]
            omega
          rw [operand, operand, h.ip, h.words (n + 1) hlt]
        · rintro rfl
          exact h.source (Opcode.word_of_ofWord? hop).symm
      simp only [hop, hexecute]

end Congruence

end Machine

/-! ### Steps -/

/-- An effect leaves a cell as it was in both of two memories, or gives it one and the same
    word. -/
theorem Effect.memory_apply_congr (e : Effect) (m m' : Machine) (address : Word) :
    ((e.apply m).memory.read address = m.memory.read address ∧
        (e.apply m').memory.read address = m'.memory.read address) ∨
      (e.apply m').memory.read address = (e.apply m).memory.read address := by
  rcases hwrite : e.write with _ | ⟨place, value⟩
  · refine Or.inl ⟨?_, ?_⟩ <;>
    · unfold apply
      rw [hwrite]
  · have hmemory : ∀ s : Machine, (e.apply s).memory = (s.store place value).memory := by
      intro s
      unfold apply
      rw [hwrite]
    rw [hmemory, hmemory]
    cases place with
    | register index => exact Or.inl ⟨rfl, rfl⟩
    | literal written =>
        change _ ∨ (m'.memory.write written value).read address =
          (m.memory.write written value).read address
        by_cases hcell : Word.cell written = Word.cell address
        · refine Or.inr ?_
          rw [Memory.read_write, Memory.read_write, if_pos hcell, if_pos hcell]
        · refine Or.inl ⟨?_, ?_⟩ <;>
          · change Memory.read (Memory.write _ written value) address = _
            rw [Memory.read_write, if_neg hcell]

theorem Effect.registers_apply_congr (e : Effect) {m m' : Machine}
    (h : m'.registers = m.registers) : (e.apply m').registers = (e.apply m).registers := by
  unfold apply
  rcases e.write with _ | ⟨place, value⟩
  · exact h
  · cases place with
    | register index => simp only [Machine.store, h]
    | literal address => exact h

namespace Machine

/-- Two machines that agree outside of memory, on the words of the next instruction and on the
    cell it reads, if it reads one, take the same step: with the same result, to machines
    that agree outside of memory, and with every cell unchanged in both or with the same word
    in both. -/
theorem step_is_local {m m' : Machine} (h : m.AgreesHere m') :
    m'.step.result = m.step.result ∧
    m'.step.machine.ip = m.step.machine.ip ∧
    m'.step.machine.registers = m.step.machine.registers ∧
    m'.step.machine.stack = m.step.machine.stack ∧
    m'.step.machine.halted = m.step.machine.halted ∧
    m'.step.machine.input = m.step.machine.input ∧
    ∀ address,
      (m.step.machine.memory.read address = m.memory.read address ∧
        m'.step.machine.memory.read address = m'.memory.read address) ∨
      m'.step.machine.memory.read address = m.step.machine.memory.read address := by
  have heffect := effect_congr h
  cases he : m.effect with
  | error fault =>
      rw [step_of_error he, step_of_error (heffect.trans he)]
      exact ⟨rfl, h.ip, h.registers, h.stack, h.halted, h.input, fun _ => Or.inl ⟨rfl, rfl⟩⟩
  | ok e =>
      rw [step_of_ok he, step_of_ok (heffect.trans he)]
      refine ⟨rfl, rfl, e.registers_apply_congr h.registers, ?_, ?_, ?_,
        e.memory_apply_congr m m'⟩
      · rw [e.stack_apply, e.stack_apply, h.stack]
      · rw [e.halted_apply, e.halted_apply, h.halted]
      · rw [e.input_apply, e.input_apply, h.input]

/-- A machine at the top of memory that is about to read cell five into a register. The
    operands stand at the bottom. -/
def fetching : Machine :=
  { empty with memory := (Memory.image [32769, 5, 0, 0, 0, 42]).write 32767 15, ip := 32767 }

/-- The same machine with a longer program, and another word in a cell that is not read. -/
def fetchingElsewhere : Machine :=
  { fetching with memory := fetching.memory.write 9 7, wordCount := 10 }

/-- Both take the same step. -/
theorem step_is_local_fetching :
    fetching.AgreesHere fetchingElsewhere ∧
    fetchingElsewhere.memory.read 9 ≠ fetching.memory.read 9 ∧
    fetching.step.result = .ok .none ∧ fetchingElsewhere.step.result = .ok .none ∧
    fetchingElsewhere.step.machine.registers = fetching.step.machine.registers := by
  have hread : ∀ address, fetching.memory.read address =
      if Word.cell 32767 = Word.cell address then 15
        else [32769, 5, 0, 0, 0, 42].getD (Word.cell address).val 0 := by
    intro address
    change ((Memory.image [32769, 5, 0, 0, 0, 42]).write 32767 15).read address = _
    rw [Memory.read_write, Memory.read_image]
  have hother : ∀ address, fetchingElsewhere.memory.read address =
      if Word.cell 9 = Word.cell address then 7 else fetching.memory.read address :=
    fun address => fetching.memory.read_write 9 address 7
  have hop : Opcode.ofWord? (fetching.memory.read fetching.ip) = some .rmem := by
    rw [hread]
    decide
  have hdestination : fetching.operand 0 = .ok (.register 1) := by
    rw [operand_eq_ok_iff, hread]
    decide
  have haddress : fetching.value 1 = .ok 5 := by
    refine value_of_literal ?_
    rw [hread]
    decide
  have hagrees : fetching.AgreesHere fetchingElsewhere := by
    refine ⟨rfl, rfl, rfl, rfl, rfl, ?_, ?_⟩
    · rw [sizeAt_of_opcode hop]
      intro n hn
      have hapart : ∀ n, n < Opcode.rmem.size → Word.cell 9 ≠ Word.cell (Word.after 32767 n) := by
        decide
      exact (hother _).trans (if_neg (hapart n hn))
    · intro _ destination address _ hvalue
      rw [haddress] at hvalue
      rw [hother, ← Except.ok.inj hvalue]
      exact if_neg (by decide)
  have he : fetching.execute .rmem = .ok _ := (bind_eq_ok_iff _ _ _).mpr
    ⟨_, hdestination, (bind_eq_ok_iff _ _ _).mpr ⟨5, haddress, rfl⟩⟩
  have hresult : fetching.step.result = .ok .none := by
    rw [step_of_execute rfl hop he]
  have hdiffer : fetchingElsewhere.memory.read 9 ≠ fetching.memory.read 9 := by
    rw [hother, if_pos rfl, hread]
    decide
  have hlocal := step_is_local hagrees
  exact ⟨hagrees, hdiffer, hresult, hlocal.1.trans hresult, hlocal.2.2.1⟩

end Machine

end WordMachine
