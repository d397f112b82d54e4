import WordMachine.Proofs.Host
import WordMachine.Proofs.Listing.Walk
import WordMachine.Proofs.Machine.Arithmetic

/-!
# Code in Sequence

Instructions that are executed one after the other.

What several instructions do together is put together from what each does, and for that they
have to be found in memory one after the other. Control goes around at the top of memory, so
code may as well: `Memory.wordsFrom` reads it off from wherever control is. Code is cut into
parts by `Memory.wordsFrom_add`, and where a part begins is where control is after the parts
before it.

An instruction that computes does nothing but assign, which is `Machine.Assigns`, and two
stretches of code that assign to the same place are one that does. The second can only be
executed if the first has not overwritten it, so it has to be known that the place is no cell
of the code (`Operand.Outside`).

## Main definitions

* `Memory.wordsFrom`: The words from an address on.
* `Operand.Outside`: A place that is no cell of some code.
* `Machine.Assigns`: Code that gives one place a value and does nothing else.

## Theorems

* `Memory.wordsFrom_add`, `Memory.wordsFrom_size`: Code in parts, and a single instruction.
* `Memory.wordsFrom_ofNat`, `Memory.wordsFrom_image`: Code that does not go around, and the
  code of a program.
* `Machine.Writes.trans`, `Machine.Writes.wordsFrom`, `Machine.Writes.isValue_registers`: What
  is left when a place was written.
* `Machine.Assigns.trans`, `Machine.Assigns.wordsFrom`: Assignments one after the other.
* `Machine.step_computes`: The step of an instruction that computes, from its words.
-/

namespace WordMachine

/-! ### Code that goes around -/

namespace Memory

/-- The words from an address on. At the top of memory they go on at the bottom. -/
def wordsFrom (memory : Memory) (address : Word) (count : Nat) : List Word :=
  (List.range count).map fun i => memory.read (Word.after address i)

/-- Code in two parts. -/
theorem wordsFrom_add (memory : Memory) (address : Word) (first rest : Nat) :
    memory.wordsFrom address (first + rest) =
      memory.wordsFrom address first ++ memory.wordsFrom (Word.after address first) rest := by
  simp only [wordsFrom, List.range_add, List.map_append, List.map_map, Word.after_after]
  rfl

/-- The words of an instruction are its opcode and its operands. -/
theorem wordsFrom_size (memory : Memory) (address : Word) (op : Opcode) :
    memory.wordsFrom address op.size =
      memory.read address :: Instruction.operandWords memory address op := by
  have hfirst : memory.read (Word.after address 0) = memory.read address := by
    rw [Word.after, memory.read_low]
    exact congrArg memory.read (UInt16.add_zero address)
  rw [wordsFrom, op.size_eq, Nat.add_comm, List.range_succ_eq_map, List.map_cons, hfirst,
    List.map_map, Instruction.operandWords_eq]
  rfl

/-- Code that does not go around is a stretch of memory. -/
theorem wordsFrom_ofNat (memory : Memory) {address count : Nat} (h : address + count ≤ memorySize) :
    memory.wordsFrom (UInt16.ofNat address) count = memory.slice address count := by
  rw [memory.slice_eq_map _ _ h]
  refine List.map_congr_left fun i hi => ?_
  have hlt : i < count := List.mem_range.mp hi
  rw [Word.after_ofNat (by omega)]

/-- A program that fits is the code from address zero on. -/
theorem wordsFrom_image {words : List Word} (h : words.length ≤ memorySize) :
    (image words).wordsFrom 0 words.length = words := by
  have hfit : 0 + words.length ≤ memorySize := by rwa [Nat.zero_add]
  exact ((image words).wordsFrom_ofNat hfit).trans (slice_image h)

end Memory

namespace Operand

/-- The place is no cell among those of the code from an address on. -/
def Outside (place : Operand) (address : Word) (count : Nat) : Prop :=
  ∀ a, place = .literal a → ∀ i < count, Word.cell a ≠ Word.cell (Word.after address i)

/-- A place outside of code is outside of its last part. -/
theorem Outside.drop {place : Operand} {address : Word} {first rest : Nat}
    (h : place.Outside address (first + rest)) : place.Outside (Word.after address first) rest := by
  intro a ha i hi
  rw [Word.after_after]
  exact h a ha (first + i) (by omega)

end Operand

namespace Machine

/-! ### Assignments -/

/-- Code of some size was executed that gave one place a value and did nothing else. -/
structure Assigns (m m' : Machine) (value : Word) (place : Operand) (size : Nat) : Prop where
  writes : m.Writes m' value place
  ip : m'.ip.toNat = (m.ip.toNat + size) % memorySize
  stack : m'.stack = m.stack
  wordCount : m'.wordCount = m.wordCount
  halted : m'.halted = m.halted
  input : m'.input = m.input

namespace Writes

variable {m m' m'' : Machine} {value other : Word} {place : Operand}

/-- Of two values for one place the second is left. -/
theorem trans (h : m.Writes m' value place) (h' : m'.Writes m'' other place) :
    m.Writes m'' other place := by
  cases h with
  | register hindex _ hothers hmemory =>
      cases h' with
      | register _ hvalue hothers' hmemory' =>
          refine .register hindex hvalue (fun i hi => ?_) (hmemory'.trans hmemory)
          exact (hothers' i hi).trans (hothers i hi)
  | cell _ hothers hregisters =>
      cases h' with
      | cell hvalue hothers' hregisters' =>
          refine .cell hvalue (fun a ha => ?_) (hregisters'.trans hregisters)
          exact (hothers' a ha).trans (hothers a ha)

/-- Code in which the place does not lie is still there. -/
theorem wordsFrom (h : m.Writes m' value place) {address : Word} {count : Nat}
    (houtside : place.Outside address count) :
    m'.memory.wordsFrom address count = m.memory.wordsFrom address count := by
  cases h with
  | register _ _ _ hmemory => rw [hmemory]
  | cell _ hothers _ =>
      refine List.map_congr_left fun i hi => ?_
      exact hothers _ (houtside _ rfl i (List.mem_range.mp hi)).symm

/-- Registers that hold values still do after a value was written. -/
theorem isValue_registers (h : m.Writes m' value place) (hvalue : value.IsValue)
    (hregisters : ∀ w ∈ m.registers, w.IsValue) : ∀ w ∈ m'.registers, w.IsValue := by
  cases h with
  | cell _ _ hsame => rwa [hsame]
  | @register index _ hwritten hothers _ =>
      intro w hw
      rcases Vector.getElem_of_mem hw with ⟨i, hi, rfl⟩
      have hread : m'.register i = m'.registers[i] := by
        rw [Machine.register, Vector.getElem?_eq_getElem hi, Option.getD_some]
      rw [← hread]
      by_cases hsame : i = index
      · rwa [hsame, hwritten]
      · rw [hothers i hsame]
        exact isValue_register hregisters i

end Writes

/-- Two stretches of code that assign to the same place are one. -/
theorem Assigns.trans {m m' m'' : Machine} {value other : Word} {place : Operand} {first rest : Nat}
    (h : m.Assigns m' value place first) (h' : m'.Assigns m'' other place rest) :
    m.Assigns m'' other place (first + rest) where
  writes := h.writes.trans h'.writes
  ip := by rw [h'.ip, h.ip, Nat.mod_add_mod, Nat.add_assoc]
  stack := h'.stack.trans h.stack
  wordCount := h'.wordCount.trans h.wordCount
  halted := h'.halted.trans h.halted
  input := h'.input.trans h.input

/-- What comes after code that assigns is still there, and control has come to it. -/
theorem Assigns.wordsFrom {m m' : Machine} {value : Word} {place : Operand} {size count : Nat}
    (h : m.Assigns m' value place size) (houtside : place.Outside m.ip (size + count)) :
    m'.memory.wordsFrom m'.ip count = m.memory.wordsFrom (Word.after m.ip size) count := by
  have hip : m'.ip = Word.after m.ip size := by
    apply UInt16.toNat_inj.mp
    rw [h.ip, Word.toNat_after]
  rw [hip]
  exact h.writes.wordsFrom houtside.drop

/-- Storing a value and going on is an assignment. -/
theorem assigns_store (m : Machine) {place : Operand} (hplace : place.InRange) (value : Word)
    (size : Nat) :
    m.Assigns { m.store place value with ip := Word.after m.ip size } value place size where
  writes := writes_of_store hplace rfl rfl
  ip := Word.toNat_after _ _
  stack := m.stack_store _ _
  wordCount := by cases place <;> rfl
  halted := by cases place <;> rfl
  input := by cases place <;> rfl

/-- An instruction that computes assigns its result, if its words are the next. A remainder is
    left out, since it may have none. -/
theorem step_computes {m : Machine} (op : Opcode) (destination : Operand) (sources : List Operand)
    (hhalted : m.halted = false) (hregisters : ∀ w ∈ m.registers, w.IsValue)
    (hop : op ∈ Opcode.arithmetic) (hmod : op ≠ .mod)
    (hrange : ∀ operand ∈ destination :: sources, operand.InRange)
    (hcode : m.memory.wordsFrom m.ip op.size =
      op.word :: (destination :: sources).map Operand.toWord) :
    ∃ (m' : Machine) (value : Word), m.step = ⟨.ok .none, m'⟩ ∧
      op.result? (sources.map fun s => (m.valueOf s).toNat) = some value.toNat ∧
      m.Assigns m' value destination op.size := by
  rw [m.memory.wordsFrom_size, List.cons.injEq] at hcode
  have hoperands : (Instruction.operandWords m.memory m.ip op).map Operand.ofWord? =
      (destination :: sources).map some := by
    rw [hcode.2, List.map_map]
    exact List.map_congr_left fun operand hoperand => Operand.ofWord?_toWord (hrange _ hoperand)
  rcases step_arithmetic hhalted hregisters hcode.1 hop hoperands (fun h => absurd h hmod) with
    ⟨value, hresult, hstep⟩
  exact ⟨_, value, hstep, hresult, m.assigns_store (hrange _ List.mem_cons_self) value op.size⟩

end Machine

end WordMachine
