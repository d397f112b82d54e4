import WordMachine.Listing.Boundary
import WordMachine.Proofs.Loading

/-!
# The Walk

The walk over a program covers it word by word.

Every instruction of the walk starts where the one before it ends, so the words of
its instructions, one after the other, are the words of memory from where the walk
starts to where it ends. The last instruction can reach beyond the program, and then
the walk ends beyond the program too; `Machine.walkEnd` is the address after the last
instruction, whichever it is. Beyond the end of memory there are no further words:
an instruction that starts at the top reads its operands from the bottom, and the
covering holds only for walks that end inside memory.

## Main definitions

* `Instruction.words`: The words of an instruction.
* `Instruction.WellFormed`: An instruction that can be found in memory.
* `Machine.walkEnd`: The address after the last instruction of a walk.

## Theorems

* `Instruction.wellFormed_decode`: What is found in memory is well formed.
* `Machine.size_decode`: A decoded instruction is as long as the walk takes it to be.
* `Machine.walk_induction`: What holds after the end and carries over from the next
  boundary holds along a walk.
* `Machine.mem_walk`: Boundaries lie inside the program.
* `Machine.pairwise_walk`: Boundaries increase.
* `Machine.flatMap_words_walk`: The words of a walk are the words of memory.
-/

namespace WordMachine

namespace Memory

/-- The words from an address on are what is read at the addresses after it. -/
theorem slice_eq_map (m : Memory) (address count : Nat) (h : address + count ≤ memorySize) :
    m.slice address count =
      (List.range count).map fun n => m.read (UInt16.ofNat (address + n)) := by
  induction count generalizing address with
  | zero => exact m.slice_zero address
  | succ count ih =>
      rw [m.slice_succ count (by omega), ih (address + 1) (by omega), List.range_succ_eq_map,
        List.map_cons, List.map_map, Nat.add_zero]
      congr 1
      refine List.map_congr_left fun n _ => ?_
      simp only [Function.comp_apply, Nat.succ_eq_add_one]
      rw [Nat.add_assoc, Nat.add_comm 1 n]

end Memory

namespace Word

/-- Inside memory, the address some words further is the sum. -/
theorem after_ofNat {address offset : Nat} (h : address + offset < memorySize) :
    after (UInt16.ofNat address) offset = UInt16.ofNat (address + offset) := by
  have hsum : (UInt16.ofNat (address + offset)).toNat = address + offset :=
    UInt16.toNat_ofNat_of_lt' (Nat.lt_trans h (by decide))
  rw [after, ← UInt16.ofNat_add]
  exact low_eq_self (by rw [hsum]; exact h)

end Word

namespace Instruction

/-- The words of an instruction: the one it starts with, and its operands. -/
def words (i : Instruction) : List Word := i.word :: i.operands

/-- An instruction that can be found in memory: its opcode is that of its word, with
    as many operand words as the opcode has operands, and a raw word has none. -/
def WellFormed (i : Instruction) : Prop :=
  match i.opcode with
  | some op => i.word = op.word ∧ i.operands.length = op.arity
  | none => i.operands = []

theorem decode_of_opcode {memory : Memory} {address : Word} {op : Opcode}
    (h : Opcode.ofWord? (memory.read address) = some op) :
    decode memory address = .ofParts (Word.low address) (memory.read address) (some op)
      (operandWords memory (Word.low address) op) := by
  simp only [decode, memory.read_low, h, ofParts, Opcode.nameOf, length_operandWords,
    op.size_eq]

theorem decode_of_raw {memory : Memory} {address : Word}
    (h : Opcode.ofWord? (memory.read address) = none) :
    decode memory address = .ofParts (Word.low address) (memory.read address) none [] := by
  simp only [decode, memory.read_low, h]
  rfl

/-- What is found in memory is well formed. -/
theorem wellFormed_decode (memory : Memory) (address : Word) :
    (decode memory address).WellFormed := by
  cases h : Opcode.ofWord? (memory.read address) with
  | none =>
      rw [decode_of_raw h]
      rfl
  | some op =>
      rw [decode_of_opcode h]
      exact ⟨(Opcode.word_of_ofWord? h).symm, length_operandWords _ _ _⟩

/-- A decoded instruction has the size of the instruction at its address. -/
theorem size_decode (memory : Memory) (address : Word) :
    (decode memory address).size = sizeAt memory address := by
  unfold sizeAt
  cases h : Opcode.ofWord? (memory.read address) with
  | none =>
      rw [decode_of_raw h]
      rfl
  | some op =>
      rw [decode_of_opcode h, size_eq]
      exact (congrArg (1 + ·) (length_operandWords _ _ _)).trans op.size_eq.symm

/-- The words of an instruction that lies inside memory are the words of memory. -/
theorem words_decode (memory : Memory) {address : Nat}
    (h : address + sizeAt memory (UInt16.ofNat address) ≤ memorySize) :
    (decode memory (UInt16.ofNat address)).words =
      memory.slice address (sizeAt memory (UInt16.ofNat address)) := by
  -- The address is inside memory, so it names itself.
  have hpos := sizeAt_pos memory (UInt16.ofNat address)
  have hlow : Word.low (UInt16.ofNat address) = UInt16.ofNat address := by
    refine Word.low_eq_self ?_
    rw [UInt16.toNat_ofNat_of_lt' (Nat.lt_of_lt_of_le (by omega : address < memorySize) (by decide))]
    omega
  unfold sizeAt at h ⊢
  cases hop : Opcode.ofWord? (memory.read (UInt16.ofNat address)) with
  | none =>
      rw [hop] at h
      rw [decode_of_raw hop, memory.slice_succ 0 h, memory.slice_zero]
      rfl
  | some op =>
      simp only [hop, Opcode.size_eq, Nat.add_comm 1 op.arity] at h ⊢
      rw [decode_of_opcode hop, hlow, words, memory.slice_succ op.arity (by omega),
        memory.slice_eq_map _ _ (by omega), ofParts, operandWords_eq]
      congr 1
      -- No operand is read from the bottom of memory.
      refine List.map_congr_left fun n hn => ?_
      have hlt := List.mem_range.mp hn
      rw [Word.after_ofNat (by omega), Nat.add_assoc, Nat.add_comm 1 n]

end Instruction

namespace Machine

theorem size_decode (m : Machine) (address : Word) :
    (m.decode address).size = m.sizeAt address :=
  Instruction.size_decode m.memory address

/-- The address after the last instruction of the walk from an address on. -/
def walkEnd (m : Machine) (address : Nat) : Nat :=
  if address < m.wordCount then walkEnd m (address + m.sizeAt (UInt16.ofNat address))
  else address
termination_by m.wordCount - address
decreasing_by
  have : 0 < m.sizeAt (UInt16.ofNat address) := Instruction.sizeAt_pos _ _
  omega

theorem walkEnd_of_lt {m : Machine} {address : Nat} (h : address < m.wordCount) :
    m.walkEnd address = m.walkEnd (address + m.sizeAt (UInt16.ofNat address)) := by
  rw [walkEnd, if_pos h]

theorem walkEnd_of_le {m : Machine} {address : Nat} (h : m.wordCount ≤ address) :
    m.walkEnd address = address := by
  rw [walkEnd, if_neg (by omega)]

/-- What holds after the end and carries over from the next boundary holds along a
    walk. -/
theorem walk_induction (m : Machine) {P : Nat → Prop}
    (stop : ∀ address, m.wordCount ≤ address → P address)
    (step : ∀ address, address < m.wordCount →
      P (address + m.sizeAt (UInt16.ofNat address)) → P address) :
    ∀ address, P address := by
  intro address
  -- What is left of the program gets shorter with every instruction.
  induction hn : m.wordCount - address using Nat.strongRecOn generalizing address with
  | ind n ih =>
      by_cases h : address < m.wordCount
      · have hpos : 0 < m.sizeAt (UInt16.ofNat address) := Instruction.sizeAt_pos _ _
        exact step address h (ih _ (by omega) _ rfl)
      · exact stop address (by omega)

theorem le_walkEnd (m : Machine) (address : Nat) : address ≤ m.walkEnd address := by
  induction address using m.walk_induction with
  | stop address h => exact Nat.le_of_eq (walkEnd_of_le h).symm
  | step address h ih =>
      rw [walkEnd_of_lt h]
      omega

/-- Boundaries lie inside the program, at or after the start of the walk. -/
theorem mem_walk {m : Machine} {start address : Nat} (h : address ∈ m.walk start) :
    start ≤ address ∧ address < m.wordCount := by
  induction start using m.walk_induction with
  | stop start hstop =>
      rw [walk_of_le hstop] at h
      exact absurd h List.not_mem_nil
  | step start hlt ih =>
      rw [walk_of_lt hlt] at h
      rcases List.mem_cons.mp h with rfl | h
      · exact ⟨Nat.le_refl _, hlt⟩
      · rcases ih h with ⟨hle, hend⟩
        exact ⟨by omega, hend⟩

/-- Boundaries increase. -/
theorem pairwise_walk (m : Machine) (start : Nat) : (m.walk start).Pairwise (· < ·) := by
  induction start using m.walk_induction with
  | stop start hstop =>
      rw [walk_of_le hstop]
      exact List.Pairwise.nil
  | step start hlt ih =>
      rw [walk_of_lt hlt]
      refine List.Pairwise.cons (fun address h => ?_) ih
      have hpos : 0 < m.sizeAt (UInt16.ofNat start) := Instruction.sizeAt_pos _ _
      have := (mem_walk h).1
      omega

/-- The words of a walk that ends inside memory are the words of memory from its start
    to its end. -/
theorem flatMap_words_walk (m : Machine) (start : Nat) (h : m.walkEnd start ≤ memorySize) :
    (m.walk start).flatMap (fun address => (m.decode (UInt16.ofNat address)).words) =
      m.memory.slice start (m.walkEnd start - start) := by
  induction start using m.walk_induction with
  | stop start hstop =>
      rw [walk_of_le hstop, walkEnd_of_le hstop, Nat.sub_self, m.memory.slice_zero, List.flatMap_nil]
  | step start hlt ih =>
      rw [walkEnd_of_lt hlt] at h ⊢
      have hle := m.le_walkEnd (start + m.sizeAt (UInt16.ofNat start))
      -- The first instruction is a stretch of memory, and so is the rest of the walk.
      have hfirst : (m.decode (UInt16.ofNat start)).words =
          m.memory.slice start (m.sizeAt (UInt16.ofNat start)) :=
        Instruction.words_decode m.memory (Nat.le_trans hle h)
      rw [walk_of_lt hlt, List.flatMap_cons, ih h, hfirst, ← m.memory.slice_append]
      congr 1
      omega

end Machine

end WordMachine
