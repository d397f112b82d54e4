import Mathlib.Data.List.Chain
import WordMachine.Proofs.Listing.Walk
import WordMachine.Proofs.Value

/-!
# Tiling

The instructions of the walk cover the program, each cell once.

The walk knows where an instruction ends only by its size, and takes that for the start
of the next. So what it yields is a tiling: the cells of its instructions are the cells
from the first to the end of the walk, and no cell belongs to two of them. The program is
covered, but the last instruction can reach beyond it, by no more than the operands that
follow its first word.

Sizes are given twice, once by the table and once by what is decoded, and a walk over
addresses reads the first while a listing writes the second. `Tiled` puts the two
together. Its operand words are read modulo the size of memory, which matters for an
instruction at the very top only.

## Main definitions

* `Machine.Covers`: The cells of an instruction.
* `Machine.Tiled`: Addresses of instructions that tile a program.

## Theorems

* `Machine.sizeAt_le`: An instruction has at most four words.
* `Machine.isChain_walk`: Each boundary follows from the one before it.
* `Machine.covered_walk_iff`: What a walk covers.
* `Machine.walkEnd_bounds`: Where a walk ends.
* `Instruction.getElem?_operands`: Where operand words are read.
* `Machine.boundaries_tile`: The walk over a program is a tiling.
-/

namespace WordMachine

namespace Instruction

/-- The operand words of an instruction stand in the cells after its first, wrapping around
    at the top of memory. -/
theorem getElem?_operands (memory : Memory) {address n : Nat} (haddress : address < memorySize)
    (hn : n < (decode memory (UInt16.ofNat address)).operands.length) :
    (decode memory (UInt16.ofNat address)).operands[n]? =
      memory.cells[(address + 1 + n) % memorySize]? := by
  have hlt : (address + 1 + n) % memorySize < memorySize := Nat.mod_lt _ (by decide)
  have hvalue : (UInt16.ofNat address).toNat = address :=
    UInt16.toNat_ofNat_of_lt' (Nat.lt_trans haddress (by decide))
  rw [Vector.getElem?_eq_getElem hlt]
  cases hop : Opcode.ofWord? (memory.read (UInt16.ofNat address)) with
  | none =>
      rw [decode_of_raw hop] at hn
      exact absurd hn (Nat.not_lt_zero n)
  | some op =>
      rw [decode_of_opcode hop] at hn ⊢
      simp only [ofParts, length_operandWords] at hn ⊢
      have hafter : Word.after (Word.low (UInt16.ofNat address)) (n + 1) =
          UInt16.ofNat ((address + 1 + n) % memorySize) := by
        apply UInt16.toNat_inj.mp
        rw [Word.toNat_after, Word.toNat_low, hvalue, Word.toNat_ofNat_mod, Nat.mod_add_mod,
          Nat.add_assoc, Nat.add_comm 1 n]
      simp only [operandWords_eq, List.getElem?_map, List.getElem?_range hn, Option.map_some, hafter,
        memory.read_ofNat hlt]

end Instruction

namespace Machine

/-- Whether a cell belongs to the instruction at an address. -/
def Covers (m : Machine) (address n : Nat) : Prop :=
  address ≤ n ∧ n < address + m.sizeAt (UInt16.ofNat address)

/-- Addresses of instructions that tile the loaded program, up to `stop`. -/
structure Tiled (m : Machine) (addresses : List Nat) (stop : Nat) : Prop where
  /-- There are no more instructions than words. -/
  finite : addresses.length ≤ m.wordCount
  increasing : addresses.Pairwise (· < ·)
  /-- Only a program without words has no instruction. -/
  empty : addresses = [] ↔ m.wordCount = 0
  first : ∀ address, addresses.head? = some address → address = 0
  /-- The addresses lie inside the program, and are exact as words. -/
  inside : ∀ address ∈ addresses,
    address < m.wordCount ∧ (UInt16.ofNat address).toNat = address
  /-- Each instruction starts where the one before it ends. -/
  next : addresses.IsChain fun a b => b = a + m.sizeAt (UInt16.ofNat a)
  /-- No cell belongs to two instructions. -/
  disjoint : ∀ a ∈ addresses, ∀ b ∈ addresses, ∀ n, m.Covers a n → m.Covers b n → a = b
  /-- The instructions have the cells up to `stop` and no others. -/
  covered : ∀ n, (∃ address ∈ addresses, m.Covers address n) ↔ n < stop
  /-- Only the operands of the last one can lie beyond the program. -/
  overrun : m.wordCount ≤ stop ∧ stop ≤ m.wordCount + 3
  /-- Each instruction is decoded with as many words as it covers. -/
  sized : ∀ address ∈ addresses,
    (m.decode (UInt16.ofNat address)).size = m.sizeAt (UInt16.ofNat address) ∧
      m.sizeAt (UInt16.ofNat address) = 1 + (m.decode (UInt16.ofNat address)).operands.length
  /-- Its operands are the words after its first, wrapping around at the top. -/
  operands : ∀ address ∈ addresses, ∀ n,
    n < (m.decode (UInt16.ofNat address)).operands.length →
      (m.decode (UInt16.ofNat address)).operands[n]? =
        m.memory.cells[(address + 1 + n) % memorySize]?

variable (m : Machine)

theorem sizeAt_pos (address : Word) : 0 < m.sizeAt address := Instruction.sizeAt_pos _ _

theorem sizeAt_le (address : Word) : m.sizeAt address ≤ 4 := by
  unfold sizeAt Instruction.sizeAt
  split
  · rename_i op _
    cases op <;> decide
  · decide

/-! ### Along the walk -/

theorem head?_walk (start : Nat) :
    (m.walk start).head? = if start < m.wordCount then some start else none := by
  by_cases h : start < m.wordCount
  · rw [walk_of_lt h, if_pos h, List.head?_cons]
  · rw [walk_of_le (by omega), if_neg h, List.head?_nil]

/-- Each boundary is the one before it and the size there. -/
theorem isChain_walk (start : Nat) :
    (m.walk start).IsChain fun a b => b = a + m.sizeAt (UInt16.ofNat a) := by
  induction start using m.walk_induction with
  | stop start h =>
      rw [walk_of_le h]
      exact List.IsChain.nil
  | step start h ih =>
      rw [walk_of_lt h]
      refine List.isChain_cons.mpr ⟨fun b hb => ?_, ih⟩
      -- The walk goes on at the end of the first instruction, if it goes on.
      rw [head?_walk, Option.mem_def] at hb
      split at hb
      · exact (Option.some.inj hb).symm
      · cases hb

theorem length_walk_le (start : Nat) : (m.walk start).length ≤ m.wordCount - start := by
  induction start using m.walk_induction with
  | stop start h =>
      rw [walk_of_le h]
      exact Nat.zero_le _
  | step start h ih =>
      have hpos := m.sizeAt_pos (UInt16.ofNat start)
      rw [walk_of_lt h, List.length_cons]
      omega

/-- A walk covers the cells from its start to its end. -/
theorem covered_walk_iff (start n : Nat) :
    (∃ address ∈ m.walk start, m.Covers address n) ↔ start ≤ n ∧ n < m.walkEnd start := by
  induction start using m.walk_induction with
  | stop start h =>
      rw [walk_of_le h, walkEnd_of_le h]
      simp only [List.not_mem_nil, false_and, exists_false, false_iff]
      omega
  | step start h ih =>
      have hend := m.le_walkEnd (start + m.sizeAt (UInt16.ofNat start))
      -- A cell is in the first instruction, or at or after its end.
      rw [walk_of_lt h, walkEnd_of_lt h, List.exists_mem_cons_iff, ih, Covers]
      omega

/-- Of two instructions, the first ends before the second starts. -/
theorem end_le_of_lt {start a b : Nat} (ha : a ∈ m.walk start) (hb : b ∈ m.walk start)
    (h : a < b) : a + m.sizeAt (UInt16.ofNat a) ≤ b := by
  induction start using m.walk_induction with
  | stop start hstop =>
      rw [walk_of_le hstop] at ha
      exact absurd ha List.not_mem_nil
  | step start hlt ih =>
      rw [walk_of_lt hlt, List.mem_cons] at ha hb
      rcases hb with rfl | hb
      · -- Nothing comes before the start of the walk.
        rcases ha with rfl | ha
        · omega
        · have := (mem_walk ha).1
          omega
      · rcases ha with rfl | ha
        · exact (mem_walk hb).1
        · exact ih ha hb

/-- No cell belongs to two instructions of a walk. -/
theorem eq_of_covers {start a b n : Nat} (ha : a ∈ m.walk start) (hb : b ∈ m.walk start)
    (hna : m.Covers a n) (hnb : m.Covers b n) : a = b := by
  rcases hna with ⟨hna, hna'⟩
  rcases hnb with ⟨hnb, hnb'⟩
  rcases Nat.lt_trichotomy a b with h | h | h
  · have := m.end_le_of_lt ha hb h
    omega
  · exact h
  · have := m.end_le_of_lt hb ha h
    omega

/-- A walk that starts inside the program ends at most three words behind it. -/
theorem walkEnd_bounds (start : Nat) (hstart : start ≤ m.wordCount + 3) :
    m.wordCount ≤ m.walkEnd start ∧ m.walkEnd start ≤ m.wordCount + 3 := by
  induction start using m.walk_induction with
  | stop start h =>
      rw [walkEnd_of_le h]
      exact ⟨h, hstart⟩
  | step start h ih =>
      have hsize := m.sizeAt_le (UInt16.ofNat start)
      rw [walkEnd_of_lt h]
      exact ih (by omega)

/-! ### The whole program -/

/-- The walk over a program that fits in memory tiles it. -/
theorem boundaries_tile (h : m.wordCount ≤ memorySize) : m.Tiled m.boundaries (m.walkEnd 0) where
  finite := m.length_walk_le 0
  increasing := m.pairwise_walk 0
  empty := by
    rw [boundaries, ← List.head?_eq_none_iff, head?_walk]
    by_cases hzero : m.wordCount = 0
    · simp [hzero]
    · simp [Nat.pos_of_ne_zero hzero, hzero]
  first address haddress := by
    rw [boundaries, head?_walk] at haddress
    split at haddress
    · exact (Option.some.inj haddress).symm
    · cases haddress
  inside address haddress := by
    have hlt := (mem_walk haddress).2
    exact ⟨hlt, UInt16.toNat_ofNat_of_lt' (Nat.lt_of_lt_of_le hlt (Nat.le_trans h (by decide)))⟩
  next := m.isChain_walk 0
  disjoint _ ha _ hb _ := m.eq_of_covers ha hb
  covered n := by
    rw [boundaries, covered_walk_iff]
    simp only [Nat.zero_le, true_and]
  overrun := m.walkEnd_bounds 0 (Nat.zero_le _)
  sized address _ := by
    have hsize := m.size_decode (UInt16.ofNat address)
    exact ⟨hsize, hsize.symm.trans (Instruction.size_eq _)⟩
  operands address haddress _ :=
    Instruction.getElem?_operands m.memory (Nat.lt_of_lt_of_le (mem_walk haddress).2 h)

/-- A program of two words whose second begins an instruction of four: it reaches three
    words beyond the program. -/
theorem boundaries_tile_overrunning :
    ∃ m, ofWords [21, 9] = .ok m ∧ m.wordCount ≤ memorySize ∧ m.boundaries = [0, 1] ∧
      m.Tiled [0, 1] (m.wordCount + 3) := by
  obtain ⟨m, hload⟩ : ∃ m, ofWords [21, 9] = .ok m := ⟨_, ofWords_of_le (by decide)⟩
  rcases read_of_ofWords hload with ⟨hcount, hread⟩
  change m.wordCount = 2 at hcount
  have hsizes : 0 + m.sizeAt (UInt16.ofNat 0) = 1 ∧ 1 + m.sizeAt (UInt16.ofNat 1) = 5 := by
    simp only [sizeAt, Instruction.sizeAt, hread]
    decide
  rcases hsizes with ⟨h0, h1⟩
  have hwalk : m.boundaries = [0, 1] := by
    rw [boundaries, walk_of_lt (by omega), h0, walk_of_lt (by omega), h1, walk_of_le (by omega)]
  have hend : m.walkEnd 0 = m.wordCount + 3 := by
    rw [walkEnd_of_lt (by omega), h0, walkEnd_of_lt (by omega), h1, walkEnd_of_le (by omega)]
    omega
  have hfit : m.wordCount ≤ memorySize := by
    rw [hcount]
    decide
  refine ⟨m, hload, hfit, hwalk, ?_⟩
  rw [← hwalk, ← hend]
  exact m.boundaries_tile hfit

end Machine

end WordMachine
