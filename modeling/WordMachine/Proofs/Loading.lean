import WordMachine.Proofs.Machine.InPlace

/-!
# Loaded Programs

A program that is written to bytes and loaded is the program.

The words of a memory from an address on are read off one at a time as long as they
lie inside memory, which is the one fact about `Memory.slice` that anything here
needs. An image of a program that fits is the program with zeros behind it, and the
binary format loses nothing, so a machine made from the bytes of a program that
fits holds exactly that program at address zero.

## Theorems

* `Word.ofBytes_toBytes`: Words are read back from their bytes.
* `Memory.slice_succ`: The words from an address on, one at a time.
* `Memory.slice_append`: A stretch of words in two parts.
* `Memory.toList_image`: The cells of an image.
* `Memory.slice_image`: An image begins with its program.
* `Machine.load_of_le`: What loading makes of any machine.
* `Machine.ofWords_eq_ok_iff`: A program is loaded exactly when it fits.
* `Machine.slice_of_ofWords`: A machine that was loaded holds its program.
* `Machine.ofBytes_toBytes`: A program that fits is loaded from its bytes.
-/

namespace WordMachine

namespace Word

/-- Words are read back from their bytes. -/
theorem ofBytes_toBytes (words : List Word) : ofBytes (toBytes words) = words := by
  induction words with
  | nil => rfl
  | cons w rest ih => rw [toBytes_cons, ofBytes, ofPair_bytes, ih]

/-- A number below the end of memory is the cell that it names. -/
theorem cell_ofNat {address : Nat} (h : address < memorySize) :
    (cell (UInt16.ofNat address)).val = address := by
  have hsize : address < UInt16.size := Nat.lt_trans h (by decide)
  simp only [cell, UInt16.toNat_ofNat_of_lt' hsize, Nat.mod_eq_of_lt h]

end Word

namespace Memory

/-- An address names the same cell as its fifteen-bit part. -/
theorem read_low (m : Memory) (address : Word) : m.read (Word.low address) = m.read address := by
  simp only [read, Word.cell, Word.toNat_low, Nat.mod_mod]

/-- A read at a number below the end of memory. -/
theorem read_ofNat (m : Memory) {address : Nat} (h : address < memorySize) :
    m.read (UInt16.ofNat address) = m.cells[address] := by
  simp only [read, Fin.getElem_fin, Word.cell_ofNat h]

theorem slice_zero (m : Memory) (address : Nat) : m.slice address 0 = [] := by
  rw [slice, List.take_zero]

/-- The words from an address on begin with the word at the address. -/
theorem slice_succ (m : Memory) {address : Nat} (count : Nat) (h : address < memorySize) :
    m.slice address (count + 1) =
      m.read (UInt16.ofNat address) :: m.slice (address + 1) count := by
  have hlength : address < m.cells.toList.length := by
    rw [Vector.length_toList]
    exact h
  rw [slice, List.drop_eq_getElem_cons hlength, List.take_succ_cons, read_ofNat m h, slice,
    Vector.getElem_toList]

theorem length_slice (m : Memory) {address count : Nat} (h : address + count ≤ memorySize) :
    (m.slice address count).length = count := by
  rw [slice, List.length_take, List.length_drop, Vector.length_toList]
  omega

/-- A stretch of words is its first part followed by the rest. -/
theorem slice_append (m : Memory) (address first rest : Nat) :
    m.slice address (first + rest) = m.slice address first ++ m.slice (address + first) rest := by
  rw [slice, slice, slice, List.take_add, List.drop_drop]

/-- The cells of an image are the words of the program, and zeros. -/
theorem toList_image {words : List Word} (h : words.length ≤ memorySize) :
    (image words).cells.toList = words ++ List.replicate (memorySize - words.length) 0 := by
  refine List.ext_getElem (by simp; omega) fun i hi _ => ?_
  rw [Vector.length_toList] at hi
  simp only [Vector.getElem_toList, image, copied, empty, Vector.getElem_ofFn, Fin.getElem_fin,
    Vector.getElem_replicate]
  rw [Array.getD_eq_getD_getElem?, List.getElem?_toArray, List.getElem_append]
  split
  · rename_i hword
    rw [List.getElem?_eq_getElem hword, Option.getD_some]
  · rename_i hend
    rw [List.getElem?_eq_none (by omega), Option.getD_none, List.getElem_replicate]

/-- An image begins with its program. -/
theorem slice_image {words : List Word} (h : words.length ≤ memorySize) :
    (image words).slice 0 words.length = words := by
  rw [slice, List.drop_zero, toList_image h, List.take_left]

end Memory

namespace Machine

/-- A program that fits is installed in the same way whatever the machine was. -/
theorem load_of_le {words : List Word} (h : words.length ≤ memorySize) (m : Machine) :
    m.load words = ⟨.ok (), loaded (Memory.image words) words⟩ := by
  rw [load_eq, Memory.load, if_pos h]

/-- A program is loaded exactly when it fits. -/
theorem ofWords_eq_ok_iff (words : List Word) (m : Machine) :
    ofWords words = .ok m ↔
      words.length ≤ memorySize ∧ loaded (Memory.image words) words = m := by
  rw [ofWords, load_eq, Memory.load]
  by_cases hfit : words.length ≤ memorySize
  · simp [hfit, Except.map]
  · simp [hfit, Except.map]

theorem ofWords_of_le {words : List Word} (h : words.length ≤ memorySize) :
    ofWords words = .ok (loaded (Memory.image words) words) :=
  (ofWords_eq_ok_iff _ _).mpr ⟨h, rfl⟩

/-- A machine that was loaded holds its program. -/
theorem slice_of_ofWords {words : List Word} {m : Machine} (h : ofWords words = .ok m) :
    m.memory.slice 0 m.wordCount = words := by
  rcases (ofWords_eq_ok_iff _ _).mp h with ⟨hfit, rfl⟩
  exact Memory.slice_image hfit

/-- What is read in a machine that was loaded. -/
theorem read_of_ofWords {words : List Word} {m : Machine} (h : ofWords words = .ok m) :
    m.wordCount = words.length ∧
      ∀ address, m.memory.read address = words.getD (Word.cell address).val 0 := by
  rcases (ofWords_eq_ok_iff _ _).mp h with ⟨_, rfl⟩
  exact ⟨rfl, Memory.read_image words⟩

/-- A program that fits is loaded from its bytes. -/
theorem ofBytes_toBytes {words : List Word} (h : words.length ≤ memorySize) :
    ofBytes (Word.toBytes words) = .ok (loaded (Memory.image words) words) := by
  rw [ofBytes, Word.ofBytes_toBytes, ofWords_of_le h]

end Machine

end WordMachine
