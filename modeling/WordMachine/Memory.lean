import WordMachine.Fault

/-!
# Memory

The cells of the machine.

There is a cell for every fifteen-bit address, and a word used as an address
names the cell of its fifteen-bit part, so reading and writing never fail. A cell
holds any word of the full width: encoded operands live in memory, and those of
registers are larger than any value.

## Main definitions

* `Memory`: One word per cell.
* `Memory.read`, `Memory.write`: Access by address.
* `Memory.cleared`, `Memory.copied`: Filling with zeros, and copying a program in.
* `Memory.image`: The memory that holds a program from address zero on.
* `Memory.load`: The image of a program, if it fits.

## Theorems

* `Memory.read_write`: Reading after a write.
* `Memory.read_image`: Reading a loaded program.
-/

namespace WordMachine

/-- The memory: a word in each cell. -/
structure Memory where
  cells : Vector Word memorySize
  deriving DecidableEq

namespace Memory

/-- The memory with zero in every cell. -/
def empty : Memory := ⟨Vector.replicate memorySize 0⟩

/-- The word in the cell that `address` names. -/
def read (m : Memory) (address : Word) : Word := m.cells[Word.cell address]

/-- The memory with `value` in the cell that `address` names. -/
def write (m : Memory) (address value : Word) : Memory :=
  ⟨m.cells.set (Word.cell address).val value (Word.cell address).isLt⟩

/-- Reading after a write: the cell that was written holds the value, and every
    other cell is as before. -/
theorem read_write (m : Memory) (a b value : Word) :
    (m.write a value).read b = if Word.cell a = Word.cell b then value else m.read b := by
  simp only [read, write, Fin.getElem_fin, Vector.getElem_set, Fin.ext_iff]

/-- The memory with zero in every cell, whatever it held. -/
def cleared (_ : Memory) : Memory := empty

/-- The memory with `words` copied over its cells from address zero on. Words that find
    no cell are left out. -/
def copied (m : Memory) (words : List Word) : Memory :=
  let program := words.toArray
  ⟨Vector.ofFn fun i => program.getD i.val m.cells[i]⟩

/-- The memory that holds `words` from address zero on and zeros after them. -/
def image (words : List Word) : Memory := empty.copied words

/-- An image holds the program word by word, and zero after its end. -/
theorem read_image (words : List Word) (address : Word) :
    (image words).read address = words.getD (Word.cell address).val 0 := by
  simp only [read, image, copied, empty, Fin.getElem_fin, Vector.getElem_ofFn,
    Vector.getElem_replicate]
  rw [Array.getD_eq_getD_getElem?, List.getElem?_toArray, List.getD_eq_getElem?_getD]

/-- The image of a program. A program with more words than there are cells has
    none. -/
def load (words : List Word) : Except Fault Memory :=
  if words.length ≤ memorySize then .ok (image words) else .error (.outOfMemory words.length)

/-- The `count` words from `address` on. -/
def slice (m : Memory) (address count : Nat) : List Word :=
  (m.cells.toList.drop address).take count

/-- The number of cells that do not hold zero. -/
def occupied (m : Memory) : Nat := m.cells.toList.countP (· ≠ 0)

/-- A one-line summary of a memory. -/
def summary (m : Memory) : String :=
  s!"FlatMemory \x7b size: {memorySize}, nonzero_words: {m.occupied} \x7d"

end Memory

end WordMachine
