/-!
# Words

The unit of everything the machine holds.

A word has sixteen bits, but a *value* has fifteen: arithmetic is taken modulo
`memorySize`, an address names one of `memorySize` cells, and the words above
the values are free to name registers. Nothing in the type `Word` keeps a
register or a stack entry below `memorySize`; that is a property of the machine's
instructions, and it is stated about them rather than built in here, because
memory cells do hold words of the full width.

A program file is a sequence of words written low byte first. `toBytes` and
`ofBytes` are the two directions of that format.

## Main definitions

* `Word`: A sixteen-bit word.
* `memorySize`: The number of cells, and the modulus of arithmetic.
* `Word.low`: The fifteen-bit part of a word.
* `Word.cell`: The memory cell a word names.
* `Word.toBytes`, `Word.ofBytes`: The binary format of a program.

## Theorems

* `Word.toNat_low`: The fifteen-bit part is the remainder modulo `memorySize`.
* `Word.low_eq_self`: A value is its own fifteen-bit part.
* `Word.ofPair_bytes`: A word is read back from its two bytes.
-/

namespace WordMachine

/-- A machine word. -/
abbrev Word := UInt16

/-- The number of memory cells. A value is a word below this number, and
    arithmetic is taken modulo it. -/
abbrev memorySize : Nat := 32768

namespace Word

/-- The largest value an instruction can compute or store in a register. -/
def maxValue : Word := 32767

/-- The fifteen-bit part of a word. -/
def low (w : Word) : Word := w % 32768

/-- The cell a word names. Addresses wrap around at the top of memory. -/
def cell (w : Word) : Fin memorySize := ⟨w.toNat % memorySize, Nat.mod_lt _ (by decide)⟩

/-- The sum of two values, wrapping around at `memorySize`. -/
def sum (b c : Word) : Word := UInt16.ofNat ((b.toNat + c.toNat) % memorySize)

/-- The product of two values, wrapping around at `memorySize`. -/
def product (b c : Word) : Word := UInt16.ofNat (b.toNat * c.toNat % memorySize)

/-- The bitwise complement of a value, in fifteen bits. -/
def complement (b : Word) : Word := low (~~~b)

/-- The value a comparison leaves: one for true and zero for false. -/
def ofTruth (b : Bool) : Word := if b then 1 else 0

/-- The address `offset` words after `address`, wrapping around at the top of
    memory. -/
def after (address : Word) (offset : Nat) : Word := low (address + UInt16.ofNat offset)

/-- The two bytes of a word, low byte first. -/
def bytes (w : Word) : List UInt8 := [w.toUInt8, (w / 256).toUInt8]

/-- The word of two bytes, the low one given first. -/
def ofPair (lo hi : UInt8) : Word := lo.toUInt16 + 256 * hi.toUInt16

@[simp] theorem toNat_low (w : Word) : (low w).toNat = w.toNat % memorySize := by
  simp only [low, UInt16.toNat_mod]
  rfl

/-- A value is its own fifteen-bit part. -/
theorem low_eq_self {w : Word} (h : w.toNat < memorySize) : low w = w := by
  apply UInt16.toNat_inj.mp
  rw [toNat_low, Nat.mod_eq_of_lt h]

/-- A word is read back from its two bytes. -/
theorem ofPair_bytes (w : Word) : ofPair w.toUInt8 (w / 256).toUInt8 = w := by
  apply UInt16.toNat_inj.mp
  have := w.toNat_lt
  simp only [ofPair, UInt16.toNat_add, UInt16.toNat_mul, UInt8.toNat_toUInt16,
    UInt16.toNat_toUInt8, UInt16.toNat_div, UInt16.reduceToNat]
  omega

/-- A program in the binary format. -/
def toBytes (words : List Word) : List UInt8 := words.flatMap bytes

/-- The words of a binary program. A last byte without a partner is dropped. -/
def ofBytes : List UInt8 → List Word
  | lo :: hi :: rest => ofPair lo hi :: ofBytes rest
  | _ => []

theorem toBytes_cons (w : Word) (rest : List Word) :
    toBytes (w :: rest) = w.toUInt8 :: (w / 256).toUInt8 :: toBytes rest := rfl

end Word

end WordMachine
