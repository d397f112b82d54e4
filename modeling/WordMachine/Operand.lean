import WordMachine.Text.Decimal

/-!
# Operands

The two things an operand word can name.

Words below `memorySize` stand for themselves, the eight words after them name
the registers, and all words above name nothing. Whether a literal is then used
as a value or as the address of a cell depends on the role the instruction gives
it, so an operand itself does not say.

The register number in `Operand.register` is not bounded by the type. Decoding
only ever produces the numbers below `registerCount`, and what the machine does
with a decoded operand is stated under that bound.

## Main definitions

* `Operand`: A literal or a register.
* `Operand.ofWord?`: The operand a word encodes.
* `Operand.toWord`: The word that encodes an operand.
* `Operand.text`, `Operand.wordText`: Operands as written in source text.
* `Operand.parse`: The word that an operand token encodes.

## Theorems

* `Operand.toWord_of_ofWord?`: Encoding undoes decoding.
* `Operand.ofWord?_isSome_iff`: Which words encode an operand.
-/

namespace WordMachine

/-- The number of registers. -/
abbrev registerCount : Nat := 8

/-- What an operand word names. -/
inductive Operand
  /-- A word that stands for itself. -/
  | literal (value : Word)
  /-- The register with this number. -/
  | register (index : Nat)
  deriving DecidableEq, Repr

namespace Operand

/-- The word that encodes register zero. -/
def registerBase : Word := 32768

/-- The largest word that encodes an operand: the one of the last register. -/
def maxWord : Word := 32775

/-- The operand a word encodes. -/
def ofWord? (w : Word) : Option Operand :=
  if w < registerBase then some (.literal w)
  else if w ≤ maxWord then some (.register (w - registerBase).toNat)
  else none

/-- The word that encodes an operand. -/
def toWord : Operand → Word
  | .literal value => value
  | .register index => registerBase + UInt16.ofNat index

/-- A word that encodes an operand is the word of that operand. -/
theorem toWord_of_ofWord? {w : Word} {operand : Operand} (h : ofWord? w = some operand) :
    operand.toWord = w := by
  unfold ofWord? at h
  split at h
  · cases h
    rfl
  · split at h
    · cases h
      rw [toWord, UInt16.ofNat_toNat, UInt16.add_comm, UInt16.sub_add_cancel]
    · cases h

/-- Exactly the words up to that of the last register encode an operand. -/
theorem ofWord?_isSome_iff (w : Word) : (ofWord? w).isSome ↔ w ≤ maxWord := by
  have hbase : w < registerBase → w ≤ maxWord := fun h =>
    UInt16.le_of_lt (UInt16.lt_trans h (by decide))
  unfold ofWord?
  split
  · simp_all
  · split <;> simp_all

/-- The value of a literal, and nothing for a register. -/
def literal? : Operand → Option Word
  | .literal value => some value
  | .register _ => none

/-- An operand as written in source text. -/
def text : Operand → Text
  | .literal value => Decimal.writeWord value
  | .register index => 'r' :: Decimal.write index

/-- An operand word as written in source text. A word that encodes no operand is
    written as a plain number. -/
def wordText (w : Word) : Text :=
  match ofWord? w with
  | some operand => operand.text
  | none => Decimal.writeWord w

/-- Why a token is not an operand. -/
inductive Refusal
  /-- It starts like a register but names none. -/
  | notRegister (token : Text)
  /-- It is not a number that encodes an operand. -/
  | notValue (token : Text)
  deriving DecidableEq, Repr

/-- The wording of a refusal. -/
def Refusal.message : Refusal → String
  | .notRegister token => s!"'{token.str}' is not a valid register"
  | .notValue token => s!"'{token.str}' is not a valid value"

/-- The word that an operand token encodes: a register, or any number up to the
    word of the last register. -/
def parse (token : Text) : Except Refusal Word :=
  match token with
  | 'r' :: index =>
    match Decimal.read index with
    | .ok n => if n.toNat < registerCount then .ok (registerBase + n)
      else .error (.notRegister token)
    | .error _ => .error (.notRegister token)
  | _ =>
    match Decimal.read token with
    | .ok w => if w ≤ maxWord then .ok w else .error (.notValue token)
    | .error _ => .error (.notValue token)

end Operand

end WordMachine
