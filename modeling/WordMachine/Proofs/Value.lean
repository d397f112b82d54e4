import WordMachine.Operand

/-!
# Values

The words of fifteen bits, and what operands can be.

Arithmetic on values gives values. For addition and multiplication that is because
the result is reduced to the size of memory, for the others because they cannot make
anything larger than what they are given: a remainder and a conjunction are at most
their first argument, and a disjunction has no bit that neither of its arguments has.

An operand word that is accepted is a value or names a register that exists. All
larger words are refused.

## Main definitions

* `Word.IsValue`: A word of fifteen bits.
* `Operand.InRange`: A literal that is a value, or a register that exists.

## Theorems

* `Word.isValue_sum`, `Word.isValue_product`, `Word.isValue_mod`, `Word.isValue_and`,
  `Word.isValue_or`, `Word.isValue_complement`: Arithmetic gives values.
* `Word.toNat_after`, `Word.after_after`: Where control goes on, as a number, and in two
  parts.
* `Word.cell_ne_of_ne`: Different addresses inside memory name different cells.
* `Operand.inRange_of_ofWord?`: What a word encodes is in range.
-/

namespace WordMachine

namespace Word

/-- A word of fifteen bits. -/
def IsValue (w : Word) : Prop := w.toNat < memorySize

instance (w : Word) : Decidable (IsValue w) := inferInstanceAs (Decidable (_ < _))

theorem isValue_low (w : Word) : IsValue (low w) := by
  rw [IsValue, toNat_low]
  exact Nat.mod_lt _ (by decide)

theorem toNat_after (address : Word) (offset : Nat) :
    (after address offset).toNat = (address.toNat + offset) % memorySize := by
  rw [after, toNat_low, UInt16.toNat_add, UInt16.toNat_ofNat', memorySize]
  omega

/-- Going on twice is going on once by both. -/
theorem after_after (address : Word) (first second : Nat) :
    after (after address first) second = after address (first + second) := by
  apply UInt16.toNat_inj.mp
  rw [toNat_after, toNat_after, toNat_after, Nat.mod_add_mod, Nat.add_assoc]

/-- Two addresses inside memory that are different name different cells. -/
theorem cell_ne_of_ne {a b : Word} (ha : a.IsValue) (hb : b.IsValue) (h : a ≠ b) :
    cell a ≠ cell b := by
  intro hsame
  have hnat : a.toNat % memorySize = b.toNat % memorySize := congrArg Fin.val hsame
  rw [Nat.mod_eq_of_lt ha, Nat.mod_eq_of_lt hb, UInt16.toNat_inj] at hnat
  exact h hnat

theorem isValue_after (address : Word) (offset : Nat) : IsValue (after address offset) :=
  isValue_low _

/-- A number that is reduced to the size of memory fits in a word. -/
theorem toNat_ofNat_mod (n : Nat) : (UInt16.ofNat (n % memorySize)).toNat = n % memorySize := by
  have hlt : n % memorySize < memorySize := Nat.mod_lt _ (by decide)
  rw [UInt16.toNat_ofNat_of_lt' (Nat.lt_trans hlt (by decide))]

/-- A number that is reduced to the size of memory is a value. -/
theorem isValue_ofNat_mod (n : Nat) : IsValue (UInt16.ofNat (n % memorySize)) := by
  rw [IsValue, toNat_ofNat_mod]
  exact Nat.mod_lt _ (by decide)

theorem isValue_sum (b c : Word) : IsValue (sum b c) := isValue_ofNat_mod _

theorem isValue_product (b c : Word) : IsValue (product b c) := isValue_ofNat_mod _

theorem isValue_complement (b : Word) : IsValue (complement b) := isValue_low _

theorem isValue_ofTruth (b : Bool) : IsValue (ofTruth b) := by
  cases b <;> decide

theorem isValue_mod {b : Word} (hb : IsValue b) (c : Word) : IsValue (b % c) := by
  rw [IsValue, UInt16.toNat_mod]
  exact Nat.lt_of_le_of_lt (Nat.mod_le _ _) hb

theorem isValue_and {b : Word} (hb : IsValue b) (c : Word) : IsValue (b &&& c) := by
  rw [IsValue, UInt16.toNat_and]
  exact Nat.lt_of_le_of_lt Nat.and_le_left hb

theorem isValue_or {b c : Word} (hb : IsValue b) (hc : IsValue c) : IsValue (b ||| c) := by
  rw [IsValue, UInt16.toNat_or]
  exact Nat.or_lt_two_pow (show b.toNat < 2 ^ 15 from hb) hc

end Word

/-- A literal that is a value, or a register that exists. -/
def Operand.InRange : Operand → Prop
  | .literal value => value.IsValue
  | .register index => index < registerCount

/-- What a word encodes is in range. -/
theorem Operand.inRange_of_ofWord? {w : Word} {operand : Operand}
    (h : ofWord? w = some operand) : operand.InRange := by
  unfold ofWord? at h
  split at h
  · rename_i hlt
    cases h
    exact UInt16.lt_iff_toNat_lt.mp hlt
  · rename_i hbase
    split at h
    · rename_i hmax
      cases h
      have hlow : 32768 ≤ w.toNat := by
        simpa [registerBase, UInt16.lt_iff_toNat_lt] using hbase
      have hhigh : w.toNat ≤ 32775 := by
        simpa [maxWord, UInt16.le_iff_toNat_le] using hmax
      have hle : registerBase ≤ w := UInt16.le_iff_toNat_le.mpr hlow
      change (w - registerBase).toNat < 8
      rw [UInt16.toNat_sub_of_le _ _ hle, show registerBase.toNat = 32768 from rfl]
      omega
    · cases h

end WordMachine
