import Mathlib.Algebra.GroupWithZero.Nat
import WordMachine.Opcode
import WordMachine.Operand
import WordMachine.Proofs.Text.Tokens
import WordMachine.Proofs.Value

/-!
# Numbers and Operands as Tokens

What is written as a number or an operand is read back as the same word.

Numbers are written in digits only and operands in digits after at most one `r`, so
both are tokens: they can be joined into a line and cut out of it again. Neither
begins with a character that marks a reference, so a written operand is never taken
for a name.

A number is read from any text of digits that denotes it, and may have zeros in front;
that is the grammar of numbers, `Decimal.Denotes`, to which `Decimal.read` is held.

Reading is not total. A word above that of the last register is written as a plain
number, and that number is refused as an operand. `Operand.parse_wordText` states
both cases at once, since the listing of a program writes all its operand words
whether they encode anything or not.

## Main definitions

* `Decimal.Denotes`: A text of digits, and its number.

## Theorems

* `Decimal.read_eq_ok_iff`: The texts that are read as a number.
* `Decimal.isToken_write`: A written number is a token.
* `Decimal.read_write`: A written number is read back, if it fits in a word.
* `Decimal.write_injective`: Different numbers are written differently.
* `Operand.isToken_wordText`: A written operand word is a token.
* `Operand.startsWith_wordText`: A written operand word is no reference.
* `Operand.parse_index_eq_ok_iff`, `Operand.parse_plain_eq_ok_iff`: The tokens that are
  read as an operand.
* `Operand.parse_wordText`: When a written operand word is read back.
* `Opcode.isToken_name`: The name of an instruction is a token.
-/

namespace WordMachine

namespace Text

/-- The digits are ten characters that stand one after the other. -/
theorem isDigit_iff (c : Char) : c.isDigit = true ↔ 48 ≤ c.toNat ∧ c.toNat ≤ 57 := by
  simp [Char.isDigit, UInt32.le_iff_toNat_le]

/-- The digits are no blanks. -/
theorem isBlank_of_isDigit {c : Char} (h : c.isDigit = true) : isBlank c = false := by
  have hrange := (isDigit_iff c).mp h
  simp only [isBlank]
  simp only [Bool.or_eq_false_iff, Bool.and_eq_false_iff, decide_eq_false_iff_not,
    beq_eq_false_iff_ne]
  omega

end Text

namespace Decimal

/-- A text of digits, and the number that it denotes. Zeros in front do not count. -/
structure Denotes (t : Text) (n : Nat) : Prop where
  ne_nil : t ≠ []
  digits : ∀ c ∈ t, c.isDigit = true
  value : Decimal.value t = n

theorem isDigit_of_mem_write {n : Nat} {c : Char} (h : c ∈ write n) : c.isDigit = true :=
  Nat.isDigit_of_mem_toDigits (by decide) (by decide) h

/-- A written number is a token. -/
theorem isToken_write (n : Nat) : Text.IsToken (write n) :=
  ⟨Nat.toDigits_ne_nil, fun _ hc => Text.isBlank_of_isDigit (isDigit_of_mem_write hc)⟩

/-- A text of digits is read as the number they denote. -/
theorem read_of_digits {t : Text} (hne : t ≠ []) (hdigits : ∀ c ∈ t, c.isDigit = true)
    (hlt : value t < 65536) : read t = .ok (UInt16.ofNat (value t)) := by
  have htoken : Text.IsToken t := ⟨hne, fun c hc => Text.isBlank_of_isDigit (hdigits c hc)⟩
  have hall : t.all Char.isDigit = true := List.all_eq_true.mpr hdigits
  have hempty : t.isEmpty = false := by simpa using hne
  simp only [read, Text.trim_of_isSolid (Text.isSolid_of_isToken htoken), hempty, hall,
    Bool.false_eq_true, if_false, Bool.not_true, if_pos hlt]

/-- What is read is a number that fits in a word, with nothing around it but blanks. -/
theorem read_eq_ok_iff (t : Text) (w : Word) :
    read t = .ok w ↔ Denotes (Text.trim t) w.toNat := by
  constructor
  · intro h
    simp only [read] at h
    split at h
    · cases h
    · rename_i hempty
      split at h
      · cases h
      · rename_i hdigits
        split at h
        · rename_i hlt
          cases h
          refine ⟨by simpa using hempty, by simpa using hdigits, ?_⟩
          exact (UInt16.toNat_ofNat_of_lt' hlt).symm
        · cases h
  · rintro ⟨hne, hdigits, hvalue⟩
    have hread := read_of_digits hne hdigits (hvalue ▸ w.toNat_lt)
    -- Digits are not trimmed, so what is trimmed is read like what is left of it.
    have htrim : Text.trim (Text.trim t) = Text.trim t :=
      Text.trim_of_not_isBlank fun c hc => Text.isBlank_of_isDigit (hdigits c hc)
    rw [hvalue, UInt16.ofNat_toNat] at hread
    simpa only [read, htrim] using hread

/-- A text without blanks is read if it denotes a number that fits in a word. -/
theorem read_eq_ok_iff_of_not_isBlank {t : Text} (h : ∀ c ∈ t, Text.isBlank c = false) (w : Word) :
    read t = .ok w ↔ Denotes t w.toNat := by
  rw [read_eq_ok_iff, Text.trim_of_not_isBlank h]

theorem value_write (n : Nat) : value (write n) = n :=
  Nat.ofDigitChars_ten_toDigits

/-- A written number is read back, if it fits in a word. -/
theorem read_write {n : Nat} (h : n < 65536) : read (write n) = .ok (UInt16.ofNat n) := by
  have hread := read_of_digits (isToken_write n).1 (fun _ hc => isDigit_of_mem_write hc)
    (by rw [value_write]; exact h)
  rw [hread, value_write]

/-- A written word is read back. -/
theorem read_writeWord (w : Word) : read (writeWord w) = .ok w := by
  rw [writeWord, read_write w.toNat_lt, UInt16.ofNat_toNat]

/-- Different numbers are written differently. -/
theorem write_injective {m n : Nat} (h : write m = write n) : m = n := by
  rw [← value_write m, h, value_write]

/-- A number below a power of ten has at most as many digits as the power. -/
theorem length_write_le {n k : Nat} (hk : 0 < k) (h : n < 10 ^ k) : (write n).length ≤ k :=
  (Nat.length_toDigits_le_iff (by decide) hk).mpr h

/-- A number does not begin with a character that is no digit. -/
theorem Denotes.startsWith {t : Text} {n : Nat} {c : Char} (h : Denotes t n)
    (hc : c.isDigit = false) : Text.startsWith c t = false := by
  rcases List.exists_cons_of_ne_nil h.ne_nil with ⟨d, rest, rfl⟩
  have hdigit : d.isDigit = true := h.digits d List.mem_cons_self
  -- The first character is a digit, and `c` is none.
  simp only [Text.startsWith, List.head?_cons]
  refine beq_eq_false_iff_ne.mpr fun heq => ?_
  rw [Option.some.injEq] at heq
  rw [heq, hc] at hdigit
  exact absurd hdigit (by decide)

theorem denotes_write (n : Nat) : Denotes (write n) n :=
  ⟨(isToken_write n).1, fun _ hc => isDigit_of_mem_write hc, value_write n⟩

theorem startsWith_write {c : Char} (hc : c.isDigit = false) (n : Nat) :
    Text.startsWith c (write n) = false :=
  (denotes_write n).startsWith hc

end Decimal

namespace Operand

/-- A written operand is a token. -/
theorem isToken_text (operand : Operand) : Text.IsToken operand.text := by
  cases operand with
  | literal value => exact Decimal.isToken_write value.toNat
  | register index =>
      refine ⟨List.cons_ne_nil _ _, fun c hc => ?_⟩
      rcases List.mem_cons.mp hc with rfl | hc
      · decide
      · exact (Decimal.isToken_write index).2 c hc

/-- A written operand word is a token. -/
theorem isToken_wordText (w : Word) : Text.IsToken (wordText w) := by
  unfold wordText
  split
  · exact isToken_text _
  · exact Decimal.isToken_write w.toNat

/-- A written operand word begins with a digit or with `r`, so it is no reference. -/
theorem startsWith_wordText {c : Char} (hc : c.isDigit = false) (hr : c ≠ 'r') (w : Word) :
    Text.startsWith c (wordText w) = false := by
  unfold wordText
  split
  · rename_i operand _
    cases operand with
    | literal value => exact Decimal.startsWith_write hc value.toNat
    | register index => simpa [text, Text.startsWith] using Ne.symm hr
  · exact Decimal.startsWith_write hc w.toNat

/-- A token that does not begin with `r` is read as a number. -/
theorem parse_of_not_register {t : Text} (h : Text.startsWith 'r' t = false) :
    parse t = match Decimal.read t with
      | .ok w => if w ≤ maxWord then .ok w else .error (.notValue t)
      | .error _ => .error (.notValue t) := by
  unfold parse
  split
  · simp [Text.startsWith] at h
  · rfl

/-- A token that begins with `r` is read if what follows is the number of a register. -/
theorem parse_index_eq_ok_iff (index : Text) (w : Word) :
    parse ('r' :: index) = .ok w ↔
      ∃ n, Decimal.read index = .ok n ∧ n.toNat < registerCount ∧ registerBase + n = w := by
  simp only [parse]
  cases Decimal.read index with
  | error refusal => simp
  | ok n =>
      by_cases hlt : n.toNat < registerCount
      · simp [hlt]
      · simp [hlt]

/-- Any other token is read if it is a number that encodes an operand. -/
theorem parse_plain_eq_ok_iff {t : Text} (h : Text.startsWith 'r' t = false) (w : Word) :
    parse t = .ok w ↔ Decimal.read t = .ok w ∧ w ≤ maxWord := by
  rw [parse_of_not_register h]
  cases Decimal.read t with
  | error refusal => simp
  | ok v =>
      by_cases hle : v ≤ maxWord
      · simp only [hle, if_true, Except.ok.injEq]
        exact ⟨fun heq => ⟨heq, heq ▸ hle⟩, And.left⟩
      · simp only [hle, if_false, reduceCtorEq, Except.ok.injEq, false_iff]
        rintro ⟨rfl, hmax⟩
        exact hle hmax

/-- A word written as a plain number is read back if it encodes an operand. -/
theorem parse_writeWord (w : Word) :
    parse (Decimal.writeWord w) =
      if w ≤ maxWord then .ok w else .error (.notValue (Decimal.writeWord w)) := by
  have hdigit : Text.startsWith 'r' (Decimal.writeWord w) = false :=
    Decimal.startsWith_write (by decide) w.toNat
  rw [parse_of_not_register hdigit, Decimal.read_writeWord]

/-- A register that there is is read back as the word that encodes it. -/
theorem parse_register {index : Nat} (h : index < registerCount) :
    parse (text (.register index)) = .ok (registerBase + UInt16.ofNat index) := by
  have hsize : index < UInt16.size := Nat.lt_trans h (by decide)
  have hread := Decimal.read_write hsize
  have hindex : (UInt16.ofNat index).toNat = index := UInt16.toNat_ofNat_of_lt' hsize
  simp only [text, parse, hread, hindex, if_pos h]

/-- A written operand word is read back if it encodes an operand, and refused
    otherwise. -/
theorem parse_wordText (w : Word) :
    parse (wordText w) = if w ≤ maxWord then .ok w else .error (.notValue (wordText w)) := by
  have hsome := ofWord?_isSome_iff w
  unfold wordText
  cases h : ofWord? w with
  | none => exact parse_writeWord w
  | some operand =>
      -- The operand is written as it is, and its word is the only one that encodes it.
      have hmax : w ≤ maxWord := hsome.mp (by rw [h]; rfl)
      have hword := toWord_of_ofWord? h
      rw [if_pos hmax]
      cases operand with
      | literal value =>
          rw [toWord] at hword
          simp only [text, hword, parse_writeWord, if_pos hmax]
      | register index =>
          have hindex : index < registerCount := inRange_of_ofWord? h
          simp only [parse_register hindex]
          rw [← hword, toWord]

/-- A written operand word is read as itself, if at all. -/
theorem parse_wordText_eq_ok_iff (w v : Word) :
    parse (wordText w) = .ok v ↔ w ≤ maxWord ∧ w = v := by
  rw [parse_wordText]
  split
  · rename_i h
    simp [h]
  · rename_i h
    simp [h]

end Operand

namespace Opcode

/-- The name of an instruction is a token. -/
theorem isToken_name (op : Opcode) : Text.IsToken op.name := by
  cases op <;> decide

theorem isToken_rawName : Text.IsToken rawName := by
  decide

end Opcode

end WordMachine
