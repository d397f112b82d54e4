import Mathlib.Data.List.Induction
import Mathlib.Data.List.TakeWhile
import WordMachine.Proofs.Text.Numerals

/-!
# The Grammar of Numbers and Operands

Which texts are read as a number or as an operand.

The grammar of numbers has two rules: a digit is a numeral, and a numeral with one more
digit is a numeral. The number it denotes is computed along the rules, so a numeral has
any length and any number of zeros in front. A text is read if such a numeral is what
remains without the blanks around it, and its number fits in a word. Nothing here is said
through the functions that read: what a numeral is, what it denotes and what trimming
leaves are each defined apart, and reading is shown to agree.

An operand is then a number that is not too large, or an `r` and a number that is small
enough. The number after the `r` is read like any other, with blanks around it, which is
why the grammar of operands refers to reading and not to numerals.

## Main definitions

* `Text.IsTrimmed`: What is left of a text without the blanks around it.
* `Decimal.Numeral`: The numerals and their numbers.

## Theorems

* `Text.trim_eq_iff`: Trimming leaves just that.
* `Decimal.numeral_iff`: The grammar against the value of all digits at once.
* `Decimal.exists_read_iff`: The texts that are read as a number.
* `Operand.parse_eq_ok_iff`: The texts that are read as an operand.
* `readers_match_grammar`: What both readers accept, and that they undo writing.
-/

namespace WordMachine

namespace Text

/-- What is left of a text without the blanks around it. -/
structure IsTrimmed (s t : Text) : Prop where
  around : ∃ front back, s = front ++ (t ++ back) ∧
    (∀ c ∈ front, isBlank c = true) ∧ ∀ c ∈ back, isBlank c = true
  /-- It begins and ends with characters that show, unless there is nothing left. -/
  solid : t ≠ [] → IsSolid t

/-- Blanks behind a text are trimmed. -/
theorem trimEnd_append_of_isBlank {t blanks : Text} (h : ∀ c ∈ blanks, isBlank c = true) :
    trimEnd (t ++ blanks) = trimEnd t := by
  have hblank : ∀ c ∈ blanks.reverse, isBlank c = true := fun c hc => h c (List.mem_reverse.mp hc)
  rw [trimEnd, List.reverse_append, List.dropWhile_append_of_pos hblank, ← trimEnd]

theorem isTrimmed_trim (s : Text) : IsTrimmed s (trim s) where
  around := by
    refine ⟨s.takeWhile isBlank, ((trimStart s).reverse.takeWhile isBlank).reverse, ?_, ?_, ?_⟩
    · rw [trim_append_takeWhile, trimStart, List.takeWhile_append_dropWhile]
    · exact List.all_eq_true.mp List.all_takeWhile
    · intro c hc
      exact List.all_eq_true.mp List.all_takeWhile c (List.mem_reverse.mp hc)
  solid := isSolid_trim

/-- Trimming leaves what is left without the blanks around, and only one text is that. -/
theorem trim_eq_iff (s t : Text) : trim s = t ↔ IsTrimmed s t := by
  constructor
  · rintro rfl
    exact isTrimmed_trim s
  · intro h
    rcases h.around with ⟨front, back, rfl, hfront, hback⟩
    rw [trim, trimStart, List.dropWhile_append_of_pos hfront, ← trimStart]
    by_cases hne : t = []
    · -- There is nothing but blanks.
      have hall : trimStart back = [] := List.dropWhile_eq_nil_iff.mpr hback
      rw [hne, List.nil_append, hall]
      rfl
    · rcases h.solid hne with ⟨⟨c, hc, hshows⟩, -⟩
      have hhead : (t ++ back).head? = some c := by
        rw [List.head?_append, hc, Option.some_or]
      have hstart : trimStart t = t := dropWhile_isBlank_of_head hc hshows
      have htrim := trim_of_isSolid (h.solid hne)
      rw [trim, hstart] at htrim
      rw [trimStart, dropWhile_isBlank_of_head hhead hshows, trimEnd_append_of_isBlank hback, htrim]

end Text

namespace Decimal

/-- The numerals, which are the digits and the numerals with one more digit, and the number
    that each denotes. -/
inductive Numeral : Text → Nat → Prop
  | digit {c : Char} (first : 48 ≤ c.toNat) (last : c.toNat ≤ 57) : Numeral [c] (c.toNat - 48)
  | more {t : Text} {n : Nat} {c : Char} (h : Numeral t n) (first : 48 ≤ c.toNat)
      (last : c.toNat ≤ 57) : Numeral (t ++ [c]) (10 * n + (c.toNat - 48))

/-- One more digit adds what it denotes to ten times what is in front of it. -/
theorem value_concat (t : Text) (c : Char) : value (t ++ [c]) = 10 * value t + (c.toNat - 48) := by
  rw [value, Nat.ofDigitChars_append, Nat.ofDigitChars_cons, Nat.ofDigitChars_nil]
  rfl

theorem value_singleton (c : Char) : value [c] = c.toNat - 48 := by
  rw [← List.nil_append [c], value_concat, value, Nat.ofDigitChars_nil, Nat.mul_zero, Nat.zero_add]

theorem Numeral.denotes {t : Text} {n : Nat} (h : Numeral t n) : Denotes t n := by
  induction h with
  | @digit c first last =>
      refine ⟨List.cons_ne_nil _ _, fun d hd => ?_, value_singleton c⟩
      rw [List.mem_singleton.mp hd]
      exact (Text.isDigit_iff c).mpr ⟨first, last⟩
  | @more t n c _ first last ih =>
      refine ⟨List.append_ne_nil_of_left_ne_nil ih.ne_nil _, fun d hd => ?_,
        by rw [value_concat, ih.value]⟩
      rcases List.mem_append.mp hd with hd | hd
      · exact ih.digits d hd
      · rw [List.mem_singleton.mp hd]
        exact (Text.isDigit_iff c).mpr ⟨first, last⟩

theorem Denotes.numeral {t : Text} {n : Nat} (h : Denotes t n) : Numeral t n := by
  rcases h with ⟨hne, hdigits, rfl⟩
  -- Along the text from its end, since that is where the rules add a digit.
  induction t using List.reverseRecOn with
  | nil => exact absurd rfl hne
  | append_singleton t c ih =>
      rcases (Text.isDigit_iff c).mp (hdigits c List.mem_concat_self) with ⟨first, last⟩
      by_cases ht : t = []
      · rw [ht, List.nil_append, value_singleton]
        exact .digit first last
      · rw [value_concat]
        exact .more (ih ht fun d hd => hdigits d (List.mem_append_left _ hd)) first last

theorem numeral_iff (t : Text) (n : Nat) : Numeral t n ↔ Denotes t n :=
  ⟨Numeral.denotes, Denotes.numeral⟩

/-- A text is read as a number exactly if a numeral for it is left without the blanks
    around, and the number fits in a word. -/
theorem exists_read_iff (s : Text) (n : Nat) :
    (∃ w, read s = .ok w ∧ w.toNat = n) ↔ (∃ t, Text.IsTrimmed s t ∧ Numeral t n) ∧ n ≤ 65535 := by
  simp only [← Text.trim_eq_iff, exists_eq_left', numeral_iff, read_eq_ok_iff]
  constructor
  · rintro ⟨w, hw, rfl⟩
    exact ⟨hw, Nat.le_of_lt_succ w.toNat_lt⟩
  · rintro ⟨hn, hle⟩
    have hvalue : (UInt16.ofNat n).toNat = n := UInt16.toNat_ofNat_of_lt' (Nat.lt_succ_of_le hle)
    exact ⟨UInt16.ofNat n, hvalue.symm ▸ hn, hvalue⟩

end Decimal

namespace Operand

/-- The word of a register comes as many words after the first as its number says. -/
theorem registerBase_add_eq_iff {n : Word} (h : n.toNat < registerCount) (w : Word) :
    registerBase + n = w ↔ w.toNat = 32768 + n.toNat := by
  have hbase : registerBase.toNat = 32768 := rfl
  have hlt : n.toNat < 8 := h
  rw [← UInt16.toNat_inj, UInt16.toNat_add, hbase]
  omega

/-- A text is read as an operand exactly if it names a register that there is, or does not
    begin like the name of one and is a number up to the word of the last register. -/
theorem parse_eq_ok_iff (s : Text) (w : Word) :
    parse s = .ok w ↔
      (∃ index n, s = 'r' :: index ∧ Decimal.read index = .ok n ∧ n.toNat < 8 ∧
        w.toNat = 32768 + n.toNat) ∨
      (s.head? ≠ some 'r' ∧ Decimal.read s = .ok w ∧ w.toNat ≤ 32775) := by
  cases hr : Text.startsWith 'r' s with
  | true =>
      rcases (Text.startsWith_iff 'r' s).mp hr with ⟨index, rfl⟩
      rw [parse_index_eq_ok_iff]
      constructor
      · rintro ⟨n, hn, hlt, hw⟩
        exact Or.inl ⟨index, n, rfl, hn, hlt, (registerBase_add_eq_iff hlt w).mp hw⟩
      · rintro (⟨_, n, ⟨⟩, hn, hlt, hw⟩ | ⟨hhead, -⟩)
        · exact ⟨n, hn, hlt, (registerBase_add_eq_iff hlt w).mpr hw⟩
        · exact absurd rfl hhead
  | false =>
      have hhead : s.head? ≠ some 'r' := by simpa [Text.startsWith] using hr
      rw [parse_plain_eq_ok_iff hr, UInt16.le_iff_toNat_le]
      constructor
      · rintro ⟨hw, hle⟩
        exact Or.inr ⟨hhead, hw, hle⟩
      · rintro (⟨_, _, rfl, -⟩ | ⟨-, hw, hle⟩)
        · exact absurd rfl hhead
        · exact ⟨hw, hle⟩

end Operand

/-- Numbers and operands are read from the texts of their grammar and no others, and what is
    written is read back: of words as operands those that encode one, and of words as numbers
    all. -/
theorem readers_match_grammar :
    (∀ (s : Text) (n : Nat), (∃ w, Decimal.read s = .ok w ∧ w.toNat = n) ↔
      (∃ t, Text.IsTrimmed s t ∧ Decimal.Numeral t n) ∧ n ≤ 65535) ∧
    (∀ (s : Text) (w : Word), Operand.parse s = .ok w ↔
      (∃ index n, s = 'r' :: index ∧ Decimal.read index = .ok n ∧ n.toNat < 8 ∧
        w.toNat = 32768 + n.toNat) ∨
      (s.head? ≠ some 'r' ∧ Decimal.read s = .ok w ∧ w.toNat ≤ 32775)) ∧
    (∀ w : Word, Operand.parse (Operand.wordText w) = .ok w ↔ w.toNat ≤ 32775) ∧
    ∀ w : Word, Decimal.read (Decimal.writeWord w) = .ok w := by
  refine ⟨Decimal.exists_read_iff, Operand.parse_eq_ok_iff, fun w => ?_, Decimal.read_writeWord⟩
  rw [Operand.parse_wordText_eq_ok_iff, and_iff_left rfl, UInt16.le_iff_toNat_le]
  rfl

/-- Blanks of other scripts are blanks, and zeros in front do not count. -/
example : Operand.parse ['r', '\u2003', '0', '0', '7', '\n'] = .ok 32775 := by decide

/-- Digits of other scripts are no digits. -/
example : Decimal.read ['\u0663'] = .error (.notDecimal ['\u0663']) := by decide

end WordMachine
