import Mathlib.Data.List.Nodup
import WordMachine.Assembly.Name
import WordMachine.Listing.Target
import WordMachine.Proofs.Listing.Walk
import WordMachine.Proofs.Text.Numerals

/-!
# Labels of a Listing

Every label of a listing is a good name, and no two of them are the same.

A label is written from a kind and an address, and both can be read off it again: the
stems of the kinds have the same length and differ, and what follows them is a number.
So different targets have different names, and since a boundary is visited once and
carries at most one label of each kind, no label of a listing is defined twice.

A survey holds its addresses in sorted sets. Nothing here depends on the order: all
that is used is which addresses they hold, and `Survey.contains_targets_iff` and
`Survey.contains_boundaries_iff` say so in terms of the lists they were made from.

## Main definitions

* `Target.name`: A label without the character that marks it.
* `Survey.named`: The targets that the instructions of a program name.

## Theorems

* `Target.isToken_label`: A label is a token.
* `Target.name_injective`: Different targets have different names.
* `Target.check_name`: The name of a target inside memory is accepted.
* `Survey.contains_targets_iff`, `Survey.contains_boundaries_iff`: What a survey
  holds.
* `Survey.mem_labelsAt_iff`: The labels of a boundary.
* `Survey.nodup_labels`: No label of a listing is defined twice.
-/

namespace WordMachine

namespace Target

/-- The name of a target: its label without the character that marks it. -/
def name (t : Target) : Text := t.kind.stem.drop 1 ++ Decimal.write t.address

theorem label_eq (t : Target) : t.label = ':' :: t.name := by
  rw [label, name]
  cases t.kind <;> rfl

/-- The first character of a name, a letter, and the rest of its stem. -/
theorem exists_name_eq (t : Target) :
    ∃ first middle, t.name = first :: (middle ++ Decimal.write t.address) ∧
      first.isAlpha = true ∧ middle.length = 4 ∧
      (∀ c ∈ first :: middle, Name.isNameChar c = true ∧ c.utf8Size = 1 ∧
        Text.isBlank c = false) := by
  rw [name]
  cases t.kind with
  | jump => exact ⟨'j', ['u', 'm', 'p', '-'], rfl, by decide, rfl, by simp; decide⟩
  | call => exact ⟨'p', ['r', 'o', 'c', '-'], rfl, by decide, rfl, by simp; decide⟩
  | data => exact ⟨'d', ['a', 't', 'a', '-'], rfl, by decide, rfl, by simp; decide⟩

/-- A label is a token. -/
theorem isToken_label (t : Target) : Text.IsToken t.label := by
  rcases t.exists_name_eq with ⟨first, middle, hname, _, _, hchars⟩
  rw [t.label_eq]
  refine ⟨List.cons_ne_nil _ _, fun c hc => ?_⟩
  rcases List.mem_cons.mp hc with rfl | hc
  · decide
  · rw [hname, ← List.cons_append] at hc
    rcases List.mem_append.mp hc with hc | hc
    · exact (hchars c hc).2.2
    · exact (Decimal.isToken_write t.address).2 c hc

/-- The stems of the kinds have the same length, so what follows them can be told. -/
theorem length_stem (kind : Kind) : (kind.stem.drop 1).length = 5 := by
  cases kind <;> rfl

/-- Different targets have different names. -/
theorem name_injective {t u : Target} (h : t.name = u.name) : t = u := by
  rw [name, name] at h
  -- The stems are equally long, so stem and digits agree separately.
  rcases List.append_inj h ((length_stem t.kind).trans (length_stem u.kind).symm) with
    ⟨hstem, hdigits⟩
  have hkind : t.kind = u.kind := by
    revert hstem
    cases t.kind <;> cases u.kind <;> decide
  have haddress := Decimal.write_injective hdigits
  cases t
  cases u
  cases hkind
  cases haddress
  rfl

/-- The digits can stand in names, and take one byte each. -/
theorem isNameChar_of_isDigit {c : Char} (h : c.isDigit = true) :
    Name.isNameChar c = true ∧ c.utf8Size = 1 := by
  have hrange := (Text.isDigit_iff c).mp h
  refine ⟨by simp [Name.isNameChar, Char.isAlphanum, h], ?_⟩
  have hle : c.val ≤ 127 := UInt32.le_iff_toNat_le.mpr (Nat.le_trans hrange.2 (by decide))
  simp [Char.utf8Size, hle]

/-- A text of one-byte characters has as many bytes as characters. -/
theorem byteLength_eq_length {text : Text} (h : ∀ c ∈ text, c.utf8Size = 1) :
    Name.byteLength text = text.length := by
  induction text with
  | nil => rfl
  | cons c rest ih =>
      have hrest := ih fun d hd => h d (List.mem_cons_of_mem _ hd)
      rw [Name.byteLength] at hrest ⊢
      rw [List.foldr_cons, hrest, h c List.mem_cons_self, List.length_cons, Nat.add_comm]

/-- The name of a target inside memory is accepted. -/
theorem check_name {t : Target} (h : t.address < memorySize) : Name.check t.name = .ok () := by
  rcases t.exists_name_eq with ⟨first, middle, hname, hfirst, hmiddle, hchars⟩
  have hlength : (Decimal.write t.address).length ≤ 5 :=
    Decimal.length_write_le (by decide) (Nat.lt_trans h (by decide))
  -- Every character is from the stem or a digit, so it is allowed and takes one byte.
  have hall : ∀ c ∈ first :: (middle ++ Decimal.write t.address),
      Name.isNameChar c = true ∧ c.utf8Size = 1 := by
    intro c hc
    rw [← List.cons_append] at hc
    rcases List.mem_append.mp hc with hc | hc
    · exact ⟨(hchars c hc).1, (hchars c hc).2.1⟩
    · exact isNameChar_of_isDigit (Decimal.isDigit_of_mem_write hc)
  have hbytes : ¬ Name.byteLength (first :: (middle ++ Decimal.write t.address)) > Name.maxBytes := by
    rw [byteLength_eq_length fun c hc => (hall c hc).2, List.length_cons, List.length_append,
      Name.maxBytes]
    omega
  have hfind : (middle ++ Decimal.write t.address).find? (!Name.isNameChar ·) = none := by
    refine List.find?_eq_none.mpr fun c hc => ?_
    simp [(hall c (List.mem_cons_of_mem _ hc)).1]
  rw [hname, Name.check, if_neg hbytes, hfirst, hfind]
  rfl

end Target

namespace Survey

/-- The targets that the instructions of a program name. -/
def named (m : Machine) (options : Listing.Options) : List Target :=
  m.boundaries.flatMap fun address => (m.decode (UInt16.ofNat address)).targets options

/-- The addresses of a kind are those of the targets of that kind. -/
theorem contains_targets_iff (m : Machine) (options : Listing.Options) (t : Target) :
    ((ofMachine m options).targets t.kind).contains t.address = true ↔ t ∈ named m options := by
  -- The survey keeps one set for each kind, all made in the same way.
  have hset : (ofMachine m options).targets t.kind = addresses (named m options) t.kind := by
    cases t.kind <;> rfl
  rw [hset, addresses, Std.TreeSet.contains_ofList, List.contains_iff_mem, List.mem_map]
  constructor
  · rintro ⟨u, hu, haddress⟩
    rcases List.mem_filter.mp hu with ⟨hmem, hkind⟩
    have : u = t := by
      cases u
      cases t
      simp only [decide_eq_true_eq] at hkind
      cases hkind
      cases haddress
      rfl
    rw [← this]
    exact hmem
  · intro h
    exact ⟨t, List.mem_filter.mpr ⟨h, by simp⟩, rfl⟩

/-- The boundaries of a survey are those of the program. -/
theorem contains_boundaries_iff (m : Machine) (options : Listing.Options) (address : Nat) :
    (ofMachine m options).boundaries.contains address = true ↔ address ∈ m.boundaries := by
  have hset : (ofMachine m options).boundaries = Std.TreeSet.ofList m.boundaries := rfl
  rw [hset, Std.TreeSet.contains_ofList, List.contains_iff_mem]

theorem mem_all (kind : Target.Kind) : kind ∈ Target.Kind.all := by
  cases kind <;> decide

/-- The labels of a boundary are the targets at its address. -/
theorem mem_labelsAt_iff (s : Survey) (address : Nat) (t : Target) :
    t ∈ s.labelsAt address ↔ t.address = address ∧ (s.targets t.kind).contains address = true := by
  rw [labelsAt, List.mem_map]
  constructor
  · rintro ⟨kind, hkind, rfl⟩
    exact ⟨rfl, (List.mem_filter.mp hkind).2⟩
  · rintro ⟨rfl, hcontains⟩
    exact ⟨t.kind, List.mem_filter.mpr ⟨mem_all _, hcontains⟩, rfl⟩

/-- A boundary carries at most one label of each kind. -/
theorem nodup_labelsAt (s : Survey) (address : Nat) : (s.labelsAt address).Nodup := by
  have hall : Target.Kind.all.Nodup := by decide
  refine List.Nodup.map ?_ (hall.filter _)
  intro kind kind' h
  exact congrArg Target.kind h

/-- No label of a listing is defined twice. -/
theorem nodup_labels (s : Survey) (m : Machine) (start : Nat) :
    ((m.walk start).flatMap s.labelsAt).Nodup := by
  refine List.nodup_flatMap.mpr ⟨fun address _ => s.nodup_labelsAt address, ?_⟩
  -- Labels of different boundaries have different addresses.
  refine (m.pairwise_walk start).imp fun {a b} hlt => ?_
  intro t ha hb
  rw [mem_labelsAt_iff] at ha hb
  omega

end Survey

end WordMachine
