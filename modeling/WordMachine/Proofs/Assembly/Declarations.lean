import WordMachine.Proofs.Assembly.Words

/-!
# Accepted Declarations

Which lines declare data, and which lists of them are accepted.

A declaration is checked piece by piece: the number of its tokens, then its name, its
value and its size, and last that its name is new. `Declares` says the same of a line
all at once, in terms of what its tokens are and not of how they are read. Only the last
check looks at other lines, and since a declaration is compared with all that were
accepted before it, a list is accepted exactly if its names are different from each
other.

## Main definitions

* `Name.IsName`: The texts that are names.
* `Declaration.Declares`: The lines that declare a block of data.

## Theorems

* `Name.check_eq_ok_iff`: The check accepts names and nothing else.
* `Declaration.parse_eq_ok_iff`: The lines that are read as declarations.
* `Declaration.parseAll_eq_map_ok_iff`: When all declarations of a source are accepted.
-/

namespace WordMachine

namespace Name

/-- A letter, followed by letters, digits, `_` and `-`, in at most thirty-two bytes. -/
inductive IsName : Text → Prop
  | intro {first : Char} {rest : Text} (letter : first.isAlpha = true)
      (others : ∀ c ∈ rest, c.isAlphanum = true ∨ c = '_' ∨ c = '-')
      (short : byteLength (first :: rest) ≤ 32) : IsName (first :: rest)

theorem isNameChar_iff (c : Char) :
    isNameChar c = true ↔ c.isAlphanum = true ∨ c = '_' ∨ c = '-' := by
  simp [isNameChar, or_assoc]

theorem check_eq_ok_iff (name : Text) : check name = .ok () ↔ IsName name := by
  unfold check
  constructor
  · intro h
    split at h
    · cases h
    · rename_i first rest
      split at h
      · cases h
      · rename_i hshort
        split at h
        · cases h
        · rename_i hletter
          split at h
          · cases h
          · rename_i hothers
            refine .intro (by simpa using hletter) (fun c hc => ?_) (Nat.le_of_not_gt hshort)
            exact (isNameChar_iff c).mp (by simpa using List.find?_eq_none.mp hothers c hc)
  · rintro ⟨hletter, hothers, hshort⟩
    rename_i first rest
    have hlength : ¬ byteLength (first :: rest) > maxBytes := Nat.not_lt.mpr hshort
    have hfind : rest.find? (!isNameChar ·) = none :=
      List.find?_eq_none.mpr fun c hc => by simp [(isNameChar_iff c).mpr (hothers c hc)]
    simp only [if_neg hlength, hletter, Bool.not_true, Bool.false_eq_true, if_false, hfind]

end Name

namespace Declaration

/-- The lines that declare a block of data: a name after a dot, a value that fits in a
    word and, if it is not one, the size of the block, up to the size of memory. -/
inductive Declares (line : Line) : Declaration → Prop
  | word {name value : Text} {v : Nat} (tokens : line.tokens = ['.' :: name, value])
      (named : Name.IsName name) (valued : Decimal.Denotes value v) (fits : v ≤ 65535) :
      Declares line ⟨name, UInt16.ofNat v, 1, line.number⟩
  | block {name value count : Text} {v n : Nat}
      (tokens : line.tokens = ['.' :: name, value, count])
      (named : Name.IsName name) (valued : Decimal.Denotes value v) (fits : v ≤ 65535)
      (counted : Decimal.Denotes count n) (small : n ≤ 32768) :
      Declares line ⟨name, UInt16.ofNat v, UInt16.ofNat n, line.number⟩

/-- The size of a block is given by a token, or is one. -/
def CountIs (count : Word) : Option Text → Prop
  | none => count = 1
  | some token => Decimal.read token = .ok count ∧ count.toNat ≤ memorySize

theorem parseCount_eq_ok_iff (line : Line) (token : Text) (count : Word) :
    parseCount line token = .ok count ↔ CountIs count (some token) := by
  simp only [parseCount, CountIs]
  cases hread : Decimal.read token with
  | error e => simp
  | ok n =>
      by_cases hle : n.toNat ≤ memorySize
      · simp only [if_pos hle, Except.ok.injEq]
        constructor
        · rintro rfl
          exact ⟨rfl, hle⟩
        · exact fun h => h.1
      · simp only [if_neg hle, Except.ok.injEq, reduceCtorEq, false_iff, not_and]
        rintro rfl
        exact hle

theorem ofTokens_eq_ok_iff (line : Line) (name value : Text) (token : Option Text)
    (d : Declaration) :
    ofTokens line name value token = .ok d ↔
      Name.IsName name ∧ ∃ v count, Decimal.read value = .ok v ∧ CountIs count token ∧
        d = ⟨name, v, count, line.number⟩ := by
  rw [ofTokens, bind_eq_ok_iff, ← Name.check_eq_ok_iff]
  constructor
  · rintro ⟨⟨⟩, hname, h⟩
    rcases (bind_eq_ok_iff _ _ _).mp h with ⟨v, hv, h⟩
    refine ⟨(mapError_eq_ok_iff _ _ _).mp hname, v, ?_⟩
    cases token with
    | none =>
        cases h
        exact ⟨1, (mapError_eq_ok_iff _ _ _).mp hv, rfl, rfl⟩
    | some token =>
        rcases (bind_eq_ok_iff _ _ _).mp h with ⟨count, hcount, h⟩
        cases h
        exact ⟨count, (mapError_eq_ok_iff _ _ _).mp hv, (parseCount_eq_ok_iff _ _ _).mp hcount, rfl⟩
  · rintro ⟨hname, v, count, hv, hcount, rfl⟩
    refine ⟨(), (mapError_eq_ok_iff _ _ _).mpr hname, (bind_eq_ok_iff _ _ _).mpr
      ⟨v, (mapError_eq_ok_iff _ _ _).mpr hv, ?_⟩⟩
    cases token with
    | none =>
        cases hcount
        rfl
    | some token =>
        exact (bind_eq_ok_iff _ _ _).mpr ⟨count, (parseCount_eq_ok_iff _ _ _).mpr hcount, rfl⟩

theorem parse_eq_ofTokens_iff (line : Line) (d : Declaration) :
    parse line = .ok d ↔
      ∃ name value token, line.tokens = name :: value :: Option.toList token ∧
        ofTokens line (name.drop 1) value token = .ok d := by
  unfold parse
  constructor
  · intro h
    split at h
    · rename_i name value htokens
      exact ⟨name, value, none, htokens, h⟩
    · rename_i name value token htokens
      exact ⟨name, value, some token, htokens, h⟩
    · cases h
  · rintro ⟨name, value, token, htokens, h⟩
    cases token with
    | none =>
        simp only [htokens, Option.toList]
        exact h
    | some token =>
        simp only [htokens, Option.toList]
        exact h

/-- What is read as a declaration is on the line that it is read from. -/
theorem line_of_parse {line : Line} {d : Declaration} (h : parse line = .ok d) :
    d.line = line.number := by
  rcases (parse_eq_ofTokens_iff _ _).mp h with ⟨name, value, token, _, h⟩
  rcases (ofTokens_eq_ok_iff _ _ _ _ _).mp h with ⟨_, v, count, _, _, rfl⟩
  rfl

/-- A trimmed line that begins with a dot is read as a declaration exactly if it declares
    one. -/
theorem parse_eq_ok_iff {line : Line} (hsolid : Text.IsSolid line.text)
    (hdot : isDeclaration line = true) (d : Declaration) :
    parse line = .ok d ↔ Declares line d := by
  have htoken : ∀ token ∈ line.tokens, ∀ w, Decimal.read token = .ok w ↔
      Decimal.Denotes token w.toNat := fun token hmem =>
    Decimal.read_eq_ok_iff_of_not_isBlank (Line.isToken_of_mem_tokens hmem).2
  rw [parse_eq_ofTokens_iff]
  constructor
  · rintro ⟨first, value, token, htokens, h⟩
    -- The first word begins with the dot that the line begins with.
    have hhead : Text.startsWith '.' first = true := by
      rw [← (show line.head = first by rw [Line.head, htokens]; rfl), Line.startsWith_head hsolid]
      exact hdot
    rcases (Text.startsWith_iff _ _).mp hhead with ⟨name, rfl⟩
    rcases (ofTokens_eq_ok_iff _ _ _ _ _).mp h with ⟨hname, v, count, hv, hcount, rfl⟩
    have hvalue := (htoken value (by simp [htokens]) v).mp hv
    have hfits : v.toNat ≤ 65535 := Nat.le_of_lt_succ v.toNat_lt
    rw [show v = UInt16.ofNat v.toNat from UInt16.ofNat_toNat.symm]
    cases token with
    | none =>
        cases hcount
        exact .word htokens hname hvalue hfits
    | some token =>
        rw [show count = UInt16.ofNat count.toNat from UInt16.ofNat_toNat.symm]
        exact .block htokens hname hvalue hfits
          ((htoken token (by simp [htokens]) count).mp hcount.1) hcount.2
  · -- The numbers fit in words, so the words are read.
    have hread : ∀ token ∈ line.tokens, ∀ n, Decimal.Denotes token n → n ≤ 65535 →
        Decimal.read token = .ok (UInt16.ofNat n) := by
      intro token hmem n hn hle
      rw [htoken token hmem, UInt16.toNat_ofNat_of_lt' (Nat.lt_succ_of_le hle)]
      exact hn
    intro h
    cases h with
    | word tokens named valued fits =>
        rename_i name value v
        refine ⟨'.' :: name, value, none, tokens, (ofTokens_eq_ok_iff _ _ _ _ _).mpr
          ⟨named, _, 1, hread value (by simp [tokens]) v valued fits, rfl, rfl⟩⟩
    | block tokens named valued fits counted small =>
        rename_i name value count v n
        have hn : (UInt16.ofNat n).toNat = n :=
          UInt16.toNat_ofNat_of_lt' (Nat.lt_of_le_of_lt small (by decide))
        refine ⟨'.' :: name, value, some count, tokens, (ofTokens_eq_ok_iff _ _ _ _ _).mpr
          ⟨named, _, _, hread value (by simp [tokens]) v valued fits, ⟨?_, ?_⟩, rfl⟩⟩
        · exact hread count (by simp [tokens]) n counted (Nat.le_trans small (by decide))
        · rw [hn]
          exact small

theorem parseNew_eq_ok_iff (accepted : List Declaration) (line : Line) (d : Declaration) :
    parseNew accepted line = .ok d ↔ parse line = .ok d ∧ ∀ a ∈ accepted, a.name ≠ d.name := by
  rw [parseNew, bind_eq_ok_iff]
  constructor
  · rintro ⟨d', hd, h⟩
    split at h
    · cases h
    · rename_i hnone
      cases h
      refine ⟨hd, fun a ha hname => ?_⟩
      exact List.find?_eq_none.mp hnone a ha (beq_iff_eq.mpr hname)
  · rintro ⟨hd, hnew⟩
    have hnone : accepted.find? (·.name == d.name) = none :=
      List.find?_eq_none.mpr fun a ha hname => hnew a ha (beq_iff_eq.mp hname)
    exact ⟨d, hd, by rw [hnone]; rfl⟩

theorem parseAll_cons_eq_map_ok_iff (accepted : List Declaration) (line : Line)
    (rest : List Line) (ds : List Declaration) :
    parseAll accepted (line :: rest) = ds.map .ok ↔
      ∃ d ds', parseNew accepted line = .ok d ∧ parseAll (d :: accepted) rest = ds'.map .ok ∧
        ds = d :: ds' := by
  rw [parseAll]
  constructor
  · intro h
    cases hnew : parseNew accepted line with
    | error e =>
        rw [hnew] at h
        cases ds <;> cases h
    | ok d =>
        rw [hnew] at h
        cases ds with
        | nil => cases h
        | cons d' ds' =>
            simp only [List.map_cons, List.cons.injEq, Except.ok.injEq] at h
            exact ⟨d, ds', rfl, h.2, by rw [h.1]⟩
  · rintro ⟨d, ds', hnew, hrest, rfl⟩
    rw [hnew, List.map_cons, ← hrest]

/-- Declarations are all accepted exactly when each can be read and no name is declared
    twice. -/
theorem parseAll_eq_map_ok_iff (accepted : List Declaration) (lines : List Line)
    (ds : List Declaration) :
    parseAll accepted lines = ds.map .ok ↔
      List.Forall₂ (fun line d => parse line = .ok d) lines ds ∧
        (ds.map (·.name)).Nodup ∧ ∀ d ∈ ds, ∀ a ∈ accepted, a.name ≠ d.name := by
  induction lines generalizing accepted ds with
  | nil =>
      rw [parseAll, List.forall₂_nil_left_iff, eq_comm, List.map_eq_nil_iff]
      constructor
      · rintro rfl
        simp
      · exact fun h => h.1
  | cons line rest ih =>
      rw [parseAll_cons_eq_map_ok_iff, List.forall₂_cons_left_iff]
      constructor
      · rintro ⟨d, ds', hnew, hrest, rfl⟩
        rcases (parseNew_eq_ok_iff _ _ _).mp hnew with ⟨hparse, hfree⟩
        rcases (ih _ _).mp hrest with ⟨hparses, hnodup, hnames⟩
        refine ⟨⟨d, ds', hparse, hparses, rfl⟩, ?_, ?_⟩
        · -- The first declaration is accepted before the others are read.
          rw [List.map_cons, List.nodup_cons]
          refine ⟨fun hmem => ?_, hnodup⟩
          rcases List.mem_map.mp hmem with ⟨d', hd', hname⟩
          exact hnames d' hd' d List.mem_cons_self hname.symm
        · rw [List.forall_mem_cons]
          exact ⟨hfree, fun d' hd' a ha => hnames d' hd' a (List.mem_cons_of_mem _ ha)⟩
      · rintro ⟨⟨d, ds', hparse, hparses, rfl⟩, hnodup, hnames⟩
        rw [List.map_cons, List.nodup_cons] at hnodup
        rw [List.forall_mem_cons] at hnames
        refine ⟨d, ds', (parseNew_eq_ok_iff _ _ _).mpr ⟨hparse, hnames.1⟩,
          (ih _ _).mpr ⟨hparses, hnodup.2, fun d' hd' a ha => ?_⟩, rfl⟩
        rcases List.mem_cons.mp ha with rfl | ha
        · exact fun hname => hnodup.1 (List.mem_map.mpr ⟨d', hd', hname.symm⟩)
        · exact hnames.2 d' hd' a ha

end Declaration

end WordMachine
