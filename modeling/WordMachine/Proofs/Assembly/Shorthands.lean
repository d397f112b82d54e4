import WordMachine.Proofs.Assembly.Declarations
import WordMachine.Proofs.Listing.Source

/-!
# Accepted Shorthands

What the lines of a source stand for.

A print shorthand is read by counting quotes and trimming what comes after its name.
On a line that is already trimmed this comes to one shape: the name, blanks, and the
text between two quotes at the end of the line. `Stands` lists this shape and the two
others that a line can have, with the lines that each stands for.

## Main definitions

* `Shorthand.Quotes`: A line that quotes a text.
* `Shorthand.Stands`: The lines that a line stands for.

## Theorems

* `Shorthand.quoted_eq_ok_iff`: The text that a line quotes.
* `Shorthand.expandIfShorthand_eq_ok_iff`: A line is expanded to what it stands for.
* `Shorthand.Stands.unique`: A line stands for one list of lines only.
-/

namespace WordMachine

namespace Shorthand

/-- A name, then blanks, then a text between two quotes and nothing after it. There is no
    other quote. -/
structure Quotes (line name quoted : Text) : Prop where
  shape : ∃ blanks : Text, blanks ≠ [] ∧ (∀ c ∈ blanks, Text.isBlank c = true) ∧
    line = name ++ (blanks ++ (quote :: quoted ++ [quote]))
  inner : quote ∉ quoted

/-- The lines that a line stands for. All of them keep its number. -/
inductive Stands (line : Line) : List Line → Prop
  /-- A line without a mark stands for itself. -/
  | plain (unmarked : Text.startsWith '!' line.text = false) : Stands line [line]
  /-- A quoted text is printed one character at a time, if all codes are values. -/
  | print {quoted : Text} (quotes : Quotes line.text "!print".toList quoted)
      (values : ∀ c ∈ quoted, c.toNat ≤ 32767) :
      Stands line (quoted.map fun c =>
        ⟨line.number, Text.unwords ["OUT".toList, Decimal.write c.toNat]⟩)
  /-- So is a quoted line, and the line break after it. -/
  | println {quoted : Text} (quotes : Quotes line.text "!println".toList quoted)
      (values : ∀ c ∈ quoted, c.toNat ≤ 32767) :
      Stands line ((quoted ++ ['\n']).map fun c =>
        ⟨line.number, Text.unwords ["OUT".toList, Decimal.write c.toNat]⟩)
  /-- A negation is a complement, and one more. -/
  | negate {destination source : Text}
      (tokens : line.tokens = ["!neg".toList, destination, source]) :
      Stands line
        [⟨line.number, Text.unwords ["NOT".toList, destination, source]⟩,
         ⟨line.number, Text.unwords ["ADD".toList, destination, destination, "1".toList]⟩]

theorem unquote?_eq_some_iff (text quoted : Text) :
    unquote? text = some quoted ↔ text = quote :: quoted ++ [quote] := by
  unfold unquote?
  split
  · simp
  · rename_i first rest
    constructor
    · intro h
      split at h
      · rename_i hends
        rcases List.getLast?_eq_some_iff.mp hends.2 with ⟨ys, rfl⟩
        cases h
        rw [hends.1, List.dropLast_concat, List.cons_append]
      · cases h
    · intro h
      rw [List.cons_append, List.cons.injEq] at h
      rw [h.1, h.2, if_pos ⟨rfl, List.getLast?_concat⟩, List.dropLast_concat]

/-- Of what follows the name of a print shorthand on a trimmed line, a text is quoted exactly if
    there are only blanks in front of it and no other quotes. -/
theorem unquote?_trim_iff {rest : Text} (hstart : ∀ c, rest.head? = some c → Text.isBlank c = true)
    (hend : ∀ c, rest.getLast? = some c → Text.isBlank c = false) (text : Text) :
    rest.count quote = 2 ∧ unquote? (Text.trim rest) = some text ↔
      quote ∉ text ∧ ∃ blanks : Text, blanks ≠ [] ∧ (∀ c ∈ blanks, Text.isBlank c = true) ∧
        rest = blanks ++ (quote :: text ++ [quote]) := by
  have hcount : ∀ blanks : Text, (∀ c ∈ blanks, Text.isBlank c = true) →
      (blanks ++ (quote :: text ++ [quote])).count quote = text.count quote + 2 := by
    intro blanks hblanks
    have hnone : quote ∉ blanks := fun hmem => absurd (hblanks quote hmem) (by decide)
    rw [List.count_append, List.count_eq_zero.mpr hnone, List.cons_append, List.count_cons_self,
      List.count_append, List.count_singleton_self]
    omega
  rw [unquote?_eq_some_iff]
  constructor
  · rintro ⟨htwo, htrim⟩
    cases hlast : rest.getLast? with
    | none =>
        rw [List.getLast?_eq_none_iff.mp hlast] at htwo
        cases htwo
    | some last =>
        have hcut := Text.takeWhile_append_trim hlast (hend last hlast)
        have hblanks : ∀ c ∈ rest.takeWhile Text.isBlank, Text.isBlank c = true :=
          List.all_eq_true.mp List.all_takeWhile
        rw [htrim] at hcut
        refine ⟨?_, rest.takeWhile Text.isBlank, ?_, hblanks, hcut.symm⟩
        · -- The two quotes around the text are all there are.
          have hsum := hcount _ hblanks
          rw [hcut, htwo] at hsum
          exact List.count_eq_zero.mp (by omega)
        · intro hnil
          rw [hnil, List.nil_append] at hcut
          exact absurd (hstart quote (by rw [← hcut]; rfl)) (by decide)
  · rintro ⟨hinner, blanks, _, hblanks, rfl⟩
    refine ⟨?_, Text.trim_append_of_isBlank hblanks (Listing.isSolid_quoted text)⟩
    rw [hcount blanks hblanks, List.count_eq_zero.mpr hinner]

/-- A trimmed line with this first word is read as a quotation exactly if it is one. -/
theorem quoted_eq_ok_iff {line : Line} {name : Text} (hsolid : Text.IsSolid line.text)
    (hhead : line.head = name) (hname : quote ∉ name) (text : Text) :
    quoted line name = .ok text ↔ Quotes line.text name text := by
  rcases hsolid with ⟨⟨first, hfirst, hblank⟩, last, hlast, hl⟩
  -- Cut the line after its first word, where the first blank is.
  rw [Line.head, Line.tokens, Text.words_eq_cons hfirst hblank, List.headD_cons] at hhead
  have hcut : name ++ line.text.dropWhile (!Text.isBlank ·) = line.text := by
    rw [← hhead]
    exact List.takeWhile_append_dropWhile
  have hstart := List.head?_dropWhile_not (!Text.isBlank ·) line.text
  generalize line.text.dropWhile (!Text.isBlank ·) = rest at hcut hstart
  have hends : ∀ c, rest.getLast? = some c → Text.isBlank c = false := by
    intro c hc
    rw [← hcut, List.getLast?_append, hc] at hlast
    cases hlast
    exact hl
  have hrest := unquote?_trim_iff (fun c hc => by simpa [hc] using hstart) hends text
  have hquoted : quoted line name = .ok text ↔
      rest.count quote = 2 ∧ unquote? (Text.trim rest) = some text := by
    unfold quoted
    rw [← hcut, List.drop_left, List.count_append, List.count_eq_zero.mpr hname, Nat.zero_add]
    by_cases htwo : rest.count quote = 2
    · rw [if_pos htwo]
      cases unquote? (Text.trim rest) <;> simp [htwo]
    · rw [if_neg htwo]
      simp [htwo]
  rw [hquoted, hrest, ← hcut]
  constructor
  · rintro ⟨hinner, blanks, hne, hblanks, rfl⟩
    exact ⟨⟨blanks, hne, hblanks, rfl⟩, hinner⟩
  · rintro ⟨⟨blanks, hne, hblanks, htext⟩, hinner⟩
    exact ⟨hinner, blanks, hne, hblanks, List.append_cancel_left htext⟩

/-- The first word of a line that quotes a text is the name in front of it. -/
theorem Quotes.head {line : Line} {name text : Text} (h : Quotes line.text name text)
    (hname : Text.IsToken name) : line.head = name := by
  rcases h.shape with ⟨blanks, hne, hblanks, htext⟩
  rcases List.exists_cons_of_ne_nil hne with ⟨b, rest, rfl⟩
  rw [Line.head, Line.tokens, htext, List.cons_append,
    Text.words_append_blank _ _ b (hblanks b List.mem_cons_self), Text.words_of_isToken hname]
  rfl

theorem printLines_eq_ok_iff {line : Line} {name : Text} (hsolid : Text.IsSolid line.text)
    (hhead : line.head = name) (hname : quote ∉ name) (texts : List Text) :
    printLines line name = .ok texts ↔
      ∃ text, Quotes line.text name text ∧ (∀ c ∈ text, c.toNat ≤ 32767) ∧
        texts = text.map outLine := by
  have hfind : ∀ text : Text, text.find? (!isPrintable ·) = none ↔ ∀ c ∈ text, c.toNat ≤ 32767 := by
    intro text
    rw [List.find?_eq_none]
    refine forall₂_congr fun c _ => ?_
    simp only [isPrintable, Bool.not_eq_true, Bool.not_eq_false', decide_eq_true_eq]
    exact Nat.lt_succ_iff
  rw [printLines, bind_eq_ok_iff]
  refine exists_congr fun text => ?_
  rw [quoted_eq_ok_iff hsolid hhead hname, ← hfind]
  refine and_congr_right fun _ => ?_
  cases text.find? (!isPrintable ·) with
  | none =>
      simp only [true_and]
      exact ⟨fun h => (Except.ok.inj h).symm, fun h => by rw [h]; rfl⟩
  | some c => simp

/-- The lines that print the characters of a text. -/
theorem map_outLine (number : Nat) (text : Text) :
    (text.map outLine).map (Line.mk number ·) =
      text.map fun c => ⟨number, Text.unwords ["OUT".toList, Decimal.write c.toNat]⟩ :=
  List.map_map

theorem map_outLine_newline (number : Nat) (text : Text) :
    (text.map outLine ++ [outLine '\n']).map (Line.mk number ·) =
      (text ++ ['\n']).map fun c =>
        ⟨number, Text.unwords ["OUT".toList, Decimal.write c.toNat]⟩ := by
  rw [← List.map_singleton, ← List.map_append, map_outLine]

/-- The two lines of a negation. -/
theorem map_negateLines (number : Nat) (destination source : Text) :
    (negateLines destination source).map (Line.mk number ·) =
      [⟨number, Text.unwords ["NOT".toList, destination, source]⟩,
       ⟨number, Text.unwords ["ADD".toList, destination, destination, "1".toList]⟩] :=
  rfl

/-- What the text of a shorthand is expanded to, the line stands for. -/
theorem stands_of_expandLine {line : Line} (hsolid : Text.IsSolid line.text) {texts : List Text}
    (h : expandLine line = .ok texts) : Stands line (texts.map (Line.mk line.number ·)) := by
  -- By the name in front, as the line is expanded.
  unfold expandLine at h
  split at h
  · rename_i hhead
    rcases (printLines_eq_ok_iff hsolid hhead (by decide) _).mp h with
      ⟨text, hquotes, hvalues, rfl⟩
    rw [map_outLine]
    exact .print hquotes hvalues
  · split at h
    · rename_i hhead
      rcases (bind_eq_ok_iff _ _ _).mp h with ⟨printed, hlines, hpure⟩
      cases hpure
      rcases (printLines_eq_ok_iff hsolid hhead (by decide) _).mp hlines with
        ⟨text, hquotes, hvalues, rfl⟩
      rw [map_outLine_newline]
      exact .println hquotes hvalues
    · split at h
      · rename_i hhead
        split at h
        · rename_i name destination source htokens
          cases h
          have hname : negateName = name := by
            rw [← hhead, Line.head, htokens]
            rfl
          rw [map_negateLines]
          refine .negate ?_
          rw [htokens, ← hname]
          rfl
        · cases h
      · cases h

/-- A line whose first word is marked is expanded as a shorthand. -/
theorem expandIfShorthand_of_expandLine {line : Line} (hsolid : Text.IsSolid line.text)
    (hmark : Text.startsWith '!' line.head = true) {texts : List Text}
    (h : expandLine line = .ok texts) :
    expandIfShorthand line = .ok (texts.map (Line.mk line.number ·)) := by
  rw [Line.startsWith_head hsolid] at hmark
  rw [expandIfShorthand, isShorthand, hmark, h]
  rfl

/-- A trimmed line is expanded to what it stands for. -/
theorem expandIfShorthand_eq_ok_iff {line : Line} (hsolid : Text.IsSolid line.text)
    (part : List Line) : expandIfShorthand line = .ok part ↔ Stands line part := by
  constructor
  · intro h
    unfold expandIfShorthand at h
    split at h
    · rcases (map_eq_ok_iff _ _ _).mp h with ⟨texts, hexpand, rfl⟩
      exact stands_of_expandLine hsolid hexpand
    · rename_i hmark
      cases h
      exact .plain (Bool.eq_false_iff.mpr hmark)
  · -- Of each form the first word is known, and it selects the branch.
    intro h
    cases h with
    | plain unmarked =>
        rw [expandIfShorthand, isShorthand, unmarked]
        rfl
    | print quotes values =>
        have hhead : line.head = printName := quotes.head (by decide)
        rw [← map_outLine]
        refine expandIfShorthand_of_expandLine hsolid (by rw [hhead]; rfl) ?_
        rw [expandLine, if_pos hhead]
        exact (printLines_eq_ok_iff hsolid hhead (by decide) _).mpr ⟨_, quotes, values, rfl⟩
    | println quotes values =>
        have hhead : line.head = printlnName := quotes.head (by decide)
        rw [← map_outLine_newline]
        refine expandIfShorthand_of_expandLine hsolid (by rw [hhead]; rfl) ?_
        rw [expandLine, if_neg (by rw [hhead]; decide), if_pos hhead, bind_eq_ok_iff]
        exact ⟨_, (printLines_eq_ok_iff hsolid hhead (by decide) _).mpr ⟨_, quotes, values, rfl⟩,
          rfl⟩
    | negate tokens =>
        have hhead : line.head = negateName := by
          rw [Line.head, tokens]
          rfl
        rw [← map_negateLines]
        refine expandIfShorthand_of_expandLine hsolid (by rw [hhead]; rfl) ?_
        rw [expandLine, if_neg (by rw [hhead]; decide), if_neg (by rw [hhead]; decide),
          if_pos hhead, tokens]

/-- A trimmed line stands for one list of lines only. -/
theorem Stands.unique {line : Line} (hsolid : Text.IsSolid line.text) {part other : List Line}
    (h : Stands line part) (h' : Stands line other) : part = other := by
  have hpart := (expandIfShorthand_eq_ok_iff hsolid part).mpr h
  rw [(expandIfShorthand_eq_ok_iff hsolid other).mpr h'] at hpart
  exact (Except.ok.inj hpart).symm

end Shorthand

end WordMachine
