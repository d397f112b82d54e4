import WordMachine.Text.Basic

/-!
# Cutting and Joining

What is read back from a text that was put together from its parts.

A line is cut into words at blanks, and a source into lines at line breaks. Both
cuts undo the joining of parts that hold no separator themselves, and neither
loses an empty part by accident: words are never empty, and a line that is empty
at the end of a source is no line. `IsToken` is the condition on words. It is what
`Text.words` produces and what `Text.unwords` can be given, so a line that is
taken apart, edited word by word and joined again is read back as edited.

Trimming does nothing to a text whose first and last characters show, which is
how every line of a listing begins and ends.

## Main definitions

* `Text.IsToken`: A text that is one word.
* `Text.IsSolid`: A text that begins and ends with characters that show.

## Theorems

* `Text.words_append_blank`: The words on both sides of a blank.
* `Text.isToken_of_mem_words`: Every word of a text is a token.
* `Text.words_eq_cons`: The first word of a text.
* `Text.words_unwords`: Tokens are read back from the line that joins them.
* `Text.lines_unlines`: Lines are read back from the source that joins them.
* `Text.trim_of_isSolid`: Trimming a solid text does nothing.
* `Text.isSolid_trim`: What is left after trimming is solid.
* `Text.isSolid_unwords`, `Text.newline_not_mem_unwords`, `Text.startsWith_unwords`:
  A line that joins tokens.
-/

namespace WordMachine

namespace Text

/-- A text that is one word: there is something in it, and no blank. -/
def IsToken (t : Text) : Prop := t ≠ [] ∧ ∀ c ∈ t, isBlank c = false

/-- A token is recognized by looking at its characters. -/
instance (t : Text) : Decidable (IsToken t) :=
  decidable_of_iff (t ≠ [] ∧ t.all (!isBlank ·) = true) (by simp [IsToken])

/-- The words on both sides of a blank are the words of the whole. -/
theorem words_append_blank (x y : Text) (c : Char) (hc : isBlank c = true) :
    words (x ++ c :: y) = words x ++ words y := by
  rw [words, List.splitOnP_append_cons x y hc, List.filter_append]
  rfl

/-- A token is its own only word. -/
theorem words_of_isToken {t : Text} (ht : IsToken t) : words t = [t] := by
  rcases ht with ⟨hne, hblank⟩
  rw [words, List.splitOnP_eq_singleton hblank]
  simp [hne]

theorem words_nil : words [] = [] := by
  simp [words]

/-- A text without blanks has at most one word, and that is a token. -/
theorem isToken_of_mem_words_of_not_isBlank {t w : Text} (ht : ∀ c ∈ t, isBlank c = false)
    (h : w ∈ words t) : IsToken w := by
  by_cases hne : t = []
  · rw [hne, words_nil] at h
    exact absurd h List.not_mem_nil
  · rw [words_of_isToken ⟨hne, ht⟩, List.mem_singleton] at h
    rw [h]
    exact ⟨hne, ht⟩

/-- Every word of a text is a token. -/
theorem isToken_of_mem_words {t w : Text} (h : w ∈ words t) : IsToken w := by
  induction hn : t.length using Nat.strongRecOn generalizing t with
  | ind n ih =>
      -- What stands before the first blank has no blank, and the rest is shorter.
      have hcut : t.takeWhile (!isBlank ·) ++ t.dropWhile (!isBlank ·) = t :=
        List.takeWhile_append_dropWhile
      have hhead : ∀ c ∈ t.takeWhile (!isBlank ·), isBlank c = false := fun c hc => by
        simpa using List.all_eq_true.mp List.all_takeWhile c hc
      cases hrest : t.dropWhile (!isBlank ·) with
      | nil =>
          rw [hrest, List.append_nil] at hcut
          rw [hcut] at hhead
          exact isToken_of_mem_words_of_not_isBlank hhead h
      | cons b rest =>
          have hb : isBlank b = true := by
            have hnot := List.head?_dropWhile_not (!isBlank ·) t
            rw [hrest] at hnot
            simpa using hnot
          rw [hrest] at hcut
          rw [← hcut, words_append_blank _ _ b hb] at h
          rcases List.mem_append.mp h with h | h
          · exact isToken_of_mem_words_of_not_isBlank hhead h
          · have hlt : rest.length < n := by
              rw [← hn, ← hcut, List.length_append, List.length_cons]
              omega
            exact ih rest.length hlt h rfl

/-- The first word of a text that begins with a character that shows is what stands before
    its first blank. -/
theorem words_eq_cons {t : Text} {c : Char} (h : t.head? = some c) (hc : isBlank c = false) :
    words t = t.takeWhile (!isBlank ·) :: words (t.dropWhile (!isBlank ·)) := by
  have hcut : t.takeWhile (!isBlank ·) ++ t.dropWhile (!isBlank ·) = t :=
    List.takeWhile_append_dropWhile
  have htoken : IsToken (t.takeWhile (!isBlank ·)) := by
    refine ⟨?_, fun d hd => by simpa using List.all_eq_true.mp List.all_takeWhile d hd⟩
    cases t with
    | nil => cases h
    | cons x xs =>
        rw [List.head?_cons, Option.some.injEq] at h
        rw [List.takeWhile_cons_of_pos (by simp [h, hc])]
        exact List.cons_ne_nil _ _
  cases hrest : t.dropWhile (!isBlank ·) with
  | nil =>
      rw [hrest, List.append_nil] at hcut
      rw [hcut] at htoken ⊢
      rw [words_of_isToken htoken, words_nil]
  | cons b rest =>
      have hb : isBlank b = true := by
        have hnot := List.head?_dropWhile_not (!isBlank ·) t
        rw [hrest] at hnot
        simpa using hnot
      rw [hrest] at hcut
      -- The blank in front of the rest separates nothing.
      have hsame : words (b :: rest) = words rest := by
        rw [← List.nil_append (b :: rest), words_append_blank [] rest b hb, words_nil,
          List.nil_append]
      refine (congrArg words hcut.symm).trans ?_
      rw [words_append_blank _ _ b hb, words_of_isToken htoken, hsame, List.singleton_append]

theorem unwords_cons_cons (t u : Text) (rest : List Text) :
    unwords (t :: u :: rest) = t ++ ' ' :: unwords (u :: rest) := by
  simp [unwords, List.intercalate]

/-- Tokens are read back from the line that joins them. -/
theorem words_unwords {ts : List Text} (h : ∀ t ∈ ts, IsToken t) : words (unwords ts) = ts := by
  induction ts with
  | nil => exact words_nil
  | cons t rest ih =>
      have ht : words t = [t] := words_of_isToken (h t List.mem_cons_self)
      have hrest := ih fun u hu => h u (List.mem_cons_of_mem _ hu)
      cases rest with
      | nil => simpa [unwords] using ht
      | cons u us =>
          rw [unwords_cons_cons, words_append_blank t _ ' ' (by decide), ht, hrest,
            List.singleton_append]

/-- Lines are read back from the source that joins them. An empty last line would be
    no line, so none of them is empty. -/
theorem lines_unlines {ls : List Text} (h : ∀ l ∈ ls, l ≠ [] ∧ '\n' ∉ l) :
    lines (unlines ls) = ls := by
  cases ls with
  | nil => rfl
  | cons l rest =>
      have hsplit : (unlines (l :: rest)).splitOn '\n' = l :: rest :=
        List.splitOn_intercalate '\n' (fun t ht => (h t ht).2) (List.cons_ne_nil l rest)
      -- Only an empty last part is dropped.
      have hlast : (l :: rest).getLast? ≠ some [] := by
        intro hc
        exact (h [] (List.mem_of_getLast? hc)).1 rfl
      simp only [lines, hsplit, if_neg hlast]

/-- A text that begins and ends with characters that show. -/
def IsSolid (t : Text) : Prop :=
  (∃ c, t.head? = some c ∧ isBlank c = false) ∧ ∃ c, t.getLast? = some c ∧ isBlank c = false

/-- A text whose first character shows has no leading blanks. -/
theorem dropWhile_isBlank_of_head {t : Text} {c : Char} (h : t.head? = some c)
    (hc : isBlank c = false) : t.dropWhile isBlank = t := by
  cases t with
  | nil => rfl
  | cons x xs =>
      rw [List.head?_cons, Option.some.injEq] at h
      rw [List.dropWhile_cons_of_neg (by rw [h, hc]; decide)]

/-- Trimming a solid text does nothing. -/
theorem trim_of_isSolid {t : Text} (h : IsSolid t) : trim t = t := by
  rcases h with ⟨⟨first, hfirst, hf⟩, last, hlast, hl⟩
  rw [trim, trimStart, dropWhile_isBlank_of_head hfirst hf, trimEnd,
    dropWhile_isBlank_of_head (by rw [List.head?_reverse, hlast]) hl, List.reverse_reverse]

/-- A token is solid. -/
theorem isSolid_of_isToken {t : Text} (h : IsToken t) : IsSolid t := by
  rcases h with ⟨hne, hblank⟩
  exact ⟨⟨t.head hne, List.head?_eq_some_head hne, hblank _ (List.head_mem hne)⟩,
    t.getLast hne, List.getLast?_eq_some_getLast hne, hblank _ (List.getLast_mem hne)⟩

/-- Trimming a text without blanks does nothing, also if there is nothing in it. -/
theorem trim_of_not_isBlank {t : Text} (h : ∀ c ∈ t, isBlank c = false) : trim t = t := by
  by_cases hne : t = []
  · rw [hne]
    rfl
  · exact trim_of_isSolid (isSolid_of_isToken ⟨hne, h⟩)

/-- What is cut off at the end of a text stands behind what is left. -/
theorem trim_append_takeWhile (t : Text) :
    trim t ++ ((trimStart t).reverse.takeWhile isBlank).reverse = trimStart t := by
  rw [trim, trimEnd, ← List.reverse_append, List.takeWhile_append_dropWhile, List.reverse_reverse]

/-- What is left of a text after trimming begins and ends with characters that show. -/
theorem isSolid_trim {t : Text} (h : trim t ≠ []) : IsSolid (trim t) := by
  constructor
  · -- What is cut off at the end leaves the first character where it is.
    have hfirst := List.head?_dropWhile_not isBlank t
    rw [← trimStart, ← trim_append_takeWhile, List.head?_append, List.head?_eq_some_head h] at hfirst
    exact ⟨_, List.head?_eq_some_head h, hfirst⟩
  · have hlast := List.head?_dropWhile_not isBlank (trimStart t).reverse
    rw [← List.getLast?_reverse, ← trimEnd, ← trim, List.getLast?_eq_some_getLast h] at hlast
    exact ⟨_, List.getLast?_eq_some_getLast h, hlast⟩

/-- Blanks in front of a solid text are trimmed. -/
theorem trim_append_of_isBlank {blanks t : Text} (h : ∀ c ∈ blanks, isBlank c = true)
    (ht : IsSolid t) : trim (blanks ++ t) = t := by
  rw [trim, trimStart, List.dropWhile_append_of_pos h, ← trimStart, ← trim, trim_of_isSolid ht]

/-- If the last character of a text shows, only blanks in front of it are trimmed. -/
theorem takeWhile_append_trim {t : Text} {c : Char} (h : t.getLast? = some c)
    (hc : isBlank c = false) : t.takeWhile isBlank ++ trim t = t := by
  have hcut : t.takeWhile isBlank ++ t.dropWhile isBlank = t := List.takeWhile_append_dropWhile
  have hlast : (t.dropWhile isBlank).getLast? = some c := by
    rw [← hcut, List.getLast?_append] at h
    cases hrest : (t.dropWhile isBlank).getLast? with
    | some d =>
        rw [hrest] at h
        exact h
    | none =>
        -- Otherwise the last character is one of the blanks in front.
        rw [hrest] at h
        have hblank := List.all_eq_true.mp List.all_takeWhile c (List.mem_of_getLast? h)
        rw [hc] at hblank
        cases hblank
  rw [trim, trimEnd, trimStart,
    dropWhile_isBlank_of_head (by rw [List.head?_reverse, hlast]) hc, List.reverse_reverse, hcut]

/-- Only the ends of a text decide whether it is solid. -/
theorem isSolid_append {x y : Text} (middle : Text) (hx : IsSolid x) (hy : IsSolid y) :
    IsSolid (x ++ middle ++ y) := by
  rcases hx with ⟨⟨first, hfirst, hf⟩, -⟩
  rcases hy with ⟨-, last, hlast, hl⟩
  refine ⟨⟨first, ?_, hf⟩, last, ?_, hl⟩
  · rw [List.append_assoc, List.head?_append, hfirst]
    rfl
  · rw [List.getLast?_append, hlast]
    rfl

/-- A line that joins tokens is solid. -/
theorem isSolid_unwords {ts : List Text} (hne : ts ≠ []) (h : ∀ t ∈ ts, IsToken t) :
    IsSolid (unwords ts) := by
  induction ts with
  | nil => exact absurd rfl hne
  | cons t rest ih =>
      have ht := isSolid_of_isToken (h t List.mem_cons_self)
      cases rest with
      | nil => simpa [unwords] using ht
      | cons u us =>
          rw [unwords_cons_cons]
          have hrest := ih (List.cons_ne_nil u us) fun v hv => h v (List.mem_cons_of_mem _ hv)
          simpa using isSolid_append [' '] ht hrest

/-- A line that joins tokens is a single line. -/
theorem newline_not_mem_unwords {ts : List Text} (h : ∀ t ∈ ts, IsToken t) :
    '\n' ∉ unwords ts := by
  induction ts with
  | nil => exact List.not_mem_nil
  | cons t rest ih =>
      -- A line break is a blank, and a token holds none.
      have ht : '\n' ∉ t := by
        intro hmem
        have hblank := (h t List.mem_cons_self).2 _ hmem
        revert hblank
        decide
      have hrest := ih fun u hu => h u (List.mem_cons_of_mem _ hu)
      cases rest with
      | nil => simpa [unwords] using ht
      | cons u us =>
          rw [unwords_cons_cons, List.mem_append, List.mem_cons]
          rintro (hmem | hspace | hmem)
          · exact ht hmem
          · revert hspace
            decide
          · exact hrest hmem

theorem startsWith_iff (c : Char) (t : Text) :
    startsWith c t = true ↔ ∃ rest, t = c :: rest := by
  cases t with
  | nil => simp [startsWith]
  | cons d rest => simp [startsWith]

/-- A line begins with its first word. -/
theorem startsWith_unwords {t : Text} (c : Char) (rest : List Text) (h : t ≠ []) :
    startsWith c (unwords (t :: rest)) = startsWith c t := by
  cases rest with
  | nil => simp [unwords]
  | cons u us =>
      rw [unwords_cons_cons, startsWith, startsWith, List.head?_append,
        List.head?_eq_some_head h]
      rfl

end Text

end WordMachine
