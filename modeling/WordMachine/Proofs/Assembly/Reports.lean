import WordMachine.Proofs.Assembly.Shorthands

/-!
# Reported Lines

The lines that the errors of an assembly point at.

Every pass goes through its lines in order and makes its errors from the line it is
looking at, so the numbers in the errors are numbers of lines, in the order of the
lines. Between passes, lines are left out, repeated and rewritten but never moved. So
the numbers stay in order, and stay inside the source.

One error is not made from a line. A program that is too large is reported on the line
of its last declaration. If it has none, there is no line to name, and the report says
line zero. `Oversized` is the condition for this, and it is the only way in which an
error can point outside the source.

## Main definitions

* `Listed`: Numbers of lines of a source, in order.
* `Line.Blames`: A step whose errors are all on one line.
* `Reports`: What an assembly that fails should report.
* `Oversized`: A source whose code alone is too large.

## Theorems

* `Listed.flatten`: Repeating and leaving out lines.
* `sublistForall₂_failures`: The errors of a pass and the lines that have them.
* `Line.listed_ofSource`: The lines of a source.
* `assemble_of_oversized`: What is reported when the code alone is too large.
* `errors_inside_iff`: When all errors point at lines of the source.
-/

namespace WordMachine

/-! ### Numbers in order -/

/-- Numbers of lines of a source that has `count` lines, in the order of the source. -/
structure Listed (count : Nat) (numbers : List Nat) : Prop where
  sorted : numbers.Pairwise (· ≤ ·)
  inside : ∀ n ∈ numbers, 1 ≤ n ∧ n ≤ count

namespace Listed

variable {count : Nat} {numbers : List Nat}

theorem sublist (h : Listed count numbers) {part : List Nat} (hpart : part.Sublist numbers) :
    Listed count part :=
  ⟨h.sorted.sublist hpart, fun n hn => h.inside n (hpart.subset hn)⟩

theorem mem_of_mem_flatten {parts : List (List Nat)}
    (hparts : List.Forall₂ (fun n part => ∀ k ∈ part, k = n) numbers parts) {k : Nat}
    (hk : k ∈ parts.flatten) : k ∈ numbers := by
  induction hparts with
  | nil => exact absurd hk List.not_mem_nil
  | cons hpart _ ih =>
      rcases List.mem_append.mp (List.flatten_cons ▸ hk) with hk | hk
      · exact List.mem_cons.mpr (Or.inl (hpart k hk))
      · exact List.mem_cons_of_mem _ (ih hk)

/-- Numbers stay in order when each is repeated or left out. -/
theorem flatten (h : Listed count numbers) {parts : List (List Nat)}
    (hparts : List.Forall₂ (fun n part => ∀ k ∈ part, k = n) numbers parts) :
    Listed count parts.flatten := by
  refine ⟨?_, fun k hk => h.inside k (mem_of_mem_flatten hparts hk)⟩
  have hsorted := h.sorted
  clear h
  induction hparts with
  | nil => exact List.Pairwise.nil
  | cons hpart hrest ih =>
      rcases List.pairwise_cons.mp hsorted with ⟨hfirst, hsorted⟩
      rw [List.flatten_cons, List.pairwise_append]
      refine ⟨List.pairwise_of_forall_mem_list fun a ha b hb => ?_, ih hsorted, fun a ha b hb => ?_⟩
      · exact Nat.le_of_eq ((hpart a ha).trans (hpart b hb).symm)
      · -- What comes from a later number is that number.
        rw [hpart a ha]
        exact hfirst b (mem_of_mem_flatten hrest hb)

end Listed

/-! ### Steps on one line -/

namespace Line

variable {α β ε : Type} {line : Line}

/-- A step whose errors are all on this line. -/
def Blames (line : Line) (x : Except AssemblyError α) : Prop :=
  ∀ e, x = .error e → e.line = line.number

theorem blames_ok (a : α) : line.Blames (.ok a) := nofun

theorem blames_error (cause : AssemblyError.Cause) :
    line.Blames (.error (line.error cause) : Except AssemblyError α) := by
  rintro e ⟨⟩
  rfl

theorem blames_mapError (x : Except ε α) (cause : ε → AssemblyError.Cause) :
    line.Blames (x.mapError fun reason => line.error (cause reason)) := by
  intro e h
  rcases (mapError_eq_error_iff _ _ _).mp h with ⟨reason, _, rfl⟩
  rfl

theorem Blames.bind {x : Except AssemblyError α} {f : α → Except AssemblyError β}
    (hx : line.Blames x) (hf : ∀ a, line.Blames (f a)) : line.Blames (x >>= f) := by
  intro e h
  rcases (bind_eq_error_iff _ _ _).mp h with h | ⟨a, _, h⟩
  · exact hx e h
  · exact hf a e h

theorem Blames.mapM {f : α → Except AssemblyError β} (hf : ∀ a, line.Blames (f a))
    (xs : List α) : line.Blames (xs.mapM f) := by
  intro e h
  rcases exists_of_mapM_eq_error h with ⟨a, _, ha⟩
  exact hf a e ha

end Line

namespace Declaration

theorem blames_parseCount (line : Line) (token : Text) : line.Blames (parseCount line token) := by
  unfold parseCount
  split
  · split
    · exact Line.blames_ok _
    · exact Line.blames_error _
  · exact Line.blames_error _

theorem blames_ofTokens (line : Line) (name value : Text) (count : Option Text) :
    line.Blames (ofTokens line name value count) := by
  refine (Line.blames_mapError _ _).bind fun _ => (Line.blames_mapError _ _).bind fun v => ?_
  cases count with
  | none => exact Line.blames_ok _
  | some token => exact (blames_parseCount line token).bind fun _ => Line.blames_ok _

theorem blames_parseNew (accepted : List Declaration) (line : Line) :
    line.Blames (parseNew accepted line) := by
  have hparse : line.Blames (parse line) := by
    unfold parse
    split
    · exact blames_ofTokens _ _ _ _
    · exact blames_ofTokens _ _ _ _
    · exact Line.blames_error _
  refine hparse.bind fun d => ?_
  split
  · exact Line.blames_error _
  · exact Line.blames_ok _

end Declaration

namespace Shorthand

theorem blames_printLines (line : Line) (name : Text) : line.Blames (printLines line name) := by
  have hquoted : line.Blames (quoted line name) := by
    unfold quoted
    split
    · split
      · exact Line.blames_ok _
      · exact Line.blames_error _
    · exact Line.blames_error _
  refine hquoted.bind fun text => ?_
  split
  · exact Line.blames_error _
  · exact Line.blames_ok _

theorem blames_expandIfShorthand (line : Line) : line.Blames (expandIfShorthand line) := by
  have hexpand : line.Blames (expandLine line) := by
    unfold expandLine
    split
    · exact blames_printLines _ _
    · split
      · exact (blames_printLines _ _).bind fun _ => Line.blames_ok _
      · split
        · split
          · exact Line.blames_ok _
          · exact Line.blames_error _
        · exact Line.blames_error _
  unfold expandIfShorthand
  split
  · intro e h
    exact hexpand e ((map_eq_error_iff _ _ _).mp h)
  · exact Line.blames_ok _

end Shorthand

theorem Layout.blames_place (layout : Layout) (line : Line) : line.Blames (layout.place line) := by
  unfold place placeLabel
  split
  · split
    · exact Line.blames_error _
    · split
      · exact Line.blames_error _
      · split
        · exact Line.blames_error _
        · split
          · exact Line.blames_error _
          · exact Line.blames_ok _
  · exact Line.blames_ok _
  · exact Line.blames_ok _
  · exact Line.blames_error _

theorem Reference.blames_resolveToken (symbols : SymbolTable) (line : Line) (token : Text) :
    line.Blames (resolveToken symbols line token) := by
  have haddress : ∀ space, line.Blames (address symbols line space token) := by
    intro space
    unfold address
    split
    · exact Line.blames_ok _
    · exact Line.blames_error _
  unfold resolveToken
  split
  · exact haddress .label
  · split
    · exact haddress .data
    · exact Line.blames_ok _

theorem Encoding.blames_encodeLine (line : Line) : line.Blames (encodeLine line) := by
  have htokens : ∀ expected, line.Blames (operandTokens line expected) := by
    intro expected
    unfold operandTokens
    split
    · exact Line.blames_ok _
    · exact Line.blames_error _
  unfold encodeLine
  split
  · exact (htokens 1).bind fun _ => Line.Blames.mapM (fun _ => Line.blames_mapError _ _) _
  · split
    · exact (htokens _).bind fun _ =>
        (Line.Blames.mapM (fun _ => Line.blames_mapError _ _) _).bind fun _ => Line.blames_ok _
    · exact Line.blames_error _

/-! ### Passes -/

/-- The errors among the results of some lines belong to some of the lines, in their
    order. -/
theorem sublistForall₂_failures {ε α : Type} {P : ε → Line → Prop} {lines : List Line}
    {results : List (Except ε α)}
    (h : List.Forall₂ (fun line r => ∀ e, r = .error e → P e line) lines results) :
    List.SublistForall₂ P (results.filterMap failure?) lines := by
  induction h with
  | nil => exact .nil
  | cons hline _ ih =>
      rename_i _ result _ _ _
      cases result with
      | error e => exact .cons (hline e rfl) ih
      | ok a => exact .cons_right ih

/-- What an assembly that fails should report: at least one error, on lines of the source,
    in the order of the source. -/
def Reports (count : Nat) (errors : List AssemblyError) : Prop :=
  errors ≠ [] ∧ Listed count (errors.map (·.line))

variable {count : Nat} {lines : List Line} {errors : List AssemblyError}

theorem Listed.of_sublistForall₂ (h : Listed count (lines.map (·.number)))
    (herrors : List.SublistForall₂ (fun e line => e.line = line.number) errors lines) :
    Listed count (errors.map (·.line)) := by
  rcases List.sublistForall₂_iff.mp herrors with ⟨blamed, hblamed, hsub⟩
  have heq : errors.map (·.line) = blamed.map (·.number) :=
    (map_eq_map_iff_forall₂ _ _ _ _).mpr hblamed
  exact heq ▸ h.sublist (hsub.map _)

theorem reports_of_gather {α : Type} {results : List (Except AssemblyError α)}
    (hlines : Listed count (lines.map (·.number)))
    (hblames : List.Forall₂ (fun line r => line.Blames r) lines results)
    (h : gather results = .error errors) : Reports count errors := by
  rcases (gather_eq_error_iff _ _).mp h with ⟨hne, rfl⟩
  exact ⟨hne, hlines.of_sublistForall₂ (sublistForall₂_failures hblames)⟩

theorem reports_of_gather_map {α : Type} {f : Line → Except AssemblyError α}
    (hlines : Listed count (lines.map (·.number))) (hblames : ∀ line : Line, line.Blames (f line))
    (h : gather (lines.map f) = .error errors) : Reports count errors :=
  reports_of_gather hlines
    (List.forall₂_map_right_iff.mpr (List.forall₂_same.mpr fun line _ => hblames line)) h

namespace Line

/-- The lines of a source have their numbers. -/
theorem listed_ofSource (source : Text) :
    Listed (Text.lines source).length ((ofSource source).map (·.number)) := by
  have hnumbers : (numbered source).map (·.number) =
      List.range' 1 (Text.lines source).length := by
    rw [numbered, List.map_map, ← List.zipIdx_map_snd]
    rfl
  have hall : Listed (Text.lines source).length ((numbered source).map (·.number)) := by
    rw [hnumbers]
    have hsorted : (List.range' 1 (Text.lines source).length).Pairwise (· < ·) :=
      List.pairwise_lt_range'
    refine ⟨hsorted.imp Nat.le_of_lt, fun n hn => ?_⟩
    have hrange := List.mem_range'_1.mp hn
    omega
  exact hall.sublist (List.filter_sublist.map _)

end Line

namespace Declaration

theorem reports_of_extract (hlines : Listed count (lines.map (·.number)))
    (h : extract lines = .error errors) : Reports count errors := by
  have hblames : ∀ (ls : List Line) (accepted : List Declaration),
      List.Forall₂ (fun line r => line.Blames r) ls (parseAll accepted ls) := by
    intro ls
    induction ls with
    | nil => exact fun _ => List.Forall₂.nil
    | cons line rest ih =>
        intro accepted
        have hline := blames_parseNew accepted line
        rw [parseAll]
        split
        · exact List.Forall₂.cons (Line.blames_ok _) (ih _)
        · rename_i e he
          exact List.Forall₂.cons (he ▸ hline) (ih _)
  rcases (bind_eq_error_iff _ _ _).mp h with h | ⟨_, _, h⟩
  · exact reports_of_gather (hlines.sublist (List.filter_sublist.map _)) (hblames _ []) h
  · cases h

/-- The declarations of a source are on its lines. -/
theorem listed_of_extract (hlines : Listed count (lines.map (·.number))) {code : List Line}
    {ds : List Declaration} (h : extract lines = .ok (code, ds)) :
    Listed count (code.map (·.number)) ∧ Listed count (ds.map (·.line)) := by
  rcases (extract_eq_ok_iff _ _ _).mp h with ⟨rfl, hds⟩
  refine ⟨hlines.sublist (List.filter_sublist.map _), ?_⟩
  have hparse := ((parseAll_eq_map_ok_iff _ _ _).mp hds).1
  have heq : (lines.filter isDeclaration).map (·.number) = ds.map (·.line) :=
    (map_eq_map_iff_forall₂ _ _ _ _).mpr (hparse.imp fun _ _ h => (line_of_parse h).symm)
  exact heq ▸ hlines.sublist (List.filter_sublist.map _)

theorem forall_not_of_extract {code : List Line} (h : extract lines = .ok (code, [])) :
    (∀ line ∈ lines, isDeclaration line = false) ∧ code = lines := by
  have hparse := ((parseAll_eq_map_ok_iff _ _ _).mp ((extract_eq_ok_iff _ _ _).mp h).2).1
  have hnone := List.filter_eq_nil_iff.mp (List.forall₂_nil_right_iff.mp hparse)
  have hcode : ∀ line ∈ lines, isDeclaration line = false := fun line hline =>
    Bool.eq_false_iff.mpr (hnone line hline)
  rw [extract_of_forall_not hcode, Except.ok.injEq, Prod.mk.injEq] at h
  exact ⟨hcode, h.1.symm⟩

end Declaration

namespace Shorthand

/-- What a line expands to has its number. -/
theorem listed_of_expand (hlines : Listed count (lines.map (·.number))) {expanded : List Line}
    (h : expand lines = .ok expanded) : Listed count (expanded.map (·.number)) := by
  rcases (expand_eq_ok_iff _ _).mp h with ⟨parts, hparts, rfl⟩
  rw [List.map_flatten]
  refine hlines.flatten ?_
  rw [List.forall₂_map_left_iff, List.forall₂_map_right_iff]
  refine hparts.imp fun line part hpart k hk => ?_
  rcases List.mem_map.mp hk with ⟨line', hline', rfl⟩
  unfold expandIfShorthand at hpart
  split at hpart
  · rcases (map_eq_ok_iff _ _ _).mp hpart with ⟨texts, _, rfl⟩
    rcases List.mem_map.mp hline' with ⟨text, _, rfl⟩
    rfl
  · cases hpart
    rw [List.mem_singleton.mp hline']

theorem reports_of_expand (hlines : Listed count (lines.map (·.number)))
    (h : expand lines = .error errors) : Reports count errors :=
  reports_of_gather_map hlines blames_expandIfShorthand ((map_eq_error_iff _ _ _).mp h)

end Shorthand

namespace Layout

theorem reports_of_ofLines (hlines : Listed count (lines.map (·.number)))
    (h : ofLines lines = .error errors) : Reports count errors := by
  have hplace : ∀ (ls : List Line) (layout : Layout),
      List.SublistForall₂ (fun e line => AssemblyError.line e = Line.number line)
        (layout.placeAll ls).1 ls := by
    intro ls
    induction ls with
    | nil => exact fun _ => .nil
    | cons line rest ih =>
        intro layout
        have hline := layout.blames_place line
        rw [placeAll]
        split
        · exact .cons_right (ih _)
        · rename_i e he
          exact .cons (hline e he) (ih _)
  have hall := hplace lines empty
  unfold ofLines at h
  split at h
  · cases h
  · rename_i es final hne heq
    cases h
    rw [heq] at hall
    exact ⟨hne, hlines.of_sublistForall₂ hall⟩

/-- Data that does not fit is reported on a declaration, and code that does not fit is reported
    on line zero if there is none. -/
theorem placeData_error_cases {layout : Layout} {ds : List Declaration} {e : AssemblyError}
    (h : layout.placeData ds = .error e) :
    (∃ d ∈ ds, e.line = d.line) ∨
      (ds = [] ∧ memorySize < layout.size ∧ e = ⟨0, .programTooLarge layout.size⟩) := by
  rcases (bind_eq_error_iff _ _ _).mp h with h | ⟨final, hfold, h⟩
  · rcases exists_of_foldlM_eq_error h with ⟨d, hd, layout', hblock⟩
    refine Or.inl ⟨d, hd, ?_⟩
    unfold placeBlock at hblock
    split at hblock
    · cases hblock
      rfl
    · split at hblock
      · cases hblock
        rfl
      · cases hblock
  · split at h
    · cases h
    · rename_i hlarge
      cases h
      cases hlast : ds.getLast? with
      | none =>
          rw [List.getLast?_eq_none_iff] at hlast
          rw [hlast] at hfold
          cases hfold
          exact Or.inr ⟨hlast, Nat.lt_of_not_le hlarge, rfl⟩
      | some d => exact Or.inl ⟨d, List.mem_of_getLast? hlast, rfl⟩

end Layout

namespace Reference

variable {symbols : SymbolTable}

theorem blames_resolveLine {line : Line} (h : resolveLine symbols line = .error errors) :
    errors ≠ [] ∧ ∀ e ∈ errors, e.line = line.number := by
  rcases (bind_eq_error_iff _ _ _).mp h with h | ⟨_, _, h⟩
  · rcases (gather_eq_error_iff _ _).mp h with ⟨hne, rfl⟩
    refine ⟨hne, fun e he => ?_⟩
    rcases List.mem_filterMap.mp he with ⟨r, hr, hfail⟩
    rcases List.mem_map.mp hr with ⟨token, _, rfl⟩
    refine blames_resolveToken symbols line token e ?_
    cases hresult : resolveToken symbols line token with
    | error e' =>
        rw [hresult] at hfail
        cases hfail
        rfl
    | ok text =>
        rw [hresult] at hfail
        cases hfail
  · cases h

/-- All references on a line that are not defined are reported on it. -/
theorem reports_of_resolve (hlines : Listed count (lines.map (·.number)))
    (h : resolve symbols lines = .error errors) : Reports count errors := by
  rcases (mapError_eq_error_iff _ _ _).mp h with ⟨parts, hgather, rfl⟩
  rcases (gather_eq_error_iff _ _).mp hgather with ⟨hne, hparts⟩
  have hblames : List.SublistForall₂
      (fun es line => es ≠ [] ∧ ∀ e ∈ es, AssemblyError.line e = Line.number line) parts lines := by
    rw [← hparts]
    exact sublistForall₂_failures (List.forall₂_map_right_iff.mpr
      (List.forall₂_same.mpr fun line _ es hes => blames_resolveLine hes))
  rcases List.sublistForall₂_iff.mp hblames with ⟨blamed, hblamed, hsub⟩
  constructor
  · -- Each part has an error, and there is a part.
    cases hblamed with
    | nil => exact absurd rfl hne
    | cons hfirst _ =>
        intro hnil
        exact hfirst.1 (List.append_eq_nil_iff.mp hnil).1
  · rw [List.map_flatten]
    refine (hlines.sublist (hsub.map _)).flatten ?_
    rw [List.forall₂_map_left_iff, List.forall₂_map_right_iff]
    refine hblamed.flip.imp fun line es hes k hk => ?_
    rcases List.mem_map.mp hk with ⟨e, he, rfl⟩
    exact hes.2 e he

theorem number_of_resolve {resolved : List Line} (h : resolve symbols lines = .ok resolved) :
    resolved.map (·.number) = lines.map (·.number) := by
  rw [map_eq_map_iff_forall₂]
  refine ((resolve_eq_ok_iff _ _ _).mp h).flip.imp fun resolved line hline => ?_
  rcases (resolveLine_eq_ok_iff _ _ _).mp hline with ⟨operands, _, rfl⟩
  rfl

end Reference

theorem Encoding.reports_of_encode (hlines : Listed count (lines.map (·.number)))
    (h : encode lines = .error errors) : Reports count errors :=
  reports_of_gather_map hlines blames_encodeLine ((map_eq_error_iff _ _ _).mp h)

/-! ### The whole assembly -/

/-- A source that declares no data, and whose code takes `size` words, which is more than
    there are. -/
structure Oversized (source : Text) (size : Nat) : Prop where
  code : ∀ line ∈ Line.ofSource source, Declaration.isDeclaration line = false
  placed : ∃ expanded instructions layout,
    Shorthand.expand (Line.ofSource source) = .ok expanded ∧
      Layout.ofLines expanded = .ok (instructions, layout) ∧ layout.size = size
  large : memorySize < size

/-- If the code alone is too large, that is the only error, and it has no line. -/
theorem assemble_of_oversized {source : Text} {size : Nat} (h : Oversized source size) :
    assemble source = .error [⟨0, .programTooLarge size⟩] := by
  rcases h with ⟨hcode, ⟨expanded, instructions, layout, hexpand, hplace, rfl⟩, hlarge⟩
  have hdata : layout.placeData [] = .error ⟨0, .programTooLarge layout.size⟩ := by
    rw [Layout.placeData, bind_eq_error_iff]
    refine Or.inr ⟨layout, rfl, ?_⟩
    rw [if_neg (Nat.not_le_of_lt hlarge)]
    rfl
  refine (bind_eq_error_iff _ _ _).mpr
    (Or.inr ⟨_, Declaration.extract_of_forall_not hcode, ?_⟩)
  refine (bind_eq_error_iff _ _ _).mpr (Or.inr ⟨_, hexpand, ?_⟩)
  refine (bind_eq_error_iff _ _ _).mpr (Or.inr ⟨_, hplace, ?_⟩)
  exact (bind_eq_error_iff _ _ _).mpr
    (Or.inl ((mapError_eq_error_iff _ _ _).mpr ⟨_, hdata, rfl⟩))

/-- Whatever pass fails, its errors are on lines of the source, unless the code alone is too
    large. -/
theorem reports_of_assemble {source : Text} (h : assemble source = .error errors) :
    Reports (Text.lines source).length errors ∨ ∃ size, Oversized source size := by
  have hsource := Line.listed_ofSource source
  rcases (bind_eq_error_iff _ _ _).mp h with h | ⟨⟨code, ds⟩, hextract, h⟩
  · exact Or.inl (Declaration.reports_of_extract hsource h)
  rcases Declaration.listed_of_extract hsource hextract with ⟨hcode, hds⟩
  rcases (bind_eq_error_iff _ _ _).mp h with h | ⟨expanded, hexpand, h⟩
  · exact Or.inl (Shorthand.reports_of_expand hcode h)
  have hexpanded := Shorthand.listed_of_expand hcode hexpand
  rcases (bind_eq_error_iff _ _ _).mp h with h | ⟨⟨instructions, layout⟩, hplace, h⟩
  · exact Or.inl (Layout.reports_of_ofLines hexpanded h)
  have hinstructions : Listed (Text.lines source).length (instructions.map (·.number)) := by
    rw [((Layout.ofLines_eq_ok_iff _ _ _).mp hplace).1]
    exact hexpanded.sublist (List.filter_sublist.map _)
  rcases (bind_eq_error_iff _ _ _).mp h with h | ⟨final, _, h⟩
  · rcases (mapError_eq_error_iff _ _ _).mp h with ⟨e, hdata, rfl⟩
    rcases Layout.placeData_error_cases hdata with ⟨d, hd, hline⟩ | ⟨rfl, hlarge, _⟩
    · refine Or.inl ⟨List.cons_ne_nil _ _, List.pairwise_singleton _ _, fun n hn => ?_⟩
      rw [List.mem_singleton.mp hn]
      exact hds.inside e.line (List.mem_map.mpr ⟨d, hd, hline.symm⟩)
    · rcases Declaration.forall_not_of_extract hextract with ⟨hnone, rfl⟩
      exact Or.inr ⟨_, hnone, ⟨expanded, instructions, layout, hexpand, hplace, rfl⟩, hlarge⟩
  rcases (bind_eq_error_iff _ _ _).mp h with h | ⟨resolved, hresolve, h⟩
  · exact Or.inl (Reference.reports_of_resolve hinstructions h)
  rcases (bind_eq_error_iff _ _ _).mp h with h | ⟨_, _, h⟩
  · rw [← Reference.number_of_resolve hresolve] at hinstructions
    exact Or.inl (Encoding.reports_of_encode hinstructions h)
  · cases h

/-- The errors of an assembly that fails are in the order of the source. They are all on
    lines of the source unless its code alone is too large; then there is one error, on
    line zero. -/
theorem errors_inside_iff {source : Text} (h : assemble source = .error errors) :
    errors ≠ [] ∧ (errors.map (·.line)).Pairwise (· ≤ ·) ∧
      ((∀ e ∈ errors, 1 ≤ e.line ∧ e.line ≤ (Text.lines source).length) ↔
        ¬ ∃ size, Oversized source size) ∧
      ∀ size, Oversized source size → errors = [⟨0, .programTooLarge size⟩] := by
  have hexact : ∀ size, Oversized source size → errors = [⟨0, .programTooLarge size⟩] :=
    fun size hsize => Except.error.inj (h.symm.trans (assemble_of_oversized hsize))
  rcases Classical.em (∃ size, Oversized source size) with hlarge | hlarge
  · rcases hlarge with ⟨size, hsize⟩
    have herrors := hexact size hsize
    refine ⟨by rw [herrors]; exact List.cons_ne_nil _ _, ?_, ?_, hexact⟩
    · rw [herrors]
      exact List.pairwise_singleton _ _
    · -- Line zero is before the first line.
      refine ⟨fun hinside => ?_, fun hnot => absurd ⟨size, hsize⟩ hnot⟩
      have hzero := (hinside ⟨0, .programTooLarge size⟩ (by rw [herrors]; exact List.mem_cons_self)).1
      exact absurd hzero (Nat.not_succ_le_zero 0)
  · rcases (reports_of_assemble h).resolve_right hlarge with ⟨hne, hlisted⟩
    refine ⟨hne, hlisted.sorted, ⟨fun _ => hlarge, fun _ e he => ?_⟩, hexact⟩
    exact hlisted.inside e.line (List.mem_map_of_mem he)

/-- Two errors, on the second and the fourth line. -/
theorem errors_inside_of_undefined :
    assemble "JMP 0\nJMP :a\n\nSET r0 .b".toList =
        .error [⟨2, .undefined .label ":a".toList⟩, ⟨4, .undefined .data ".b".toList⟩] ∧
      ((∀ e ∈ ([⟨2, .undefined .label ":a".toList⟩, ⟨4, .undefined .data ".b".toList⟩] :
          List AssemblyError), 1 ≤ e.line ∧
          e.line ≤ (Text.lines "JMP 0\nJMP :a\n\nSET r0 .b".toList).length) ↔
        ¬ ∃ size, Oversized "JMP 0\nJMP :a\n\nSET r0 .b".toList size) :=
  ⟨rfl, (errors_inside_iff rfl).2.2.1⟩

/-! ### Code that is too large -/

/-- The instruction that prints a character takes two words. -/
theorem Shorthand.statement_outLine (number : Nat) (c : Char) :
    (Line.mk number (outLine c)).isLabel = false ∧
      (Line.mk number (outLine c)).statement = .instruction .out := by
  have hhead : (Line.mk number (outLine c)).head = Opcode.name .out := by
    rw [Line.head, Line.tokens, words_outLine]
    rfl
  have hlabel : (Line.mk number (outLine c)).isLabel = false := by
    rw [Line.isLabel, hhead]
    rfl
  refine ⟨hlabel, ?_⟩
  rw [Line.statement_of_not_isLabel hlabel, hhead]
  rfl

/-- A single line that prints a long text is too large. -/
theorem oversized_printText {text : Text} (hline : '\n' ∉ text) (hquote : Shorthand.quote ∉ text)
    (hvalues : ∀ c ∈ text, c.toNat ≤ 32767) (hlarge : memorySize < 2 * text.length) :
    Oversized (Listing.printText text false) (2 * text.length) := by
  have hisLine := Listing.isLine_printText false hline
  -- The source is one line, with some number.
  have htexts := Line.text_ofSource (List.forall_mem_singleton.mpr hisLine)
  rw [Text.unlines, List.intercalate_singleton, List.filter_cons_of_pos rfl, List.filter_nil] at htexts
  rcases List.map_eq_singleton_iff.mp htexts with ⟨line, hsource, htext⟩
  have hquotes : Shorthand.Quotes line.text Shorthand.printName text := by
    refine ⟨⟨[' '], List.cons_ne_nil _ _, ?_, ?_⟩, hquote⟩
    · rw [List.forall_mem_singleton]
      rfl
    · rw [htext, Listing.printText_eq]
      rfl
  -- Every character of the text becomes a line of its own.
  have hexpand := (Shorthand.expandIfShorthand_eq_ok_iff (htext ▸ hisLine.1) _).mpr
    (.print hquotes hvalues)
  have hknown : ∀ l ∈ text.map fun c => (⟨line.number, Shorthand.outLine c⟩ : Line),
      l.isLabel = false ∧ l.statement = .instruction .out := by
    intro l hl
    rcases List.mem_map.mp hl with ⟨c, _, rfl⟩
    exact Shorthand.statement_outLine line.number c
  have hsizes : (text.map fun c => (⟨line.number, Shorthand.outLine c⟩ : Line)).map Line.size =
      List.replicate text.length 2 := by
    refine List.eq_replicate_iff.mpr ⟨by simp only [List.length_map], fun n hn => ?_⟩
    rcases List.mem_map.mp hn with ⟨l, hl, rfl⟩
    rw [Line.size, (hknown l hl).2]
    rfl
  have hplaced := Layout.foldlM_place_of_forall
    (fun l hl => ⟨(hknown l hl).1, by rw [(hknown l hl).2]; exact Statement.noConfusion⟩) Layout.empty
  refine ⟨?_, ⟨_, _, _, ?_, (Layout.ofLines_eq_ok_iff _ _ _).mpr ⟨rfl, hplaced⟩, ?_⟩, hlarge⟩
  · rw [hsource, List.forall_mem_singleton, Declaration.isDeclaration, htext]
    rfl
  · rw [hsource]
    exact (Shorthand.expand_eq_ok_iff _ _).mpr
      ⟨[_], List.Forall₂.cons hexpand List.Forall₂.nil, List.flatten_singleton⟩
  · rw [hsizes, List.sum_replicate_nat, Nat.mul_comm]
    exact Nat.zero_add _

/-- A source of one line that prints 16385 letters takes two words more than there are. The
    error is not on line one but on line zero. -/
theorem error_before_first_line :
    (Text.lines (Listing.printText (List.replicate 16385 'A') false)).length = 1 ∧
      assemble (Listing.printText (List.replicate 16385 'A') false) =
        .error [⟨0, .programTooLarge 32770⟩] := by
  have hmem : ∀ c ∈ List.replicate 16385 'A', c = 'A' := fun _ => List.eq_of_mem_replicate
  have hline : '\n' ∉ List.replicate 16385 'A' := fun h => absurd (hmem _ h) (by decide)
  have hquote : Shorthand.quote ∉ List.replicate 16385 'A' := fun h =>
    absurd (hmem _ h) (by decide)
  have hlength : 2 * (List.replicate 16385 'A').length = 32770 := by
    rw [List.length_replicate]
  constructor
  · have hisLine := Listing.isLine_printText false hline
    have hlines := Text.lines_unlines
      (List.forall_mem_singleton.mpr ⟨Text.ne_nil_of_isSolid hisLine.1, hisLine.2⟩)
    rw [Text.unlines, List.intercalate_singleton] at hlines
    rw [hlines, List.length_singleton]
  · rw [← hlength]
    refine assemble_of_oversized (oversized_printText hline hquote (fun c hc => ?_) ?_)
    · rw [hmem c hc]
      decide
    · rw [hlength]
      decide

end WordMachine
