import WordMachine.Proofs.Assembly.Language
import WordMachine.Proofs.Assembly.Reports

/-!
# Offending Lines

A pass reports every line that is wrong, and each of them once.

What is wrong with a line can depend on the lines before it. A name is taken if one of
them has taken it, and a label is out of place if they fill memory. The lines before it can
be wrong themselves, and a pass goes on after a wrong line as if it were not there, so its
state is made by the good lines only. Whether a line offends should nevertheless be a
statement about the source, and not about that state. The two agree because a line that
is refused would have added nothing: its name is already taken, or it has none.

`sweep` is what the passes have in common: steps made in turn, each of which changes the
state or is reported. An invariant ties the state to the lines so far, and with it a step
fails exactly at the offending lines (`oneEach_sweep`). A pass that treats each line by
itself is a sweep without a state.

References are reported by the token and not by the line, in the same way.

## Main definitions

* `OneEach`: One error for each offending item, in order.
* `Thorough`: A pass that reports all that offends, and succeeds if nothing does.
* `sweep`: The errors of steps made in turn.
* `Declaration.Offends`, `Shorthand.Offends`, `Layout.Offends`, `Encoding.Offends`: The
  lines that offend in each pass.
* `Reference.Undefined`: The tokens that offend.

## Theorems

* `OneEach.eq_nil_iff`: When there is nothing to report.
* `oneEach_sweep`: The errors of a sweep.
* `Declaration.thorough_extract`, `Shorthand.thorough_expand`, `Layout.thorough_ofLines`,
  `Encoding.thorough_encode`, `Reference.thorough_resolve`: The passes.
* `passes_report_offenders`: All of them together.
-/

namespace WordMachine

/-! ### One error for each -/

theorem eq_error_of_failure? {ε α : Type} {x : Except ε α} {e : ε} (h : failure? x = some e) :
    x = .error e := by
  cases x with
  | ok a => cases h
  | error e' =>
      cases h
      rfl

section Sweeping

variable {σ α β ε : Type} {offends : List α → α → Prop} {points : α → ε → Prop}

/-- Errors that report the offending ones among some items: one for each, which points at
    it, in their order. Whether an item offends can depend on the items before it. -/
inductive OneEach (offends : List α → α → Prop) (points : α → ε → Prop) :
    List α → List α → List ε → Prop
  | nil {before : List α} : OneEach offends points before [] []
  | good {before items : List α} {item : α} {errors : List ε} (good : ¬ offends before item)
      (rest : OneEach offends points (before ++ [item]) items errors) :
      OneEach offends points before (item :: items) errors
  | bad {before items : List α} {item : α} {e : ε} {errors : List ε} (bad : offends before item)
      (pointed : points item e) (rest : OneEach offends points (before ++ [item]) items errors) :
      OneEach offends points before (item :: items) (e :: errors)

/-- Nothing is reported exactly if nothing offends. -/
theorem OneEach.eq_nil_iff {before items : List α} {errors : List ε}
    (h : OneEach offends points before items errors) :
    errors = [] ↔ ∀ front item back, items = front ++ item :: back →
      ¬ offends (before ++ front) item := by
  induction h with
  | nil => simp
  | good hgood _ ih =>
      rw [ih]
      constructor
      · intro hrest front item back hsplit
        cases front with
        | nil =>
            cases hsplit
            rwa [List.append_nil]
        | cons first front =>
            cases hsplit
            simpa using hrest front item back rfl
      · intro hall front item back hsplit
        simpa using hall (_ :: front) item back (by rw [hsplit]; rfl)
  | bad hbad _ _ _ =>
      refine ⟨nofun, fun hall => ?_⟩
      exact absurd hbad (by simpa using hall [] _ _ rfl)

/-- A pass that fails with one error for each offending item, and succeeds if there is
    none. -/
structure Thorough (offends : List α → α → Prop) (points : α → ε → Prop) (items : List α)
    (result : Except (List ε) β) : Prop where
  reported : ∀ errors, result = .error errors → OneEach offends points [] items errors
  succeeds : (∃ value, result = .ok value) ↔
    ∀ before item after, items = before ++ item :: after → ¬ offends before item

/-- A pass that fails exactly if there are errors, and with all of them, is as thorough as
    they are. -/
theorem thorough_of_oneEach {items : List α} {errors : List ε} {result : Except (List ε) β}
    (h : OneEach offends points [] items errors)
    (hfails : ∀ es, result = .error es ↔ es ≠ [] ∧ errors = es) :
    Thorough offends points items result := by
  constructor
  · intro es hes
    rw [← ((hfails es).mp hes).2]
    exact h
  · refine Iff.trans ?_ h.eq_nil_iff
    cases result with
    | ok value =>
        have hnil : errors = [] := by
          by_contra hne
          cases (hfails errors).mpr ⟨hne, rfl⟩
        simp [hnil]
    | error es =>
        rcases (hfails es).mp rfl with ⟨hne, rfl⟩
        simp [hne]

/-- The errors of steps made in turn. A step that fails is reported, and leaves the state
    as it was. -/
def sweep (step : σ → α → Except ε σ) : σ → List α → List ε
  | _, [] => []
  | s, item :: rest =>
    match step s item with
    | .ok next => sweep step next rest
    | .error e => e :: sweep step s rest

/-- If steps fail exactly at the offending items, as far as an invariant knows which these
    are, then a sweep reports each of them once. -/
theorem oneEach_sweep {step : σ → α → Except ε σ} (invariant : List α → σ → Prop)
    (hok : ∀ before s item next, invariant before s → step s item = .ok next →
      ¬ offends before item ∧ invariant (before ++ [item]) next)
    (herror : ∀ before s item e, invariant before s → step s item = .error e →
      offends before item ∧ points item e ∧ invariant (before ++ [item]) s)
    (items before : List α) (s : σ) (h : invariant before s) :
    OneEach offends points before items (sweep step s items) := by
  induction items generalizing before s with
  | nil => exact .nil
  | cons item rest ih =>
      rw [sweep]
      cases hstep : step s item with
      | ok next =>
          rcases hok before s item next h hstep with ⟨hgood, hnext⟩
          exact .good hgood (ih _ _ hnext)
      | error e =>
          rcases herror before s item e h hstep with ⟨hbad, hpoint, hsame⟩
          exact .bad hbad hpoint (ih _ _ hsame)

/-- Items that are treated one by one are a sweep without a state. -/
theorem sweep_stateless (f : α → Except ε β) (items : List α) :
    sweep (fun (_ : Unit) item => (f item).map fun _ => ()) () items =
      (items.map f).filterMap failure? := by
  induction items with
  | nil => rfl
  | cons item rest ih =>
      rw [sweep, List.map_cons]
      cases f item with
      | ok value => exact ih
      | error e => exact congrArg (e :: ·) ih

theorem oneEach_failures {f : α → Except ε β} {wrong : α → Prop}
    (hwrong : ∀ item, wrong item ↔ ∃ e, f item = .error e)
    (hpoint : ∀ item e, f item = .error e → points item e) (items : List α) :
    OneEach (fun _ => wrong) points [] items ((items.map f).filterMap failure?) := by
  rw [← sweep_stateless]
  refine oneEach_sweep (fun _ _ => True) (fun _ _ item _ _ hok => ?_)
    (fun _ _ item e _ herror => ?_) items [] () trivial
  · rcases (map_eq_ok_iff _ _ _).mp hok with ⟨value, hvalue, _⟩
    refine ⟨fun hbad => ?_, trivial⟩
    rcases (hwrong item).mp hbad with ⟨e, he⟩
    rw [hvalue] at he
    cases he
  · have he := (map_eq_error_iff _ _ _).mp herror
    exact ⟨(hwrong item).mpr ⟨e, he⟩, hpoint item e he, trivial⟩

end Sweeping

/-- An error is on a line. -/
def Line.Bears (line : Line) (e : AssemblyError) : Prop := e.line = line.number

/-! ### Declarations -/

namespace Declaration

/-- A name that one of some lines declares, whether or not it was the first to do so. -/
def Takes (lines : List Line) (name : Text) : Prop :=
  ∃ line ∈ lines, isDeclaration line = true ∧ ∃ d, parse line = .ok d ∧ d.name = name

/-- A line that begins with a dot, and cannot be read or repeats a name. -/
inductive Offends (before : List Line) (line : Line) : Prop
  | unread {e : AssemblyError} (dot : isDeclaration line = true) (error : parse line = .error e)
  | repeated {d : Declaration} (dot : isDeclaration line = true) (read : parse line = .ok d)
      (taken : Takes before d.name)

/-- One line of the source: a declaration is accepted or reported, and other lines are left
    alone. -/
def accept (accepted : List Declaration) (line : Line) :
    Except AssemblyError (List Declaration) :=
  if isDeclaration line then (parseNew accepted line).map (· :: accepted) else .ok accepted

theorem sweep_accept (lines : List Line) (accepted : List Declaration) :
    sweep accept accepted lines =
      (parseAll accepted (lines.filter isDeclaration)).filterMap failure? := by
  induction lines generalizing accepted with
  | nil => rfl
  | cons line rest ih =>
      rw [sweep, accept]
      by_cases hdot : isDeclaration line = true
      · rw [if_pos hdot, List.filter_cons_of_pos hdot, parseAll]
        cases parseNew accepted line with
        | ok d => exact ih _
        | error e => exact congrArg (e :: ·) (ih _)
      · rw [if_neg hdot, List.filter_cons_of_neg hdot]
        exact ih _

theorem takes_concat (before : List Line) (line : Line) (name : Text) :
    Takes (before ++ [line]) name ↔
      Takes before name ∨ isDeclaration line = true ∧ ∃ d, parse line = .ok d ∧ d.name = name := by
  simp only [Takes, List.mem_append, List.mem_singleton, or_and_right, exists_or, exists_eq_left]

/-- The names that were accepted are those that some line declares. -/
def Accounts (before : List Line) (accepted : List Declaration) : Prop :=
  ∀ name, (∃ d ∈ accepted, d.name = name) ↔ Takes before name

theorem accept_ok {before : List Line} {accepted next : List Declaration} {line : Line}
    (h : Accounts before accepted) (hok : accept accepted line = .ok next) :
    ¬ Offends before line ∧ Accounts (before ++ [line]) next := by
  unfold accept at hok
  split at hok
  · rename_i hdot
    rcases (map_eq_ok_iff _ _ _).mp hok with ⟨d, hnew, rfl⟩
    rcases (parseNew_eq_ok_iff _ _ _).mp hnew with ⟨hread, hfree⟩
    constructor
    · rintro (⟨_, herror⟩ | ⟨_, hread', htaken⟩)
      · rw [hread] at herror
        cases herror
      · rw [hread] at hread'
        cases hread'
        rcases (h d.name).mpr htaken with ⟨a, ha, hname⟩
        exact hfree a ha hname
    · intro name
      rw [takes_concat, ← h name, List.exists_mem_cons_iff, or_comm, hread]
      simp [hdot]
  · rename_i hdot
    cases hok
    refine ⟨fun hbad => ?_, fun name => ?_⟩
    · cases hbad with
      | unread dot _ => exact hdot dot
      | repeated dot _ _ => exact hdot dot
    · rw [takes_concat, ← h name]
      simp [hdot]

theorem exists_of_parseNew_eq_error {accepted : List Declaration} {line : Line} {d : Declaration}
    {e : AssemblyError} (hread : parse line = .ok d) (h : parseNew accepted line = .error e) :
    ∃ a ∈ accepted, a.name = d.name := by
  by_contra hfree
  have hok := (parseNew_eq_ok_iff accepted line d).mpr
    ⟨hread, fun a ha hname => hfree ⟨a, ha, hname⟩⟩
  rw [h] at hok
  cases hok

theorem accept_error {before : List Line} {accepted : List Declaration} {line : Line}
    {e : AssemblyError} (h : Accounts before accepted) (herror : accept accepted line = .error e) :
    Offends before line ∧ line.Bears e ∧ Accounts (before ++ [line]) accepted := by
  unfold accept at herror
  split at herror
  · rename_i hdot
    have hnew := (map_eq_error_iff _ _ _).mp herror
    refine ⟨?_, blames_parseNew accepted line e hnew, fun name => ?_⟩
    · cases hread : parse line with
      | error e' => exact .unread hdot hread
      | ok d =>
          exact .repeated hdot hread ((h d.name).mp (exists_of_parseNew_eq_error hread hnew))
    · -- A name that is declared again is one that was accepted.
      rw [takes_concat, ← h name]
      refine ⟨Or.inl, fun htaken => htaken.elim id ?_⟩
      rintro ⟨_, d, hread, rfl⟩
      exact exists_of_parseNew_eq_error hread hnew
  · cases herror

theorem thorough_extract (lines : List Line) :
    Thorough Offends Line.Bears lines (extract lines) := by
  have hstart : Accounts [] [] := fun name => by simp [Takes]
  refine thorough_of_oneEach (oneEach_sweep Accounts (fun _ _ _ _ => accept_ok)
    (fun _ _ _ _ => accept_error) lines [] [] hstart) fun es => ?_
  rw [sweep_accept, extract, bind_eq_error_iff, gather_eq_error_iff]
  refine or_iff_left ?_
  rintro ⟨_, _, hpure⟩
  cases hpure

end Declaration

/-! ### Shorthands and encoding -/

/-- A line that begins with an exclamation mark and is no shorthand. -/
def Shorthand.Offends (line : Line) : Prop :=
  isShorthand line = true ∧ ∃ e, expandLine line = .error e

theorem Shorthand.thorough_expand (lines : List Line) :
    Thorough (fun _ => Offends) Line.Bears lines (expand lines) := by
  have hwrong : ∀ line, Offends line ↔ ∃ e, expandIfShorthand line = .error e := by
    intro line
    unfold Offends expandIfShorthand
    by_cases hmark : isShorthand line = true
    · simp only [hmark, true_and, if_true, map_eq_error_iff]
    · simp [hmark]
  refine thorough_of_oneEach (oneEach_failures hwrong blames_expandIfShorthand lines) fun es => ?_
  rw [expand, map_eq_error_iff, gather_eq_error_iff]

/-- A line that is not encoded. -/
def Encoding.Offends (line : Line) : Prop := ∃ e, encodeLine line = .error e

theorem Encoding.thorough_encode (lines : List Line) :
    Thorough (fun _ => Offends) Line.Bears lines (encode lines) := by
  refine thorough_of_oneEach (oneEach_failures (fun _ => Iff.rfl) blames_encodeLine lines)
    fun es => ?_
  rw [encode, map_eq_error_iff, gather_eq_error_iff]

/-! ### Layout -/

namespace Layout

/-- A label that one of some lines records: it stands alone, has a good name, and the lines
    before it leave room for it. -/
def Records (lines : List Line) (name : Text) : Prop :=
  ∃ before line after, lines = before ++ line :: after ∧ line.tokens = [':' :: name] ∧
    Name.IsName name ∧ (before.map Line.size).sum < memorySize

/-- A label after the end of memory, that shares its line, that is no name or that was
    recorded before, and a line whose first word is not known. -/
inductive Offends (before : List Line) (line : Line) : Prop
  | beyond {name : Text} (label : line.head = ':' :: name)
      (full : memorySize ≤ (before.map Line.size).sum)
  | shared {name : Text} (label : line.head = ':' :: name) (tokens : line.tokens.length ≠ 1)
  | unnamed {name : Text} (label : line.head = ':' :: name) (bad : ¬ Name.IsName name)
  | repeated {name : Text} (label : line.head = ':' :: name) (recorded : Records before name)
  | unknown (label : line.isLabel = false) (raw : line.head ≠ Opcode.rawName)
      (opcode : Opcode.ofMnemonic? line.head = none)

theorem records_concat (before : List Line) (line : Line) (name : Text) :
    Records (before ++ [line]) name ↔
      Records before name ∨ line.tokens = [':' :: name] ∧ Name.IsName name ∧
        (before.map Line.size).sum < memorySize := by
  constructor
  · rintro ⟨front, l, back, hsplit, htokens, hname, hroom⟩
    -- The line that records the label is the last one, or one before it.
    rcases List.eq_nil_or_concat' back with rfl | ⟨back, last, rfl⟩
    · rcases List.append_inj' hsplit rfl with ⟨rfl, hlast⟩
      cases hlast
      exact Or.inr ⟨htokens, hname, hroom⟩
    · rw [← List.cons_append, ← List.append_assoc] at hsplit
      rcases List.append_inj' hsplit rfl with ⟨rfl, _⟩
      exact Or.inl ⟨front, l, back, rfl, htokens, hname, hroom⟩
  · rintro (⟨front, l, back, rfl, htokens, hname, hroom⟩ | ⟨htokens, hname, hroom⟩)
    · exact ⟨front, l, back ++ [line], by simp, htokens, hname, hroom⟩
    · exact ⟨before, line, [], rfl, htokens, hname, hroom⟩

/-- The layout of the good ones among some lines. -/
structure Follows (before : List Line) (layout : Layout) : Prop where
  size : layout.size = (before.map Line.size).sum
  names : ∀ name, layout.symbols.Defines .label name ↔ Records before name

theorem offends_label_iff {before : List Line} {line : Line} {name : Text}
    (h : line.head = ':' :: name) :
    Offends before line ↔ memorySize ≤ (before.map Line.size).sum ∨ line.tokens.length ≠ 1 ∨
      ¬ Name.IsName name ∨ Records before name := by
  constructor
  · intro hbad
    cases hbad with
    | beyond _ full => exact Or.inl full
    | shared _ tokens => exact Or.inr (Or.inl tokens)
    | unnamed label bad =>
        rw [h] at label
        cases label
        exact Or.inr (Or.inr (Or.inl bad))
    | repeated label recorded =>
        rw [h] at label
        cases label
        exact Or.inr (Or.inr (Or.inr recorded))
    | unknown label _ _ =>
        rw [Line.isLabel_of_head_label h] at label
        cases label
  · rintro (full | tokens | bad | recorded)
    · exact .beyond h full
    · exact .shared h tokens
    · exact .unnamed h bad
    · exact .repeated h recorded

theorem offends_iff_of_not_isLabel {before : List Line} {line : Line} (h : line.isLabel = false) :
    Offends before line ↔ line.statement = .unknown := by
  have hhead : ∀ name, line.head ≠ ':' :: name := by
    intro name hname
    rw [Line.isLabel_of_head_label hname] at h
    cases h
  rw [Line.statement_of_not_isLabel h]
  constructor
  · intro hbad
    cases hbad with
    | beyond label _ => exact absurd label (hhead _)
    | shared label _ => exact absurd label (hhead _)
    | unnamed label _ => exact absurd label (hhead _)
    | repeated label _ => exact absurd label (hhead _)
    | unknown _ raw opcode => rw [if_neg raw, opcode]
  · intro hunknown
    split at hunknown
    · cases hunknown
    · rename_i hraw
      split at hunknown
      · cases hunknown
      · rename_i hnone
        exact .unknown h hraw hnone

/-- After the good ones among some lines, a line is placed exactly if it does not offend. -/
theorem exists_place_iff {before : List Line} {layout : Layout} (h : Follows before layout)
    (line : Line) : (∃ next, layout.place line = .ok next) ↔ ¬ Offends before line := by
  cases hlabel : line.isLabel with
  | true =>
      rcases line.isLabel_iff.mp hlabel with ⟨name, hname⟩
      have hfree : layout.symbols.find? .label name = none ↔ ¬ Records before name := by
        rw [← h.names name, SymbolTable.Defines, not_exists, Option.eq_none_iff_forall_ne_some]
      simp only [place_label_eq_ok_iff hname,
        offends_label_iff ((line.statement_eq_label_iff name).mp hname), hfree, h.size, not_or,
        Nat.not_le, ne_eq, not_not]
      constructor
      · rintro ⟨_, hroom, ⟨htokens, hgood⟩, hnew, _⟩
        exact ⟨hroom, htokens, hgood, hnew⟩
      · rintro ⟨hroom, htokens, hgood, hnew⟩
        exact ⟨_, hroom, ⟨htokens, hgood⟩, hnew, rfl⟩
  | false =>
      simp only [place_eq_ok_iff_of_not_isLabel hlabel, offends_iff_of_not_isLabel hlabel,
        exists_and_left, exists_eq, and_true, ne_eq]

theorem tokens_of_label {line : Line} {name : Text} (h : line.head = ':' :: name)
    (htokens : line.tokens.length = 1) : line.tokens = [':' :: name] := by
  have hcons : line.tokens = line.head :: line.operands :=
    Line.tokens_eq_cons (by rw [h]; exact List.cons_ne_nil _ _)
  rw [hcons, List.length_cons, Nat.add_eq_right, List.length_eq_zero_iff] at htokens
  rw [hcons, htokens, h]

theorem follows_of_place {before : List Line} {layout next : Layout} {line : Line}
    (h : Follows before layout) (hplace : layout.place line = .ok next) :
    Follows (before ++ [line]) next := by
  cases hlabel : line.isLabel with
  | true =>
      rcases line.isLabel_iff.mp hlabel with ⟨name, hname⟩
      rcases (place_label_eq_ok_iff hname _ _).mp hplace with ⟨hroom, ⟨htokens, hgood⟩, _, rfl⟩
      have hall := tokens_of_label ((line.statement_eq_label_iff name).mp hname) htokens
      rw [h.size] at hroom
      refine ⟨?_, fun other => ?_⟩
      · simp [h.size, Line.size_of_isLabel hlabel]
      · -- The label is recorded under its own name, and nothing else is.
        rw [records_concat, ← h.names, SymbolTable.defines_iff, SymbolTable.defines_iff, hall]
        simp only [List.mem_append, List.mem_singleton, or_and_right, exists_or, exists_eq_left,
          List.cons.injEq, true_and, and_true]
        refine or_congr_right ⟨?_, fun hsame => ⟨rfl, hsame.1⟩⟩
        rintro ⟨_, rfl⟩
        exact ⟨rfl, hgood, hroom⟩
  | false =>
      rcases (place_eq_ok_iff_of_not_isLabel hlabel _ _).mp hplace with ⟨_, rfl⟩
      refine ⟨by simp [h.size], fun name => ?_⟩
      rw [records_concat, ← h.names]
      refine ⟨Or.inl, fun hrecords => hrecords.resolve_right ?_⟩
      rintro ⟨htokens, _⟩
      rw [Line.isLabel_of_head_label (Line.parts_of_tokens htokens).1] at hlabel
      cases hlabel

/-- A line that offends takes no room and records nothing new. -/
theorem follows_of_offends {before : List Line} {layout : Layout} {line : Line}
    (h : Follows before layout) (hbad : Offends before line) :
    Follows (before ++ [line]) layout := by
  constructor
  · have hsize : line.size = 0 := by
      cases hlabel : line.isLabel with
      | true => exact Line.size_of_isLabel hlabel
      | false =>
          rw [Line.size, (offends_iff_of_not_isLabel hlabel).mp hbad]
          rfl
    simp [h.size, hsize]
  · intro name
    rw [records_concat, h.names]
    refine ⟨Or.inl, fun hrecords => hrecords.elim id ?_⟩
    -- If nothing else is wrong with a label, it was recorded before.
    rintro ⟨htokens, hgood, hroom⟩
    rcases (offends_label_iff (Line.parts_of_tokens htokens).1).mp hbad with hfull | hlong | hno | hold
    · exact absurd hroom (Nat.not_lt.mpr hfull)
    · exact absurd (by rw [htokens]; rfl) hlong
    · exact absurd hgood hno
    · exact hold

theorem sweep_place (layout : Layout) (lines : List Line) :
    sweep place layout lines = (layout.placeAll lines).1 := by
  induction lines generalizing layout with
  | nil => rfl
  | cons line rest ih =>
      rw [sweep, placeAll]
      cases layout.place line with
      | ok next => exact ih next
      | error e => exact congrArg (e :: ·) (ih layout)

theorem thorough_ofLines (lines : List Line) :
    Thorough Offends Line.Bears lines (ofLines lines) := by
  have hstart : Follows [] empty :=
    ⟨rfl, fun name => by simp [Records, SymbolTable.defines_iff, empty, SymbolTable.empty]⟩
  have herrors : OneEach Offends Line.Bears [] lines (sweep place empty lines) := by
    refine oneEach_sweep Follows (fun before layout line next h hplace => ?_)
      (fun before layout line e h herror => ?_) lines [] empty hstart
    · exact ⟨(exists_place_iff h line).mp ⟨next, hplace⟩, follows_of_place h hplace⟩
    · have hbad : Offends before line := by
        by_contra hgood
        rcases (exists_place_iff h line).mpr hgood with ⟨next, hplace⟩
        rw [herror] at hplace
        cases hplace
      exact ⟨hbad, layout.blames_place line e herror, follows_of_offends h hbad⟩
  refine thorough_of_oneEach herrors fun es => ?_
  rw [sweep_place, ofLines]
  rcases empty.placeAll lines with ⟨errors, final⟩
  cases errors with
  | nil => simp
  | cons first rest =>
      simp only [Except.error.injEq, iff_and_self]
      rintro rfl
      exact List.cons_ne_nil _ _

end Layout

/-! ### References -/

namespace Reference

/-- The operands of some lines, each with its line, in order. -/
def occurrences (lines : List Line) : List (Line × Text) :=
  lines.flatMap fun line => line.operands.map (line, ·)

/-- A token that refers to a name that is not defined. -/
def Undefined (symbols : SymbolTable) (token : Text) : Prop :=
  ∃ space name, token = Namespace.mark space :: name ∧ ¬ symbols.Defines space name

/-- An error says that a token refers to nothing, on its line. -/
def Misses (occurrence : Line × Text) (e : AssemblyError) : Prop :=
  ∃ space name, occurrence.2 = Namespace.mark space :: name ∧
    e = occurrence.1.error (.undefined space occurrence.2)

theorem resolveToken_mark (symbols : SymbolTable) (line : Line) (space : Namespace) (name : Text) :
    resolveToken symbols line (space.mark :: name) =
      match symbols.find? space name with
      | some s => .ok (Decimal.writeWord s.address)
      | none => .error (line.error (.undefined space (space.mark :: name))) := by
  cases space with
  | label => rfl
  | data => rfl

theorem resolveToken_eq_error_iff (symbols : SymbolTable) (line : Line) (token : Text)
    (e : AssemblyError) :
    resolveToken symbols line token = .error e ↔
      ∃ space name, token = Namespace.mark space :: name ∧ ¬ symbols.Defines space name ∧
        e = line.error (.undefined space token) := by
  constructor
  · intro h
    -- Only a reference can fail, and it begins with the mark of its namespace.
    have hmark : ∃ space name, token = Namespace.mark space :: name := by
      by_contra hnone
      have hstart : ∀ space : Namespace, Text.startsWith space.mark token = false := by
        intro space
        rw [Bool.eq_false_iff]
        intro hstart
        rcases (Text.startsWith_iff _ _).mp hstart with ⟨name, hname⟩
        exact hnone ⟨space, name, hname⟩
      rw [resolveToken_of_not_reference symbols line (hstart .label) (hstart .data)] at h
      cases h
    rcases hmark with ⟨space, name, rfl⟩
    rw [resolveToken_mark] at h
    cases hfind : symbols.find? space name with
    | some s =>
        rw [hfind] at h
        cases h
    | none =>
        rw [hfind] at h
        cases h
        refine ⟨space, name, rfl, ?_, rfl⟩
        rintro ⟨s, hs⟩
        rw [hfind] at hs
        cases hs
  · rintro ⟨space, name, rfl, hnot, rfl⟩
    have hfind : symbols.find? space name = none :=
      Option.eq_none_iff_forall_ne_some.mpr fun s hs => hnot ⟨s, hs⟩
    rw [resolveToken_mark, hfind]

/-- The errors of all lines are those of all operands. -/
theorem flatten_failures (symbols : SymbolTable) (lines : List Line) :
    ((lines.map (resolveLine symbols)).filterMap failure?).flatten =
      ((occurrences lines).map fun o => resolveToken symbols o.1 o.2).filterMap failure? := by
  induction lines with
  | nil => rfl
  | cons line rest ih =>
      have htokens : (line.operands.map (line, ·)).map (fun o => resolveToken symbols o.1 o.2) =
          line.operands.map (resolveToken symbols line) := List.map_map
      rw [occurrences, List.flatMap_cons, List.map_append, List.filterMap_append, htokens, ← occurrences,
        ← ih, List.map_cons]
      cases hline : resolveLine symbols line with
      | ok resolved =>
          -- A line is resolved if none of its operands fails.
          have hnone : (line.operands.map (resolveToken symbols line)).filterMap failure? = [] := by
            rcases (bind_eq_ok_iff _ _ _).mp hline with ⟨operands, hoperands, _⟩
            rw [(gather_eq_ok_iff _ _).mp hoperands]
            simp [List.filterMap_map, Function.comp_def, failure?]
          rw [hnone, List.nil_append]
          rfl
      | error errors =>
          rcases (bind_eq_error_iff _ _ _).mp hline with hgather | ⟨_, _, hpure⟩
          · rw [((gather_eq_error_iff _ _).mp hgather).2]
            rfl
          · cases hpure

theorem thorough_resolve (symbols : SymbolTable) (lines : List Line) :
    Thorough (fun _ o => Undefined symbols o.2) Misses (occurrences lines)
      (resolve symbols lines) := by
  have hwrong : ∀ o : Line × Text, Undefined symbols o.2 ↔
      ∃ e, resolveToken symbols o.1 o.2 = .error e := by
    intro o
    simp only [resolveToken_eq_error_iff]
    constructor
    · rintro ⟨space, name, htoken, hnot⟩
      exact ⟨_, space, name, htoken, hnot, rfl⟩
    · rintro ⟨_, space, name, htoken, hnot, _⟩
      exact ⟨space, name, htoken, hnot⟩
  have hpoint : ∀ (o : Line × Text) (e : AssemblyError), resolveToken symbols o.1 o.2 = .error e →
      Misses o e := by
    intro o e he
    rcases (resolveToken_eq_error_iff _ _ _ _).mp he with ⟨space, name, htoken, _, rfl⟩
    exact ⟨space, name, htoken, rfl⟩
  refine thorough_of_oneEach (oneEach_failures hwrong hpoint (occurrences lines)) fun es => ?_
  rw [← flatten_failures, resolve, mapError_eq_error_iff]
  constructor
  · rintro ⟨parts, hgather, rfl⟩
    rcases (gather_eq_error_iff _ _).mp hgather with ⟨hne, rfl⟩
    refine ⟨fun hnil => ?_, rfl⟩
    -- There is a line that fails, and it fails with an error.
    rcases List.exists_mem_of_ne_nil _ hne with ⟨part, hpart⟩
    rcases List.mem_filterMap.mp hpart with ⟨result, hresult, hfailure⟩
    rcases List.mem_map.mp hresult with ⟨line, _, rfl⟩
    have hline := eq_error_of_failure? hfailure
    exact (blames_resolveLine hline).1 (List.flatten_eq_nil_iff.mp hnil part hpart)
  · rintro ⟨hne, rfl⟩
    refine ⟨_, (gather_eq_error_iff _ _).mpr ⟨?_, rfl⟩, rfl⟩
    intro hnil
    exact hne (by rw [hnil]; rfl)

end Reference

/-- Every pass reports each offending line once, on the line and in the order of the lines,
    and succeeds if there is none. References are reported by the token. -/
theorem passes_report_offenders (lines : List Line) (symbols : SymbolTable) :
    Thorough Declaration.Offends Line.Bears lines (Declaration.extract lines) ∧
    Thorough (fun _ => Shorthand.Offends) Line.Bears lines (Shorthand.expand lines) ∧
    Thorough Layout.Offends Line.Bears lines (Layout.ofLines lines) ∧
    Thorough (fun _ => Encoding.Offends) Line.Bears lines (Encoding.encode lines) ∧
    Thorough (fun _ o => Reference.Undefined symbols o.2) Reference.Misses
      (Reference.occurrences lines) (Reference.resolve symbols lines) :=
  ⟨Declaration.thorough_extract lines, Shorthand.thorough_expand lines,
    Layout.thorough_ofLines lines, Encoding.thorough_encode lines,
    Reference.thorough_resolve symbols lines⟩

end WordMachine
