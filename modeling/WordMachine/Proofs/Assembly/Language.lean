import WordMachine.Proofs.Assembly.Meaning
import WordMachine.Proofs.Assembly.Shorthands

/-!
# The Language of Sources

The sources that assemble.

Acceptance is spread over the passes: each looks at lines that the passes before it have
taken out, expanded or rewritten, and stops the assembly if one of them is wrong.
`InLanguage` says in one place which sources are right, in terms of the tokens of lines
and of the names that lines define. It mentions no pass, and no address but in the
conditions that everything begins inside memory and fits in it.

Placing is the only pass whose lines depend on each other. A fold over lines succeeds
exactly if every line can be placed by itself, the names are different from each other
and from those that are taken, and every label finds room; the same goes for blocks of
data. The other passes go line by line, and their part of the proof is already done where
single lines are.

## Main definitions

* `BeginsInside`: Items that lie one after the other and begin inside memory.
* `Line.label?`, `labelNames`: The labels that lines define.
* `IsStatement`: The tokens of a label, a raw word or an instruction.
* `InLanguage`: The sources that are right.

## Theorems

* `Layout.exists_foldlM_place_iff`, `Layout.exists_foldlM_placeBlock_iff`: When lines and
  blocks can be placed.
* `Layout.defines_iff`: What a layout defines.
* `exists_assemble_iff`: A source assembles exactly if it is right.
-/

namespace WordMachine

/-! ### Beginning inside memory -/

section Beginning

variable {α : Type} {size : α → Nat} {P : α → Prop}

/-- Of items that lie one after the other from `offset` on, those that count begin inside
    memory. -/
def BeginsInside (size : α → Nat) (P : α → Prop) (offset : Nat) (items : List α) : Prop :=
  ∀ before item after, items = before ++ item :: after → P item →
    offset + (before.map size).sum < 32768

theorem beginsInside_nil (offset : Nat) : BeginsInside size P offset [] := by
  intro before item after h
  exact absurd h (by simp)

theorem beginsInside_cons (offset : Nat) (item : α) (rest : List α) :
    BeginsInside size P offset (item :: rest) ↔
      (P item → offset < 32768) ∧ BeginsInside size P (offset + size item) rest := by
  constructor
  · intro h
    refine ⟨h [] item rest rfl, fun before x after hsplit hx => ?_⟩
    have hlt := h (item :: before) x after (by rw [hsplit]; rfl) hx
    rwa [List.map_cons, List.sum_cons, ← Nat.add_assoc] at hlt
  · rintro ⟨hfirst, hrest⟩ before x after hsplit hx
    cases before with
    | nil =>
        cases hsplit
        exact hfirst hx
    | cons y before =>
        cases hsplit
        have hlt := hrest before x after rfl hx
        rwa [List.map_cons, List.sum_cons, ← Nat.add_assoc]

end Beginning

/-! ### Definitions -/

/-- The label that a line defines. -/
def Line.label? (line : Line) : Option Text :=
  match line.head with
  | ':' :: name => some name
  | _ => none

/-- The labels that lines define. -/
def labelNames (lines : List Line) : List Text := lines.filterMap Line.label?

/-- The names that are defined by declarations and by labels. -/
def Defined (declarations : List Declaration) (lines : List Line) : Namespace → Text → Prop
  | .label, name => name ∈ labelNames lines
  | .data, name => name ∈ declarations.map (·.name)

/-- The tokens of a line that is neither a declaration nor a shorthand. -/
inductive IsStatement (defines : Namespace → Text → Prop) : List Text → Prop
  | label {name : Text} (named : Name.IsName name) : IsStatement defines [':' :: name]
  | raw {token : Text} {a : Term} (written : a.Written token) (admissible : a.IsRaw defines) :
      IsStatement defines [Opcode.rawName, token]
  | instruction (op : Opcode) {tokens : List Text} (count : tokens.length = op.arity)
      (operands : ∀ token ∈ tokens, ∃ a : Term, a.Written token ∧ a.IsOperand defines) :
      IsStatement defines (op.name :: tokens)

/-- The sources that are right, with what they declare and the lines that they expand
    to. -/
structure InLanguage (source : Text) (declarations : List Declaration) (lines : List Line) :
    Prop where
  /-- Every line that begins with a dot declares data. -/
  declares : List.Forall₂ Declaration.Declares
    ((Line.ofSource source).filter Declaration.isDeclaration) declarations
  /-- No data name is declared twice. -/
  dataNames : (declarations.map (·.name)).Nodup
  /-- Every other line is no shorthand or a good one, and stands for some lines. -/
  stands : ∃ parts, List.Forall₂ Shorthand.Stands
    ((Line.ofSource source).filter (!Declaration.isDeclaration ·)) parts ∧ parts.flatten = lines
  /-- All these lines are statements, and refer to what is defined. -/
  statements : ∀ line ∈ lines, IsStatement (Defined declarations lines) line.tokens
  /-- No label is defined twice. -/
  labelNames : (labelNames lines).Nodup
  /-- There is a word left for every label and for every block of data. -/
  labelsInside : BeginsInside Line.size (·.isLabel = true) 0 lines
  dataInside : BeginsInside (·.count.toNat) (fun _ => True) (lines.map Line.size).sum declarations
  /-- Everything fits in memory. -/
  fits : (lines.map Line.size).sum + (declarations.map (·.count.toNat)).sum ≤ 32768

/-! ### Placing -/

namespace Line

theorem statement_eq_label_iff (line : Line) (name : Text) :
    line.statement = .label name ↔ line.head = ':' :: name := by
  constructor
  · intro h
    have hlabel := line.isLabel_iff.mpr ⟨name, h⟩
    rcases (Text.startsWith_iff _ _).mp hlabel with ⟨other, hhead⟩
    rw [statement_of_head_label hhead, Statement.label.injEq] at h
    rw [hhead, h]
  · exact statement_of_head_label

theorem label?_eq_some_iff (line : Line) (name : Text) :
    line.label? = some name ↔ line.statement = .label name := by
  rw [statement_eq_label_iff]
  unfold label?
  split
  · rename_i other hhead
    simp [hhead]
  · rename_i hnot
    simp only [reduceCtorEq, false_iff]
    exact hnot name

theorem label?_eq_none_iff (line : Line) : line.label? = none ↔ line.isLabel = false := by
  rw [Option.eq_none_iff_forall_ne_some, ← Bool.not_eq_true, line.isLabel_iff, not_exists]
  exact forall_congr' fun name => not_congr (line.label?_eq_some_iff name)

/-- The lines of a source are trimmed, and not empty. -/
theorem isSolid_of_mem_ofSource {source : Text} {line : Line} (h : line ∈ ofSource source) :
    Text.IsSolid line.text := by
  rcases List.mem_filter.mp h with ⟨hnumbered, hmeaningful⟩
  rcases List.mem_map.mp hnumbered with ⟨⟨text, number⟩, _, rfl⟩
  refine Text.isSolid_trim fun hempty => ?_
  simp [isMeaningful, hempty] at hmeaningful

end Line

/-- A line that can be placed where there is room and its name is free. -/
def Line.Placeable (line : Line) : Prop :=
  line.statement ≠ .unknown ∧
    ∀ name, line.statement = .label name → line.tokens.length = 1 ∧ Name.IsName name

theorem labelNames_cons_label {line : Line} {name : Text} (h : line.statement = .label name)
    (rest : List Line) : labelNames (line :: rest) = name :: labelNames rest := by
  rw [labelNames, List.filterMap_cons_some ((line.label?_eq_some_iff name).mpr h)]
  rfl

theorem labelNames_cons_of_not_isLabel {line : Line} (h : line.isLabel = false)
    (rest : List Line) : labelNames (line :: rest) = labelNames rest := by
  rw [labelNames, List.filterMap_cons_none (line.label?_eq_none_iff.mpr h)]
  rfl

namespace SymbolTable

/-- A name is free after adding a symbol if it was free before and is not that of the symbol. -/
theorem find?_concat_eq_none_iff (t : SymbolTable) (s : Symbol) (name : Text) :
    find? ⟨t.symbols ++ [s]⟩ s.kind.space name = none ↔
      t.find? s.kind.space name = none ∧ s.name ≠ name := by
  rw [find?_eq_none_iff, find?_eq_none_iff]
  simp only [List.forall_mem_append, List.forall_mem_singleton, true_and, ne_eq]

theorem defines_iff (t : SymbolTable) (space : Namespace) (name : Text) :
    t.Defines space name ↔ ∃ s ∈ t.symbols, s.kind.space = space ∧ s.name = name := by
  rw [Defines, ← Option.isSome_iff_exists, ← Option.ne_none_iff_isSome, Ne, find?_eq_none_iff]
  simp only [not_forall, not_not, exists_prop]

end SymbolTable

namespace Layout

theorem place_label_eq_ok_iff {line : Line} {name : Text} (h : line.statement = .label name)
    (layout next : Layout) :
    layout.place line = .ok next ↔
      layout.size < 32768 ∧ (line.tokens.length = 1 ∧ Name.IsName name) ∧
        layout.symbols.find? .label name = none ∧
        next = ⟨⟨layout.symbols.symbols ++ [labelSymbol layout.size line name]⟩, layout.size⟩ := by
  rw [place, h, ← Name.check_eq_ok_iff, and_assoc]
  exact placeLabel_eq_ok_iff layout next line name

theorem place_eq_ok_iff_of_not_isLabel {line : Line} (h : line.isLabel = false)
    (layout next : Layout) :
    layout.place line = .ok next ↔
      line.statement ≠ .unknown ∧ next = ⟨layout.symbols, layout.size + line.size⟩ := by
  rw [place_eq_ok_iff]
  constructor
  · rintro (⟨name, hname, _⟩ | ⟨_, hnext⟩)
    · rw [line.isLabel_iff.mpr ⟨name, hname⟩] at h
      cases h
    · exact hnext
  · exact fun hnext => Or.inr ⟨h, hnext⟩

/-- Lines can be placed exactly if each is known, every label stands alone and has a good
    name that is free, and there is room for the labels. -/
theorem exists_foldlM_place_iff (layout : Layout) (lines : List Line) :
    (∃ final, lines.foldlM place layout = .ok final) ↔
      (∀ line ∈ lines, line.Placeable) ∧
      (labelNames lines).Nodup ∧
      (∀ name ∈ labelNames lines, layout.symbols.find? .label name = none) ∧
      BeginsInside Line.size (·.isLabel = true) layout.size lines := by
  induction lines generalizing layout with
  | nil =>
      refine ⟨fun _ => ?_, fun _ => ⟨layout, rfl⟩⟩
      exact ⟨by simp, List.nodup_nil, by simp [labelNames], beginsInside_nil _⟩
  | cons line rest ih =>
      rw [exists_foldlM_cons_iff, List.forall_mem_cons, beginsInside_cons]
      cases hlabel : line.isLabel with
      | true =>
          rcases line.isLabel_iff.mp hlabel with ⟨name, hname⟩
          -- A label takes no room, and its name is taken for the lines after it.
          rw [labelNames_cons_label hname, List.nodup_cons, List.forall_mem_cons,
            Line.size_of_isLabel hlabel]
          have hrest := SymbolTable.find?_concat_eq_none_iff layout.symbols
            (labelSymbol layout.size line name)
          simp only [place_label_eq_ok_iff hname, ih]
          constructor
          · rintro ⟨_, ⟨hsize, halone, hnone, rfl⟩, hlines, hnodup, hfree, hinside⟩
            refine ⟨⟨⟨by simp [hname], fun n hn => ?_⟩, hlines⟩,
              ⟨fun hmem => ((hrest name).mp (hfree name hmem)).2 rfl, hnodup⟩,
              ⟨hnone, fun n hn => ((hrest n).mp (hfree n hn)).1⟩, fun _ => hsize, hinside⟩
            rw [hname] at hn
            cases hn
            exact halone
          · rintro ⟨⟨⟨_, halone⟩, hlines⟩, ⟨hnew, hnodup⟩, ⟨hnone, hfree⟩, hsize, hinside⟩
            refine ⟨_, ⟨hsize trivial, halone name hname, hnone, rfl⟩, hlines, hnodup, fun n hn =>
              (hrest n).mpr ⟨hfree n hn, ?_⟩, hinside⟩
            rintro rfl
            exact hnew hn
      | false =>
          have hnot : ∀ name, line.statement ≠ .label name := by
            intro name hname
            rw [line.isLabel_iff.mpr ⟨name, hname⟩] at hlabel
            cases hlabel
          rw [labelNames_cons_of_not_isLabel hlabel]
          simp only [place_eq_ok_iff_of_not_isLabel hlabel, ih]
          constructor
          · rintro ⟨_, ⟨hknown, rfl⟩, hlines, hnodup, hfree, hinside⟩
            exact ⟨⟨⟨hknown, fun name hname => absurd hname (hnot name)⟩, hlines⟩, hnodup, hfree,
              nofun, hinside⟩
          · rintro ⟨⟨⟨hknown, _⟩, hlines⟩, hnodup, hfree, _, hinside⟩
            exact ⟨_, ⟨hknown, rfl⟩, hlines, hnodup, hfree, hinside⟩

/-- Blocks can be placed exactly if their names are free and there is room for the first
    word of each. -/
theorem exists_foldlM_placeBlock_iff (layout : Layout) (ds : List Declaration) :
    (∃ final, ds.foldlM placeBlock layout = .ok final) ↔
      (ds.map (·.name)).Nodup ∧ (∀ d ∈ ds, layout.symbols.find? .data d.name = none) ∧
      BeginsInside (·.count.toNat) (fun _ => True) layout.size ds := by
  induction ds generalizing layout with
  | nil =>
      refine ⟨fun _ => ?_, fun _ => ⟨layout, rfl⟩⟩
      exact ⟨List.nodup_nil, by simp, beginsInside_nil _⟩
  | cons d rest ih =>
      rw [exists_foldlM_cons_iff, List.map_cons, List.nodup_cons, List.forall_mem_cons,
        beginsInside_cons]
      have hrest := SymbolTable.find?_concat_eq_none_iff layout.symbols (dataSymbol layout.size d)
      simp only [placeBlock_eq_ok_iff]
      constructor
      · rintro ⟨next, ⟨hsize, hnone, rfl⟩, hfold⟩
        rcases (ih _).mp hfold with ⟨hnodup, hfree, hinside⟩
        refine ⟨⟨fun hmem => ?_, hnodup⟩, ⟨hnone, fun d' hd' => ((hrest _).mp (hfree d' hd')).1⟩,
          fun _ => hsize, hinside⟩
        rcases List.mem_map.mp hmem with ⟨d', hd', hname⟩
        exact ((hrest _).mp (hfree d' hd')).2 hname.symm
      · rintro ⟨⟨hnew, hnodup⟩, ⟨hnone, hfree⟩, hsize, hinside⟩
        refine ⟨_, ⟨hsize trivial, hnone, rfl⟩, (ih _).mpr ⟨hnodup, fun d' hd' => ?_, hinside⟩⟩
        exact (hrest _).mpr ⟨hfree d' hd', fun hname => hnew (List.mem_map.mpr ⟨d', hd', hname.symm⟩)⟩

theorem map_name_labelSymbols (offset : Nat) (lines : List Line) :
    (labelSymbols offset lines).map (·.name) = labelNames lines := by
  induction lines generalizing offset with
  | nil => rfl
  | cons line rest ih =>
      cases hlabel : line.isLabel with
      | true =>
          rcases line.isLabel_iff.mp hlabel with ⟨name, hname⟩
          rw [labelSymbols_cons_label _ _ hname, labelNames_cons_label hname, List.map_cons, ih]
          rfl
      | false =>
          rw [labelSymbols_cons_of_not_isLabel _ _ hlabel, labelNames_cons_of_not_isLabel hlabel, ih]

theorem map_name_dataSymbols (offset : Nat) (ds : List Declaration) :
    (dataSymbols offset ds).map (·.name) = ds.map (·.name) := by
  have hmap := congrArg (List.map Prod.fst) (map_dataSymbols offset ds)
  rwa [List.map_map, List.map_map] at hmap

/-- What is defined where lines and blocks have been placed are their names. -/
theorem defines_iff {layout final : Layout} {lines : List Line} {ds : List Declaration}
    (hlines : lines.foldlM place empty = .ok layout)
    (hdata : ds.foldlM placeBlock layout = .ok final) :
    final.symbols.Defines = Defined ds lines := by
  have hsymbols : final.symbols.symbols = labelSymbols 0 lines ++ dataSymbols layout.size ds := by
    rw [symbols_of_foldlM_placeBlock hdata, symbols_of_foldlM_place hlines]
    rfl
  funext space name
  refine propext ?_
  rw [SymbolTable.defines_iff, hsymbols]
  -- The two namespaces are kept in one list: each half contributes to its own only.
  cases space with
  | label =>
      rw [Defined, ← map_name_labelSymbols 0, List.mem_map]
      constructor
      · rintro ⟨s, hs, hspace, hname⟩
        rcases List.mem_append.mp hs with hs | hs
        · exact ⟨s, hs, hname⟩
        · rw [space_of_mem_dataSymbols hs] at hspace
          cases hspace
      · rintro ⟨s, hs, hname⟩
        exact ⟨s, List.mem_append_left _ hs, space_of_mem_labelSymbols hs, hname⟩
  | data =>
      rw [Defined, ← map_name_dataSymbols layout.size, List.mem_map]
      constructor
      · rintro ⟨s, hs, hspace, hname⟩
        rcases List.mem_append.mp hs with hs | hs
        · rw [space_of_mem_labelSymbols hs] at hspace
          cases hspace
        · exact ⟨s, hs, hname⟩
      · rintro ⟨s, hs, hname⟩
        exact ⟨s, List.mem_append_right _ hs, space_of_mem_dataSymbols hs, hname⟩

end Layout

/-! ### Statements -/

theorem Term.exists_word {symbols : SymbolTable} {a : Term}
    (h : a.IsOperand symbols.Defines ∨ a.IsRaw symbols.Defines) : ∃ w, a.word? symbols = some w := by
  cases a with
  | number n => exact ⟨_, rfl⟩
  | register n => exact ⟨_, rfl⟩
  | symbol space name =>
      have hdefines : symbols.Defines space name := h.elim id id
      rcases hdefines with ⟨s, hs⟩
      exact ⟨s.address, by rw [word?, hs]; rfl⟩

namespace IsStatement

variable {defines : Namespace → Text → Prop} {line : Line}

/-- The first word of a statement says what it is. -/
theorem statement_ne_unknown (h : IsStatement defines line.tokens) :
    line.statement ≠ .unknown := by
  generalize htokens : line.tokens = tokens at h
  cases h with
  | label named =>
      rw [Line.statement_of_head_label (Line.parts_of_tokens htokens).1]
      nofun
  | raw written admissible =>
      have hhead := (Line.parts_of_tokens htokens).1
      rw [Line.statement_of_not_isLabel (Encoding.isLabel_of_rawName hhead), if_pos hhead]
      nofun
  | instruction op count operands =>
      have hop : Opcode.ofMnemonic? line.head = some op := by
        rw [(Line.parts_of_tokens htokens).1, op.ofMnemonic?_name]
      rw [Line.statement_of_not_isLabel (Encoding.isLabel_of_ofMnemonic? hop), hop]
      split <;> nofun

/-- A label line is a statement if it holds nothing but a good name. -/
theorem label_iff {name : Text} (hname : line.statement = .label name) :
    IsStatement defines line.tokens ↔ line.tokens.length = 1 ∧ Name.IsName name := by
  have hhead := (line.statement_eq_label_iff name).mp hname
  constructor
  · intro h
    generalize htokens : line.tokens = tokens at h
    cases h with
    | label named =>
        have heq := (Line.parts_of_tokens htokens).1
        rw [hhead, List.cons.injEq] at heq
        exact ⟨rfl, heq.2 ▸ named⟩
    | raw written admissible =>
        have heq := (Line.parts_of_tokens htokens).1
        rw [hhead] at heq
        cases heq
    | instruction op count operands =>
        have heq := (Line.parts_of_tokens htokens).1
        rw [hhead] at heq
        cases op <;> cases heq
  · rintro ⟨hone, hisName⟩
    rcases List.length_eq_one_iff.mp hone with ⟨token, htoken⟩
    have heq := (Line.parts_of_tokens htoken).1
    rw [htoken, ← heq, hhead]
    exact .label hisName

theorem placeable (h : IsStatement defines line.tokens) : line.Placeable :=
  ⟨h.statement_ne_unknown, fun _ hname => (label_iff hname).mp h⟩

/-- Any other line is a statement if it has a meaning. -/
theorem meaning_iff {symbols : SymbolTable} (hlabel : line.isLabel = false) :
    IsStatement symbols.Defines line.tokens ↔ ∃ words, Meaning symbols line.tokens words := by
  constructor
  · intro h
    generalize htokens : line.tokens = tokens at h
    cases h with
    | label named =>
        rw [Line.isLabel_of_head_label (Line.parts_of_tokens htokens).1] at hlabel
        cases hlabel
    | raw written admissible =>
        rcases Term.exists_word (Or.inr admissible) with ⟨w, hw⟩
        exact ⟨[w], .raw written admissible hw⟩
    | instruction op count operands =>
        rename_i rest
        have hwords : ∀ token ∈ rest, ∃ w, ∃ a : Term, a.Written token ∧
            a.IsOperand symbols.Defines ∧ a.word? symbols = some w := by
          intro token htoken
          rcases operands token htoken with ⟨a, ha, hoperand⟩
          rcases Term.exists_word (Or.inl hoperand) with ⟨w, hw⟩
          exact ⟨w, a, ha, hoperand, hw⟩
        rcases (exists_forall₂_iff_forall_mem _).mpr hwords with ⟨words, hwords⟩
        exact ⟨op.word :: words, .instruction op count hwords⟩
  · rintro ⟨words, h⟩
    generalize line.tokens = tokens at h
    cases h with
    | raw written admissible word => exact .raw written admissible
    | instruction op count operands =>
        refine .instruction op count fun token htoken => ?_
        rcases (exists_forall₂_iff_forall_mem _).mp ⟨_, operands⟩ token htoken with
          ⟨w, a, ha, hoperand, _⟩
        exact ⟨a, ha, hoperand⟩

end IsStatement

/-! ### The whole assembly -/

/-- The declarations of a source are accepted exactly if every line that begins with a dot
    declares data, and no name is declared twice. -/
theorem Declaration.extract_ofSource_iff (source : Text) (code : List Line)
    (declarations : List Declaration) :
    extract (Line.ofSource source) = .ok (code, declarations) ↔
      code = (Line.ofSource source).filter (!isDeclaration ·) ∧
        List.Forall₂ Declares ((Line.ofSource source).filter isDeclaration) declarations ∧
        (declarations.map (·.name)).Nodup := by
  have hparse : ∀ line ∈ (Line.ofSource source).filter isDeclaration, ∀ d,
      parse line = .ok d ↔ Declares line d := by
    intro line hline
    rcases List.mem_filter.mp hline with ⟨hmem, hdot⟩
    exact parse_eq_ok_iff (Line.isSolid_of_mem_ofSource hmem) hdot
  rw [extract_eq_ok_iff, parseAll_eq_map_ok_iff, forall₂_congr_of_mem hparse]
  simp only [List.not_mem_nil, false_implies, implies_true, and_true]

/-- Lines of a source are expanded to what they stand for. -/
theorem Shorthand.expand_ofSource_iff {source : Text} {code : List Line}
    (hcode : ∀ line ∈ code, line ∈ Line.ofSource source) (expanded : List Line) :
    expand code = .ok expanded ↔
      ∃ parts, List.Forall₂ Stands code parts ∧ parts.flatten = expanded := by
  have hstands : ∀ line ∈ code, ∀ part, expandIfShorthand line = .ok part ↔ Stands line part :=
    fun line hline => expandIfShorthand_eq_ok_iff (Line.isSolid_of_mem_ofSource (hcode line hline))
  rw [expand_eq_ok_iff]
  exact exists_congr fun parts => and_congr_left fun _ => forall₂_congr_of_mem hstands parts

theorem Declaration.length_flatMap_words (ds : List Declaration) :
    (ds.flatMap words).length = (ds.map (·.count.toNat)).sum := by
  simp only [List.length_flatMap, words, List.length_replicate]

/-- Lines define labels only, so every data name is still free after them. -/
theorem Layout.find?_data_of_foldlM_place {lines : List Line} {layout : Layout}
    (h : lines.foldlM place empty = .ok layout) (name : Text) :
    layout.symbols.find? .data name = none := by
  rw [SymbolTable.find?_eq_none_iff, symbols_of_foldlM_place h]
  rintro s hs ⟨hspace, _⟩
  have hlabel := space_of_mem_labelSymbols (show s ∈ labelSymbols empty.size lines from hs)
  rw [hspace] at hlabel
  cases hlabel

/-- Lines and blocks can be placed in memory exactly if the lines are good, all names are
    different, and everything begins inside memory and fits in it. -/
theorem Layout.exists_placed_iff (lines : List Line) (declarations : List Declaration) :
    (∃ layout final, lines.foldlM place empty = .ok layout ∧
      layout.placeData declarations = .ok final) ↔
      (∀ line ∈ lines, line.Placeable) ∧
      (labelNames lines).Nodup ∧ (declarations.map (·.name)).Nodup ∧
      BeginsInside Line.size (·.isLabel = true) 0 lines ∧
      BeginsInside (·.count.toNat) (fun _ => True) (lines.map Line.size).sum declarations ∧
      (lines.map Line.size).sum + (declarations.map (·.count.toNat)).sum ≤ 32768 := by
  have hsize : ∀ {layout : Layout}, lines.foldlM place empty = .ok layout →
      layout.size = (lines.map Line.size).sum := fun h =>
    (size_of_foldlM_place h).trans (Nat.zero_add _)
  constructor
  · rintro ⟨layout, final, hlines, hdata⟩
    rcases (placeData_eq_ok_iff _ _ _).mp hdata with ⟨hblocks, hfits⟩
    rcases (exists_foldlM_place_iff _ _).mp ⟨layout, hlines⟩ with ⟨hgood, hlabels, _, hinside⟩
    rcases (exists_foldlM_placeBlock_iff _ _).mp ⟨final, hblocks⟩ with ⟨hnames, _, hdataInside⟩
    rw [size_of_foldlM_placeBlock hblocks, Declaration.length_flatMap_words, hsize hlines] at hfits
    exact ⟨hgood, hlabels, hnames, hinside, hsize hlines ▸ hdataInside, hfits⟩
  · rintro ⟨hgood, hlabels, hnames, hinside, hdataInside, hfits⟩
    rcases (exists_foldlM_place_iff empty _).mpr ⟨hgood, hlabels, fun _ _ => rfl, hinside⟩ with
      ⟨layout, hlines⟩
    have hfree : ∀ d ∈ declarations, layout.symbols.find? .data d.name = none :=
      fun d _ => find?_data_of_foldlM_place hlines d.name
    rcases (exists_foldlM_placeBlock_iff _ _).mpr ⟨hnames, hfree, hsize hlines ▸ hdataInside⟩ with
      ⟨final, hblocks⟩
    refine ⟨layout, final, hlines, (placeData_eq_ok_iff _ _ _).mpr ⟨hblocks, ?_⟩⟩
    rw [size_of_foldlM_placeBlock hblocks, Declaration.length_flatMap_words, hsize hlines]
    exact hfits

/-- A source that assembles is right. -/
theorem Passes.inLanguage {source : Text} (t : Passes source) :
    InLanguage source t.declarations t.expanded := by
  rcases (Declaration.extract_ofSource_iff _ _ _).mp t.extracted with ⟨hcode, hdeclares, hnames⟩
  have hmem : ∀ line ∈ t.code, line ∈ Line.ofSource source := fun line hline =>
    (List.mem_filter.mp (hcode ▸ hline)).1
  have hstands := (Shorthand.expand_ofSource_iff hmem _).mp t.expands
  rcases (Layout.exists_placed_iff _ _).mp ⟨t.layout, t.final, t.foldlM_place, t.dataPlaced⟩ with
    ⟨hgood, hlabels, _, hinside, hdataInside, hfits⟩
  have hdefines := Layout.defines_iff t.foldlM_place t.foldlM_placeBlock
  refine ⟨hdeclares, hnames, hcode ▸ hstands, fun line hline => ?_, hlabels, hinside, hdataInside,
    hfits⟩
  rw [← hdefines]
  cases hlabel : line.isLabel with
  | true =>
      rcases line.isLabel_iff.mp hlabel with ⟨name, hname⟩
      exact (IsStatement.label_iff hname).mpr ((hgood line hline).2 name hname)
  | false =>
      have hinstruction : line ∈ t.instructions := by
        rw [t.instructions_eq]
        exact List.mem_filter.mpr ⟨hline, by simp [hlabel]⟩
      exact (IsStatement.meaning_iff hlabel).mpr
        ((exists_forall₂_iff_forall_mem _).mp ⟨_, t.forall₂_meaning⟩ line hinstruction)

/-- A source that is right assembles. -/
theorem InLanguage.exists_passes {source : Text} {declarations : List Declaration}
    {lines : List Line} (h : InLanguage source declarations lines) : Nonempty (Passes source) := by
  have hextract := (Declaration.extract_ofSource_iff _ _ _).mpr ⟨rfl, h.declares, h.dataNames⟩
  have hexpand := (Shorthand.expand_ofSource_iff
    (fun line hline => (List.mem_filter.mp hline).1) _).mpr h.stands
  have hgood : ∀ line ∈ lines, line.Placeable := fun line hline =>
    (h.statements line hline).placeable
  rcases (Layout.exists_placed_iff _ _).mpr
    ⟨hgood, h.labelNames, h.dataNames, h.labelsInside, h.dataInside, h.fits⟩ with
    ⟨layout, final, hlines, hdata⟩
  have hblocks := ((Layout.placeData_eq_ok_iff _ _ _).mp hdata).1
  have hsmall : ∀ s ∈ final.symbols.symbols, s.address.toNat ≤ 32775 := fun s hs =>
    Nat.le_of_lt (Nat.lt_trans (Layout.address_lt_of_placed hlines hblocks hs) (by decide))
  -- Every instruction line has a meaning, so it can be resolved and encoded.
  have hencodes : ∀ line ∈ lines.filter (!·.isLabel), ∃ words, ∃ resolved,
      Reference.resolveLine final.symbols line = .ok resolved ∧
        Encoding.encodeLine resolved = .ok words := by
    intro line hline
    rcases List.mem_filter.mp hline with ⟨hmem, hlabel⟩
    have hstatement := h.statements line hmem
    rw [← Layout.defines_iff hlines hblocks,
      IsStatement.meaning_iff (by simpa using hlabel)] at hstatement
    rcases hstatement with ⟨words, hmeaning⟩
    exact ⟨words, Encoding.exists_encodeLine hsmall hmeaning⟩
  rcases (exists_forall₂_iff_forall_mem _).mpr hencodes with ⟨encoded, hencoded⟩
  rcases (exists_forall₂_iff _ _).mpr hencoded with ⟨resolved, hresolved, hwords⟩
  exact ⟨{
    code := (Line.ofSource source).filter (!Declaration.isDeclaration ·)
    declarations := declarations
    expanded := lines
    instructions := lines.filter (!·.isLabel)
    layout := layout
    final := final
    resolved := resolved
    encoded := encoded
    extracted := hextract
    expands := hexpand
    placed := (Layout.ofLines_eq_ok_iff _ _ _).mpr ⟨rfl, hlines⟩
    dataPlaced := hdata
    resolves := (Reference.resolve_eq_ok_iff _ _ _).mpr hresolved
    encodes := hwords }⟩

/-- The sources that assemble are exactly those that are right. -/
theorem exists_assemble_iff (source : Text) :
    (∃ p, assemble source = .ok p) ↔
      ∃ declarations lines, InLanguage source declarations lines := by
  constructor
  · rintro ⟨p, h⟩
    rcases (assemble_eq_ok_iff source p).mp h with ⟨t, _⟩
    exact ⟨_, _, t.inLanguage⟩
  · rintro ⟨declarations, lines, h⟩
    rcases h.exists_passes with ⟨t⟩
    exact ⟨t.program, (assemble_eq_ok_iff _ _).mpr ⟨t, rfl⟩⟩

end WordMachine
