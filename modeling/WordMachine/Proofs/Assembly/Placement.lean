import Mathlib.Algebra.GroupWithZero.Nat
import WordMachine.Proofs.Assembly.Passes

/-!
# Placement

What the fold over the lines of a source leaves behind.

Placing a line has two effects at most: a label adds a symbol whose address is the
size so far, and anything else adds its size. `Layout.place_eq_ok_iff` says exactly
when each happens, and everything about a whole source follows from it by induction
on the lines. The size is the sum of the sizes of the lines, and the table is the
list of labels with the sizes before them.

The address in a symbol is a word, made from a size that is a number. Nothing is
lost, because a label or a block is only placed below the end of memory; the two
theorems on addresses say so for every symbol that a layout adds.

## Main definitions

* `Statement.size`, `Line.size`: The number of words a line is given.
* `Layout.labelSymbols`: The symbols of the labels among some lines.
* `Layout.dataSymbols`: The symbols of some blocks of data.

## Theorems

* `SymbolTable.add_eq_ok_iff`: When a symbol is added.
* `Layout.place_eq_ok_iff`: When a line is placed, and where.
* `Layout.size_of_foldlM_place`, `Layout.symbols_of_foldlM_place`: The layout of a
  source.
* `Layout.foldlM_place_of_forall`: The layout of lines without labels.
* `Layout.size_lt_of_foldlM_place`: A label lies inside memory.
* `Layout.mem_labelSymbols_iff`: The labels of a source.
* `Layout.size_of_foldlM_placeBlock`, `Layout.symbols_of_foldlM_placeBlock`: The
  layout of the data.
* `Layout.size_lt_of_foldlM_placeBlock`: A block begins inside memory.
* `Layout.address_lt_of_placed`: All addresses are inside memory.
-/

namespace WordMachine

namespace SymbolTable

/-- A symbol is added exactly when its name is free, at the end of the table. -/
theorem add_eq_ok_iff (t u : SymbolTable) (s : Symbol) :
    t.add s = .ok u ↔ t.find? s.kind.space s.name = none ∧ u = ⟨t.symbols ++ [s]⟩ := by
  unfold add
  split
  · rename_i existing h
    simp [h]
  · rename_i h
    simp only [h, Except.ok.injEq, true_and]
    exact eq_comm

/-- A name that no symbol has is not found. -/
theorem find?_eq_none_iff (t : SymbolTable) (space : Namespace) (name : Text) :
    t.find? space name = none ↔ ∀ s ∈ t.symbols, ¬ (s.kind.space = space ∧ s.name = name) := by
  unfold find?
  rw [List.find?_eq_none]
  simp only [Symbol.answers, Bool.and_eq_true, beq_iff_eq]

/-- What is found has the name that was looked for, and is in the table. -/
theorem find?_some {t : SymbolTable} {space : Namespace} {name : Text} {s : Symbol}
    (h : t.find? space name = some s) : s ∈ t.symbols ∧ s.kind.space = space ∧ s.name = name := by
  have hanswers := List.find?_some h
  simp only [Symbol.answers, Bool.and_eq_true, beq_iff_eq] at hanswers
  exact ⟨List.mem_of_find?_eq_some h, hanswers⟩

end SymbolTable

/-- The number of words that a statement is given. -/
def Statement.size : Statement → Nat
  | .label _ => 0
  | .raw => 1
  | .instruction op => op.size
  | .unknown => 0

/-- The number of words that a line is given. -/
def Line.size (line : Line) : Nat := line.statement.size

theorem Line.statement_of_head_label {line : Line} {name : Text} (h : line.head = ':' :: name) :
    line.statement = .label name := by
  rw [statement, h]
  rfl

theorem Line.isLabel_of_head_label {line : Line} {name : Text} (h : line.head = ':' :: name) :
    line.isLabel = true := by
  rw [isLabel, h]
  rfl

/-- The statement of a line that is no label, by the table of instructions. -/
theorem Line.statement_of_not_isLabel {line : Line} (h : line.isLabel = false) :
    line.statement =
      if line.head = Opcode.rawName then .raw
      else match Opcode.ofMnemonic? line.head with
        | some op => .instruction op
        | none => .unknown := by
  unfold statement
  split
  · rename_i name hname
    rw [isLabel_of_head_label hname] at h
    cases h
  · rfl

/-- A line is a label line exactly when its statement is a label. -/
theorem Line.isLabel_iff (line : Line) :
    line.isLabel = true ↔ ∃ name, line.statement = .label name := by
  constructor
  · intro h
    cases hhead : line.head with
    | nil =>
        rw [isLabel, hhead] at h
        cases h
    | cons c rest =>
        rw [isLabel, hhead] at h
        have hc : c = ':' := by simpa [Text.startsWith] using h
        rw [hc] at hhead
        exact ⟨rest, statement_of_head_label hhead⟩
  · rintro ⟨name, hname⟩
    by_contra hnot
    rw [statement_of_not_isLabel (Bool.eq_false_iff.mpr hnot)] at hname
    split at hname
    · cases hname
    · split at hname <;> cases hname

/-- A label line is given no words. -/
theorem Line.size_of_isLabel {line : Line} (h : line.isLabel = true) : line.size = 0 := by
  rcases line.isLabel_iff.mp h with ⟨name, hname⟩
  rw [size, hname]
  rfl

namespace Layout

/-- The symbol that a label line adds at an offset. -/
def labelSymbol (offset : Nat) (line : Line) (name : Text) : Symbol :=
  ⟨name, .label, UInt16.ofNat offset, line.number⟩

theorem placeLabel_eq_ok_iff (layout next : Layout) (line : Line) (name : Text) :
    layout.placeLabel line name = .ok next ↔
      layout.size < memorySize ∧ line.tokens.length = 1 ∧ Name.check name = .ok () ∧
        layout.symbols.find? .label name = none ∧
        next = ⟨⟨layout.symbols.symbols ++ [labelSymbol layout.size line name]⟩, layout.size⟩ := by
  unfold placeLabel
  split
  · rename_i hsize
    have hnot : ¬ layout.size < memorySize := by omega
    simp [hnot]
  · rename_i hsize
    have hlt : layout.size < memorySize := by omega
    split
    · rename_i hlength
      simp [hlength]
    · rename_i hlength
      have hone : line.tokens.length = 1 := by omega
      split
      · rename_i reason hcheck
        simp [hcheck]
      · rename_i hcheck
        -- The name is good and stands alone, so the table decides.
        have hadd := SymbolTable.add_eq_ok_iff layout.symbols
          ⟨layout.symbols.symbols ++ [labelSymbol layout.size line name]⟩
          (labelSymbol layout.size line name)
        split
        · rename_i existing herror
          have hsome : layout.symbols.find? .label name ≠ none := by
            intro hnone
            have hok := hadd.mpr ⟨hnone, rfl⟩
            rw [labelSymbol, herror] at hok
            cases hok
          simp [hsome]
        · rename_i symbols hok
          rcases (SymbolTable.add_eq_ok_iff _ _ _).mp hok with ⟨hnone, rfl⟩
          have hfree : layout.symbols.find? .label name = none := hnone
          simp only [hlt, hone, hcheck, hfree, Except.ok.injEq, true_and, labelSymbol]
          exact eq_comm

/-- Placing a line succeeds in two ways: a label with a free name adds its symbol,
    and a line that starts with an instruction or a raw word adds its size. -/
theorem place_eq_ok_iff (layout next : Layout) (line : Line) :
    layout.place line = .ok next ↔
      (∃ name, line.statement = .label name ∧ layout.placeLabel line name = .ok next) ∨
      (line.isLabel = false ∧ line.statement ≠ .unknown ∧
        next = ⟨layout.symbols, layout.size + line.size⟩) := by
  unfold place Line.size
  cases hlabel : line.isLabel with
  | true =>
      rcases line.isLabel_iff.mp hlabel with ⟨name, hname⟩
      simp [hname]
  | false =>
      have hnot : ∀ name, line.statement ≠ .label name := by
        intro name hname
        rw [line.isLabel_iff.mpr ⟨name, hname⟩] at hlabel
        cases hlabel
      cases h : line.statement with
      | label name => exact absurd h (hnot name)
      | raw => simp [Statement.size, eq_comm]
      | instruction op => simp [Statement.size, eq_comm]
      | unknown => simp

/-- The symbols of the labels among some lines, the first of which is at `offset`. -/
def labelSymbols : Nat → List Line → List Symbol
  | _, [] => []
  | offset, line :: rest =>
    match line.statement with
    | .label name => labelSymbol offset line name :: labelSymbols offset rest
    | statement => labelSymbols (offset + statement.size) rest

theorem labelSymbols_cons_label {line : Line} {name : Text} (offset : Nat) (rest : List Line)
    (h : line.statement = .label name) :
    labelSymbols offset (line :: rest) = labelSymbol offset line name :: labelSymbols offset rest := by
  simp only [labelSymbols, h]

theorem labelSymbols_cons_of_not_isLabel {line : Line} (offset : Nat) (rest : List Line)
    (h : line.isLabel = false) :
    labelSymbols offset (line :: rest) = labelSymbols (offset + line.size) rest := by
  unfold Line.size
  cases hs : line.statement with
  | label name =>
      rw [line.isLabel_iff.mpr ⟨name, hs⟩] at h
      cases h
  | raw => simp only [labelSymbols, hs]
  | instruction op => simp only [labelSymbols, hs]
  | unknown => simp only [labelSymbols, hs]

/-- A layout of lines has their sizes on top of the size before them. -/
theorem size_of_foldlM_place {layout final : Layout} {lines : List Line}
    (h : lines.foldlM place layout = .ok final) :
    final.size = layout.size + (lines.map Line.size).sum := by
  -- Along the lines, from whatever layout the ones before them have left.
  induction lines generalizing layout with
  | nil =>
      cases h
      rfl
  | cons line rest ih =>
      rw [List.foldlM_cons] at h
      rcases (bind_eq_ok_iff _ _ _).mp h with ⟨next, hplace, hrest⟩
      rw [ih hrest, List.map_cons, List.sum_cons]
      rcases (place_eq_ok_iff _ _ _).mp hplace with ⟨name, hname, hlabel⟩ | ⟨_, _, rfl⟩
      · rcases (placeLabel_eq_ok_iff _ _ _ _).mp hlabel with ⟨_, _, _, _, rfl⟩
        rw [Line.size_of_isLabel (line.isLabel_iff.mpr ⟨name, hname⟩)]
        dsimp only
        omega
      · dsimp only
        omega

/-- A layout of lines has the symbols of their labels after the symbols before
    them. -/
theorem symbols_of_foldlM_place {layout final : Layout} {lines : List Line}
    (h : lines.foldlM place layout = .ok final) :
    final.symbols.symbols = layout.symbols.symbols ++ labelSymbols layout.size lines := by
  induction lines generalizing layout with
  | nil =>
      cases h
      exact (List.append_nil _).symm
  | cons line rest ih =>
      rw [List.foldlM_cons] at h
      rcases (bind_eq_ok_iff _ _ _).mp h with ⟨next, hplace, hrest⟩
      rw [ih hrest]
      rcases (place_eq_ok_iff _ _ _).mp hplace with ⟨name, hname, hlabel⟩ | ⟨hlabel, _, rfl⟩
      · rcases (placeLabel_eq_ok_iff _ _ _ _).mp hlabel with ⟨_, _, _, _, rfl⟩
        rw [labelSymbols_cons_label _ _ hname, List.append_assoc, List.singleton_append]
      · rw [labelSymbols_cons_of_not_isLabel _ _ hlabel]

/-- Lines that are all instructions or raw words are placed, and add their sizes only. -/
theorem foldlM_place_of_forall {lines : List Line}
    (h : ∀ line ∈ lines, line.isLabel = false ∧ line.statement ≠ .unknown) (layout : Layout) :
    lines.foldlM place layout = .ok ⟨layout.symbols, layout.size + (lines.map Line.size).sum⟩ := by
  induction lines generalizing layout with
  | nil => rfl
  | cons line rest ih =>
      rw [List.forall_mem_cons] at h
      have hplace := (place_eq_ok_iff layout _ line).mpr (Or.inr ⟨h.1.1, h.1.2, rfl⟩)
      rw [List.foldlM_cons, bind_eq_ok_iff]
      refine ⟨_, hplace, ?_⟩
      rw [ih h.2, List.map_cons, List.sum_cons, Nat.add_assoc]

/-- A label lies inside memory: the words before it do not fill it. -/
theorem size_lt_of_foldlM_place {layout final : Layout} {before after : List Line} {line : Line}
    (h : (before ++ line :: after).foldlM place layout = .ok final) (hlabel : line.isLabel = true) :
    layout.size + (before.map Line.size).sum < memorySize := by
  -- Stop the fold at the label: the layout there is as large as the lines before it.
  rw [List.foldlM_append] at h
  rcases (bind_eq_ok_iff _ _ _).mp h with ⟨middle, hbefore, hafter⟩
  rw [List.foldlM_cons] at hafter
  rcases (bind_eq_ok_iff _ _ _).mp hafter with ⟨next, hplace, _⟩
  rw [← size_of_foldlM_place hbefore]
  rcases (place_eq_ok_iff _ _ _).mp hplace with ⟨name, _, hok⟩ | ⟨hnot, _⟩
  · exact ((placeLabel_eq_ok_iff _ _ _ _).mp hok).1
  · rw [hlabel] at hnot
    cases hnot

/-- The labels of some lines: each label line has its symbol, at the words before
    it. -/
theorem mem_labelSymbols_iff (s : Symbol) (offset : Nat) (lines : List Line) :
    s ∈ labelSymbols offset lines ↔
      ∃ before line after name, lines = before ++ line :: after ∧ line.statement = .label name ∧
        s = labelSymbol (offset + (before.map Line.size).sum) line name := by
  induction lines generalizing offset with
  | nil => simp [labelSymbols]
  | cons first rest ih =>
      constructor
      · intro h
        -- A label takes no room, so the rest starts at the same offset.
        cases hlabel : first.isLabel with
        | true =>
            rcases first.isLabel_iff.mp hlabel with ⟨name, hname⟩
            rw [labelSymbols_cons_label _ _ hname] at h
            rcases List.mem_cons.mp h with rfl | h
            · exact ⟨[], first, rest, name, rfl, hname, by simp⟩
            · rcases (ih offset).mp h with ⟨before, line, after, name', rfl, hline, rfl⟩
              refine ⟨first :: before, line, after, name', rfl, hline, ?_⟩
              rw [List.map_cons, List.sum_cons, Line.size_of_isLabel hlabel, Nat.zero_add]
        | false =>
            rw [labelSymbols_cons_of_not_isLabel _ _ hlabel] at h
            rcases (ih _).mp h with ⟨before, line, after, name', rfl, hline, rfl⟩
            refine ⟨first :: before, line, after, name', rfl, hline, ?_⟩
            rw [List.map_cons, List.sum_cons, Nat.add_assoc]
      · rintro ⟨before, line, after, name, hsplit, hname, rfl⟩
        cases before with
        | nil =>
            rw [List.nil_append] at hsplit
            cases hsplit
            rw [labelSymbols_cons_label _ _ hname]
            exact List.mem_cons_self
        | cons b before =>
            rw [List.cons_append] at hsplit
            cases hsplit
            -- The symbol is among those of the rest, whatever the first line is.
            have hrest := (ih (offset + first.size)).mpr ⟨before, line, after, name, rfl, hname,
              by rw [List.map_cons, List.sum_cons, Nat.add_assoc]⟩
            cases hlabel : first.isLabel with
            | true =>
                rcases first.isLabel_iff.mp hlabel with ⟨name', hname'⟩
                rw [labelSymbols_cons_label _ _ hname']
                rw [Line.size_of_isLabel hlabel, Nat.add_zero] at hrest
                exact List.mem_cons_of_mem _ hrest
            | false =>
                rw [labelSymbols_cons_of_not_isLabel _ _ hlabel]
                exact hrest

/-- The symbol of a block of data at an offset. -/
def dataSymbol (offset : Nat) (d : Declaration) : Symbol :=
  ⟨d.name, .data d.value d.count, UInt16.ofNat offset, d.line⟩

/-- The symbols of some blocks, the first of which is at `offset`. -/
def dataSymbols : Nat → List Declaration → List Symbol
  | _, [] => []
  | offset, d :: rest => dataSymbol offset d :: dataSymbols (offset + d.count.toNat) rest

/-- A block is placed exactly when there is room for its first word and its name is
    free. -/
theorem placeBlock_eq_ok_iff (layout next : Layout) (d : Declaration) :
    layout.placeBlock d = .ok next ↔
      layout.size < memorySize ∧ layout.symbols.find? .data d.name = none ∧
        next = ⟨⟨layout.symbols.symbols ++ [dataSymbol layout.size d]⟩,
          layout.size + d.count.toNat⟩ := by
  unfold placeBlock
  split
  · rename_i hsize
    have hnot : ¬ layout.size < memorySize := by omega
    simp [hnot]
  · rename_i hsize
    have hlt : layout.size < memorySize := by omega
    cases hadd : layout.symbols.add
        ⟨d.name, .data d.value d.count, UInt16.ofNat layout.size, d.line⟩ with
    | error existing =>
        -- The table refuses a symbol only if its name is taken.
        have hsome : layout.symbols.find? .data d.name ≠ none := by
          intro hnone
          rw [(SymbolTable.add_eq_ok_iff _ _ _).mpr ⟨hnone, rfl⟩] at hadd
          cases hadd
        simp [hsome]
    | ok symbols =>
        rcases (SymbolTable.add_eq_ok_iff _ _ _).mp hadd with ⟨hnone, rfl⟩
        have hfree : layout.symbols.find? .data d.name = none := hnone
        simp only [hlt, hfree, dataSymbol, Except.ok.injEq, true_and]
        exact eq_comm

/-- A layout of blocks has their words on top of the size before them. -/
theorem size_of_foldlM_placeBlock {layout final : Layout} {ds : List Declaration}
    (h : ds.foldlM placeBlock layout = .ok final) :
    final.size = layout.size + (ds.flatMap Declaration.words).length := by
  induction ds generalizing layout with
  | nil =>
      cases h
      rfl
  | cons d rest ih =>
      rw [List.foldlM_cons] at h
      rcases (bind_eq_ok_iff _ _ _).mp h with ⟨next, hplace, hrest⟩
      rcases (placeBlock_eq_ok_iff _ _ _).mp hplace with ⟨_, _, rfl⟩
      rw [ih hrest, List.flatMap_cons, List.length_append, Declaration.words,
        List.length_replicate, Nat.add_assoc]

/-- A layout of blocks has their symbols after the symbols before them. -/
theorem symbols_of_foldlM_placeBlock {layout final : Layout} {ds : List Declaration}
    (h : ds.foldlM placeBlock layout = .ok final) :
    final.symbols.symbols = layout.symbols.symbols ++ dataSymbols layout.size ds := by
  induction ds generalizing layout with
  | nil =>
      cases h
      exact (List.append_nil _).symm
  | cons d rest ih =>
      rw [List.foldlM_cons] at h
      rcases (bind_eq_ok_iff _ _ _).mp h with ⟨next, hplace, hrest⟩
      rcases (placeBlock_eq_ok_iff _ _ _).mp hplace with ⟨_, _, rfl⟩
      rw [ih hrest, dataSymbols, List.append_assoc, List.singleton_append]

/-- A block begins inside memory: the words before it do not fill it. -/
theorem size_lt_of_foldlM_placeBlock {layout final : Layout} {before after : List Declaration}
    {d : Declaration} (h : (before ++ d :: after).foldlM placeBlock layout = .ok final) :
    layout.size + (before.flatMap Declaration.words).length < memorySize := by
  rw [List.foldlM_append] at h
  rcases (bind_eq_ok_iff _ _ _).mp h with ⟨middle, hbefore, hafter⟩
  rw [List.foldlM_cons] at hafter
  rcases (bind_eq_ok_iff _ _ _).mp hafter with ⟨next, hplace, _⟩
  rw [← size_of_foldlM_placeBlock hbefore]
  exact ((placeBlock_eq_ok_iff _ _ _).mp hplace).1

/-- The symbols of some blocks: each block has its symbol, at the words before it. -/
theorem mem_dataSymbols {s : Symbol} {offset : Nat} {ds : List Declaration}
    (h : s ∈ dataSymbols offset ds) :
    ∃ before d after, ds = before ++ d :: after ∧
      s = dataSymbol (offset + (before.flatMap Declaration.words).length) d := by
  induction ds generalizing offset with
  | nil => exact absurd h List.not_mem_nil
  | cons d rest ih =>
      rcases List.mem_cons.mp h with rfl | h
      · exact ⟨[], d, rest, rfl, rfl⟩
      · rcases ih h with ⟨before, d', after, rfl, rfl⟩
        refine ⟨d :: before, d', after, rfl, ?_⟩
        rw [List.flatMap_cons, List.length_append, Declaration.words, List.length_replicate,
          Nat.add_assoc]

/-- Labels and blocks that were placed have addresses inside memory. -/
theorem address_lt_of_placed {layout final : Layout} {lines : List Line} {ds : List Declaration}
    (hlines : lines.foldlM place empty = .ok layout)
    (hdata : ds.foldlM placeBlock layout = .ok final) {s : Symbol}
    (hs : s ∈ final.symbols.symbols) : s.address.toNat < memorySize := by
  have haddress : ∀ n, n < memorySize → (UInt16.ofNat n).toNat < memorySize := by
    intro n hn
    rw [UInt16.toNat_ofNat_of_lt' (Nat.lt_trans hn (by decide))]
    exact hn
  rw [symbols_of_foldlM_placeBlock hdata, symbols_of_foldlM_place hlines] at hs
  rcases List.mem_append.mp hs with hs | hs
  · rcases (mem_labelSymbols_iff _ _ _).mp hs with ⟨before, line, after, name, rfl, hname, rfl⟩
    exact haddress _ (size_lt_of_foldlM_place hlines (line.isLabel_iff.mpr ⟨name, hname⟩))
  · rcases mem_dataSymbols hs with ⟨before, d, after, rfl, rfl⟩
    exact haddress _ (size_lt_of_foldlM_placeBlock hdata)

end Layout

end WordMachine
