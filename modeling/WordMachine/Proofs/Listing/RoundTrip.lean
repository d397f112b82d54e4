import WordMachine.Proofs.Listing.Statement

/-!
# Assembling a Listing

A listing assembles to the words it was made from.

The walk over a program and the passes over its listing go through the same
instructions in the same order. Placing the statements of the walk reaches the address
of each instruction just when its labels are placed, so a label gets the address it
was made from; replacing it gives the operand back, and encoding gives the words of the
instruction back. One induction along the walk carries this, with the table of
symbols as what it keeps: after the statements up to an address, the table holds the
labels before that address and no others.

Two things can keep a listing from assembling, and nothing else. An operand word may
encode no operand, and the last instruction may reach beyond the end of memory, where
the walk reads its operands from the bottom and the assembler finds no room. The
options of the listing do not matter.

## Main definitions

* `Machine.Encodable`: All operand words of a program encode operands.

## Theorems

* `Listing.exists_placed`: Placing the statements of a walk.
* `Listing.exists_resolved`: Replacing the labels of a walk.
* `Listing.encodes_iff`: Encoding a walk.
* `assemble_disassemble`: When a listing assembles, and to what.
-/

namespace WordMachine

namespace Machine

/-- All operand words that are read on the walk encode operands. -/
def Encodable (m : Machine) : Prop :=
  ∀ address ∈ m.boundaries, ∀ w ∈ (m.decode (UInt16.ofNat address)).operands, w ≤ Operand.maxWord

theorem statements_of_lt {m : Machine} {start : Nat} (s : Survey) (options : Listing.Options)
    (h : start < m.wordCount) :
    m.statements s options start = (s.labelsAt start).map Target.label ++
      (m.decode (UInt16.ofNat start)).textWith (s.operandText options) ::
        m.statements s options (start + m.sizeAt (UInt16.ofNat start)) := by
  rw [statements, walk_of_lt h, List.flatMap_cons, ← statements, List.append_assoc,
    List.singleton_append]

theorem statements_of_le {m : Machine} {start : Nat} (s : Survey) (options : Listing.Options)
    (h : m.wordCount ≤ start) : m.statements s options start = [] := by
  rw [statements, walk_of_le h, List.flatMap_nil]

end Machine

namespace Listing

/-! ### Placing -/

/-- The labels of one address are placed one after the other. -/
theorem exists_placed_labels {labels targets : List Target} {lines : List Line} (layout : Layout)
    (hlines : lines.map (·.text) = labels.map Target.label)
    (hholds : layout.symbols.Holds targets) (hnodup : (targets ++ labels).Nodup)
    (hlabels : ∀ t ∈ labels, t.address = layout.size) (hsize : layout.size < memorySize) :
    ∃ next, lines.foldlM Layout.place layout = .ok next ∧ next.size = layout.size ∧
      next.symbols.Holds (targets ++ labels) := by
  induction labels generalizing targets lines layout with
  | nil =>
      rw [List.map_nil, List.map_eq_nil_iff] at hlines
      rw [hlines, List.append_nil]
      exact ⟨layout, rfl, rfl, hholds⟩
  | cons t rest ih =>
      rcases List.map_eq_cons_iff.mp hlines with ⟨⟨number, text⟩, lines', rfl, htext, hrest⟩
      change text = t.label at htext
      rw [htext]
      have haddress := hlabels t List.mem_cons_self
      have hnew : t ∉ targets := fun hmem =>
        (List.nodup_append.mp hnodup).2.2 t hmem t List.mem_cons_self rfl
      have hplace := Layout.place_label number hsize haddress
        (SymbolTable.find?_eq_none_of_holds hholds hnew)
      -- The table with the symbol added holds one target more.
      have hholds' : SymbolTable.Holds ⟨layout.symbols.symbols ++
          [Layout.labelSymbol layout.size ⟨number, t.label⟩ t.name]⟩ (targets ++ [t]) := by
        refine List.rel_append hholds (List.Forall₂.cons ⟨rfl, rfl, ?_⟩ List.Forall₂.nil)
        rw [haddress]
        rfl
      rw [List.append_cons] at hnodup ⊢
      rcases ih ⟨_, layout.size⟩ hrest hholds' hnodup
        (fun u hu => hlabels u (List.mem_cons_of_mem _ hu)) hsize with ⟨next, hfold, hnext⟩
      refine ⟨next, ?_, hnext⟩
      rw [List.foldlM_cons, hplace]
      exact hfold

/-- The statements of a walk are placed so that every label gets its address. -/
theorem exists_placed {m : Machine} (s : Survey) (options : Options)
    (hcount : m.wordCount ≤ memorySize) (start : Nat) :
    ∀ (targets : List Target) (lines : List Line) (layout : Layout),
      lines.map (·.text) = m.statements s options start → layout.size = start →
      layout.symbols.Holds targets →
      (targets ++ (m.walk start).flatMap s.labelsAt).Nodup →
      ∃ next, lines.foldlM Layout.place layout = .ok next ∧ next.size = m.walkEnd start ∧
        next.symbols.Holds (targets ++ (m.walk start).flatMap s.labelsAt) := by
  induction start using m.walk_induction with
  | stop start hstop =>
      intro targets lines layout hlines hsize hholds _
      rw [Machine.statements_of_le s options hstop, List.map_eq_nil_iff] at hlines
      rw [hlines, Machine.walk_of_le hstop, Machine.walkEnd_of_le hstop, List.flatMap_nil,
        List.append_nil]
      exact ⟨layout, rfl, hsize, hholds⟩
  | step start hlt ih =>
      intro targets lines layout hlines hsize hholds hnodup
      rw [Machine.statements_of_lt s options hlt] at hlines
      rcases List.map_eq_append_iff.mp hlines with ⟨labelLines, others, rfl, hlabels, hothers⟩
      rcases List.map_eq_cons_iff.mp hothers with ⟨⟨number, text⟩, rest, rfl, htext, hrest⟩
      change text = _ at htext
      rw [htext]
      rw [Machine.walk_of_lt hlt, List.flatMap_cons, ← List.append_assoc] at hnodup ⊢
      rw [Machine.walkEnd_of_lt hlt]
      -- First the labels, then the instruction, then the rest of the walk.
      rcases exists_placed_labels layout hlabels hholds (List.Nodup.of_append_left hnodup)
        (fun t ht => ((s.mem_labelsAt_iff _ _).mp ht).1.trans hsize.symm) (by omega) with
        ⟨labelled, hfold, hlabelledSize, hlabelledHolds⟩
      have hplace := Layout.place_instruction (s.isToken_operandText options)
        (Instruction.wellFormed_decode m.memory (UInt16.ofNat start)) labelled number
      have hnextSize : labelled.size + (m.decode (UInt16.ofNat start)).size =
          start + m.sizeAt (UInt16.ofNat start) := by
        rw [m.size_decode, hlabelledSize, hsize]
      rcases ih _ rest ⟨labelled.symbols, _⟩ hrest hnextSize hlabelledHolds hnodup with
        ⟨next, hfold', hnext⟩
      refine ⟨next, ?_, hnext⟩
      rw [List.foldlM_append]
      refine (bind_eq_ok_iff _ _ _).mpr ⟨labelled, hfold, ?_⟩
      rw [List.foldlM_cons]
      exact (bind_eq_ok_iff _ _ _).mpr ⟨_, hplace, hfold'⟩

/-! ### Replacing labels -/

/-- The lines of a walk that are no labels. -/
theorem text_filter_not_isLabel {m : Machine} {lines : List Line} (s : Survey) (options : Options)
    (start : Nat) (h : lines.map (·.text) = m.statements s options start) :
    (lines.filter (!·.isLabel)).map (·.text) = (m.walk start).map fun address =>
      (m.decode (UInt16.ofNat address)).textWith (s.operandText options) := by
  -- Whether a line is a label is decided by its text.
  have hfilter : (lines.filter (!·.isLabel)).map (·.text) =
      (lines.map (·.text)).filter fun text => !(Line.mk 0 text).isLabel := by
    rw [List.filter_map]
    rfl
  rw [hfilter, h, Machine.statements, List.filter_flatMap, List.map_eq_flatMap]
  refine List.flatMap_congr fun address _ => ?_
  have hlabels : ((s.labelsAt address).map Target.label).filter
      (fun text => !(Line.mk 0 text).isLabel) = [] := by
    refine List.filter_eq_nil_iff.mpr fun text htext => ?_
    rcases List.mem_map.mp htext with ⟨t, _, rfl⟩
    rw [Line.isLabel_of_head_label (t.head_label 0).2]
    exact Bool.false_ne_true
  have hinstruction := (Instruction.statement_textWith (s.isToken_operandText options)
    (m.decode (UInt16.ofNat address)) 0).1
  rw [List.filter_append, hlabels, List.nil_append, List.filter_cons_of_pos (by rw [hinstruction]; rfl),
    List.filter_nil]

/-- A label that an instruction of the walk refers to is one of the labels of the
    walk. -/
theorem mem_labels {m : Machine} {options : Options} {address : Nat} {op : Opcode}
    {x : Role × Word} {t : Target} (haddress : address ∈ m.boundaries)
    (hop : (m.decode (UInt16.ofNat address)).opcode = some op)
    (hx : x ∈ op.roles.zip (m.decode (UInt16.ofNat address)).operands)
    (ht : Target.ofOperand? options op x.1 x.2 = some t) (haligned : t.address ∈ m.boundaries) :
    t ∈ m.boundaries.flatMap (Survey.ofMachine m options).labelsAt := by
  have htargets : t ∈ (m.decode (UInt16.ofNat address)).targets options := by
    rw [Instruction.targets, hop]
    exact List.mem_filterMap.mpr ⟨x, hx, ht⟩
  have hnamed : t ∈ Survey.named m options := List.mem_flatMap.mpr ⟨address, haddress, htargets⟩
  refine List.mem_flatMap.mpr ⟨t.address, haligned, ?_⟩
  exact (Survey.mem_labelsAt_iff _ _ _).mpr ⟨rfl, (Survey.contains_targets_iff _ _ _).mpr hnamed⟩

/-- An operand of an instruction of the walk is replaced by the operand word it was
    written for. -/
theorem resolveToken_operandText {m : Machine} {options : Options} {table : SymbolTable}
    {address : Nat} {op : Opcode} {x : Role × Word} (line : Line)
    (htable : table.Holds (m.boundaries.flatMap (Survey.ofMachine m options).labelsAt))
    (haddress : address ∈ m.boundaries)
    (hop : (m.decode (UInt16.ofNat address)).opcode = some op)
    (hx : x ∈ op.roles.zip (m.decode (UInt16.ofNat address)).operands) :
    Reference.resolveToken table line
        ((Survey.ofMachine m options).operandText options op x.1 x.2) =
      .ok (Operand.wordText x.2) := by
  -- An operand that is not written as a label is replaced by itself.
  have hplain : Reference.resolveToken table line (Operand.wordText x.2) =
      .ok (Operand.wordText x.2) :=
    Reference.resolveToken_of_not_reference table line
      (Operand.startsWith_wordText (by decide) (by decide) _)
      (Operand.startsWith_wordText (by decide) (by decide) _)
  unfold Survey.operandText
  split
  · rename_i t ht
    split
    · rename_i haligned
      have hmem := mem_labels haddress hop hx ht ((Survey.contains_boundaries_iff _ _ _).mp haligned)
      rw [Reference.resolveToken_label line htable hmem, Reference.wordText_of_ofOperand? ht]
    · exact hplain
  · exact hplain

/-- The instruction lines of a listing, once their labels are replaced, are written
    with numbers and registers. -/
theorem exists_resolved {m : Machine} {options : Options} {table : SymbolTable}
    (htable : table.Holds (m.boundaries.flatMap (Survey.ofMachine m options).labelsAt))
    {addresses : List Nat} (haddresses : ∀ address ∈ addresses, address ∈ m.boundaries)
    {lines : List Line}
    (hlines : lines.map (·.text) = addresses.map fun address =>
      (m.decode (UInt16.ofNat address)).textWith ((Survey.ofMachine m options).operandText options)) :
    ∃ resolved, Reference.resolve table lines = .ok resolved ∧
      resolved.map (·.text) = addresses.map fun address =>
        (m.decode (UInt16.ofNat address)).text := by
  simp only [Reference.resolve_eq_ok_iff]
  -- The table is that of the whole walk, so the induction is over any of its addresses.
  induction addresses generalizing lines with
  | nil =>
      rw [List.map_nil, List.map_eq_nil_iff] at hlines
      rw [hlines]
      exact ⟨[], List.Forall₂.nil, rfl⟩
  | cons address rest ih =>
      rcases List.map_eq_cons_iff.mp hlines with ⟨⟨number, text⟩, lines', rfl, htext, hrest⟩
      change text = _ at htext
      rw [htext]
      rcases ih (fun a ha => haddresses a (List.mem_cons_of_mem _ ha)) hrest with
        ⟨resolved, hresolved, htexts⟩
      have hline := Reference.resolveLine_textWith
        ((Survey.ofMachine m options).isToken_operandText options) number fun op hop x hx =>
          resolveToken_operandText _ htable (haddresses address List.mem_cons_self) hop hx
      refine ⟨_ :: resolved, List.Forall₂.cons hline hresolved, ?_⟩
      rw [List.map_cons, List.map_cons, htexts]

/-! ### Encoding -/

/-- Instructions of a walk are encoded exactly when all their operand words encode
    operands, and then in their own words. -/
theorem encodes_iff {m : Machine} {addresses : List Nat} {lines : List Line}
    (hlines : lines.map (·.text) = addresses.map fun address =>
      (m.decode (UInt16.ofNat address)).text) (encoded : List (List Word)) :
    List.Forall₂ (fun line words => Encoding.encodeLine line = .ok words) lines encoded ↔
      (∀ address ∈ addresses, ∀ w ∈ (m.decode (UInt16.ofNat address)).operands,
        w ≤ Operand.maxWord) ∧
      encoded = addresses.map fun address => (m.decode (UInt16.ofNat address)).words := by
  -- One line first, whatever its number.
  have hline : ∀ line words address, line.text = (m.decode (UInt16.ofNat address)).text →
      (Encoding.encodeLine line = .ok words ↔
        (∀ w ∈ (m.decode (UInt16.ofNat address)).operands, w ≤ Operand.maxWord) ∧
          (m.decode (UInt16.ofNat address)).words = words) := by
    rintro ⟨number, text⟩ words address htext
    change text = _ at htext
    rw [htext]
    exact Encoding.encodeLine_text_iff (Instruction.wellFormed_decode m.memory _) number words
  induction addresses generalizing lines encoded with
  | nil =>
      rw [List.map_nil, List.map_eq_nil_iff] at hlines
      rw [hlines]
      simp
  | cons address rest ih =>
      rcases List.map_eq_cons_iff.mp hlines with ⟨line, lines', rfl, htext, hrest⟩
      rw [List.forall₂_cons_left_iff, List.forall_mem_cons, List.map_cons]
      simp only [hline line _ address htext, ih hrest]
      constructor
      · rintro ⟨_, _, ⟨hfirst, rfl⟩, ⟨hothers, rfl⟩, rfl⟩
        exact ⟨⟨hfirst, hothers⟩, rfl⟩
      · rintro ⟨⟨hfirst, hothers⟩, rfl⟩
        exact ⟨_, _, ⟨hfirst, rfl⟩, ⟨hothers, rfl⟩, rfl⟩

/-! ### The whole assembly -/

/-- A listing assembles exactly when its operand words encode operands and its walk
    ends inside memory, and then to the words of the instructions of the walk. -/
theorem exists_assemble_eq_ok_iff (m : Machine) (options : Options)
    (hcount : m.wordCount ≤ memorySize) :
    ∃ symbols, ∀ p, assemble (Text.unlines (disassemble m options)) = .ok p ↔
      (m.Encodable ∧ m.walkEnd 0 ≤ memorySize) ∧
        p = ⟨m.boundaries.flatMap fun address => (m.decode (UInt16.ofNat address)).words,
          m.walkEnd 0, symbols⟩ := by
  -- The passes that cannot fail on a listing, one after the other.
  rcases exists_expanded m options with ⟨code, expanded, hextract, hexpand, htexts⟩
  rcases exists_placed _ options hcount 0 [] expanded Layout.empty htexts rfl
    SymbolTable.holds_empty (Survey.nodup_labels _ m 0) with ⟨layout, hfold, hsize, hholds⟩
  have hplaced : Layout.ofLines expanded = .ok (expanded.filter (!·.isLabel), layout) :=
    (Layout.ofLines_eq_ok_iff _ _ _).mpr ⟨rfl, hfold⟩
  rcases exists_resolved hholds (fun _ h => h) (text_filter_not_isLabel _ options 0 htexts) with
    ⟨resolved, hresolve, hresolvedTexts⟩
  have hwords : (m.boundaries.map fun address => (m.decode (UInt16.ofNat address)).words).flatten ++
      List.flatMap Declaration.words [] =
        m.boundaries.flatMap fun address => (m.decode (UInt16.ofNat address)).words := by
    rw [List.flatMap_nil, List.append_nil, List.flatMap_def]
  refine ⟨layout.symbols.symbols, fun p => ?_⟩
  rw [assemble_eq_ok_iff]
  constructor
  · rintro ⟨⟨code', declarations, expanded', instructions, layout', final, resolved', encoded,
      hextract', hexpand', hplaced', hdata, hresolve', hencodes⟩, rfl⟩
    -- Each pass has only one result, so the record is made of those found above.
    cases hextract.symm.trans hextract'
    cases hexpand.symm.trans hexpand'
    cases hplaced.symm.trans hplaced'
    rcases (Layout.placeData_eq_ok_iff _ _ _).mp hdata with ⟨hfinal, hend⟩
    cases hfinal
    cases hresolve.symm.trans hresolve'
    rcases (encodes_iff hresolvedTexts encoded).mp hencodes with ⟨hencodable, rfl⟩
    refine ⟨⟨hencodable, by rw [← hsize]; exact hend⟩, ?_⟩
    simp only [Passes.program, hsize, hwords]
  · rintro ⟨⟨hencodable, hend⟩, rfl⟩
    have hdata : layout.placeData [] = .ok layout :=
      (Layout.placeData_eq_ok_iff _ _ _).mpr ⟨rfl, by rw [hsize]; exact hend⟩
    refine ⟨{ code, expanded, layout, resolved
              declarations := []
              instructions := expanded.filter (!·.isLabel)
              final := layout
              encoded := _
              extracted := hextract
              expands := hexpand
              placed := hplaced
              dataPlaced := hdata
              resolves := hresolve
              encodes := (encodes_iff hresolvedTexts _).mpr ⟨hencodable, rfl⟩ }, ?_⟩
    simp only [Passes.program, hsize, hwords]

end Listing

/-- Assembling the listing of a program succeeds exactly when every operand word read
    on the walk encodes an operand and the walk ends inside memory. It then gives the
    words of memory up to the end of the walk, and so, where the walk ends with the
    program, a program that was loaded. -/
theorem assemble_disassemble (m : Machine) (options : Listing.Options)
    (hcount : m.wordCount ≤ memorySize) :
    ((∃ p, assemble (Text.unlines (disassemble m options)) = .ok p) ↔
      (∀ address ∈ m.boundaries, ∀ w ∈ (m.decode (UInt16.ofNat address)).operands,
        w ≤ Operand.maxWord) ∧ m.walkEnd 0 ≤ memorySize) ∧
    ∀ p, assemble (Text.unlines (disassemble m options)) = .ok p →
      p.words = m.memory.slice 0 (m.walkEnd 0) ∧ p.words.length = m.walkEnd 0 ∧
      ∀ words, Machine.ofWords words = .ok m → m.walkEnd 0 = m.wordCount → p.words = words := by
  rcases Listing.exists_assemble_eq_ok_iff m options hcount with ⟨symbols, hassemble⟩
  refine ⟨⟨?_, ?_⟩, ?_⟩
  · rintro ⟨p, hp⟩
    exact ((hassemble p).mp hp).1
  · intro h
    exact ⟨_, (hassemble _).mpr ⟨h, rfl⟩⟩
  · intro p hp
    rcases (hassemble p).mp hp with ⟨⟨-, hend⟩, rfl⟩
    -- The words of the walk cover memory up to its end.
    have hwords := m.flatMap_words_walk 0 hend
    rw [Nat.sub_zero] at hwords
    refine ⟨hwords, ?_, fun words hload hwhole => ?_⟩
    · change (List.flatMap _ (m.walk 0)).length = _
      rw [hwords, m.memory.length_slice (by omega)]
    · exact hwords.trans (by rw [hwhole]; exact Machine.slice_of_ofWords hload)

/-- The listing of a jump over nothing, a printed line and a halt, with everything
    shown, assembles to the program. -/
theorem assemble_disassemble_greeting :
    ∃ m p, Machine.ofWords [6, 2, 19, 72, 19, 10, 0] = .ok m ∧ m.wordCount ≤ memorySize ∧
      assemble (Text.unlines (disassemble m .everything)) = .ok p ∧
      p.words = [6, 2, 19, 72, 19, 10, 0] := by
  obtain ⟨m, hload⟩ : ∃ m, Machine.ofWords [6, 2, 19, 72, 19, 10, 0] = .ok m :=
    ⟨_, Machine.ofWords_of_le (by decide)⟩
  rcases Machine.read_of_ofWords hload with ⟨hcount, hread⟩
  change m.wordCount = 7 at hcount
  -- The walk, one instruction after the other.
  have hsizes : 0 + m.sizeAt (UInt16.ofNat 0) = 2 ∧ 2 + m.sizeAt (UInt16.ofNat 2) = 4 ∧
      4 + m.sizeAt (UInt16.ofNat 4) = 6 ∧ 6 + m.sizeAt (UInt16.ofNat 6) = 7 := by
    simp only [Machine.sizeAt, Instruction.sizeAt, hread]
    decide
  rcases hsizes with ⟨h0, h2, h4, h6⟩
  have hwalk : m.boundaries = [0, 2, 4, 6] := by
    rw [Machine.boundaries, Machine.walk_of_lt (by omega), h0, Machine.walk_of_lt (by omega), h2,
      Machine.walk_of_lt (by omega), h4, Machine.walk_of_lt (by omega), h6,
      Machine.walk_of_le (by omega)]
  have hend : m.walkEnd 0 = 7 := by
    rw [Machine.walkEnd_of_lt (by omega), h0, Machine.walkEnd_of_lt (by omega), h2,
      Machine.walkEnd_of_lt (by omega), h4, Machine.walkEnd_of_lt (by omega), h6,
      Machine.walkEnd_of_le (by omega)]
  have hencodable : ∀ address ∈ m.boundaries, ∀ w ∈ (m.decode (UInt16.ofNat address)).operands,
      w ≤ Operand.maxWord := by
    have hall : m.boundaries.all (fun address => (m.decode (UInt16.ofNat address)).operands.all
        (fun w => decide (w ≤ Operand.maxWord))) = true := by
      rw [hwalk]
      simp only [Machine.decode, Instruction.decode, Instruction.operandWords, hread]
      rfl
    simpa only [List.all_eq_true, decide_eq_true_eq] using hall
  have hfit : m.wordCount ≤ memorySize := by
    rw [hcount]
    decide
  rcases assemble_disassemble m .everything hfit with ⟨hiff, hwords⟩
  rcases hiff.mpr ⟨hencodable, by rw [hend]; decide⟩ with ⟨p, hp⟩
  exact ⟨m, p, hload, hfit, hp, (hwords p hp).2.2 _ hload (by rw [hend, hcount])⟩

end WordMachine
