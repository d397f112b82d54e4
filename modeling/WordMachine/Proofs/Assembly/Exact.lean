import WordMachine.Proofs.Assembly.Words
import WordMachine.Proofs.Loading

/-!
# Exact Layout

The layout of an assembled program is the layout of its words.

Labels are placed by counting sizes from the first words of lines, before any operand
is read, and the words themselves are made two passes later, from lines that have
been rewritten in between. `Passes.Exact` says that the two agree everywhere: every
line is encoded in as many words as were counted for it, every label is the number
of words encoded before it, the blocks of data follow the code without a gap and hold
what was declared, and every address is small enough to be written as an operand that
means that address and not a register.

The first of these is a fact about single lines (`Encoding.size_eq_length`). The
others follow from it by adding up, since the layout adds up the sizes of lines and
the program is the concatenation of what the lines are encoded in.

## Main definitions

* `Symbol.block`: The words that a symbol stands for.
* `Symbol.Consecutive`: Symbols whose blocks lie one after the other.
* `Passes.wordsBefore`: The number of words encoded for the instructions among the
  first lines.
* `Passes.Exact`: The layout of a program is that of its words.

## Theorems

* `Passes.sum_size_eq`: The sizes counted for lines are the words encoded for them.
* `Passes.codeSize_eq_length`, `Passes.length_words_le`: The size of the code and of
  the program.
* `Passes.address_lt`: Every address lies inside memory.
* `Layout.consecutive_dataSymbols`: The blocks of data lie one after the other.
* `assemble_layout_exact`: Every program that is assembled has an exact layout.
-/

namespace WordMachine

/-- The words that a symbol stands for: the block of a data symbol, and none for a
    label. -/
def Symbol.block (s : Symbol) : List Word :=
  match s.kind with
  | .label => []
  | .data value count => List.replicate count.toNat value

/-- Symbols whose blocks lie one after the other, from `start` on and up to `stop`. -/
def Symbol.Consecutive : Nat → List Symbol → Nat → Prop
  | start, [], stop => start = stop
  | start, s :: rest, stop =>
    s.address.toNat = start ∧ Consecutive (start + s.block.length) rest stop

namespace Passes

variable {source : Text}

/-- The number of words encoded for the instruction lines among `lines`, which are the
    first lines of the expanded source. -/
def wordsBefore (t : Passes source) (lines : List Line) : Nat :=
  (t.encoded.take (lines.countP (!·.isLabel))).flatten.length

/-- The layout of a program is the layout of its words. -/
structure Exact (t : Passes source) : Prop where
  /-- Wherever an instruction line is placed, it is given as many words as it is
      encoded in. -/
  sizes : List.Forall₂ (fun line words => ∀ layout : Layout,
    layout.place line = .ok { layout with size := layout.size + words.length })
    t.instructions t.encoded
  /-- The size counted for the code is the number of words it is encoded in. -/
  codeSize : t.program.codeSize = t.encoded.flatten.length
  /-- The program fits in memory. -/
  fits : t.program.words.length ≤ memorySize
  /-- The bytes are those of the words. -/
  bytes : t.program.bytes = Word.toBytes t.program.words
  /-- The bytes are loaded, and the machine holds the words from address zero on. -/
  loads : ∃ m, Machine.ofBytes t.program.bytes = .ok m ∧
    m.wordCount = t.program.words.length ∧ m.memory.slice 0 m.wordCount = t.program.words
  /-- The labels are the label lines, each with the number of words before it. -/
  labels : ∀ s : Symbol, s ∈ t.program.symbols ∧ s.kind = .label ↔
    ∃ before line after, t.expanded = before ++ line :: after ∧ line.statement = .label s.name ∧
      s.kind = .label ∧ s.line = line.number ∧ s.address.toNat = t.wordsBefore before
  /-- The data symbols are the declarations, in their order. -/
  declared : (t.program.symbols.filter (·.kind.space = .data)).map (fun s =>
      (s.name, s.kind, s.line)) = t.declarations.map fun d => (d.name, .data d.value d.count, d.line)
  /-- Their blocks lie one after the other, from the end of the code to the end of the
      program. -/
  consecutive : Symbol.Consecutive t.program.codeSize
    (t.program.symbols.filter (·.kind.space = .data)) t.program.words.length
  /-- The block of a symbol stands at its address. -/
  blocks : ∀ s ∈ t.program.symbols,
    (t.program.words.drop s.address.toNat).take s.block.length = s.block
  /-- Every address lies inside memory, so as an operand it means itself. -/
  addresses : ∀ s ∈ t.program.symbols, s.address.toNat < memorySize ∧
    Operand.ofWord? s.address = some (.literal s.address)
  /-- The operand words of an instruction line are its last words, and every reference
      among its operands is the address of its symbol, as a literal. -/
  references : List.Forall₂ (fun line words => ∃ front operands, words = front ++ operands ∧
    List.Forall₂ (fun token w => Reference.IsReference token →
      ∃ s, Reference.symbol? t.final.symbols token = some s ∧ s ∈ t.program.symbols ∧
        w = s.address ∧ Operand.ofWord? w = some (.literal s.address))
      line.operands operands) t.instructions t.encoded

/-! ### Sizes -/

theorem instructions_eq (t : Passes source) :
    t.instructions = t.expanded.filter (!·.isLabel) :=
  ((Layout.ofLines_eq_ok_iff _ _ _).mp t.placed).1

theorem foldlM_place (t : Passes source) :
    t.expanded.foldlM Layout.place Layout.empty = .ok t.layout :=
  ((Layout.ofLines_eq_ok_iff _ _ _).mp t.placed).2

theorem foldlM_placeBlock (t : Passes source) :
    t.declarations.foldlM Layout.placeBlock t.layout = .ok t.final :=
  ((Layout.placeData_eq_ok_iff _ _ _).mp t.dataPlaced).1

/-- What the last two passes make of each instruction line. -/
theorem forall₂_encoded (t : Passes source) :
    List.Forall₂ (fun line words => ∃ resolved,
      Reference.resolveLine t.final.symbols line = .ok resolved ∧
        Encoding.encodeLine resolved = .ok words) t.instructions t.encoded :=
  (exists_forall₂_iff _ _).mp
    ⟨t.resolved, (Reference.resolve_eq_ok_iff _ _ _).mp t.resolves, t.encodes⟩

/-- An instruction line is given as many words as it is encoded in. -/
theorem forall₂_size (t : Passes source) :
    List.Forall₂ (fun line words => line.isLabel = false ∧ line.statement ≠ .unknown ∧
      line.size = words.length) t.instructions t.encoded := by
  refine t.forall₂_encoded.imp fun line words => ?_
  rintro ⟨resolved, hresolve, hencode⟩
  exact Encoding.size_of_resolveLine hresolve hencode

/-- Labels take no room, so only instruction lines count. -/
theorem sum_size_filter (lines : List Line) :
    ((lines.filter (!·.isLabel)).map Line.size).sum = (lines.map Line.size).sum := by
  induction lines with
  | nil => rfl
  | cons line rest ih =>
      cases hlabel : line.isLabel with
      | true =>
          rw [List.filter_cons_of_neg (by simp [hlabel]), ih, List.map_cons, List.sum_cons,
            Line.size_of_isLabel hlabel, Nat.zero_add]
      | false =>
          rw [List.filter_cons_of_pos (by simp [hlabel]), List.map_cons, List.sum_cons, ih,
            List.map_cons, List.sum_cons]

/-- Lines that are encoded one by one have as many words as their sizes add up to. -/
theorem sum_size_of_forall₂ {lines : List Line} {encoded : List (List Word)}
    (h : List.Forall₂ (fun line words => line.isLabel = false ∧ line.statement ≠ .unknown ∧
      line.size = words.length) lines encoded) :
    (lines.map Line.size).sum = encoded.flatten.length := by
  induction h with
  | nil => rfl
  | cons hline _ ih =>
      rw [List.map_cons, List.sum_cons, List.flatten_cons, List.length_append, ih, hline.2.2]

/-- The sizes counted for the first lines are the words encoded for them. -/
theorem sum_size_eq (t : Passes source) {before after : List Line}
    (h : t.expanded = before ++ after) :
    (before.map Line.size).sum = t.wordsBefore before := by
  have hsplit : t.instructions = before.filter (!·.isLabel) ++ after.filter (!·.isLabel) := by
    rw [t.instructions_eq, h, List.filter_append]
  -- The instructions among the first lines are the first instructions.
  have htake := List.forall₂_take (before.countP (!·.isLabel)) t.forall₂_size
  rw [hsplit, List.countP_eq_length_filter, List.take_left' rfl] at htake
  rw [← sum_size_filter, sum_size_of_forall₂ htake, wordsBefore, List.countP_eq_length_filter]

theorem codeSize_eq_length (t : Passes source) :
    t.program.codeSize = t.encoded.flatten.length := by
  have hsize := Layout.size_of_foldlM_place t.foldlM_place
  rw [← sum_size_filter, ← t.instructions_eq, sum_size_of_forall₂ t.forall₂_size] at hsize
  exact hsize.trans (Nat.zero_add _)

theorem length_words (t : Passes source) :
    t.program.words.length =
      t.program.codeSize + (t.declarations.flatMap Declaration.words).length := by
  rw [t.codeSize_eq_length, program, List.length_append]

theorem length_words_le (t : Passes source) : t.program.words.length ≤ memorySize := by
  have hsize := Layout.size_of_foldlM_placeBlock t.foldlM_placeBlock
  have hle := ((Layout.placeData_eq_ok_iff _ _ _).mp t.dataPlaced).2
  rw [t.length_words]
  exact hsize ▸ hle

/-! ### Symbols -/

/-- The table of a program: the labels, and the blocks of data from the end of the code
    on. -/
theorem symbols_eq (t : Passes source) :
    t.program.symbols =
      Layout.labelSymbols 0 t.expanded ++ Layout.dataSymbols t.program.codeSize t.declarations := by
  have hlabels := Layout.symbols_of_foldlM_place t.foldlM_place
  have hdata := Layout.symbols_of_foldlM_placeBlock t.foldlM_placeBlock
  rw [hlabels] at hdata
  exact hdata

/-- The number of words before a label line is the address in its symbol. -/
theorem address_of_label (t : Passes source) {before after : List Line} {line : Line}
    (h : t.expanded = before ++ line :: after) (hlabel : line.isLabel = true) (name : Text) :
    (Layout.labelSymbol (0 + (before.map Line.size).sum) line name).address.toNat =
        t.wordsBefore before ∧
      t.wordsBefore before < memorySize := by
  have hlt : Layout.empty.size + (before.map Line.size).sum < memorySize :=
    Layout.size_lt_of_foldlM_place (h ▸ t.foldlM_place) hlabel
  rw [← t.sum_size_eq h]
  have hsum : (before.map Line.size).sum < memorySize := by
    rwa [show Layout.empty.size = 0 from rfl, Nat.zero_add] at hlt
  refine ⟨?_, hsum⟩
  rw [Nat.zero_add]
  exact UInt16.toNat_ofNat_of_lt' (Nat.lt_trans hsum (by decide))

/-- The words before a block of data are the address in its symbol. -/
theorem address_of_data (t : Passes source) {before after : List Declaration} {d : Declaration}
    (h : t.declarations = before ++ d :: after) :
    t.program.codeSize + (before.flatMap Declaration.words).length < memorySize ∧
      (UInt16.ofNat (t.program.codeSize + (before.flatMap Declaration.words).length)).toNat =
        t.program.codeSize + (before.flatMap Declaration.words).length := by
  have hlt : t.program.codeSize + (before.flatMap Declaration.words).length < memorySize :=
    Layout.size_lt_of_foldlM_placeBlock (h ▸ t.foldlM_placeBlock)
  exact ⟨hlt, UInt16.toNat_ofNat_of_lt' (Nat.lt_trans hlt (by decide))⟩

/-- Every symbol is that of a label line or that of a declaration. -/
theorem symbol_cases (t : Passes source) {s : Symbol} (h : s ∈ t.program.symbols) :
    (∃ before line after name, t.expanded = before ++ line :: after ∧
      line.statement = .label name ∧
      s = Layout.labelSymbol (0 + (before.map Line.size).sum) line name) ∨
    (∃ before d after, t.declarations = before ++ d :: after ∧
      s = Layout.dataSymbol
        (t.program.codeSize + (before.flatMap Declaration.words).length) d) := by
  rw [t.symbols_eq] at h
  rcases List.mem_append.mp h with h | h
  · exact Or.inl ((Layout.mem_labelSymbols_iff _ _ _).mp h)
  · exact Or.inr (Layout.mem_dataSymbols h)

/-- Every address lies inside memory. -/
theorem address_lt (t : Passes source) {s : Symbol} (h : s ∈ t.program.symbols) :
    s.address.toNat < memorySize :=
  Layout.address_lt_of_placed t.foldlM_place t.foldlM_placeBlock h

/-- The labels are the label lines, each with the number of words before it. -/
theorem label_iff (t : Passes source) (s : Symbol) :
    s ∈ t.program.symbols ∧ s.kind = .label ↔
      ∃ before line after, t.expanded = before ++ line :: after ∧ line.statement = .label s.name ∧
        s.kind = .label ∧ s.line = line.number ∧ s.address.toNat = t.wordsBefore before := by
  constructor
  · rintro ⟨hmem, hkind⟩
    rcases t.symbol_cases hmem with ⟨before, line, after, name, hsplit, hname, rfl⟩ |
      ⟨before, d, after, hsplit, rfl⟩
    · have haddress := t.address_of_label hsplit (line.isLabel_iff.mpr ⟨name, hname⟩) name
      exact ⟨before, line, after, hsplit, hname, rfl, rfl, haddress.1⟩
    · cases hkind
  · rintro ⟨before, line, after, hsplit, hname, hkind, hline, haddress⟩
    refine ⟨?_, hkind⟩
    rw [t.symbols_eq]
    refine List.mem_append_left _ ((Layout.mem_labelSymbols_iff _ _ _).mpr
      ⟨before, line, after, s.name, hsplit, hname, ?_⟩)
    have hsymbol := (t.address_of_label hsplit (line.isLabel_iff.mpr ⟨_, hname⟩) s.name).1
    -- Equal numbers are equal words, and the other parts are given.
    rw [← haddress, UInt16.toNat_inj] at hsymbol
    cases s
    cases hkind
    cases hline
    exact congrArg (fun a => Symbol.mk _ .label a _) hsymbol.symm

end Passes

namespace Layout

theorem space_of_mem_labelSymbols {s : Symbol} {offset : Nat} {lines : List Line}
    (h : s ∈ labelSymbols offset lines) : s.kind.space = .label := by
  rcases (mem_labelSymbols_iff _ _ _).mp h with ⟨_, _, _, _, _, _, rfl⟩
  rfl

theorem space_of_mem_dataSymbols {s : Symbol} {offset : Nat} {ds : List Declaration}
    (h : s ∈ dataSymbols offset ds) : s.kind.space = .data := by
  rcases mem_dataSymbols h with ⟨_, _, _, _, rfl⟩
  rfl

/-- The blocks of some declarations lie one after the other, if they begin inside
    memory. -/
theorem consecutive_dataSymbols {offset : Nat} {ds : List Declaration}
    (h : ∀ before d after, ds = before ++ d :: after →
      offset + (before.flatMap Declaration.words).length < memorySize) :
    Symbol.Consecutive offset (dataSymbols offset ds)
      (offset + (ds.flatMap Declaration.words).length) := by
  induction ds generalizing offset with
  | nil => rfl
  | cons d rest ih =>
      have hfirst : offset < memorySize := by simpa using h [] d rest rfl
      have hlength : d.words.length = d.count.toNat := List.length_replicate
      refine ⟨UInt16.toNat_ofNat_of_lt' (Nat.lt_trans hfirst (by decide)), ?_⟩
      -- The other blocks begin inside memory, counted from the end of the first.
      have hafter : ∀ before d' after, rest = before ++ d' :: after →
          offset + d.count.toNat + (before.flatMap Declaration.words).length < memorySize := by
        intro before d' after hsplit
        have hlt := h (d :: before) d' after (by rw [hsplit]; rfl)
        rw [List.flatMap_cons, List.length_append, hlength] at hlt
        omega
      have hrest := ih hafter
      rw [List.flatMap_cons, List.length_append, hlength, ← Nat.add_assoc]
      exact (show (dataSymbol offset d).block.length = d.count.toNat from hlength) ▸ hrest

/-- The symbols of some declarations are the declarations, in their order. -/
theorem map_dataSymbols (offset : Nat) (ds : List Declaration) :
    (dataSymbols offset ds).map (fun s => (s.name, s.kind, s.line)) =
      ds.map fun d => (d.name, .data d.value d.count, d.line) := by
  induction ds generalizing offset with
  | nil => rfl
  | cons d rest ih => rw [dataSymbols, List.map_cons, List.map_cons, ih, dataSymbol]

end Layout

namespace Passes

variable {source : Text}

/-- The data symbols of a program. -/
theorem filter_symbols (t : Passes source) :
    t.program.symbols.filter (·.kind.space = .data) =
      Layout.dataSymbols t.program.codeSize t.declarations := by
  have hlabels : (Layout.labelSymbols 0 t.expanded).filter (·.kind.space = .data) = [] := by
    refine List.filter_eq_nil_iff.mpr fun s hs => ?_
    rw [Layout.space_of_mem_labelSymbols hs]
    decide
  have hdata : (Layout.dataSymbols t.program.codeSize t.declarations).filter
      (·.kind.space = .data) = Layout.dataSymbols t.program.codeSize t.declarations := by
    refine List.filter_eq_self.mpr fun s hs => ?_
    rw [Layout.space_of_mem_dataSymbols hs]
    decide
  rw [t.symbols_eq, List.filter_append, hlabels, hdata, List.nil_append]

/-- The block of a symbol stands at its address. -/
theorem block_at_address (t : Passes source) {s : Symbol} (h : s ∈ t.program.symbols) :
    (t.program.words.drop s.address.toNat).take s.block.length = s.block := by
  rcases t.symbol_cases h with ⟨before, line, after, name, _, _, rfl⟩ |
    ⟨before, d, after, hsplit, rfl⟩
  · -- A label stands for no words.
    exact List.take_zero
  · -- Cut the program where the block begins.
    have hwords : t.program.words =
        (t.encoded.flatten ++ before.flatMap Declaration.words) ++
          (d.words ++ after.flatMap Declaration.words) := by
      rw [program, hsplit, List.flatMap_append, List.flatMap_cons]
      simp only [List.append_assoc]
    have haddress : (Layout.dataSymbol
        (t.program.codeSize + (before.flatMap Declaration.words).length) d).address.toNat =
        (t.encoded.flatten ++ before.flatMap Declaration.words).length := by
      rw [List.length_append, ← t.codeSize_eq_length]
      exact (t.address_of_data hsplit).2
    rw [haddress, hwords, List.drop_left]
    exact List.take_left

/-- An address inside memory is an operand that means itself. -/
theorem ofWord?_address (t : Passes source) {s : Symbol} (h : s ∈ t.program.symbols) :
    Operand.ofWord? s.address = some (.literal s.address) := by
  have hlt : s.address < Operand.registerBase := UInt16.lt_iff_toNat_lt.mpr (t.address_lt h)
  rw [Operand.ofWord?, if_pos hlt]

/-- A reference is encoded as the address of its symbol. -/
theorem references_encoded (t : Passes source) :
    List.Forall₂ (fun line words => ∃ front operands, words = front ++ operands ∧
      List.Forall₂ (fun token w => Reference.IsReference token →
        ∃ s, Reference.symbol? t.final.symbols token = some s ∧ s ∈ t.program.symbols ∧
          w = s.address ∧ Operand.ofWord? w = some (.literal s.address))
        line.operands operands) t.instructions t.encoded := by
  refine t.forall₂_encoded.imp fun line words => ?_
  rintro ⟨resolved, hresolve, hencode⟩
  rcases Encoding.exists_operand_words hencode with ⟨front, operands, rfl, hwords⟩
  refine ⟨front, operands, rfl, ?_⟩
  -- Operand, replacement and word stand at the same place of their lists.
  have htexts := (Reference.parts_of_resolveLine hresolve).2
  rw [List.forall₂_iff_get] at htexts hwords ⊢
  rcases htexts with ⟨hlength, htexts⟩
  rcases hwords with ⟨hlength', hwords⟩
  refine ⟨hlength.trans hlength', fun i hi hi' htoken => ?_⟩
  rcases Encoding.exists_symbol_of_isReference htoken (htexts i hi (by omega))
    (hwords i (by omega) hi') with ⟨s, hs, hw⟩
  have hmem : s ∈ t.program.symbols := Reference.mem_of_symbol? hs
  rw [hw]
  exact ⟨s, hs, hmem, rfl, t.ofWord?_address hmem⟩

/-- Every instruction line is placed by the size of what it is encoded in. -/
theorem sizes_counted (t : Passes source) :
    List.Forall₂ (fun line words => ∀ layout : Layout,
      layout.place line = .ok { layout with size := layout.size + words.length })
      t.instructions t.encoded := by
  refine t.forall₂_size.imp fun line words => ?_
  rintro ⟨hlabel, hknown, hsize⟩ layout
  rw [← hsize]
  exact (Layout.place_eq_ok_iff _ _ _).mpr (Or.inr ⟨hlabel, hknown, rfl⟩)

/-- The passes of an assembly leave an exact layout. -/
theorem exact (t : Passes source) : t.Exact where
  sizes := t.sizes_counted
  codeSize := t.codeSize_eq_length
  fits := t.length_words_le
  bytes := rfl
  loads := ⟨_, Machine.ofBytes_toBytes t.length_words_le, rfl, Memory.slice_image t.length_words_le⟩
  labels := t.label_iff
  declared := by
    rw [t.filter_symbols, Layout.map_dataSymbols]
  consecutive := by
    rw [t.filter_symbols, t.length_words]
    exact Layout.consecutive_dataSymbols fun before d after hsplit => (t.address_of_data hsplit).1
  blocks := fun _ hs => t.block_at_address hs
  addresses := fun _ hs => ⟨t.address_lt hs, t.ofWord?_address hs⟩
  references := t.references_encoded

end Passes

/-- Every program that is assembled has an exact layout. -/
theorem assemble_layout_exact {source : Text} {p : Program} (h : assemble source = .ok p) :
    ∃ t : Passes source, t.program = p ∧ t.Exact := by
  rcases (assemble_eq_ok_iff source p).mp h with ⟨t, ht⟩
  exact ⟨t, ht, t.exact⟩

/-- A shorthand, a label and a block of data in one source. -/
theorem layout_exact_of_mixed_source :
    assemble "!print `A`\n:a\nJMP :a\n.b 7 2\nSET r0 .b".toList =
        .ok ⟨[19, 65, 6, 2, 1, 32768, 7, 7, 7], 7,
          [⟨['a'], .label, 2, 2⟩, ⟨['b'], .data 7 2, 7, 4⟩]⟩ ∧
      ∃ t : Passes "!print `A`\n:a\nJMP :a\n.b 7 2\nSET r0 .b".toList,
        t.program = ⟨[19, 65, 6, 2, 1, 32768, 7, 7, 7], 7,
          [⟨['a'], .label, 2, 2⟩, ⟨['b'], .data 7 2, 7, 4⟩]⟩ ∧ t.Exact :=
  ⟨rfl, assemble_layout_exact rfl⟩

end WordMachine
