import WordMachine.Proofs.Assembly.Meaning
import WordMachine.Proofs.Listing.Source

/-!
# Desugaring

Symbols, shorthands and data are a convenience: every source that assembles can be written
without them.

`desugar` writes the instruction lines of an expanded source with numbers in place of
names, and the data as raw words after them. What makes it work is that an address is a
number that means itself, and that a line means the same words under any table once it
names no symbol (`Meaning.desugar`). The rest is about plain sources, which consist of
such lines only: nothing is declared, nothing expands and nothing is defined, so the
passes that remain go line by line (`assemble_of_meaning`).

## Main definitions

* `Reference.replace`: An operand with a number in place of a name.
* `Line.desugar`: A line with numbers in place of names.
* `Symbol.rawLines`: A block of data as raw words.
* `desugar`: A source without symbols, shorthands and data.

## Theorems

* `assemble_of_meaning`: What a plain source assembles to.
* `Meaning.desugar`: A line means the same without names.
* `assemble_desugar`: A source and its plain form assemble to the same words.
-/

namespace WordMachine

/-- An operand with the address of its symbol in place of a reference. -/
def Reference.replace (symbols : SymbolTable) (token : Text) : Text :=
  match symbol? symbols token with
  | some s => Decimal.writeWord s.address
  | none => token

/-- A line with addresses in place of references. -/
def Line.desugar (symbols : SymbolTable) (line : Line) : Text :=
  Text.unwords (line.head :: line.operands.map (Reference.replace symbols))

/-- A raw word as a line of source. -/
def rawLine (w : Word) : Text := Text.unwords [Opcode.rawName, Decimal.writeWord w]

/-- The block of a symbol as raw words. A label has none. -/
def Symbol.rawLines (s : Symbol) : List Text := s.block.map rawLine

/-- A source without symbols, shorthands and data: the instructions among some lines, with
    addresses in place of references, and the blocks of the symbols in the order of the
    table. -/
def desugar (symbols : SymbolTable) (lines : List Line) : Text :=
  Text.unlines ((lines.filter (!·.isLabel)).map (Line.desugar symbols) ++
    symbols.symbols.flatMap Symbol.rawLines)

/-! ### Plain sources -/

/-- A line that has a meaning begins with none of the characters that mark other lines. -/
theorem Meaning.startsWith {symbols : SymbolTable} {line : Line} {words : List Word}
    (h : Meaning symbols line.tokens words) (hsolid : Text.IsSolid line.text) {c : Char}
    (hc : c ∈ ['#', '.', '!']) : Text.startsWith c line.text = false := by
  rw [← Line.startsWith_head hsolid]
  generalize htokens : line.tokens = tokens at h
  simp only [List.mem_cons, List.not_mem_nil, or_false] at hc
  cases h with
  | raw written admissible word =>
      rw [(Line.parts_of_tokens htokens).1]
      rcases hc with rfl | rfl | rfl <;> rfl
  | instruction op count operands =>
      rw [(Line.parts_of_tokens htokens).1]
      rcases hc with rfl | rfl | rfl <;> cases op <;> rfl

/-- Lines without shorthands are all kept. -/
theorem Shorthand.expand_of_forall_not {lines : List Line}
    (h : ∀ line ∈ lines, isShorthand line = false) : expand lines = .ok lines := by
  refine (expand_eq_ok_iff _ _).mpr ⟨lines.map ([·]), ?_, ?_⟩
  · rw [List.forall₂_map_right_iff, List.forall₂_same]
    intro line hline
    rw [expandIfShorthand, h line hline]
    rfl
  · rw [← List.flatMap_def, List.flatMap_singleton']

/-- A source whose lines all have a meaning without any symbols assembles to what they
    mean, if that fits in memory. -/
theorem assemble_of_meaning {texts : List Text} {encoded : List (List Word)}
    (hlines : ∀ text ∈ texts, Text.IsLine text)
    (h : List.Forall₂ (fun text words => Meaning .empty (Text.words text) words) texts encoded)
    (hfit : encoded.flatten.length ≤ memorySize) :
    assemble (Text.unlines texts) = .ok ⟨encoded.flatten, encoded.flatten.length, []⟩ := by
  have hstarts : ∀ text ∈ texts, ∀ c ∈ ['#', '.', '!'], Text.startsWith c text = false := by
    intro text htext c hc
    rcases (exists_forall₂_iff_forall_mem _).mp ⟨_, h⟩ text htext with ⟨words, hwords⟩
    have hmeaning : Meaning .empty (Line.mk 0 text).tokens words := hwords
    exact hmeaning.startsWith (hlines text htext).1 hc
  -- All lines are read, and none is a comment.
  have htexts := Line.text_ofSource hlines
  rw [List.filter_eq_self.mpr fun text htext => by
    simp [Line.isMeaningful, hstarts text htext '#' (by decide),
      Text.ne_nil_of_isSolid (hlines text htext).1]] at htexts
  generalize hsource : Line.ofSource (Text.unlines texts) = lines at htexts
  subst htexts
  have hmark : ∀ line ∈ lines, ∀ c ∈ ['#', '.', '!'], Text.startsWith c line.text = false :=
    fun line hline => hstarts line.text (List.mem_map_of_mem hline)
  -- None of the lines refers to a symbol, so the empty table resolves them.
  have hboth : List.Forall₂ (fun line words => ∃ resolved,
      Reference.resolveLine .empty line = .ok resolved ∧ Encoding.encodeLine resolved = .ok words)
      lines encoded :=
    (List.forall₂_map_left_iff.mp h).imp fun _ _ =>
      Encoding.exists_encodeLine fun _ hs => absurd hs List.not_mem_nil
  rcases (exists_forall₂_iff _ _).mpr hboth with ⟨resolved, hresolved, hencoded⟩
  -- Their sizes are those of what they mean, and there are no labels.
  have hsizes := hboth.imp fun line words hline => hline.elim fun resolved hpasses =>
    Encoding.size_of_resolveLine hpasses.1 hpasses.2
  have hknown : ∀ line ∈ lines, line.isLabel = false ∧ line.statement ≠ .unknown := by
    intro line hline
    rcases (exists_forall₂_iff_forall_mem _).mp ⟨_, hsizes⟩ line hline with ⟨_, hlabel, hstatement, _⟩
    exact ⟨hlabel, hstatement⟩
  have hplaced := Layout.foldlM_place_of_forall hknown Layout.empty
  rw [Passes.sum_size_of_forall₂ hsizes, show Layout.empty.size = 0 from rfl, Nat.zero_add] at hplaced
  refine (assemble_eq_ok_iff _ _).mpr ⟨{
    code := lines
    declarations := []
    expanded := lines
    instructions := lines
    layout := ⟨.empty, encoded.flatten.length⟩
    final := ⟨.empty, encoded.flatten.length⟩
    resolved := resolved
    encoded := encoded
    extracted := ?_
    expands := ?_
    placed := ?_
    dataPlaced := (Layout.placeData_eq_ok_iff _ _ _).mpr ⟨rfl, hfit⟩
    resolves := (Reference.resolve_eq_ok_iff _ _ _).mpr hresolved
    encodes := hencoded }, ?_⟩
  · rw [hsource]
    exact Declaration.extract_of_forall_not fun line hline => hmark line hline '.' (by decide)
  · exact Shorthand.expand_of_forall_not fun line hline => hmark line hline '!' (by decide)
  · refine (Layout.ofLines_eq_ok_iff _ _ _).mpr ⟨(List.filter_eq_self.mpr fun line hline => ?_).symm,
      hplaced⟩
    simp [(hknown line hline).1]
  · rw [Passes.program, List.flatMap_nil, List.append_nil]
    rfl

/-! ### Names and numbers -/

namespace Reference

variable {symbols : SymbolTable} {token : Text}

theorem replace_of_not_reference (hcolon : Text.startsWith ':' token = false)
    (hdot : Text.startsWith '.' token = false) : replace symbols token = token := by
  rw [replace, symbol?, hcolon, hdot]
  rfl

theorem isToken_replace (h : Text.IsToken token) : Text.IsToken (replace symbols token) := by
  unfold replace
  split
  · exact Decimal.isToken_write _
  · exact h

end Reference

/-- What replaces an operand stands for the same word without any symbols. It is the operand
    itself, or the address of its symbol. -/
theorem Term.exists_replaced {symbols : SymbolTable} {a : Term} {token : Text} {w : Word}
    (ha : a.Written token) (hw : a.word? symbols = some w) :
    ∃ b : Term, b.Written (Reference.replace symbols token) ∧ b.word? .empty = some w ∧
      ((b = a ∧ ∀ space name, a ≠ .symbol space name) ∨
        (b = .number w.toNat ∧ ∃ s ∈ symbols.symbols, s.address = w)) := by
  cases ha with
  | number h =>
      rw [Reference.replace_of_not_reference (h.startsWith (by decide)) (h.startsWith (by decide))]
      exact ⟨_, .number h, hw, Or.inl ⟨rfl, nofun⟩⟩
  | register h =>
      rw [Reference.replace_of_not_reference rfl rfl]
      exact ⟨_, .register h, hw, Or.inl ⟨rfl, nofun⟩⟩
  | symbol space name =>
      rcases Option.map_eq_some_iff.mp hw with ⟨s, hfind, rfl⟩
      have hs := (Reference.symbol?_eq_some_iff symbols _ s).mpr ⟨space, name, rfl, hfind⟩
      rw [Reference.replace, hs]
      refine ⟨.number s.address.toNat, .number (Decimal.denotes_write _), ?_,
        Or.inr ⟨rfl, s, Reference.mem_of_symbol? hs, rfl⟩⟩
      rw [word?, UInt16.ofNat_toNat]

namespace Meaning

variable {symbols : SymbolTable} {line : Line} {words : List Word}

/-- The tokens of a line that has a meaning are its first word and its operands. -/
theorem tokens_eq (h : Meaning symbols line.tokens words) :
    line.tokens = line.head :: line.operands := by
  refine Line.tokens_eq_cons fun hempty => ?_
  generalize htokens : line.tokens = tokens at h
  cases h with
  | raw written admissible word =>
      rw [(Line.parts_of_tokens htokens).1] at hempty
      cases hempty
  | instruction op count operands =>
      rw [(Line.parts_of_tokens htokens).1] at hempty
      exact op.isToken_name.1 hempty

/-- With numbers in place of names, a line keeps its tokens otherwise. -/
theorem isToken_of_mem_desugar (h : Meaning symbols line.tokens words) :
    ∀ t ∈ line.head :: line.operands.map (Reference.replace symbols), Text.IsToken t := by
  have hmem : ∀ token ∈ line.head :: line.operands, Text.IsToken token := by
    rw [← h.tokens_eq]
    exact fun _ => Line.isToken_of_mem_tokens
  rw [List.forall_mem_cons] at hmem ⊢
  refine ⟨hmem.1, fun t ht => ?_⟩
  rcases List.mem_map.mp ht with ⟨token, htoken, rfl⟩
  exact Reference.isToken_replace (hmem.2 token htoken)

theorem isLine_desugar (h : Meaning symbols line.tokens words) :
    Text.IsLine (line.desugar symbols) :=
  Text.isLine_unwords (List.cons_ne_nil _ _) h.isToken_of_mem_desugar

/-- A line means the same words with numbers in place of names. -/
theorem desugar (hsmall : ∀ s ∈ symbols.symbols, s.address.toNat ≤ 32775)
    (h : Meaning symbols line.tokens words) :
    Meaning .empty (Text.words (line.desugar symbols)) words := by
  rw [Line.desugar, Text.words_unwords h.isToken_of_mem_desugar]
  generalize htokens : line.tokens = tokens at h
  cases h with
  | raw written admissible word =>
      rcases Line.parts_of_tokens htokens with ⟨hhead, hoperands⟩
      rcases Term.exists_replaced written word with ⟨b, hb, hword, hcases⟩
      rw [hhead, hoperands]
      refine .raw hb ?_ hword
      rcases hcases with ⟨rfl, hsymbol⟩ | ⟨rfl, _⟩
      · cases b with
        | number n => exact admissible
        | register n => exact admissible
        | symbol space name => exact absurd rfl (hsymbol space name)
      -- A name has become a number, and a raw line takes any number of sixteen bits.
      · exact Nat.le_of_lt_succ (UInt16.toNat_lt _)
  | instruction op count operands =>
      rcases Line.parts_of_tokens htokens with ⟨hhead, hoperands⟩
      rw [hhead, hoperands]
      refine .instruction op (by rw [List.length_map, count]) ?_
      rw [List.forall₂_map_left_iff]
      refine operands.imp ?_
      rintro token w ⟨a, ha, hoperand, hw⟩
      rcases Term.exists_replaced ha hw with ⟨b, hb, hword, hcases⟩
      refine ⟨b, hb, ?_, hword⟩
      rcases hcases with ⟨rfl, hsymbol⟩ | ⟨rfl, s, hs, rfl⟩
      · cases b with
        | number n => exact hoperand
        | register n => exact hoperand
        | symbol space name => exact absurd rfl (hsymbol space name)
      -- As an operand the number must be one that decodes.
      · exact hsmall s hs

end Meaning

/-- A raw word means itself. -/
theorem meaning_rawLine (w : Word) : Meaning .empty (Text.words (rawLine w)) [w] := by
  rw [rawLine, Text.words_unwords]
  · refine .raw (.number (Decimal.denotes_write w.toNat)) (Nat.le_of_lt_succ w.toNat_lt) ?_
    rw [Term.word?, UInt16.ofNat_toNat]
  · rw [List.forall_mem_cons, List.forall_mem_singleton]
    exact ⟨Opcode.isToken_rawName, Decimal.isToken_write _⟩

theorem isLine_rawLine (w : Word) : Text.IsLine (rawLine w) := by
  refine Text.isLine_unwords (List.cons_ne_nil _ _) ?_
  rw [List.forall_mem_cons, List.forall_mem_singleton]
  exact ⟨Opcode.isToken_rawName, Decimal.isToken_write _⟩

/-! ### Sources -/

namespace Passes

variable {source : Text}

/-- The blocks of the symbols are the data, in the order of the declarations. -/
theorem flatMap_block (t : Passes source) :
    t.program.symbols.flatMap Symbol.block = t.declarations.flatMap Declaration.words := by
  have hlabels : (Layout.labelSymbols 0 t.expanded).flatMap Symbol.block = [] := by
    refine List.flatMap_eq_nil_iff.mpr fun s hs => ?_
    rcases (Layout.mem_labelSymbols_iff _ _ _).mp hs with ⟨_, _, _, _, _, _, rfl⟩
    rfl
  have hdata : ∀ (offset : Nat) (ds : List Declaration),
      (Layout.dataSymbols offset ds).flatMap Symbol.block = ds.flatMap Declaration.words := by
    intro offset ds
    induction ds generalizing offset with
    | nil => rfl
    | cons d rest ih =>
        rw [Layout.dataSymbols, List.flatMap_cons, List.flatMap_cons, ih]
        rfl
  rw [t.symbols_eq, List.flatMap_append, hlabels, hdata, List.nil_append]

end Passes

/-- Symbols, shorthands and data can be written out: the source without them assembles to
    the same words, all of them code, and defines nothing. -/
theorem assemble_desugar {source : Text} {p : Program} (h : assemble source = .ok p) :
    ∃ t : Passes source, t.program = p ∧
      ∃ q, assemble (desugar ⟨p.symbols⟩ t.expanded) = .ok q ∧ q.words = p.words ∧
        q.bytes = p.bytes ∧ q.codeSize = p.words.length ∧ q.symbols = [] := by
  rcases (assemble_eq_ok_iff source p).mp h with ⟨t, rfl⟩
  refine ⟨t, rfl, ⟨t.program.words, t.program.words.length, []⟩, ?_, rfl, rfl, rfl, rfl⟩
  have hmeaning := t.forall₂_meaning
  -- The data are raw words, each of which is a line.
  have hraw : t.program.symbols.flatMap Symbol.rawLines =
      (t.declarations.flatMap Declaration.words).map rawLine := by
    rw [← t.flatMap_block, List.map_flatMap]
    rfl
  have hcode : List.Forall₂ (fun text words => Meaning .empty (Text.words text) words)
      (t.instructions.map (Line.desugar t.final.symbols)) t.encoded :=
    List.forall₂_map_left_iff.mpr (hmeaning.imp fun _ _ => Meaning.desugar fun _ => t.address_le)
  have hdata : List.Forall₂ (fun text words => Meaning .empty (Text.words text) words)
      ((t.declarations.flatMap Declaration.words).map rawLine)
      ((t.declarations.flatMap Declaration.words).map ([·])) := by
    rw [List.forall₂_map_left_iff, List.forall₂_map_right_iff, List.forall₂_same]
    exact fun w _ => meaning_rawLine w
  have hflatten : (t.encoded ++ (t.declarations.flatMap Declaration.words).map ([·])).flatten =
      t.program.words := by
    rw [List.flatten_append, ← List.flatMap_def, List.flatMap_singleton', Passes.program]
  have hassemble := assemble_of_meaning ?_ (List.rel_append hcode hdata) (hflatten ▸ t.length_words_le)
  · rw [hflatten, ← hraw, t.instructions_eq] at hassemble
    exact hassemble
  · intro text htext
    rcases List.mem_append.mp htext with htext | htext
    · rcases List.mem_map.mp htext with ⟨line, hline, rfl⟩
      rcases (exists_forall₂_iff_forall_mem _).mp ⟨_, hmeaning⟩ line hline with ⟨words, hwords⟩
      exact hwords.isLine_desugar
    · rcases List.mem_map.mp htext with ⟨w, _, rfl⟩
      exact isLine_rawLine w

/-- Both namespaces, a reference forward, a shorthand with a symbol and a block of two
    words. What it expands to is written out with numbers only. -/
theorem desugar_of_mixed_source :
    assemble "JMP :b\n:b\n!neg r0 .b\n.b 7 2".toList =
        .ok ⟨[6, 2, 14, 32768, 9, 9, 32768, 32768, 1, 7, 7], 9,
          [⟨['b'], .label, 2, 2⟩, ⟨['b'], .data 7 2, 9, 4⟩]⟩ ∧
      (∃ t : Passes "JMP :b\n:b\n!neg r0 .b\n.b 7 2".toList,
        t.program = ⟨[6, 2, 14, 32768, 9, 9, 32768, 32768, 1, 7, 7], 9,
          [⟨['b'], .label, 2, 2⟩, ⟨['b'], .data 7 2, 9, 4⟩]⟩ ∧
        ∃ q, assemble (desugar ⟨[⟨['b'], .label, 2, 2⟩, ⟨['b'], .data 7 2, 9, 4⟩]⟩
            t.expanded) = .ok q ∧
          q.words = [6, 2, 14, 32768, 9, 9, 32768, 32768, 1, 7, 7] ∧
          q.bytes = Word.toBytes [6, 2, 14, 32768, 9, 9, 32768, 32768, 1, 7, 7] ∧
          q.codeSize = 11 ∧ q.symbols = []) ∧
      desugar ⟨[⟨['b'], .label, 2, 2⟩, ⟨['b'], .data 7 2, 9, 4⟩]⟩
          [⟨1, "JMP :b".toList⟩, ⟨2, ":b".toList⟩, ⟨3, "NOT r0 .b".toList⟩,
            ⟨3, "ADD r0 r0 1".toList⟩] =
        "JMP 2\nNOT r0 9\nADD r0 r0 1\n?? 7\n?? 7".toList :=
  ⟨rfl, assemble_desugar rfl, by decide⟩

end WordMachine
