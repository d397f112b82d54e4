import WordMachine.Proofs.Assembly.Words
import WordMachine.Proofs.Listing.Source

/-!
# The Statements of a Listing

What the later passes of the assembler make of one statement of a listing.

A label is placed at the size so far if its name is free. An instruction takes as
many words as it has in memory, whichever way its operands are written. Its labels are
replaced by the addresses they were made from, after which the operands are written
as numbers and registers, and it is encoded in its own words, unless one of its
operand words encodes no operand: such a word is written as a number that the
encoder refuses.

## Main definitions

* `SymbolTable.Holds`: A table whose symbols are the labels of some targets.

## Theorems

* `Target.head_label`: The words of a label line.
* `Layout.place_label`, `Layout.place_instruction`: Placing a statement.
* `SymbolTable.find?_eq_none_of_holds`, `SymbolTable.find?_of_holds`: Looking up the
  name of a target.
* `Reference.resolveLine_textWith`: An instruction whose labels are replaced.
* `Encoding.encodeLine_text_iff`: When an instruction is encoded, and as what.
-/

namespace WordMachine

/-! ### Instruction lines -/

namespace Instruction

section Lines

variable {render : Opcode → Role → Word → Text}
  (hrender : ∀ op role w, Text.IsToken (render op role w)) (i : Instruction) (number : Nat)

include hrender

/-- The words of an instruction are read back from its line. -/
theorem tokens_textWith : (Line.mk number (i.textWith render)).tokens = i.tokensWith render := by
  rw [Line.tokens, textWith_eq]
  exact Text.words_unwords fun t => isToken_of_mem_tokensWith hrender

theorem head_textWith : (Line.mk number (i.textWith render)).head = i.name := by
  rcases i.exists_tokensWith render with ⟨operands, htokens⟩
  rw [Line.head, tokens_textWith hrender, htokens]
  rfl

theorem operands_textWith :
    (Line.mk number (i.textWith render)).operands = (i.tokensWith render).tail := by
  rw [Line.operands, tokens_textWith hrender]

/-- The statement of an instruction line. -/
theorem statement_textWith :
    (Line.mk number (i.textWith render)).isLabel = false ∧
      (Line.mk number (i.textWith render)).statement =
        match i.opcode with
        | some op => .instruction op
        | none => .raw := by
  cases hop : i.opcode with
  | none =>
      have hhead : (Line.mk number (i.textWith render)).head = Opcode.rawName := by
        rw [head_textWith hrender, name_of_raw hop]
      have hlabel := Encoding.isLabel_of_rawName hhead
      exact ⟨hlabel, by rw [Line.statement_of_not_isLabel hlabel, if_pos hhead]⟩
  | some op =>
      have hhead : (Line.mk number (i.textWith render)).head = op.name := by
        rw [head_textWith hrender, name_of_opcode hop]
      have hraw : op.name ≠ Opcode.rawName := by cases op <;> decide
      have hlabel : (Line.mk number (i.textWith render)).isLabel = false :=
        Encoding.isLabel_of_ofMnemonic? (by rw [hhead]; exact op.ofMnemonic?_name)
      refine ⟨hlabel, ?_⟩
      rw [Line.statement_of_not_isLabel hlabel, hhead, if_neg hraw, op.ofMnemonic?_name]

end Lines

/-- The operands of a well-formed instruction written as numbers and registers. -/
theorem zipWith_wordText {i : Instruction} {op : Opcode} (h : i.operands.length = op.arity) :
    List.zipWith (fun _ => Operand.wordText) op.roles i.operands =
      i.operands.map Operand.wordText := by
  refine List.ext_getElem ?_ fun n hn hn' => ?_
  · rw [List.length_zipWith, List.length_map, h, Opcode.arity, Nat.min_self]
  · rw [List.getElem_zipWith, List.getElem_map]

end Instruction

/-! ### Placing -/

/-- The first word of a label line is the label, and it has no other. -/
theorem Target.head_label (t : Target) (number : Nat) :
    (Line.mk number t.label).tokens = [t.label] ∧
      (Line.mk number t.label).head = ':' :: t.name := by
  have htokens : (Line.mk number t.label).tokens = [t.label] :=
    Text.words_of_isToken t.isToken_label
  refine ⟨htokens, ?_⟩
  rw [Line.head, htokens, ← t.label_eq]
  rfl

namespace Layout

/-- A label whose name is free is placed at the size so far. -/
theorem place_label {layout : Layout} {t : Target} (number : Nat)
    (hsize : layout.size < memorySize) (haddress : t.address = layout.size)
    (hfree : layout.symbols.find? .label t.name = none) :
    layout.place ⟨number, t.label⟩ =
      .ok ⟨⟨layout.symbols.symbols ++ [labelSymbol layout.size ⟨number, t.label⟩ t.name]⟩,
        layout.size⟩ := by
  rcases t.head_label number with ⟨htokens, hhead⟩
  refine (place_eq_ok_iff _ _ _).mpr (Or.inl ⟨t.name, Line.statement_of_head_label hhead, ?_⟩)
  refine (placeLabel_eq_ok_iff _ _ _ _).mpr ⟨hsize, by rw [htokens]; rfl, ?_, hfree, rfl⟩
  exact Target.check_name (by omega)

/-- An instruction is given as many words as it has in memory. -/
theorem place_instruction {render : Opcode → Role → Word → Text}
    (hrender : ∀ op role w, Text.IsToken (render op role w)) {i : Instruction}
    (h : i.WellFormed) (layout : Layout) (number : Nat) :
    layout.place ⟨number, i.textWith render⟩ = .ok ⟨layout.symbols, layout.size + i.size⟩ := by
  rcases Instruction.statement_textWith hrender i number with ⟨hlabel, hstatement⟩
  refine (place_eq_ok_iff _ _ _).mpr (Or.inr ⟨hlabel, ?_, ?_⟩)
  · rw [hstatement]
    cases i.opcode <;> exact Statement.noConfusion
  · -- The room for an opcode is that of its operands and itself.
    rw [Line.size, hstatement, i.size_eq]
    rw [Instruction.WellFormed] at h
    cases hop : i.opcode with
    | none =>
        rw [hop] at h
        rw [h]
        rfl
    | some op =>
        rw [hop] at h
        rw [h.2, ← op.size_eq]
        rfl

end Layout

/-! ### Looking up -/

namespace SymbolTable

/-- A table whose symbols are the labels of some targets, in their order. -/
def Holds (table : SymbolTable) (targets : List Target) : Prop :=
  List.Forall₂ (fun t s => s.name = t.name ∧ s.kind = .label ∧ s.address = UInt16.ofNat t.address)
    targets table.symbols

theorem holds_empty : empty.Holds [] := List.Forall₂.nil

/-- Every symbol of the table is the label of one of the targets. -/
theorem exists_target_of_holds {table : SymbolTable} {targets : List Target} {s : Symbol}
    (h : table.Holds targets) (hs : s ∈ table.symbols) :
    ∃ t ∈ targets, s.name = t.name ∧ s.address = UInt16.ofNat t.address := by
  rcases List.forall₂_iff_get.mp h with ⟨hlength, hget⟩
  rcases List.get_of_mem hs with ⟨⟨n, hn⟩, rfl⟩
  rcases hget n (by omega) hn with ⟨hname, _, haddress⟩
  exact ⟨_, List.get_mem _ _, hname, haddress⟩

/-- Every target has a symbol in the table. -/
theorem exists_symbol_of_holds {table : SymbolTable} {targets : List Target} {t : Target}
    (h : table.Holds targets) (ht : t ∈ targets) :
    ∃ s ∈ table.symbols, s.kind.space = .label ∧ s.name = t.name := by
  rcases List.forall₂_iff_get.mp h with ⟨hlength, hget⟩
  rcases List.get_of_mem ht with ⟨⟨n, hn⟩, rfl⟩
  rcases hget n hn (by omega) with ⟨hname, hkind, _⟩
  exact ⟨_, List.get_mem _ _, by rw [hkind]; rfl, hname⟩

/-- The name of a target that the table does not hold is free. -/
theorem find?_eq_none_of_holds {table : SymbolTable} {targets : List Target} {t : Target}
    (h : table.Holds targets) (ht : t ∉ targets) : table.find? .label t.name = none := by
  refine (find?_eq_none_iff _ _ _).mpr ?_
  rintro s hs ⟨_, hname⟩
  rcases exists_target_of_holds h hs with ⟨u, hu, huname, _⟩
  rw [Target.name_injective (hname.symm.trans huname)] at ht
  exact ht hu

/-- The name of a target that the table holds leads to its address. -/
theorem find?_of_holds {table : SymbolTable} {targets : List Target} {t : Target}
    (h : table.Holds targets) (ht : t ∈ targets) :
    ∃ s, table.find? .label t.name = some s ∧ s.address = UInt16.ofNat t.address := by
  cases hfind : table.find? .label t.name with
  | none =>
      -- The target has a symbol, so something is found.
      rcases exists_symbol_of_holds h ht with ⟨s, hs, hanswers⟩
      exact absurd hanswers ((find?_eq_none_iff _ _ _).mp hfind s hs)
  | some s =>
      -- What is found may be the symbol of another target, but then of the same name.
      rcases find?_some hfind with ⟨hs, _, hname⟩
      rcases exists_target_of_holds h hs with ⟨u, _, huname, haddress⟩
      rw [← Target.name_injective (hname.symm.trans huname)] at haddress
      exact ⟨s, rfl, haddress⟩

end SymbolTable

/-! ### Replacing labels -/

/-- A target is named by a literal. -/
theorem Target.exists_literal {options : Listing.Options} {op : Opcode} {role : Role} {w : Word}
    {t : Target} (h : ofOperand? options op role w = some t) :
    ∃ address : Word, Operand.ofWord? w = some (.literal address) ∧ t.address = address.toNat := by
  unfold ofOperand? at h
  split at h
  · rename_i kind address _ hword
    split at h
    · cases h
      exact ⟨address, hword, rfl⟩
    · cases h
  · cases h

namespace Reference

/-- A label that the table holds is replaced by its address. -/
theorem resolveToken_label {table : SymbolTable} {targets : List Target} {t : Target}
    (line : Line) (h : table.Holds targets) (ht : t ∈ targets) :
    resolveToken table line t.label = .ok (Decimal.writeWord (UInt16.ofNat t.address)) := by
  rcases SymbolTable.find?_of_holds h ht with ⟨s, hfind, haddress⟩
  rw [← haddress]
  refine resolveToken_of_symbol? line ?_
  rw [t.label_eq]
  exact hfind

/-- A target is the literal that names it. -/
theorem wordText_of_ofOperand? {options : Listing.Options} {op : Opcode} {role : Role} {w : Word}
    {t : Target} (h : Target.ofOperand? options op role w = some t) :
    Operand.wordText w = Decimal.writeWord (UInt16.ofNat t.address) := by
  rcases Target.exists_literal h with ⟨address, hword, haddress⟩
  rw [Operand.wordText, hword, haddress, UInt16.ofNat_toNat]
  rfl

/-- An instruction whose operands are replaced by the words they stand for is written
    with numbers and registers. -/
theorem resolveLine_textWith {render : Opcode → Role → Word → Text}
    (hrender : ∀ op role w, Text.IsToken (render op role w)) {symbols : SymbolTable}
    {i : Instruction} (number : Nat)
    (hresolve : ∀ op, i.opcode = some op → ∀ x ∈ op.roles.zip i.operands,
      resolveToken symbols ⟨number, i.textWith render⟩ (render op x.1 x.2) =
        .ok (Operand.wordText x.2)) :
    resolveLine symbols ⟨number, i.textWith render⟩ = .ok ⟨number, i.text⟩ := by
  rcases i.exists_tokensWith render with ⟨operands, hoperands⟩
  refine (resolveLine_eq_ok_iff _ _ _).mpr ⟨(i.tokensWith fun _ _ => Operand.wordText).tail, ?_, ?_⟩
  · rw [Instruction.operands_textWith hrender]
    unfold Instruction.tokensWith
    cases hop : i.opcode with
    | none =>
        -- The number of a raw word is no reference.
        refine List.Forall₂.cons (resolveToken_of_not_reference _ _ ?_ ?_) List.Forall₂.nil
        · exact Decimal.startsWith_write (by decide) _
        · exact Decimal.startsWith_write (by decide) _
    | some op =>
        rw [List.tail_cons, List.tail_cons, ← List.map_uncurry_zip_eq_zipWith,
          ← List.map_uncurry_zip_eq_zipWith, List.forall₂_map_left_iff,
          List.forall₂_map_right_iff, List.forall₂_same]
        exact hresolve op hop
  · -- The first word stays, so the line is the one with the new operands.
    rw [Instruction.tokens_textWith hrender, Instruction.text, Instruction.textWith_eq]
    unfold Instruction.tokensWith
    cases i.opcode <;> rfl

end Reference

/-! ### Encoding -/

namespace Encoding

/-- An instruction is encoded exactly when all its operand words encode operands, and
    then in its own words. -/
theorem encodeLine_text_iff {i : Instruction} (h : i.WellFormed) (number : Nat)
    (words : List Word) :
    encodeLine ⟨number, i.text⟩ = .ok words ↔
      (∀ w ∈ i.operands, w ≤ Operand.maxWord) ∧ i.words = words := by
  have hrender : ∀ (op : Opcode) (role : Role) (w : Word), Text.IsToken (Operand.wordText w) :=
    fun _ _ => Operand.isToken_wordText
  have hhead : (Line.mk number i.text).head = i.name := i.head_textWith hrender number
  have hoperands : (Line.mk number i.text).operands = _ := i.operands_textWith hrender number
  rw [encodeLine_eq_ok_iff, hhead, hoperands]
  unfold Instruction.WellFormed at h
  rw [i.name_eq]
  unfold Instruction.tokensWith Opcode.nameOf Instruction.words
  cases hop : i.opcode with
  | none =>
      -- A raw word is read as a number, and every word is one.
      simp only [hop] at h
      have hraw : ∀ v, encodeRaw ⟨number, i.text⟩ (Decimal.writeWord i.word) = .ok v ↔
          i.word = v := by
        intro v
        rw [encodeRaw, mapError_eq_ok_iff, Decimal.read_writeWord, Except.ok.injEq]
      simp only [h, hraw, List.tail_cons, List.length_cons, List.length_nil, Nat.zero_add,
        List.forall₂_cons_left_iff, List.forall₂_nil_left_iff, exists_and_left, ↓existsAndEq,
        exists_eq_left', true_and, and_true, ne_eq, not_true_eq_false, false_and, or_false,
        List.not_mem_nil, IsEmpty.forall_iff, implies_true]
      exact eq_comm
  | some op =>
      -- The operands are read one by one, each as its word or not at all.
      simp only [hop] at h
      have hraw : op.name ≠ Opcode.rawName := by cases op <;> decide
      have hparse : ∀ operands, List.Forall₂
          (fun token w => encodeOperand ⟨number, i.text⟩ token = .ok w)
          (i.operands.map Operand.wordText) operands ↔
            (∀ w ∈ i.operands, w ≤ Operand.maxWord) ∧ i.operands = operands := by
        intro operands
        simp only [List.forall₂_map_left_iff, encodeOperand, mapError_eq_ok_iff,
          Operand.parse_wordText_eq_ok_iff, List.forall₂_and_left, List.forall₂_eq_eq_eq]
      simp only [List.tail_cons, Instruction.zipWith_wordText h.2, List.length_map, h.2, hparse,
        op.ofMnemonic?_name, hraw, false_and, false_or, ne_eq, not_false_eq_true, true_and]
      rw [h.1]
      constructor
      · rintro ⟨_, operands, hop', -, ⟨hmax, rfl⟩, rfl⟩
        cases hop'
        exact ⟨hmax, rfl⟩
      · rintro ⟨hmax, rfl⟩
        exact ⟨op, _, rfl, rfl, ⟨hmax, rfl⟩, rfl⟩

end Encoding

end WordMachine
