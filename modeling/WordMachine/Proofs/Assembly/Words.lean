import WordMachine.Proofs.Assembly.Placement
import WordMachine.Proofs.Text.Numerals

/-!
# From Lines to Words

What the last two passes make of an instruction line.

A line is taken apart into words, its references are replaced by numbers, it is
joined again, taken apart again, and encoded. Nothing goes wrong on the way: what
replaces a reference is a token, so the joined line has the same words as the list
it was joined from. In particular its first word is still the one that decided how
much room the line was given, and the words it is encoded in fill that room
exactly. That is `Encoding.size_eq_length`, and it is why the sizes counted before
the operands are read can be trusted.

A reference is replaced by the address of its symbol, which is then read back as a
number, so it is encoded as that address whatever the role of the operand.

## Main definitions

* `Reference.IsReference`: An operand that refers to a symbol.
* `Reference.symbol?`: The symbol that it refers to.

## Theorems

* `Reference.tokens_of_resolveLine`: The words of a line whose references are
  replaced.
* `Reference.parts_of_resolveLine`: Its first word and its operands.
* `Encoding.encodeLine_eq_ok_iff`: When a line is encoded, and as what.
* `Encoding.size_eq_length`: A line is given as many words as it is encoded in.
* `Encoding.exists_operand_words`: The operand words of an encoded line.
* `Encoding.exists_symbol_of_isReference`: A reference is encoded as the address of
  its symbol.
-/

namespace WordMachine

namespace Line

theorem isToken_of_mem_tokens {line : Line} {token : Text} (h : token ∈ line.tokens) :
    Text.IsToken token :=
  Text.isToken_of_mem_words h

theorem isToken_of_mem_operands {line : Line} {token : Text} (h : token ∈ line.operands) :
    Text.IsToken token :=
  isToken_of_mem_tokens (List.mem_of_mem_tail h)

/-- A trimmed line begins with the first character of its first word. -/
theorem startsWith_head {line : Line} (h : Text.IsSolid line.text) (c : Char) :
    Text.startsWith c line.head = Text.startsWith c line.text := by
  rcases h.1 with ⟨first, hfirst, hblank⟩
  rw [head, tokens, Text.words_eq_cons hfirst hblank, List.headD_cons]
  cases htext : line.text with
  | nil => rfl
  | cons x rest =>
      rw [htext, List.head?_cons, Option.some.injEq] at hfirst
      rw [List.takeWhile_cons_of_pos (by simp [hfirst, hblank])]
      rfl

/-- The statement of a line is decided by its first word. -/
theorem statement_congr {a b : Line} (h : a.head = b.head) : a.statement = b.statement := by
  rw [statement, statement, h]

end Line

namespace Reference

/-- An operand that refers to a symbol. -/
def IsReference (token : Text) : Prop :=
  Text.startsWith ':' token = true ∨ Text.startsWith '.' token = true

/-- The symbol that an operand refers to. -/
def symbol? (symbols : SymbolTable) (token : Text) : Option Symbol :=
  if Text.startsWith ':' token then symbols.find? .label (token.drop 1)
  else if Text.startsWith '.' token then symbols.find? .data (token.drop 1)
  else none

theorem mem_of_symbol? {symbols : SymbolTable} {token : Text} {s : Symbol}
    (h : symbol? symbols token = some s) : s ∈ symbols.symbols := by
  unfold symbol? at h
  split at h
  · exact (SymbolTable.find?_some h).1
  · split at h
    · exact (SymbolTable.find?_some h).1
    · cases h

/-- A reference is replaced by the address of its symbol. -/
theorem resolveToken_of_symbol? {symbols : SymbolTable} {token : Text} {s : Symbol} (line : Line)
    (h : symbol? symbols token = some s) :
    resolveToken symbols line token = .ok (Decimal.writeWord s.address) := by
  unfold symbol? at h
  unfold resolveToken address
  split at h
  · rename_i hcolon
    rw [if_pos hcolon, h]
  · rename_i hcolon
    split at h
    · rename_i hdot
      rw [if_neg hcolon, if_pos hdot, h]
    · cases h

/-- A token without the mark of a namespace is not replaced. -/
theorem resolveToken_of_not_reference {token : Text} (symbols : SymbolTable) (line : Line)
    (hcolon : Text.startsWith ':' token = false) (hdot : Text.startsWith '.' token = false) :
    resolveToken symbols line token = .ok token := by
  rw [resolveToken, hcolon, hdot]
  rfl

/-- What replaces an operand is the address of its symbol if it is a reference, and
    the operand itself otherwise. -/
theorem resolveToken_cases {symbols : SymbolTable} {line : Line} {token text : Text}
    (h : resolveToken symbols line token = .ok text) :
    (∃ s, symbol? symbols token = some s ∧ text = Decimal.writeWord s.address) ∨
      ¬ IsReference token ∧ text = token := by
  cases hs : symbol? symbols token with
  | some s =>
      rw [resolveToken_of_symbol? line hs] at h
      cases h
      exact Or.inl ⟨s, rfl, rfl⟩
  | none =>
      -- A reference to nothing is an error, so the operand is no reference.
      right
      unfold symbol? at hs
      unfold resolveToken address at h
      split at h
      · rename_i hcolon
        rw [if_pos hcolon] at hs
        rw [hs] at h
        cases h
      · rename_i hcolon
        rw [if_neg hcolon] at hs
        split at h
        · rename_i hdot
          rw [if_pos hdot] at hs
          rw [hs] at h
          cases h
        · rename_i hdot
          cases h
          exact ⟨not_or.mpr ⟨hcolon, hdot⟩, rfl⟩

/-- What replaces a token is a token. -/
theorem isToken_of_resolveToken {symbols : SymbolTable} {line : Line} {token text : Text}
    (h : resolveToken symbols line token = .ok text) (ht : Text.IsToken token) :
    Text.IsToken text := by
  rcases resolveToken_cases h with ⟨s, _, rfl⟩ | ⟨_, rfl⟩
  · exact Decimal.isToken_write s.address.toNat
  · exact ht

/-- The words of a line whose references are replaced: its first word, and what
    replaces the others. -/
theorem tokens_of_resolveLine {symbols : SymbolTable} {line resolved : Line}
    (h : resolveLine symbols line = .ok resolved) :
    ∃ operands, List.Forall₂ (fun token text => resolveToken symbols line token = .ok text)
        line.operands operands ∧
      resolved.tokens = line.tokens.take 1 ++ operands := by
  rcases (resolveLine_eq_ok_iff _ _ _).mp h with ⟨operands, hoperands, rfl⟩
  refine ⟨operands, hoperands, Text.words_unwords fun t ht => ?_⟩
  -- The words are those of the line itself, or replace one of them.
  rcases List.mem_append.mp ht with ht | ht
  · exact Line.isToken_of_mem_tokens (List.mem_of_mem_take ht)
  · rcases List.forall₂_iff_get.mp hoperands with ⟨hlength, hget⟩
    rcases List.get_of_mem ht with ⟨⟨i, hi⟩, rfl⟩
    exact isToken_of_resolveToken (hget i (by omega) hi)
      (Line.isToken_of_mem_operands (List.get_mem _ _))

/-- The first word of a line is never replaced, and the others are replaced one by
    one. -/
theorem parts_of_resolveLine {symbols : SymbolTable} {line resolved : Line}
    (h : resolveLine symbols line = .ok resolved) :
    resolved.head = line.head ∧
      List.Forall₂ (fun token text => resolveToken symbols line token = .ok text)
        line.operands resolved.operands := by
  rcases tokens_of_resolveLine h with ⟨operands, hoperands, htokens⟩
  rw [Line.operands] at hoperands
  rw [Line.head, Line.head, Line.operands, Line.operands, htokens]
  cases hline : line.tokens with
  | nil =>
      -- Without words there is nothing to replace, so nothing moves to the front.
      rw [hline, List.tail_nil, List.forall₂_nil_left_iff] at hoperands
      rw [hoperands]
      exact ⟨rfl, List.Forall₂.nil⟩
  | cons first rest =>
      rw [hline] at hoperands
      exact ⟨rfl, hoperands⟩

end Reference

namespace Encoding

theorem operandTokens_eq_ok_iff (line : Line) (expected : Nat) (tokens : List Text) :
    operandTokens line expected = .ok tokens ↔
      line.operands.length = expected ∧ line.operands = tokens := by
  unfold operandTokens
  split
  · rename_i h
    simp [h]
  · rename_i h
    simp [h]

/-- A line is encoded in two ways: a raw word as its one number, and an instruction
    as its word followed by one word for each operand. -/
theorem encodeLine_eq_ok_iff (line : Line) (words : List Word) :
    encodeLine line = .ok words ↔
      (line.head = Opcode.rawName ∧ line.operands.length = 1 ∧
        List.Forall₂ (fun token w => encodeRaw line token = .ok w) line.operands words) ∨
      (line.head ≠ Opcode.rawName ∧ ∃ op operands, Opcode.ofMnemonic? line.head = some op ∧
        line.operands.length = op.arity ∧
        List.Forall₂ (fun token w => encodeOperand line token = .ok w) line.operands operands ∧
        words = op.word :: operands) := by
  unfold encodeLine
  by_cases hraw : line.head = Opcode.rawName
  · rw [if_pos hraw, bind_eq_ok_iff]
    simp only [operandTokens_eq_ok_iff, mapM_eq_ok_iff, hraw, true_and, ne_eq, not_true_eq_false,
      false_and, or_false]
    constructor
    · rintro ⟨tokens, ⟨hlength, rfl⟩, hwords⟩
      exact ⟨hlength, hwords⟩
    · rintro ⟨hlength, hwords⟩
      exact ⟨_, ⟨hlength, rfl⟩, hwords⟩
  · rw [if_neg hraw]
    cases hop : Opcode.ofMnemonic? line.head with
    | none => simp [hraw]
    | some op =>
        simp only [bind_eq_ok_iff, operandTokens_eq_ok_iff, mapM_eq_ok_iff, hraw, false_and,
          false_or, ne_eq, not_false_eq_true, true_and, Option.some.injEq]
        constructor
        · rintro ⟨tokens, ⟨hlength, rfl⟩, operands, hoperands, h⟩
          cases h
          exact ⟨op, operands, rfl, hlength, hoperands, rfl⟩
        · rintro ⟨op', operands, rfl, hlength, hoperands, rfl⟩
          exact ⟨_, ⟨hlength, rfl⟩, operands, hoperands, rfl⟩

/-- The name of an instruction does not mark a label. -/
theorem isLabel_of_ofMnemonic? {line : Line} {op : Opcode}
    (h : Opcode.ofMnemonic? line.head = some op) : line.isLabel = false := by
  rw [Line.isLabel, ← Opcode.name_of_ofMnemonic? h]
  cases op <;> decide

theorem isLabel_of_rawName {line : Line} (h : line.head = Opcode.rawName) :
    line.isLabel = false := by
  rw [Line.isLabel, h]
  decide

/-- A line is given as many words as it is encoded in. -/
theorem size_eq_length {line : Line} {words : List Word} (h : encodeLine line = .ok words) :
    line.isLabel = false ∧ line.statement ≠ .unknown ∧ line.size = words.length := by
  rcases (encodeLine_eq_ok_iff _ _).mp h with ⟨hhead, hlength, hwords⟩ |
    ⟨hhead, op, operands, hop, hlength, hoperands, rfl⟩
  · -- A raw word has one operand, which is all it is encoded in.
    have hlabel := isLabel_of_rawName hhead
    have hstatement : line.statement = .raw := by
      rw [Line.statement_of_not_isLabel hlabel, if_pos hhead]
    refine ⟨hlabel, by rw [hstatement]; exact Statement.noConfusion, ?_⟩
    rw [← hwords.length_eq, hlength, Line.size, hstatement]
    rfl
  · -- An instruction is encoded in its own word and one for each operand.
    have hlabel := isLabel_of_ofMnemonic? hop
    have hstatement : line.statement = .instruction op := by
      rw [Line.statement_of_not_isLabel hlabel, if_neg hhead, hop]
    refine ⟨hlabel, by rw [hstatement]; exact Statement.noConfusion, ?_⟩
    rw [List.length_cons, ← hoperands.length_eq, hlength, Line.size, hstatement]
    exact op.size_eq.trans (Nat.add_comm 1 op.arity)

/-- The size of a line is counted before its references are replaced, but its first word
    stays the same. -/
theorem size_of_resolveLine {symbols : SymbolTable} {line resolved : Line} {words : List Word}
    (hresolve : Reference.resolveLine symbols line = .ok resolved)
    (hencode : encodeLine resolved = .ok words) :
    line.isLabel = false ∧ line.statement ≠ .unknown ∧ line.size = words.length := by
  rcases size_eq_length hencode with ⟨hlabel, hknown, hsize⟩
  have hhead := (Reference.parts_of_resolveLine hresolve).1
  rw [Line.size, Line.statement_congr hhead] at hsize
  rw [Line.statement_congr hhead] at hknown
  rw [Line.isLabel, hhead] at hlabel
  exact ⟨hlabel, hknown, hsize⟩

/-- The last words of an encoded line are those of its operands, each read as an
    operand or as a number. -/
theorem exists_operand_words {line : Line} {words : List Word}
    (h : encodeLine line = .ok words) :
    ∃ front operands, words = front ++ operands ∧
      List.Forall₂ (fun token w => Operand.parse token = .ok w ∨ Decimal.read token = .ok w)
        line.operands operands := by
  rcases (encodeLine_eq_ok_iff _ _).mp h with ⟨_, _, hwords⟩ | ⟨_, op, operands, _, _, hoperands, rfl⟩
  · refine ⟨[], words, rfl, hwords.imp fun token w hw => Or.inr ?_⟩
    exact (mapError_eq_ok_iff _ _ _).mp hw
  · refine ⟨[op.word], operands, rfl, hoperands.imp fun token w hw => Or.inl ?_⟩
    exact (mapError_eq_ok_iff _ _ _).mp hw

/-- A written word is read as itself, as an operand or as a number. -/
theorem eq_of_parse_or_read {a w : Word}
    (h : Operand.parse (Decimal.writeWord a) = .ok w ∨ Decimal.read (Decimal.writeWord a) = .ok w) :
    w = a := by
  rcases h with h | h
  · rw [Operand.parse_writeWord] at h
    split at h
    · cases h
      rfl
    · cases h
  · rw [Decimal.read_writeWord] at h
    cases h
    rfl

/-- A reference has a symbol, and is encoded as its address. -/
theorem exists_symbol_of_isReference {symbols : SymbolTable} {line : Line} {token text : Text}
    {w : Word} (htoken : Reference.IsReference token)
    (htext : Reference.resolveToken symbols line token = .ok text)
    (hw : Operand.parse text = .ok w ∨ Decimal.read text = .ok w) :
    ∃ s, Reference.symbol? symbols token = some s ∧ w = s.address := by
  rcases Reference.resolveToken_cases htext with ⟨s, hs, rfl⟩ | ⟨hnot, _⟩
  · exact ⟨s, hs, eq_of_parse_or_read hw⟩
  · exact absurd htoken hnot

end Encoding

end WordMachine
