import WordMachine.Proofs.Assembly.Exact

/-!
# The Meaning of Instruction Lines

What the tokens of an instruction line say, and the words they stand for.

The last two passes of an assembly rewrite a line before they encode it: references
are replaced by digits, the line is joined and cut again, and only then is it read. A
reader of the source does nothing of the kind. An operand is a number, a register or
the name of a symbol, each recognized by how it begins, and each stands for a word.
`Term` is that reading, `Term.Written` its grammar, and `Meaning` gives the
words of a whole line. The two passes succeed on exactly the lines that have a
meaning, with the words that they mean: `Encoding.meaning_of_encodeLine` is the one
direction and `Encoding.exists_encodeLine` the other.

A raw word and an operand are read by different rules. The first is any number that
fits in a word and never a register, the second stops at the word of the last
register, so the admissible arguments are kept apart from what an argument stands
for.

## Main definitions

* `Term`, `Term.Written`: Operands and the tokens they are written as.
* `Term.IsOperand`, `Term.IsRaw`: The arguments of an instruction and of a raw
  word.
* `Term.word?`: The word that an argument stands for.
* `Meaning`: The words that an instruction line stands for.

## Theorems

* `Operand.parse_register_eq_ok_iff`, `Operand.parse_number_eq_ok_iff`: The tokens that
  are read as an operand.
* `Term.operand_iff`, `Term.raw_iff`: What becomes of a token.
* `Term.operand_unique`: A token stands for one word only.
* `Meaning.operands`: The words of an instruction line.
* `Encoding.meaning_of_encodeLine`, `Encoding.exists_encodeLine`: Which lines are
  encoded, and as what.
* `Passes.forall₂_meaning`: The meaning of the lines of a source.
-/

namespace WordMachine

/-- The character that marks a reference. -/
def Namespace.mark : Namespace → Char
  | .label => ':'
  | .data => '.'

/-- An operand as it is written. -/
inductive Term
  | number (value : Nat)
  | register (index : Nat)
  | symbol (space : Namespace) (name : Text)
  deriving DecidableEq, Repr

/-- The symbols that a table defines. -/
def SymbolTable.Defines (symbols : SymbolTable) (space : Namespace) (name : Text) : Prop :=
  ∃ s, symbols.find? space name = some s

namespace Term

/-- The tokens that an argument is written as. -/
inductive Written : Term → Text → Prop
  | number {token : Text} {n : Nat} (h : Decimal.Denotes token n) : Written (.number n) token
  | register {digits : Text} {n : Nat} (h : Decimal.Denotes digits n) :
      Written (.register n) ('r' :: digits)
  | symbol (space : Namespace) (name : Text) : Written (.symbol space name) (space.mark :: name)

/-- Whether an argument can be an operand: a number up to the word of the last register,
    a register that exists, or the name of a symbol. -/
def IsOperand (defines : Namespace → Text → Prop) : Term → Prop
  | .number n => n ≤ 32775
  | .register n => n ≤ 7
  | .symbol space name => defines space name

/-- Whether an argument can be a raw word: a number that fits in a word, or the name of a
    symbol. -/
def IsRaw (defines : Namespace → Text → Prop) : Term → Prop
  | .number n => n ≤ 65535
  | .register _ => False
  | .symbol space name => defines space name

/-- The word that an argument stands for. A symbol stands for its address. -/
def word? (symbols : SymbolTable) : Term → Option Word
  | .number n => some (UInt16.ofNat n)
  | .register n => some (UInt16.ofNat (32768 + n))
  | .symbol space name => (symbols.find? space name).map (·.address)

end Term

/-- The words that the tokens of an instruction line stand for. -/
inductive Meaning (symbols : SymbolTable) : List Text → List Word → Prop
  | raw {token : Text} {a : Term} {w : Word} (written : a.Written token)
      (admissible : a.IsRaw symbols.Defines) (word : a.word? symbols = some w) :
      Meaning symbols [Opcode.rawName, token] [w]
  | instruction (op : Opcode) {tokens : List Text} {words : List Word}
      (count : tokens.length = op.arity)
      (operands : List.Forall₂ (fun token w => ∃ a : Term, a.Written token ∧
        a.IsOperand symbols.Defines ∧ a.word? symbols = some w) tokens words) :
      Meaning symbols (op.name :: tokens) (op.word :: words)

/-! ### Single tokens -/

namespace Operand

theorem parse_register_eq_ok_iff {digits : Text} (h : ∀ c ∈ digits, Text.isBlank c = false)
    (w : Word) :
    parse ('r' :: digits) = .ok w ↔
      ∃ n, Decimal.Denotes digits n ∧ n ≤ 7 ∧ w = UInt16.ofNat (32768 + n) := by
  simp only [parse_index_eq_ok_iff, Decimal.read_eq_ok_iff_of_not_isBlank h]
  constructor
  · rintro ⟨n, hn, hlt, rfl⟩
    refine ⟨n.toNat, hn, Nat.le_of_lt_succ hlt, ?_⟩
    rw [UInt16.ofNat_add, UInt16.ofNat_toNat]
    rfl
  · rintro ⟨n, hn, hle, rfl⟩
    -- A register number is far below the largest word, so it is read as it is.
    have hsmall : (UInt16.ofNat n).toNat = n :=
      UInt16.toNat_ofNat_of_lt' (Nat.lt_of_le_of_lt hle (by decide))
    refine ⟨UInt16.ofNat n, hsmall.symm ▸ hn, ?_, ?_⟩
    · rw [hsmall]
      exact Nat.lt_succ_of_le hle
    · rw [UInt16.ofNat_add]
      rfl

theorem parse_number_eq_ok_iff {token : Text} (h : ∀ c ∈ token, Text.isBlank c = false)
    (hr : Text.startsWith 'r' token = false) (w : Word) :
    parse token = .ok w ↔ Decimal.Denotes token w.toNat ∧ w.toNat ≤ 32775 := by
  rw [parse_plain_eq_ok_iff hr, Decimal.read_eq_ok_iff_of_not_isBlank h, UInt16.le_iff_toNat_le]
  rfl

end Operand

namespace Reference

theorem symbol?_eq_some_iff (symbols : SymbolTable) (token : Text) (s : Symbol) :
    symbol? symbols token = some s ↔
      ∃ space name, token = Namespace.mark space :: name ∧ symbols.find? space name = some s := by
  unfold symbol?
  constructor
  · intro h
    split at h
    · rename_i hcolon
      rcases (Text.startsWith_iff _ _).mp hcolon with ⟨name, rfl⟩
      exact ⟨.label, name, rfl, h⟩
    · split at h
      · rename_i hdot
        rcases (Text.startsWith_iff _ _).mp hdot with ⟨name, rfl⟩
        exact ⟨.data, name, rfl, h⟩
      · cases h
  · rintro ⟨space, name, rfl, h⟩
    cases space with
    | label => exact h
    | data => exact h

end Reference

namespace Term

variable {symbols : SymbolTable} {token : Text}

/-- A number or a register has no mark, so it is left as it is. -/
theorem resolveToken_of_written {a : Term} (ha : a.Written token)
    (hsymbol : ∀ space name, a ≠ .symbol space name) (line : Line) :
    Reference.resolveToken symbols line token = .ok token := by
  cases ha with
  | number h =>
      exact Reference.resolveToken_of_not_reference _ _ (h.startsWith (by decide))
        (h.startsWith (by decide))
  | register h => exact Reference.resolveToken_of_not_reference _ _ rfl rfl
  | symbol space name => exact absurd rfl (hsymbol space name)

/-- What a token becomes and is then read as is the word it stands for, if it can be an
    operand. -/
theorem operand_iff (htoken : Text.IsToken token)
    (hsmall : ∀ s ∈ symbols.symbols, s.address.toNat ≤ 32775) (line : Line) (w : Word) :
    (∃ text, Reference.resolveToken symbols line token = .ok text ∧ Operand.parse text = .ok w) ↔
      ∃ a : Term, a.Written token ∧ a.IsOperand symbols.Defines ∧ a.word? symbols = some w := by
  constructor
  · rintro ⟨text, hresolve, hparse⟩
    rcases Reference.resolveToken_cases hresolve with ⟨s, hs, rfl⟩ | ⟨_, rfl⟩
    · rcases (Reference.symbol?_eq_some_iff _ _ _).mp hs with ⟨space, name, rfl, hfind⟩
      rw [Encoding.eq_of_parse_or_read (Or.inl hparse)]
      exact ⟨.symbol space name, .symbol space name, ⟨s, hfind⟩, by rw [word?, hfind]; rfl⟩
    · -- Without a mark it is a register if it begins with `r`, and a number otherwise.
      by_cases hr : Text.startsWith 'r' text = true
      · rcases (Text.startsWith_iff _ _).mp hr with ⟨digits, rfl⟩
        have hblank : ∀ c ∈ digits, Text.isBlank c = false := fun c hc =>
          htoken.2 c (List.mem_cons_of_mem _ hc)
        rcases (Operand.parse_register_eq_ok_iff hblank w).mp hparse with ⟨n, hn, hle, rfl⟩
        exact ⟨.register n, .register hn, hle, rfl⟩
      · rcases (Operand.parse_number_eq_ok_iff htoken.2 (Bool.eq_false_iff.mpr hr) w).mp hparse
          with ⟨hw, hle⟩
        exact ⟨.number w.toNat, .number hw, hle, by rw [word?, UInt16.ofNat_toNat]⟩
  · rintro ⟨a, ha, hoperand, hw⟩
    cases ha with
    | number h =>
        rename_i n
        refine ⟨token, resolveToken_of_written (.number h) nofun line, ?_⟩
        cases hw
        -- The number fits in a word, so the word is the number.
        have hn : (UInt16.ofNat n).toNat = n :=
          UInt16.toNat_ofNat_of_lt' (Nat.lt_of_le_of_lt hoperand (by decide))
        rw [Operand.parse_number_eq_ok_iff htoken.2 (h.startsWith (by decide)), hn]
        exact ⟨h, hoperand⟩
    | register h =>
        rename_i digits n
        refine ⟨_, resolveToken_of_written (.register h) nofun line, ?_⟩
        cases hw
        have hblank : ∀ c ∈ digits, Text.isBlank c = false := fun c hc =>
          htoken.2 c (List.mem_cons_of_mem _ hc)
        exact (Operand.parse_register_eq_ok_iff hblank _).mpr ⟨n, h, hoperand, rfl⟩
    | symbol space name =>
        rcases hoperand with ⟨s, hfind⟩
        rw [word?, hfind] at hw
        cases hw
        have hs := (Reference.symbol?_eq_some_iff symbols _ s).mpr ⟨space, name, rfl, hfind⟩
        refine ⟨_, Reference.resolveToken_of_symbol? line hs, ?_⟩
        have hmax : s.address ≤ Operand.maxWord :=
          UInt16.le_iff_toNat_le.mpr (hsmall s (Reference.mem_of_symbol? hs))
        rw [Operand.parse_writeWord, if_pos hmax]

/-- As an operand, a token stands for one word only. -/
theorem operand_unique (htoken : Text.IsToken token)
    (hsmall : ∀ s ∈ symbols.symbols, s.address.toNat ≤ 32775) {v w : Word}
    (hv : ∃ a : Term, a.Written token ∧ a.IsOperand symbols.Defines ∧ a.word? symbols = some v)
    (hw : ∃ a : Term, a.Written token ∧ a.IsOperand symbols.Defines ∧ a.word? symbols = some w) :
    v = w := by
  -- On whichever line it stands, it is replaced by one text and read as one word.
  rcases (operand_iff htoken hsmall ⟨0, []⟩ v).mpr hv with ⟨text, htext, hread⟩
  rcases (operand_iff htoken hsmall ⟨0, []⟩ w).mpr hw with ⟨text', htext', hread'⟩
  rw [htext] at htext'
  cases htext'
  rw [hread] at hread'
  exact Except.ok.inj hread'

/-- The same for a raw word. An address is a word, so nothing is asked of the table. -/
theorem raw_iff (htoken : Text.IsToken token) (line : Line) (w : Word) :
    (∃ text, Reference.resolveToken symbols line token = .ok text ∧ Decimal.read text = .ok w) ↔
      ∃ a : Term, a.Written token ∧ a.IsRaw symbols.Defines ∧ a.word? symbols = some w := by
  have hread := Decimal.read_eq_ok_iff_of_not_isBlank htoken.2
  constructor
  · rintro ⟨text, hresolve, hparse⟩
    rcases Reference.resolveToken_cases hresolve with ⟨s, hs, rfl⟩ | ⟨_, rfl⟩
    · rcases (Reference.symbol?_eq_some_iff _ _ _).mp hs with ⟨space, name, rfl, hfind⟩
      rw [Encoding.eq_of_parse_or_read (Or.inr hparse)]
      exact ⟨.symbol space name, .symbol space name, ⟨s, hfind⟩, by rw [word?, hfind]; rfl⟩
    · refine ⟨.number w.toNat, .number ((hread w).mp hparse), Nat.le_of_lt_succ w.toNat_lt, ?_⟩
      rw [word?, UInt16.ofNat_toNat]
  · rintro ⟨a, ha, hraw, hw⟩
    cases ha with
    | number h =>
        rename_i n
        refine ⟨token, resolveToken_of_written (.number h) nofun line, ?_⟩
        cases hw
        have hn : (UInt16.ofNat n).toNat = n := UInt16.toNat_ofNat_of_lt' (Nat.lt_succ_of_le hraw)
        rw [hread, hn]
        exact h
    | register h => exact absurd hraw not_false
    | symbol space name =>
        rcases hraw with ⟨s, hfind⟩
        rw [word?, hfind] at hw
        cases hw
        have hs := (Reference.symbol?_eq_some_iff symbols _ s).mpr ⟨space, name, rfl, hfind⟩
        exact ⟨_, Reference.resolveToken_of_symbol? line hs, Decimal.read_writeWord s.address⟩

end Term

/-! ### Lines -/

/-- The words of an instruction line are that of its name and those of its operands. -/
theorem Meaning.operands {symbols : SymbolTable} {op : Opcode} {tokens : List Text}
    {words : List Word} (h : Meaning symbols (op.name :: tokens) words) :
    ∃ rest, words = op.word :: rest ∧
      List.Forall₂ (fun token w => ∃ a : Term, a.Written token ∧
        a.IsOperand symbols.Defines ∧ a.word? symbols = some w) tokens rest := by
  generalize hname : op.name = name at h
  cases h with
  | raw =>
      cases op <;> exact absurd hname (by decide)
  | instruction other count operands =>
      have hop := other.ofMnemonic?_name
      rw [← hname, op.ofMnemonic?_name] at hop
      cases hop
      exact ⟨_, rfl, operands⟩

theorem Line.tokens_eq_cons {line : Line} (h : line.head ≠ []) :
    line.tokens = line.head :: line.operands := by
  rw [head] at h
  rw [head, operands]
  cases htokens : line.tokens with
  | nil =>
      rw [htokens] at h
      exact absurd rfl h
  | cons first rest => rfl

theorem Line.parts_of_tokens {line : Line} {first : Text} {rest : List Text}
    (h : line.tokens = first :: rest) : line.head = first ∧ line.operands = rest := by
  rw [head, operands, h]
  exact ⟨rfl, rfl⟩

theorem Line.tokens_unwords (number : Nat) (tokens : List Text)
    (h : ∀ token ∈ tokens, Text.IsToken token) :
    (Line.mk number (Text.unwords tokens)).tokens = tokens :=
  Text.words_unwords h

/-- A line that begins with the name of an instruction is no label. -/
theorem Line.isLabel_of_name {line : Line} {op : Opcode} {rest : List Text}
    (h : line.tokens = op.name :: rest) : line.isLabel = false := by
  have hop : Opcode.ofMnemonic? line.head = some op := by
    rw [(Line.parts_of_tokens h).1, op.ofMnemonic?_name]
  exact Encoding.isLabel_of_ofMnemonic? hop

/-- It has a word for each operand that the instruction takes, and one more. -/
theorem Line.size_of_name {line : Line} {op : Opcode} {rest : List Text}
    (h : line.tokens = op.name :: rest) : line.size = op.size := by
  have hhead := (Line.parts_of_tokens h).1
  have hraw : op.name ≠ Opcode.rawName := by
    cases op <;> decide
  rw [size, statement_of_not_isLabel (isLabel_of_name h), hhead, if_neg hraw, op.ofMnemonic?_name]
  rfl

/-- A line is resolved if its operands are, and has what replaces them in their place. -/
theorem Reference.exists_resolveLine {symbols : SymbolTable} {line : Line} {texts : List Text}
    (h : List.Forall₂ (fun token text => resolveToken symbols line token = .ok text)
      line.operands texts) :
    ∃ resolved, resolveLine symbols line = .ok resolved ∧ resolved.head = line.head ∧
      resolved.operands = texts := by
  have hok := (resolveLine_eq_ok_iff symbols line _).mpr ⟨texts, h, rfl⟩
  rcases parts_of_resolveLine hok with ⟨hhead, hoperands⟩
  -- Every operand is replaced by one text only.
  have hunique : Relator.RightUnique
      (fun token text => resolveToken symbols line token = .ok text) :=
    fun _ _ _ hfirst hsecond => Except.ok.inj (hfirst.symm.trans hsecond)
  exact ⟨_, hok, hhead, List.right_unique_forall₂' hunique hoperands h⟩

namespace Encoding

variable {symbols : SymbolTable}

/-- A line that is encoded has a meaning, which is what it is encoded as. -/
theorem meaning_of_encodeLine (hsmall : ∀ s ∈ symbols.symbols, s.address.toNat ≤ 32775)
    {line resolved : Line} {words : List Word}
    (hresolve : Reference.resolveLine symbols line = .ok resolved)
    (hencode : encodeLine resolved = .ok words) : Meaning symbols line.tokens words := by
  have htokens : ∀ token ∈ line.operands, Text.IsToken token := fun _ =>
    Line.isToken_of_mem_operands
  rcases Reference.parts_of_resolveLine hresolve with ⟨hhead, htexts⟩
  rcases (encodeLine_eq_ok_iff _ _).mp hencode with ⟨hname, hlength, hwords⟩ |
    ⟨_, op, operands, hop, hlength, hoperands, rfl⟩
  · -- A raw word has one operand, which becomes its one word.
    rw [hhead] at hname
    have hboth := (exists_forall₂_iff _ _).mp ⟨_, htexts, hwords⟩
    rw [← htexts.length_eq] at hlength
    rcases List.length_eq_one_iff.mp hlength with ⟨token, htoken⟩
    rw [Line.tokens_eq_cons (by rw [hname]; decide), hname, htoken]
    rw [htoken] at hboth htokens
    rcases List.forall₂_cons_left_iff.mp hboth with ⟨w, rest, ⟨text, htext, hw⟩, hrest, rfl⟩
    rw [List.forall₂_nil_left_iff.mp hrest]
    rcases (Term.raw_iff (htokens token List.mem_cons_self) line w).mp
      ⟨text, htext, (mapError_eq_ok_iff _ _ _).mp hw⟩ with ⟨a, ha, hraw, hword⟩
    exact Meaning.raw ha hraw hword
  · rw [hhead] at hop
    have hboth := (exists_forall₂_iff _ _).mp ⟨_, htexts, hoperands⟩
    have hname := Opcode.name_of_ofMnemonic? hop
    rw [Line.tokens_eq_cons (by rw [← hname]; exact op.isToken_name.1), ← hname]
    refine Meaning.instruction op (htexts.length_eq.trans hlength) ?_
    refine ((List.forall₂_and_left _ _).mpr ⟨htokens, hboth⟩).imp ?_
    rintro token w ⟨htoken, text, htext, hw⟩
    exact (Term.operand_iff htoken hsmall line w).mp
      ⟨text, htext, (mapError_eq_ok_iff _ _ _).mp hw⟩

/-- A line with a meaning is encoded. -/
theorem exists_encodeLine (hsmall : ∀ s ∈ symbols.symbols, s.address.toNat ≤ 32775)
    {line : Line} {words : List Word} (h : Meaning symbols line.tokens words) :
    ∃ resolved, Reference.resolveLine symbols line = .ok resolved ∧
      encodeLine resolved = .ok words := by
  have htokens : ∀ token ∈ line.operands, Text.IsToken token := fun _ =>
    Line.isToken_of_mem_operands
  generalize hline : line.tokens = tokens at h
  cases h with
  | raw written admissible word =>
      rename_i token a w
      rcases Line.parts_of_tokens hline with ⟨hhead, hoperands⟩
      rw [hoperands] at htokens
      rcases (Term.raw_iff (htokens token List.mem_cons_self) line w).mpr
        ⟨a, written, admissible, word⟩ with ⟨text, htext, hw⟩
      have htexts : List.Forall₂ (fun token text =>
          Reference.resolveToken symbols line token = .ok text) line.operands [text] := by
        rw [hoperands]
        exact List.Forall₂.cons htext List.Forall₂.nil
      rcases Reference.exists_resolveLine htexts with ⟨resolved, hresolve, hhead', hoperands'⟩
      refine ⟨resolved, hresolve, (encodeLine_eq_ok_iff _ _).mpr (Or.inl ⟨?_, ?_, ?_⟩)⟩
      · rw [hhead', hhead]
      · rw [hoperands']
        rfl
      · rw [hoperands']
        exact List.Forall₂.cons ((mapError_eq_ok_iff _ _ _).mpr hw) List.Forall₂.nil
  | instruction op count operands =>
      rename_i rest operandWords
      rcases Line.parts_of_tokens hline with ⟨hhead, hoperands⟩
      rw [hoperands] at htokens
      -- Each operand becomes a text, and the text its word.
      have hboth := ((List.forall₂_and_left _ _).mpr ⟨htokens, operands⟩).imp
        fun token w h => (Term.operand_iff h.1 hsmall line w).mpr h.2
      rcases (exists_forall₂_iff _ _).mpr hboth with ⟨texts, htexts, hwords⟩
      rw [← hoperands] at htexts
      rcases Reference.exists_resolveLine htexts with ⟨resolved, hresolve, hhead', hoperands'⟩
      refine ⟨resolved, hresolve, (encodeLine_eq_ok_iff _ _).mpr (Or.inr ⟨?_, op, operandWords,
        ?_, ?_, ?_, rfl⟩)⟩
      · rw [hhead', hhead]
        cases op <;> decide
      · rw [hhead', hhead, op.ofMnemonic?_name]
      · rw [hoperands', ← htexts.length_eq, hoperands, count]
      · rw [hoperands']
        exact hwords.imp fun text w hw => (mapError_eq_ok_iff _ _ _).mpr hw

end Encoding

namespace Passes

variable {source : Text}

theorem address_le (t : Passes source) {s : Symbol} (h : s ∈ t.final.symbols.symbols) :
    s.address.toNat ≤ 32775 :=
  Nat.le_of_lt (Nat.lt_trans (t.address_lt h) (by decide))

/-- The words that each instruction line means are those it is encoded in. -/
theorem forall₂_meaning (t : Passes source) :
    List.Forall₂ (fun line words => Meaning t.final.symbols line.tokens words) t.instructions
      t.encoded := by
  refine t.forall₂_encoded.imp ?_
  rintro line words ⟨resolved, hresolve, hencode⟩
  exact Encoding.meaning_of_encodeLine (fun _ => t.address_le) hresolve hencode

end Passes

end WordMachine
