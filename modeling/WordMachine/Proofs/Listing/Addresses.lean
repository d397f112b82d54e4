import WordMachine.Proofs.Assembly.Meaning
import WordMachine.Proofs.Listing.Entries

/-!
# Addresses in a Listing

The addresses that a listing shows are those that the assembler would give.

A listing names addresses in two ways, in its labels and in its comments, and both come
from the walk. The assembler knows nothing of the walk: for it, an address is the number of
words of the lines before. A run of output is listed later than the instruction it begins
with, and where it ends depends on the labels in between, so that the two agree is a fact
about every way in which a run can be opened, continued and closed. Put together from the
end of the program backwards, entries only ever change at their beginning, and it is enough
that they stay in step there: `Tiles` says that each entry starts where the one before it
ends, and putting an instruction before some entries keeps it, whether the instruction
becomes an entry or joins one.

`room` is the assembler's own count for a line: the sizes of the lines that it expands to.

## Main definitions

* `Listing.room`: The number of words that the assembler gives a line.
* `Listing.extent`: The number of words that it gives the statements among some lines.
* `Listing.Tiles`: Entries that follow one another without a gap.
* `Listing.Addressed`: A listing whose addresses are those that the assembler gives.

## Theorems

* `Listing.room_textWith`, `Listing.room_printText`: What the assembler gives the lines of
  a listing.
* `Listing.Tiles.attach`: Putting an instruction before some entries.
* `Listing.extent_before`: The words before a line.
* `Listing.disassemble_addressed`: Every listing is addressed.
-/

namespace WordMachine

namespace Listing

/-! ### What the assembler counts -/

/-- The number of words that the assembler gives a line: those of the lines that it
    expands to. -/
def room (line : Text) : Nat :=
  match Shorthand.expandIfShorthand ⟨0, line⟩ with
  | .ok lines => (lines.map Line.size).sum
  | .error _ => 0

/-- The number of words that the assembler gives the statements among some lines. -/
def extent (lines : List Text) : Nat := ((lines.filter isStatement).map room).sum

/-- A line that is no shorthand has its own size. -/
theorem room_of_not_shorthand {line : Text} (h : Text.startsWith '!' line = false) :
    room line = (Line.mk 0 line).size := by
  have hexpand : Shorthand.expandIfShorthand ⟨0, line⟩ = .ok [⟨0, line⟩] := by
    rw [Shorthand.expandIfShorthand, Shorthand.isShorthand, h]
    rfl
  simp only [room, hexpand, List.map_cons, List.map_nil, List.sum_singleton]

/-- An instruction is given as many words as it has in memory. -/
theorem room_textWith {render : Opcode → Role → Word → Text}
    (hrender : ∀ op role w, Text.IsToken (render op role w)) {i : Instruction}
    (h : i.WellFormed) : room (i.textWith render) = i.size := by
  rw [room_of_not_shorthand (i.startsWith_textWith render (by decide)), Line.size,
    (i.statement_textWith hrender 0).2, i.size_eq]
  rw [Instruction.WellFormed] at h
  cases hop : i.opcode with
  | none =>
      simp only [hop] at h
      simp only [h, Statement.size, List.length_nil]
  | some op =>
      simp only [hop] at h
      simp only [h.2, Statement.size, Opcode.size_eq]

/-- A print shorthand is given two words for each character that it prints. -/
theorem room_printText {text : Text} (newline : Bool) (h : ∀ c ∈ text, IsPlain c) :
    room (printText text newline) = 2 * (printed text newline).length := by
  have hexpand : Shorthand.expandIfShorthand ⟨0, printText text newline⟩ =
      .ok ((printed text newline).map fun c => ⟨0, Shorthand.outLine c⟩) := by
    have hmark : Shorthand.isShorthand ⟨0, printText text newline⟩ = true := by
      cases newline <;> rfl
    -- What a run stands for does not depend on targets or options.
    rw [Shorthand.expandIfShorthand, if_pos hmark,
      expandLine_printText ⟨∅, ∅, ∅, ∅⟩ {} 0 newline h]
    cases newline <;> simp [Except.map, Body.statements, printed]
  have hsize : ∀ c, Line.size ⟨0, Shorthand.outLine c⟩ = Opcode.size .out := fun c =>
    @Line.size_of_name ⟨0, Shorthand.outLine c⟩ _ _ (Shorthand.words_outLine c)
  simp only [room, hexpand, List.map_map, Function.comp_def, hsize, List.map_const',
    List.sum_replicate_nat]
  exact Nat.mul_comm _ _

/-! ### Entries without gaps -/

/-- The number of words of the instructions that a body shows. -/
def Body.size : Body → Nat
  | .instruction i => i.size
  | .print text newline => 2 * (printed text newline).length

/-- Entries that follow one another without a gap, from an address on. -/
def Tiles : Nat → List Entry → Prop
  | _, [] => True
  | start, e :: rest => e.address = start ∧ Tiles (start + e.body.size) rest

/-- An instruction that is folded has two words. -/
theorem size_of_foldable? {i : Instruction} {c : Char} (h : foldable? i = some c) : i.size = 2 := by
  rcases foldable?_some h with ⟨code, _, hoperands, _, _⟩
  rw [i.size_eq, hoperands]
  rfl

/-- Entries still follow one another when an instruction is put before them that ends where
    they start. -/
theorem Tiles.attach {options : Options} {address : Nat} {labels : List Target} {i : Instruction}
    {entries : List Entry} (h : Tiles (address + i.size) entries) :
    Tiles address (Listing.attach options address labels i entries) := by
  unfold Listing.attach
  split
  · exact ⟨rfl, h⟩
  · rename_i c hfold
    have hsize := size_of_foldable? (Option.ite_none_right_eq_some.mp hfold).2
    rw [hsize] at h
    split
    · exact ⟨rfl, h⟩
    · split
      · -- The run after it begins two words later, and is two words shorter.
        rename_i next text newline rest
        rcases h with ⟨_, hrest⟩
        refine ⟨rfl, ?_⟩
        have hlength : address + Body.size (.print (c :: text) newline) =
            address + 2 + Body.size (.print text newline) := by
          simp only [Body.size, printed, List.cons_append, List.length_cons]
          omega
        rw [hlength]
        exact hrest
      · exact ⟨rfl, h⟩

/-- The address of an entry is the number of words of the entries before it. -/
theorem Tiles.address_eq {start : Nat} {before after : List Entry} {e : Entry}
    (h : Tiles start (before ++ e :: after)) :
    e.address = start + (before.map (·.body.size)).sum := by
  induction before generalizing start with
  | nil => exact h.1
  | cons first before ih =>
      rw [ih h.2, List.map_cons, List.sum_cons, Nat.add_assoc]

/-- The entries of a listing follow one another from address zero on. -/
theorem tiles_entries (m : Machine) (options : Options) : Tiles 0 (m.listing options).entries := by
  refine entries_induction m options (P := Tiles) (fun _ _ => trivial) ?_
  intro address entries _ ih
  rw [← m.size_decode] at ih
  exact ih.attach

/-! ### The words before a line -/

section Before

variable {m : Machine} {options : Options}

/-- The body of an entry is given as many words as it shows. -/
theorem room_body {e : Entry} (he : e ∈ (m.listing options).entries) :
    room (e.body.text (Survey.ofMachine m options) options) = e.body.size := by
  cases hcases : e.body with
  | instruction i =>
      rw [(exists_decode_of_instruction he hcases).2.1]
      exact room_textWith (Survey.isToken_operandText _ options)
        (Instruction.wellFormed_decode m.memory _)
  | print text newline =>
      have hplain := isPlain_of_mem_entries he
      rw [hcases] at hplain
      exact room_printText newline hplain

/-- The statements among the lines of some entries are what the entries show. -/
theorem extent_entries {es : List Entry} (h : ∀ e ∈ es, e ∈ (m.listing options).entries) :
    extent (es.flatMap (Entry.lines (Survey.ofMachine m options) options)) =
      (es.map (·.body.size)).sum := by
  have hfilter : (es.flatMap (Entry.lines (Survey.ofMachine m options) options)).filter
      isStatement = es.map (·.body.text (Survey.ofMachine m options) options) := by
    rw [List.filter_flatMap, List.map_eq_flatMap]
    exact List.flatMap_congr fun e _ => filter_isStatement_lines _ _ e
  rw [extent, hfilter, List.map_map]
  exact congrArg List.sum (List.map_congr_left fun e he => room_body (h e he))

/-- Of the lines of an entry, only the last is a statement, and so none before another. -/
theorem filter_isStatement_front {s : Survey} {e : Entry} {front back : List Text} {line : Text}
    (h : e.lines s options = front ++ line :: back) : front.filter isStatement = [] := by
  have hcomment : (e.comment options).filter isStatement = [] := by
    unfold Entry.comment
    split <;> rfl
  rcases Entry.split_cases h with ⟨ts, _, _, _, rfl, _⟩ | ⟨_, rfl, _⟩ | ⟨rfl, _⟩
  · exact filter_isStatement_labels ts
  · exact filter_isStatement_labels e.labels
  · rw [List.filter_append, filter_isStatement_labels, hcomment, List.nil_append]

/-- The words before a line of an entry are the address of the entry. -/
theorem extent_before {es es' : List Entry} {e : Entry} {front back : List Text} {line : Text}
    (hes : (m.listing options).entries = es ++ e :: es')
    (he : e.lines (Survey.ofMachine m options) options = front ++ line :: back) :
    extent ((Survey.ofMachine m options).unaligned.map unalignedComment ++
      (es.flatMap (Entry.lines (Survey.ofMachine m options) options) ++ front)) = e.address := by
  have hreports : ((Survey.ofMachine m options).unaligned.map unalignedComment).filter
      isStatement = [] := by
    refine List.filter_eq_nil_iff.mpr fun l hl => ?_
    rcases List.mem_map.mp hl with ⟨t, _, rfl⟩
    exact Bool.false_ne_true
  have hmem : ∀ e' ∈ es, e' ∈ (m.listing options).entries := by
    intro e' he'
    rw [hes]
    exact List.mem_append_left _ he'
  have haddress := (hes ▸ tiles_entries m options : Tiles 0 (es ++ e :: es')).address_eq
  rw [Nat.zero_add, ← extent_entries hmem] at haddress
  rw [haddress, extent, extent, List.filter_append, hreports, List.filter_append,
    filter_isStatement_front he, List.append_nil, List.nil_append]

/-- The labels of an entry are labels of its address. -/
theorem address_of_labels {es es' : List Entry} {e : Entry} {ts ts' : List Target} {t : Target}
    (hes : (m.listing options).entries = es ++ e :: es') (hts : e.labels = ts ++ t :: ts') :
    t.address = e.address := by
  have he : e ∈ (m.listing options).entries := hes ▸ List.mem_append_cons_self
  have ht : t ∈ e.labels := hts ▸ List.mem_append_cons_self
  rcases exists_shows_of_mem he with ⟨_, _, _, hshows, _⟩
  rw [hshows.labels] at ht
  exact ((Survey.mem_labelsAt_iff _ _ _).mp ht).1

end Before

/-! ### Telling lines apart -/

theorem addressComment_injective {n k : Nat} (h : addressComment n = addressComment k) : n = k := by
  simp only [addressComment, List.cons.injEq, true_and] at h
  exact Decimal.write_injective h

theorem label_ne_addressComment (t : Target) (n : Nat) : t.label ≠ addressComment n := by
  rw [t.label_eq]
  intro h
  cases h

/-- A report goes on with a letter, and an address with a digit. -/
theorem unalignedComment_ne_addressComment (t : Target) (n : Nat) :
    unalignedComment t ≠ addressComment n := by
  intro h
  have hrest : 'U' :: ("naligned ".toList ++ t.label) = Decimal.write n :=
    congrArg (List.drop 2) h
  have hdigit := Decimal.isDigit_of_mem_write (c := 'U') (n := n) (hrest ▸ List.mem_cons_self)
  exact absurd hdigit (by decide)

/-! ### The addresses of a listing -/

/-- A listing whose addresses are those that the assembler gives: the numbers of words of the
    statements before them. -/
structure Addressed (options : Options) (lines : List Text) : Prop where
  /-- A statement is an instruction, with its words in the table, a raw word, or a print
      shorthand, with two words for each character. -/
  counted : ∀ line ∈ lines, isStatement line = true →
    (∃ op operands, Text.words line = Opcode.name op :: operands ∧ room line = op.size) ∨
    (∃ word, Text.words line = [Opcode.rawName, word] ∧ room line = 1) ∨
    (∃ text, line = printText text false ∧ room line = 2 * text.length) ∨
    (∃ text, line = printText text true ∧ room line = 2 * text.length + 2)
  /-- A label is defined where it says. -/
  label : ∀ before line after, lines = before ++ line :: after →
    Text.startsWith ':' line = true → ∃ t : Target, line = t.label ∧ t.address = extent before
  /-- A comment gives the address at which it stands. -/
  comment : ∀ before n after, lines = before ++ addressComment n :: after → n = extent before
  /-- If addresses are shown, the one of a statement stands right before it. -/
  statement : options.addressComments = true → ∀ before line after,
    lines = before ++ line :: after → isStatement line = true →
      ∃ front, before = front ++ [addressComment (extent before)]
  /-- Labels stand before the address, with nothing but labels in between. -/
  labelled : options.addressComments = true → ∀ before after (t : Target),
    lines = before ++ t.label :: after → ∃ (ts : List Target) (line : Text) (rest : List Text),
      after = ts.map Target.label ++ addressComment t.address :: line :: rest ∧
        isStatement line = true

/-- What the body of an entry shows, and the room for it, is one of four things. -/
theorem counted_text {m : Machine} {options : Options} {e : Entry}
    (he : e ∈ (m.listing options).entries) :
    (∃ op operands, Text.words (e.body.text (Survey.ofMachine m options) options) =
        Opcode.name op :: operands ∧ e.body.size = op.size) ∨
    (∃ word, Text.words (e.body.text (Survey.ofMachine m options) options) =
        [Opcode.rawName, word] ∧ e.body.size = 1) ∨
    (∃ text, e.body.text (Survey.ofMachine m options) options = printText text false ∧
        e.body.size = 2 * text.length) ∨
    (∃ text, e.body.text (Survey.ofMachine m options) options = printText text true ∧
        e.body.size = 2 * text.length + 2) := by
  cases hcases : e.body with
  | instruction i =>
      have hwords : Text.words (i.textWith ((Survey.ofMachine m options).operandText options)) =
          i.tokensWith ((Survey.ofMachine m options).operandText options) :=
        i.tokens_textWith (Survey.isToken_operandText _ options) 0
      -- Only a decoded instruction is known to have as many operands as its opcode takes.
      have hformed : i.WellFormed := by
        rw [(exists_decode_of_instruction he hcases).2.1]
        exact Instruction.wellFormed_decode m.memory _
      simp only [Body.text, Body.size, hwords, i.size_eq]
      unfold Instruction.tokensWith Instruction.WellFormed at *
      cases hop : i.opcode with
      | none =>
          simp only [hop] at hformed
          exact Or.inr (Or.inl ⟨_, rfl, by rw [hformed]; rfl⟩)
      | some op =>
          simp only [hop] at hformed
          exact Or.inl ⟨op, _, rfl, by rw [hformed.2, op.size_eq]⟩
  | print text newline =>
      simp only [Body.text, Body.size, printed]
      cases newline with
      | false => exact Or.inr (Or.inr (Or.inl ⟨text, rfl, by simp⟩))
      | true => exact Or.inr (Or.inr (Or.inr ⟨text, rfl, by simp; omega⟩))

/-- The addresses of a listing, in labels and in comments, are the addresses that the
    assembler would give. -/
theorem disassemble_addressed (m : Machine) (options : Options) :
    Addressed options (disassemble m options) where
  counted := by
    intro line hline hstatement
    rcases exists_entry_of_isStatement hline hstatement with ⟨e, he, rfl⟩
    rw [room_body he]
    exact counted_text he
  label := by
    intro before line after hsplit hlabel
    -- The line is a report or stands in an entry, and there it is a label, the comment or
    -- the statement; only the case of the right kind survives.
    rcases exists_entry_of_split hsplit with ⟨t, _, rfl⟩ | ⟨es, e, es', front, back, hes, he, rfl, _⟩
    · cases hlabel
    · rcases Entry.split_cases he with ⟨ts, t, ts', hts, _, rfl, _⟩ | ⟨_, _, rfl, _⟩ | ⟨_, rfl, _⟩
      · refine ⟨t, rfl, ?_⟩
        rw [extent_before hes he]
        exact address_of_labels hes hts
      · cases hlabel
      · rw [(startsWith_of_isStatement (isStatement_text _ _ e.body)).2] at hlabel
        cases hlabel
  comment := by
    intro before n after hsplit
    rcases exists_entry_of_split hsplit with ⟨t, _, ht⟩ | ⟨es, e, es', front, back, hes, he, rfl, _⟩
    · exact absurd ht.symm (unalignedComment_ne_addressComment t n)
    · rw [extent_before hes he]
      rcases Entry.split_cases he with ⟨_, t, _, _, _, ht, _⟩ | ⟨_, _, hn, _⟩ | ⟨_, htext, _⟩
      · exact absurd ht.symm (label_ne_addressComment t n)
      · exact addressComment_injective hn
      · have hstatement := isStatement_text (Survey.ofMachine m options) options e.body
        rw [← htext] at hstatement
        cases hstatement
  statement := by
    intro hon before line after hsplit hstatement
    rcases exists_entry_of_split hsplit with ⟨t, _, rfl⟩ | ⟨es, e, es', front, back, hes, he, rfl, _⟩
    · cases hstatement
    · rw [extent_before hes he]
      rcases Entry.split_cases he with ⟨_, t, _, _, _, rfl, _⟩ | ⟨_, _, rfl, _⟩ | ⟨rfl, _, _⟩
      · rw [isStatement_label] at hstatement
        cases hstatement
      · cases hstatement
      · rw [Entry.comment, if_pos hon, ← List.append_assoc, ← List.append_assoc]
        exact ⟨_, rfl⟩
  labelled := by
    intro hon before after t hsplit
    rcases exists_entry_of_split hsplit with ⟨u, _, hu⟩ | ⟨es, e, es', front, back, hes, he, rfl, rfl⟩
    · rw [t.label_eq] at hu
      cases hu
    · rcases Entry.split_cases he with ⟨ts, u, ts', hts, _, hu, rfl⟩ | ⟨_, _, hn, _⟩ | ⟨_, htext, _⟩
      · cases label_injective hu
        rw [address_of_labels hes hts, Entry.comment, if_pos hon]
        refine ⟨ts', _, es'.flatMap (Entry.lines (Survey.ofMachine m options) options), ?_,
          isStatement_text (Survey.ofMachine m options) options e.body⟩
        simp only [List.append_assoc, List.cons_append, List.nil_append]
      · exact absurd hn (label_ne_addressComment t _)
      · have hstatement := isStatement_text (Survey.ofMachine m options) options e.body
        rw [← htext, isStatement_label] at hstatement
        cases hstatement

end Listing

end WordMachine
