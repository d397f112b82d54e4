import Mathlib.Data.List.Chain
import WordMachine.Proofs.Listing.Addresses

/-!
# Folded Output

Output is folded as far as it can be.

With folding on, no output of a character that a print shorthand can hold is listed as an
instruction, and no two print shorthands stand side by side that could be one. The first is
about single entries: an instruction is shown as it is only if it cannot be folded. The
second is about neighbours. An instruction that is put before some entries joins the run
after it whenever it may, that is, if it is no line break and the run has no label, so two
entries of which the second could have joined the first are never made. `Joins` is that
relation between neighbours, and the listing keeps clear of it entry by entry and then line
by line, where a label in between is a line of its own.

What a run folds is a stretch of the walk, one instruction for each character that the line
prints, and only the first of them can have labels.

## Main definitions

* `Listing.Joins`: Two neighbouring runs that could be one.
* `Listing.Folded`: A listing whose output is folded as far as it can be.

## Theorems

* `Listing.not_joins_attach`: Putting an instruction before some entries.
* `Listing.isChain_code`: From entries to lines.
* `Listing.disassemble_folded`: Every listing with folding is folded as far as it can be.
-/

namespace WordMachine

/-- What is written for an operand word is read as no other word. -/
theorem Operand.eq_of_read_wordText {w v : Word} (h : Decimal.read (wordText w) = .ok v) :
    v = w := by
  unfold wordText at h
  cases hw : ofWord? w with
  | none =>
      rw [hw] at h
      exact Encoding.eq_of_parse_or_read (Or.inr h)
  | some operand =>
      rw [hw] at h
      cases operand with
      | literal value =>
          rw [← toWord_of_ofWord? hw]
          exact Encoding.eq_of_parse_or_read (Or.inr h)
      | register index =>
          -- The name of a register is no number.
          have htoken := (isToken_text (.register index)).2
          have hdenotes := (Decimal.read_eq_ok_iff_of_not_isBlank htoken v).mp h
          exact absurd (hdenotes.startsWith (c := 'r') (by decide)) (by simp [text, Text.startsWith])

namespace Listing

/-! ### Neighbours -/

/-- Two neighbouring runs that could be one: the first does not end its line, and the second
    has no labels. -/
def Joins (e next : Entry) : Prop :=
  next.labels = [] ∧ (∃ text, e.body = .print text false) ∧
    ∃ text newline, next.body = .print text newline

/-- No two neighbours could be one after an instruction is put before some entries, if none
    could before. -/
theorem not_joins_attach {options : Options} {address : Nat} {labels : List Target}
    {i : Instruction} {entries : List Entry}
    (h : entries.IsChain fun e next => ¬ Joins e next) :
    (attach options address labels i entries).IsChain fun e next => ¬ Joins e next := by
  unfold attach
  split
  · refine List.isChain_cons.mpr ⟨?_, h⟩
    rintro next _ ⟨_, ⟨_, hbody⟩, _⟩
    cases hbody
  · rename_i c _
    split
    · -- A run that ends its line joins nothing.
      refine List.isChain_cons.mpr ⟨?_, h⟩
      rintro next _ ⟨_, ⟨_, hbody⟩, _⟩
      cases hbody
    · split
      · -- The longer run joins what the shorter one does.
        rcases List.isChain_cons.mp h with ⟨hnext, hrest⟩
        refine List.isChain_cons.mpr ⟨?_, hrest⟩
        rintro next hmem ⟨hlabels, ⟨_, hbody⟩, hprint⟩
        cases hbody
        exact hnext next hmem ⟨hlabels, ⟨_, rfl⟩, hprint⟩
      · -- The run after it has labels, if it is a run.
        rename_i hno
        refine List.isChain_cons.mpr ⟨?_, h⟩
        rintro ⟨next, nextLabels, body⟩ hmem ⟨hlabels, _, text, newline, hbody⟩
        cases hlabels
        cases hbody
        exact hno next text newline entries.tail (List.cons_head?_tail hmem).symm

theorem isChain_entries (m : Machine) (options : Options) :
    (m.listing options).entries.IsChain fun e next => ¬ Joins e next :=
  entries_induction m options (P := fun _ entries => entries.IsChain fun e next => ¬ Joins e next)
    (fun _ _ => List.isChain_nil) fun _ _ _ ih => not_joins_attach ih

/-! ### Neighbouring lines -/

/-- The first word of a line. -/
def headWord (line : Text) : Text := (Line.mk 0 line).head

theorem headWord_printText (text : Text) (newline : Bool) :
    headWord (printText text newline) = printName newline :=
  head_printText 0 text newline

theorem headWord_label (t : Target) : headWord t.label = t.label := by
  rw [headWord, (t.head_label 0).2, t.label_eq]

/-- A body that is listed as a print shorthand is a run. -/
theorem exists_print_of_headWord {s : Survey} {options : Options} {body : Body} {newline : Bool}
    (h : headWord (body.text s options) = printName newline) :
    ∃ text, body = .print text newline := by
  cases body with
  | instruction i =>
      rw [headWord, Body.text, i.head_textWith (s.isToken_operandText options)] at h
      -- No instruction has such a name.
      rw [i.name_eq] at h
      cases hop : i.opcode with
      | none =>
          rw [hop] at h
          cases newline <;> exact absurd h (by decide)
      | some op =>
          rw [hop] at h
          cases newline <;> cases op <;> exact absurd h (by decide)
  | print text newline' =>
      rw [Body.text, headWord_printText] at h
      cases newline <;> cases newline' <;> first | exact ⟨text, rfl⟩ | exact absurd h (by decide)

/-- The line after a print shorthand that does not end its line begins no print shorthand. -/
def Apart (line next : Text) : Prop :=
  headWord line = Shorthand.printName →
    headWord next ≠ Shorthand.printName ∧ headWord next ≠ Shorthand.printlnName

/-- The name of a print shorthand is no label. -/
theorem headWord_label_ne (t : Target) (newline : Bool) : headWord t.label ≠ printName newline := by
  rw [headWord_label, t.label_eq]
  cases newline <;> exact fun h => absurd (List.cons.inj h).1 (by decide)

/-- A label is apart from whatever comes next. -/
theorem apart_label (t : Target) (next : Text) : Apart t.label next :=
  fun h => absurd h (headWord_label_ne t false)

/-- What comes before a label is apart from it. -/
theorem Apart.label (line : Text) (t : Target) : Apart line t.label :=
  fun _ => ⟨headWord_label_ne t false, headWord_label_ne t true⟩

/-- What an entry shows is apart from the first line of the next one, if the two are no runs
    that could be one. -/
theorem apart_text {s : Survey} {options : Options} {e next : Entry} (h : ¬ Joins e next) {line : Text}
    (hline : line ∈ (next.code s options).head?) : Apart (e.body.text s options) line := by
  rw [Entry.code] at hline
  cases hlabels : next.labels with
  | cons t rest =>
      rw [hlabels] at hline
      cases hline
      exact Apart.label _ t
  | nil =>
      rw [hlabels] at hline
      cases hline
      intro hprint
      have hrun : headWord (e.body.text s options) = printName false := hprint
      have hcontra : ∀ newline, headWord (next.body.text s options) ≠ printName newline :=
        fun newline hnext => h ⟨hlabels, exists_print_of_headWord hrun,
          (exists_print_of_headWord hnext).imp fun _ hbody => ⟨newline, hbody⟩⟩
      exact ⟨hcontra false, hcontra true⟩

/-- If no two neighbours could be one, the lines of entries that are no comments keep apart
    too. -/
theorem isChain_code {s : Survey} {options : Options} {entries : List Entry}
    (h : entries.IsChain fun e next => ¬ Joins e next) :
    (entries.flatMap (Entry.code s options)).IsChain Apart := by
  induction entries with
  | nil => exact List.isChain_nil
  | cons e rest ih =>
      rcases List.isChain_cons.mp h with ⟨hnext, hrest⟩
      rw [List.flatMap_cons, Entry.code, List.append_assoc, List.singleton_append]
      -- The labels of an entry, then what it shows, then the lines of the next one.
      refine List.isChain_append.mpr ⟨?_, ?_, ?_⟩
      · refine List.Pairwise.isChain (List.pairwise_map.mpr ?_)
        exact List.pairwise_of_forall fun t _ => apart_label t _
      · refine List.isChain_cons.mpr ⟨?_, ih hrest⟩
        intro line hline
        cases rest with
        | nil => cases hline
        | cons next rest =>
            rw [List.flatMap_cons, List.head?_append_of_ne_nil _ (by simp [Entry.code])] at hline
            exact apart_text (hnext next rfl) hline
      · intro l hl next _
        rcases List.mem_map.mp (List.mem_of_getLast? hl) with ⟨t, _, rfl⟩
        exact apart_label t next

/-! ### What is folded -/

/-- Output of a character that a print shorthand can hold is folded. -/
theorem foldable?_ne_none {i : Instruction} {code : Word} (hop : i.opcode = some .out)
    (hoperands : i.operands = [code])
    (hcode : code.toNat = 10 ∨ 32 ≤ code.toNat ∧ code.toNat ≤ 126 ∧ code.toNat ≠ 96) :
    foldable? i ≠ none := by
  have hfold : isFoldable code = true := by
    simpa [isFoldable, UInt16.le_iff_toNat_le, ← UInt16.toNat_inj, Shorthand.quote, and_assoc]
      using hcode
  simp only [foldable?, hop, hoperands, hfold, if_true]
  exact Option.some_ne_none _

/-- A folded instruction is the word of output and the code of its character. -/
theorem words_of_foldable? {m : Machine} {address : Nat} {c : Char}
    (h : foldable? (m.decode (UInt16.ofNat address)) = some c) :
    (m.decode (UInt16.ofNat address)).words = [Opcode.word .out, UInt16.ofNat c.toNat] := by
  rcases foldable?_some h with ⟨code, hop, hoperands, hcode, _⟩
  have hformed : (m.decode (UInt16.ofNat address)).WellFormed :=
    Instruction.wellFormed_decode m.memory _
  rw [Instruction.WellFormed, hop] at hformed
  rw [Instruction.words, hformed.1, hoperands, ← hcode, UInt16.ofNat_toNat]

theorem printText_injective {text text' : Text} {newline newline' : Bool}
    (h : printText text newline = printText text' newline') :
    text = text' ∧ newline = newline' := by
  have hname : newline = newline' := by
    have hhead := congrArg headWord h
    rw [headWord_printText, headWord_printText] at hhead
    cases newline <;> cases newline' <;> first | rfl | exact absurd hhead (by decide)
  rw [hname, printText_eq, printText_eq] at h
  have hrest := List.append_cancel_left h
  exact ⟨List.append_cancel_right (List.cons.inj (List.cons.inj hrest).2).2, hname⟩

/-- A line of a listing whose first word is no comment and no label is a statement. -/
theorem isStatement_of_headWord {m : Machine} {options : Options} {line : Text}
    (hline : line ∈ disassemble m options) (hcomment : Text.startsWith '#' (headWord line) = false)
    (hlabel : Text.startsWith ':' (headWord line) = false) : isStatement line = true := by
  have hsolid : Text.IsSolid (Line.mk 0 line).text := (isLine_of_mem_lines hline).1
  rw [headWord, Line.startsWith_head hsolid] at hcomment hlabel
  rw [isStatement, hcomment, hlabel]
  rfl

/-- An instruction that is listed as output of one operand is that. -/
theorem exists_code_of_words {s : Survey} {options : Options} {i : Instruction} {token : Text}
    (h : i.WellFormed)
    (hwords : Text.words (i.textWith (s.operandText options)) = [Opcode.name .out, token]) :
    ∃ code, i.opcode = some .out ∧ i.operands = [code] ∧ token = Operand.wordText code := by
  have htokens : i.tokensWith (s.operandText options) = [Opcode.name .out, token] :=
    (i.tokens_textWith (s.isToken_operandText options) 0).symm.trans hwords
  rw [Instruction.WellFormed] at h
  unfold Instruction.tokensWith at htokens
  cases hop : i.opcode with
  | none =>
      rw [hop] at htokens
      exact absurd (List.cons.inj htokens).1 (by decide)
  | some op =>
      simp only [hop] at htokens h
      have hout : op = .out := by
        have hname := op.ofMnemonic?_name
        rw [(List.cons.inj htokens).1, Opcode.ofMnemonic?_name] at hname
        exact (Option.some.inj hname).symm
      rw [hout] at htokens h
      rcases List.length_eq_one_iff.mp h.2 with ⟨code, hcode⟩
      rw [hcode] at htokens
      exact ⟨code, by rw [hout], hcode, (List.cons.inj (List.cons.inj htokens).2).1.symm⟩

/-- A listing whose output is folded as far as it can be. -/
structure Folded (m : Machine) (lines : List Text) : Prop where
  /-- No output of a line break, or of a printable character other than the quote, is left. -/
  complete : ∀ line ∈ lines, ∀ token code, Text.words line = [Opcode.name .out, token] →
    Decimal.read token = .ok code →
      ¬ (code.toNat = 10 ∨ 32 ≤ code.toNat ∧ code.toNat ≤ 126 ∧ code.toNat ≠ 96)
  /-- A line to print that does not end its line prints something. -/
  nonempty : ∀ line ∈ lines, headWord line = Shorthand.printName →
    ∃ text, line = printText text false ∧ text ≠ []
  /-- Comments aside, no line to print follows on one that does not end its line. -/
  apart : (lines.filter Line.isMeaningful).IsChain Apart
  /-- A line to print stands for instructions that follow one another in the walk, the first
      of them where the line stands, and no label is defined at any of the others. -/
  stretch : ∀ before text newline after, lines = before ++ printText text newline :: after →
    ∃ front addresses back, m.boundaries = front ++ addresses ++ back ∧
      addresses.head? = some (extent before) ∧
      List.Forall₂ (fun address c => (m.decode (UInt16.ofNat address)).words =
        [Opcode.word .out, UInt16.ofNat c.toNat]) addresses (printed text newline) ∧
      ∀ t : Target, t.address ∈ addresses.tail → t.label ∉ lines

/-- With folding on, the output of every listing is folded as far as it can be. -/
theorem disassemble_folded {m : Machine} {options : Options} (hfold : options.foldOutput = true) :
    Folded m (disassemble m options) where
  complete := by
    intro line hline token code hwords hread hcode
    have hhead : headWord line = Opcode.name .out := by
      rw [headWord, Line.head, Line.tokens, hwords]
      rfl
    have hstatement := isStatement_of_headWord hline (by rw [hhead]; rfl) (by rw [hhead]; rfl)
    rcases exists_entry_of_isStatement hline hstatement with ⟨e, he, rfl⟩
    cases hcases : e.body with
    | instruction i =>
        rw [hcases] at hwords
        rcases exists_decode_of_instruction he hcases with ⟨_, hi, hnone⟩
        have hformed : i.WellFormed := hi ▸ Instruction.wellFormed_decode m.memory _
        rcases exists_code_of_words hformed hwords with ⟨w, hop, hoperands, rfl⟩
        rw [Operand.eq_of_read_wordText hread] at hcode
        exact foldable?_ne_none hop hoperands hcode (hnone hfold)
    | print text newline =>
        rw [hcases] at hhead
        rw [Body.text, headWord_printText] at hhead
        cases newline <;> exact absurd hhead (by decide)
  nonempty := by
    intro line hline hhead
    have hstatement := isStatement_of_headWord hline (by rw [hhead]; rfl) (by rw [hhead]; rfl)
    rcases exists_entry_of_isStatement hline hstatement with ⟨e, he, rfl⟩
    have hrun : headWord (e.body.text (Survey.ofMachine m options) options) = printName false := hhead
    rcases exists_print_of_headWord hrun with ⟨text, hbody⟩
    rcases exists_shows_of_mem he with ⟨_, addresses, _, hshows, _⟩
    refine ⟨text, by rw [hbody]; rfl, ?_⟩
    -- The entry shows the instruction at its own address.
    intro hnil
    have hcodes := hshows.body
    rw [hbody, hnil] at hcodes
    have hempty : addresses = [] := List.forall₂_nil_right_iff.mp hcodes
    have hfirst := hshows.first
    rw [hempty] at hfirst
    cases hfirst
  apart := by
    rw [filter_isMeaningful_disassemble]
    exact isChain_code (isChain_entries m options)
  stretch := by
    intro before text newline after hsplit
    rcases exists_entry_of_split hsplit with ⟨t, _, ht⟩ | ⟨es, e, es', front, back, hes, he, rfl, _⟩
    · cases newline <;> cases ht
    · rw [extent_before hes he]
      rcases Entry.split_cases he with ⟨_, t, _, _, _, ht, _⟩ | ⟨_, _, ht, _⟩ | ⟨_, htext, _⟩
      · rw [t.label_eq] at ht
        cases newline <;> cases ht
      · cases newline <;> cases ht
      · have hentry : e ∈ (m.listing options).entries := by
          rw [hes]
          exact List.mem_append_right _ List.mem_cons_self
        have hhead := congrArg headWord htext
        rw [headWord_printText] at hhead
        rcases exists_print_of_headWord hhead.symm with ⟨text', hbody⟩
        rw [hbody] at htext
        cases (printText_injective htext).1
        rcases exists_shows_of_mem hentry with ⟨before, addresses, after, hshows, hwalk⟩
        have hcodes := hshows.body
        rw [hbody] at hcodes
        refine ⟨before, addresses, after, hwalk, hshows.first,
          hcodes.imp fun _ _ => words_of_foldable?, fun t ht hdefined => ?_⟩
        have hlabel := (label_mem_iff t).mp hdefined
        rw [hshows.unlabelled _ ht] at hlabel
        exact absurd hlabel.2 List.not_mem_nil

/-- A greeting that is jumped to: with everything shown, its three characters are one
    line. -/
theorem disassemble_folded_greeting :
    ∃ m, Machine.ofWords [6, 2, 19, 72, 19, 105, 19, 10, 0] = .ok m ∧
      Options.everything.foldOutput = true ∧
      disassemble m .everything =
        ["# 0".toList, "JMP :jump-2".toList, ":jump-2".toList, "# 2".toList,
          printText "Hi".toList true, "# 8".toList, "HALT".toList] ∧
      Folded m (disassemble m .everything) := by
  obtain ⟨m, hload⟩ : ∃ m, Machine.ofWords [6, 2, 19, 72, 19, 105, 19, 10, 0] = .ok m :=
    ⟨_, Machine.ofWords_of_le (by decide)⟩
  rcases Machine.read_of_ofWords hload with ⟨hcount, hread⟩
  change m.wordCount = 9 at hcount
  -- The walk, one instruction after the other.
  have hsizes : 0 + m.sizeAt (UInt16.ofNat 0) = 2 ∧ 2 + m.sizeAt (UInt16.ofNat 2) = 4 ∧
      4 + m.sizeAt (UInt16.ofNat 4) = 6 ∧ 6 + m.sizeAt (UInt16.ofNat 6) = 8 ∧
      8 + m.sizeAt (UInt16.ofNat 8) = 9 := by
    simp only [Machine.sizeAt, Instruction.sizeAt, hread]
    decide
  rcases hsizes with ⟨h0, h2, h4, h6, h8⟩
  have hwalk : m.boundaries = [0, 2, 4, 6, 8] := by
    rw [Machine.boundaries, Machine.walk_of_lt (by omega), h0, Machine.walk_of_lt (by omega), h2,
      Machine.walk_of_lt (by omega), h4, Machine.walk_of_lt (by omega), h6,
      Machine.walk_of_lt (by omega), h8, Machine.walk_of_le (by omega)]
  have hdecode : m.boundaries.map (fun address => m.decode (UInt16.ofNat address)) =
      [.ofParts 0 6 (some .jmp) [2], .ofParts 2 19 (some .out) [72],
        .ofParts 4 19 (some .out) [105], .ofParts 6 19 (some .out) [10],
        .ofParts 8 0 (some .halt) []] := by
    rw [hwalk]
    simp only [Machine.decode, Instruction.decode, Instruction.operandWords, hread]
    rfl
  rw [hwalk] at hdecode
  simp only [List.map_cons, List.map_nil, List.cons.injEq, and_true] at hdecode
  rcases hdecode with ⟨hd0, hd2, hd4, hd6, hd8⟩
  refine ⟨m, hload, rfl, ?_, disassemble_folded rfl⟩
  simp only [disassemble_eq, lines, Machine.listing, Survey.ofMachine, hwalk, List.flatMap_cons,
    List.flatMap_nil, List.foldr_cons, List.foldr_nil, hd0, hd2, hd4, hd6, hd8]
  decide +kernel

end Listing

end WordMachine
