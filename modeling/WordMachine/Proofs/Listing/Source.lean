import WordMachine.Proofs.Assembly.Passes
import WordMachine.Proofs.Listing.Runs

/-!
# Reading a Listing

What the first passes of the assembler make of a listing.

Every line of a listing begins and ends with a character that shows and holds no line
break, so the source that joins the lines is cut into the same lines again, and
trimming them does nothing. The comments are left out, there are no declarations, and
a print shorthand expands to the output instructions it was folded from. What is left
after the expansion is, line by line, the statements of the walk.

Expansion gives lines numbers, and a listing has none. `Shorthand.Expands` therefore
relates texts to texts, for lines with any numbers.

## Main definitions

* `Text.IsLine`: A text that is read back as a line.
* `Shorthand.Expands`: Texts that expand to other texts, whatever their numbers.
* `Instruction.tokensWith`: The words of an instruction as source text.

## Theorems

* `Line.text_ofSource`: The lines that are read from a source.
* `Shorthand.expands_flatMap`: Expansion part by part.
* `Listing.expands_printText`: What a print shorthand expands to.
* `Listing.isLine_of_mem_lines`: The lines of a listing.
* `Listing.exists_expanded`: What a listing expands to.
-/

namespace WordMachine

namespace Text

/-- A text that is read back as a line: it begins and ends with characters that show,
    and holds no line break. -/
def IsLine (t : Text) : Prop := IsSolid t ∧ '\n' ∉ t

theorem isLine_unwords {ts : List Text} (hne : ts ≠ []) (h : ∀ t ∈ ts, IsToken t) :
    IsLine (unwords ts) :=
  ⟨isSolid_unwords hne h, newline_not_mem_unwords h⟩

theorem isLine_of_isToken {t : Text} (h : IsToken t) : IsLine t := by
  have hline := isLine_unwords (List.cons_ne_nil t []) fun u hu => by
    rw [List.mem_singleton.mp hu]
    exact h
  simpa [unwords] using hline

theorem ne_nil_of_isSolid {t : Text} (h : IsSolid t) : t ≠ [] := by
  rintro rfl
  rcases h with ⟨⟨c, hc, _⟩, _⟩
  cases hc

end Text

namespace Line

/-- The lines that are read from a source that joins lines are the meaningful ones
    among them. -/
theorem text_ofSource {ls : List Text} (h : ∀ l ∈ ls, Text.IsLine l) :
    (ofSource (Text.unlines ls)).map (·.text) = ls.filter isMeaningful := by
  have hlines : Text.lines (Text.unlines ls) = ls :=
    Text.lines_unlines fun l hl => ⟨Text.ne_nil_of_isSolid (h l hl).1, (h l hl).2⟩
  rw [ofSource, numbered, hlines]
  -- The numbers do not matter, so the induction is over any first number.
  generalize 1 = first
  induction ls generalizing first with
  | nil => rfl
  | cons l rest ih =>
      have hrest : ∀ l ∈ rest, Text.IsLine l := fun x hx => h x (List.mem_cons_of_mem _ hx)
      have htail := ih hrest
        (Text.lines_unlines fun x hx => ⟨Text.ne_nil_of_isSolid (hrest x hx).1, (hrest x hx).2⟩)
        (first + 1)
      have htrim : Text.trim l = l := Text.trim_of_isSolid (h l List.mem_cons_self).1
      rw [List.zipIdx_cons, List.map_cons, List.filter_cons, List.filter_cons]
      simp only [htrim]
      by_cases hl : isMeaningful l
      · rw [if_pos hl, if_pos hl, List.map_cons, htail]
      · rw [if_neg hl, if_neg hl, htail]

end Line

namespace Declaration

/-- A source without declarations is all code. -/
theorem extract_of_forall_not {lines : List Line} (h : ∀ line ∈ lines, isDeclaration line = false) :
    extract lines = .ok (lines, []) := by
  have hnone : lines.filter isDeclaration = [] :=
    List.filter_eq_nil_iff.mpr fun line hline => by simp [h line hline]
  have hall : lines.filter (!isDeclaration ·) = lines :=
    List.filter_eq_self.mpr fun line hline => by simp [h line hline]
  rw [extract_eq_ok_iff, hnone, hall]
  exact ⟨rfl, rfl⟩

end Declaration

namespace Shorthand

/-- Lines with these texts expand to lines with those texts, whatever their numbers. -/
def Expands (texts statements : List Text) : Prop :=
  ∀ lines : List Line, lines.map (·.text) = texts →
    ∃ expanded, expand lines = .ok expanded ∧ expanded.map (·.text) = statements

theorem expands_nil : Expands [] [] := by
  intro lines h
  rw [List.map_eq_nil_iff.mp h]
  exact ⟨[], rfl, rfl⟩

theorem Expands.append {texts texts' statements statements' : List Text}
    (h : Expands texts statements) (h' : Expands texts' statements') :
    Expands (texts ++ texts') (statements ++ statements') := by
  intro lines hlines
  rcases List.map_eq_append_iff.mp hlines with ⟨front, back, rfl, hfront, hback⟩
  -- Each half expands by itself, and the parts of the whole are those of the halves.
  rcases h front hfront with ⟨expanded, hexpand, htexts⟩
  rcases h' back hback with ⟨expanded', hexpand', htexts'⟩
  rcases (expand_eq_ok_iff _ _).mp hexpand with ⟨parts, hparts, rfl⟩
  rcases (expand_eq_ok_iff _ _).mp hexpand' with ⟨parts', hparts', rfl⟩
  refine ⟨parts.flatten ++ parts'.flatten, ?_, by rw [List.map_append, htexts, htexts']⟩
  exact (expand_eq_ok_iff _ _).mpr ⟨parts ++ parts', List.rel_append hparts hparts',
    List.flatten_append⟩

/-- A source is expanded part by part. -/
theorem expands_flatMap {α : Type} {xs : List α} {texts statements : α → List Text}
    (h : ∀ x ∈ xs, Expands (texts x) (statements x)) :
    Expands (xs.flatMap texts) (xs.flatMap statements) := by
  induction xs with
  | nil => exact expands_nil
  | cons x rest ih =>
      rw [List.flatMap_cons, List.flatMap_cons]
      exact (h x List.mem_cons_self).append (ih fun y hy => h y (List.mem_cons_of_mem _ hy))

/-- A line expands by itself. -/
theorem expands_singleton {text : Text} {statements : List Text}
    (h : ∀ number, expandIfShorthand ⟨number, text⟩ = .ok (statements.map (⟨number, ·⟩))) :
    Expands [text] statements := by
  intro lines hlines
  rcases List.map_eq_singleton_iff.mp hlines with ⟨⟨number, text'⟩, rfl, htext⟩
  cases htext
  refine ⟨statements.map (⟨number, ·⟩), ?_, by rw [List.map_map]; exact List.map_id _⟩
  exact (expand_eq_ok_iff _ _).mpr
    ⟨[_], List.Forall₂.cons (h number) List.Forall₂.nil, List.flatten_singleton⟩

/-- The instruction that prints a character has one operand. -/
theorem words_outLine (c : Char) :
    Text.words (outLine c) = [Opcode.name .out, Decimal.write c.toNat] := by
  refine Text.words_unwords ?_
  rw [List.forall_mem_cons, List.forall_mem_singleton]
  exact ⟨Opcode.isToken_name .out, Decimal.isToken_write _⟩

/-- A line that is no shorthand stays. -/
theorem expands_self {text : Text} (h : Text.startsWith '!' text = false) :
    Expands [text] [text] := by
  refine expands_singleton fun number => ?_
  rw [expandIfShorthand, isShorthand, h]
  rfl

end Shorthand

namespace Instruction

/-- The words of an instruction as source text. -/
def tokensWith (render : Opcode → Role → Word → Text) (i : Instruction) : List Text :=
  match i.opcode with
  | some op => op.name :: List.zipWith (render op) op.roles i.operands
  | none => [Opcode.rawName, Decimal.writeWord i.word]

theorem textWith_eq (render : Opcode → Role → Word → Text) (i : Instruction) :
    i.textWith render = Text.unwords (i.tokensWith render) := by
  unfold textWith tokensWith
  rw [i.name_eq]
  cases i.opcode <;> rfl

/-- The first word of an instruction is its name. -/
theorem exists_tokensWith (render : Opcode → Role → Word → Text) (i : Instruction) :
    ∃ operands, i.tokensWith render = i.name :: operands := by
  rw [tokensWith, i.name_eq]
  cases i.opcode with
  | none => exact ⟨_, rfl⟩
  | some op => exact ⟨_, rfl⟩

theorem isToken_name (i : Instruction) : Text.IsToken i.name := by
  rw [i.name_eq]
  cases i.opcode with
  | none => exact Opcode.isToken_rawName
  | some op => exact op.isToken_name

/-- The words of an instruction are tokens if its operands are written as tokens. -/
theorem isToken_of_mem_tokensWith {render : Opcode → Role → Word → Text} {i : Instruction}
    (hrender : ∀ op role w, Text.IsToken (render op role w)) {t : Text}
    (h : t ∈ i.tokensWith render) : Text.IsToken t := by
  unfold tokensWith at h
  split at h
  · rename_i op _
    rcases List.mem_cons.mp h with rfl | h
    · exact op.isToken_name
    · rcases List.mem_iff_getElem.mp h with ⟨n, hn, rfl⟩
      rw [List.getElem_zipWith]
      exact hrender _ _ _
  · rcases List.mem_cons.mp h with rfl | h
    · exact Opcode.isToken_rawName
    · rw [List.mem_singleton.mp h]
      exact Decimal.isToken_write _

/-- An instruction begins with none of the characters that mark other lines. -/
theorem startsWith_textWith (render : Opcode → Role → Word → Text) (i : Instruction) {c : Char}
    (hc : c ∈ ['#', '.', '!', ':']) : Text.startsWith c (i.textWith render) = false := by
  rcases i.exists_tokensWith render with ⟨operands, htokens⟩
  rw [textWith_eq, htokens, Text.startsWith_unwords _ _ i.isToken_name.1, i.name_eq]
  simp only [List.mem_cons, List.not_mem_nil, or_false] at hc
  cases i.opcode with
  | none => rcases hc with rfl | rfl | rfl | rfl <;> rfl
  | some op => rcases hc with rfl | rfl | rfl | rfl <;> cases op <;> rfl

end Instruction

namespace Survey

/-- An operand of a listing is a token. -/
theorem isToken_operandText (s : Survey) (options : Listing.Options) (op : Opcode) (role : Role)
    (w : Word) : Text.IsToken (s.operandText options op role w) := by
  unfold operandText
  split
  · rename_i target _
    split
    · exact target.isToken_label
    · exact Operand.isToken_wordText w
  · exact Operand.isToken_wordText w

end Survey

namespace Listing

/-- The name of the print shorthand of a run. -/
def printName (newline : Bool) : Text :=
  if newline then Shorthand.printlnName else Shorthand.printName

theorem printText_eq (text : Text) (newline : Bool) :
    printText text newline =
      printName newline ++ ' ' :: (Shorthand.quote :: text ++ [Shorthand.quote]) := by
  simp [printText, printName]

theorem isToken_printName (newline : Bool) : Text.IsToken (printName newline) := by
  cases newline <;> decide

theorem isSolid_quoted (text : Text) :
    Text.IsSolid (Shorthand.quote :: text ++ [Shorthand.quote]) :=
  Text.isSolid_append text (Text.isSolid_of_isToken (by decide : Text.IsToken [Shorthand.quote]))
    (Text.isSolid_of_isToken (by decide))

/-- The first word of a print shorthand is its name. -/
theorem head_printText (number : Nat) (text : Text) (newline : Bool) :
    (Line.mk number (printText text newline)).head = printName newline := by
  rw [Line.head, Line.tokens, printText_eq, Text.words_append_blank _ _ ' ' (by decide),
    Text.words_of_isToken (isToken_printName newline)]
  rfl

/-- The text of a run is read back from its print shorthand. -/
theorem quoted_printText {text : Text} (number : Nat) (newline : Bool)
    (h : Shorthand.quote ∉ text) :
    Shorthand.quoted ⟨number, printText text newline⟩ (printName newline) = .ok text := by
  have hname : (printName newline).count Shorthand.quote = 0 := by
    cases newline <;> decide
  -- The two quotes around the text are the only ones.
  have hcount : (printText text newline).count Shorthand.quote = 2 := by
    rw [printText_eq, List.count_append, hname, List.count_cons_of_ne (by decide), List.cons_append,
      List.count_cons_self, List.count_append, List.count_eq_zero_of_not_mem h,
      List.count_singleton_self]
  have htrim : Text.trim (' ' :: (Shorthand.quote :: text ++ [Shorthand.quote])) =
      Shorthand.quote :: text ++ [Shorthand.quote] := by
    have hstart : Text.trimStart (' ' :: (Shorthand.quote :: text ++ [Shorthand.quote])) =
        Text.trimStart (Shorthand.quote :: text ++ [Shorthand.quote]) := rfl
    rw [Text.trim, hstart, ← Text.trim, Text.trim_of_isSolid (isSolid_quoted text)]
  have hunquote : Shorthand.unquote? (Shorthand.quote :: text ++ [Shorthand.quote]) = some text := by
    simp [Shorthand.unquote?]
  rw [Shorthand.quoted, if_pos hcount]
  simp only [printText_eq, List.drop_left, htrim, hunquote]

/-- The instructions that print a plain text. -/
theorem printLines_printText {text : Text} (number : Nat) (newline : Bool)
    (h : ∀ c ∈ text, IsPlain c) :
    Shorthand.printLines ⟨number, printText text newline⟩ (printName newline) =
      .ok (text.map Shorthand.outLine) := by
  -- A plain text holds no quote, and nothing that cannot be an operand.
  have hquote : Shorthand.quote ∉ text := fun hmem => (h _ hmem).2.2 rfl
  have hfind : text.find? (!Shorthand.isPrintable ·) = none := by
    refine List.find?_eq_none.mpr fun c hc => ?_
    have hlt : c.toNat < memorySize := Nat.lt_of_le_of_lt (h c hc).2.1 (by decide)
    simp [Shorthand.isPrintable, hlt]
  rw [Shorthand.printLines, bind_eq_ok_iff]
  exact ⟨text, quoted_printText number newline hquote, by rw [hfind]; rfl⟩

/-- A print shorthand stands for the instructions of its run. -/
theorem expandLine_printText {text : Text} (s : Survey) (options : Options) (number : Nat)
    (newline : Bool) (h : ∀ c ∈ text, IsPlain c) :
    Shorthand.expandLine ⟨number, printText text newline⟩ =
      .ok ((Body.print text newline).statements s options) := by
  have hlines := printLines_printText number newline h
  rw [Shorthand.expandLine, head_printText number text newline]
  cases newline with
  | false =>
      have hname : printName false = Shorthand.printName := rfl
      rw [hname, if_pos rfl]
      refine hlines.trans ?_
      rw [Body.statements, if_neg Bool.false_ne_true, List.append_nil]
  | true =>
      have hname : printName true = Shorthand.printlnName := rfl
      rw [hname, if_neg (by decide), if_pos rfl, bind_eq_ok_iff]
      exact ⟨_, hlines, rfl⟩

/-- A print shorthand expands to the instructions of its run. -/
theorem expands_printText {text : Text} (s : Survey) (options : Options) (newline : Bool)
    (h : ∀ c ∈ text, IsPlain c) :
    Shorthand.Expands [printText text newline]
      ((Body.print text newline).statements s options) := by
  refine Shorthand.expands_singleton fun number => ?_
  have hmark : Shorthand.isShorthand ⟨number, printText text newline⟩ = true := by
    cases newline <;> rfl
  rw [Shorthand.expandIfShorthand, if_pos hmark, expandLine_printText s options number newline h]
  rfl

/-- A print shorthand is a line if the text that it prints is in one line. -/
theorem isLine_printText {text : Text} (newline : Bool) (h : '\n' ∉ text) :
    Text.IsLine (printText text newline) := by
  have hname : '\n' ∉ printName newline := by
    cases newline <;> decide
  constructor
  · have hsolid := Text.isSolid_append [' ']
      (Text.isSolid_of_isToken (isToken_printName newline)) (isSolid_quoted text)
    simpa [printText_eq] using hsolid
  · have hquote : '\n' ≠ Shorthand.quote := by decide
    simp [printText_eq, hname, h, hquote]

/-- A body is a line, and it begins with none of the characters that mark comments
    and declarations. -/
theorem isLine_text {body : Body} (s : Survey) (options : Options) (h : body.IsPlain) :
    Text.IsLine (body.text s options) ∧ Text.startsWith '#' (body.text s options) = false ∧
      Text.startsWith '.' (body.text s options) = false := by
  cases body with
  | instruction i =>
      rcases i.exists_tokensWith (s.operandText options) with ⟨operands, htokens⟩
      refine ⟨?_, i.startsWith_textWith _ (by decide), i.startsWith_textWith _ (by decide)⟩
      rw [Body.text, Instruction.textWith_eq]
      refine Text.isLine_unwords (by rw [htokens]; exact List.cons_ne_nil _ _) fun t ht => ?_
      exact Instruction.isToken_of_mem_tokensWith (s.isToken_operandText options) ht
  | print text newline =>
      -- A line break comes before the characters that are plain.
      have hnewline : '\n' ∉ text := by
        intro hmem
        have hlow := (h _ hmem).1
        revert hlow
        decide
      refine ⟨isLine_printText newline hnewline, ?_, ?_⟩
      · cases newline <;> rfl
      · cases newline <;> rfl

theorem isLine_addressComment (address : Nat) : Text.IsLine (addressComment address) := by
  have htokens : ∀ u ∈ [['#'], Decimal.write address], Text.IsToken u := by
    simp only [List.forall_mem_cons]
    exact ⟨by decide, Decimal.isToken_write _, fun _ hu => absurd hu List.not_mem_nil⟩
  have hline := Text.isLine_unwords (List.cons_ne_nil _ _) htokens
  rw [Text.unwords_cons_cons] at hline
  simpa [addressComment, Text.unwords] using hline

theorem isLine_unalignedComment (t : Target) : Text.IsLine (unalignedComment t) := by
  have hlabel := Text.isLine_of_isToken t.isToken_label
  have hmark : Text.IsToken ['#'] := by decide
  refine ⟨Text.isSolid_append " Unaligned ".toList (Text.isSolid_of_isToken hmark) hlabel.1, ?_⟩
  unfold unalignedComment
  rw [List.mem_append, not_or]
  exact ⟨by decide, hlabel.2⟩

/-- Every line of a listing is read back as a line. -/
theorem isLine_of_mem_lines {m : Machine} {options : Options} {l : Text}
    (h : l ∈ disassemble m options) : Text.IsLine l := by
  rw [disassemble_eq, lines] at h
  rcases List.mem_append.mp h with h | h
  · -- A report of an unaligned target.
    rcases List.mem_map.mp h with ⟨t, _, rfl⟩
    exact isLine_unalignedComment t
  · rcases List.mem_flatMap.mp h with ⟨e, he, hl⟩
    rw [Entry.lines, List.mem_append, List.mem_append] at hl
    -- A label, the address, or the body of an entry.
    rcases hl with (hl | hl) | hl
    · rcases List.mem_map.mp hl with ⟨t, _, rfl⟩
      exact Text.isLine_of_isToken t.isToken_label
    · split at hl
      · rw [List.mem_singleton.mp hl]
        exact isLine_addressComment e.address
      · exact absurd hl List.not_mem_nil
    · rw [List.mem_singleton.mp hl]
      exact (isLine_text _ _ (isPlain_of_mem_entries he)).1

/-- The lines of an entry that are no comments. -/
def Entry.code (s : Survey) (options : Options) (e : Entry) : List Text :=
  e.labels.map Target.label ++ [e.body.text s options]

theorem isMeaningful_label (t : Target) : Line.isMeaningful t.label = true := by
  rw [t.label_eq]
  rfl

/-- The comments of an entry mean nothing to the assembler. -/
theorem filter_isMeaningful_lines {e : Entry} (s : Survey) (options : Options)
    (h : e.body.IsPlain) :
    (e.lines s options).filter Line.isMeaningful = e.code s options := by
  rcases isLine_text s options h with ⟨hline, hcomment, _⟩
  have hbody : Line.isMeaningful (e.body.text s options) = true := by
    simp [Line.isMeaningful, hcomment, Text.ne_nil_of_isSolid hline.1]
  have hlabels : (e.labels.map Target.label).filter Line.isMeaningful =
      e.labels.map Target.label := by
    refine List.filter_eq_self.mpr fun l hl => ?_
    rcases List.mem_map.mp hl with ⟨t, _, rfl⟩
    exact isMeaningful_label t
  have haddress : (if options.addressComments then [addressComment e.address] else []).filter
      Line.isMeaningful = [] := by
    split <;> rfl
  rw [Entry.lines, Entry.code, List.filter_append, List.filter_append, hlabels, haddress,
    List.append_nil, List.filter_cons_of_pos hbody, List.filter_nil]

/-- The lines of a listing that are no comments. -/
theorem filter_isMeaningful_disassemble (m : Machine) (options : Options) :
    (disassemble m options).filter Line.isMeaningful =
      (m.listing options).entries.flatMap (Entry.code (Survey.ofMachine m options) options) := by
  have hunaligned : ((m.listing options).survey.unaligned.map unalignedComment).filter
      Line.isMeaningful = [] := by
    refine List.filter_eq_nil_iff.mpr fun l hl => ?_
    rcases List.mem_map.mp hl with ⟨t, _, rfl⟩
    exact Bool.false_ne_true
  rw [disassemble_eq, lines, List.filter_append, hunaligned, List.nil_append, List.filter_flatMap]
  refine List.flatMap_congr fun e he => ?_
  exact filter_isMeaningful_lines _ _ (isPlain_of_mem_entries he)

/-- None of the lines of a listing is a declaration. -/
theorem startsWith_of_mem_code {m : Machine} {options : Options} {l : Text}
    (h : l ∈ (m.listing options).entries.flatMap
      (Entry.code (Survey.ofMachine m options) options)) :
    Text.startsWith '.' l = false := by
  rcases List.mem_flatMap.mp h with ⟨e, he, hl⟩
  rcases List.mem_append.mp hl with hl | hl
  · rcases List.mem_map.mp hl with ⟨t, _, rfl⟩
    rw [t.label_eq]
    rfl
  · rw [List.mem_singleton.mp hl]
    exact (isLine_text _ _ (isPlain_of_mem_entries he)).2.2

/-- The lines of an entry expand to what it stands for. -/
theorem expands_code {e : Entry} (s : Survey) (options : Options) (h : e.body.IsPlain) :
    Shorthand.Expands (e.code s options) (e.statements s options) := by
  refine Shorthand.Expands.append ?_ ?_
  · -- A label is no shorthand.
    rw [List.map_eq_flatMap]
    refine Shorthand.expands_flatMap fun t _ => Shorthand.expands_self ?_
    rw [t.label_eq]
    rfl
  · cases hbody : e.body with
    | instruction i => exact Shorthand.expands_self (i.startsWith_textWith _ (by decide))
    | print text newline =>
        rw [hbody] at h
        exact expands_printText s options newline h

/-- The first passes succeed on a listing: it has no declarations, and expands to the
    instructions of the walk, each after its labels. -/
theorem exists_expanded (m : Machine) (options : Options) :
    ∃ code expanded,
      Declaration.extract (Line.ofSource (Text.unlines (disassemble m options))) =
        .ok (code, []) ∧
      Shorthand.expand code = .ok expanded ∧
      expanded.map (·.text) = m.statements (Survey.ofMachine m options) options 0 := by
  -- The lines are read back, less the comments.
  have hlines : ∀ l ∈ disassemble m options, Text.IsLine l := fun l => isLine_of_mem_lines
  have htexts := Line.text_ofSource hlines
  rw [filter_isMeaningful_disassemble] at htexts
  -- Entry by entry, they expand to the statements of the walk.
  have hentries : ∀ e ∈ (m.listing options).entries,
      Shorthand.Expands (e.code (Survey.ofMachine m options) options)
        (e.statements (Survey.ofMachine m options) options) := fun e he =>
    expands_code _ _ (isPlain_of_mem_entries he)
  have hexpands := Shorthand.expands_flatMap hentries
  rw [statements_entries] at hexpands
  rcases hexpands _ htexts with ⟨expanded, hexpand, hstatements⟩
  refine ⟨_, expanded, Declaration.extract_of_forall_not fun line hline => ?_, hexpand,
    hstatements⟩
  -- None of them is a declaration, since that depends on their texts only.
  have hmem : line.text ∈ (Line.ofSource (Text.unlines (disassemble m options))).map (·.text) :=
    List.mem_map_of_mem hline
  rw [htexts] at hmem
  exact startsWith_of_mem_code hmem

end Listing

end WordMachine
