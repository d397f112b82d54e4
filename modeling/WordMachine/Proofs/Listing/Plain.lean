import WordMachine.Proofs.Listing.Statement

/-!
# Annotation

What the options of a listing add, and nothing else, can be taken away again.

A listing with options shows the same instructions as a listing without: labels and
comments stand on lines of their own, a print shorthand stands for the instructions it was
folded from, and a label in the place of an operand stands for its address. Taking all of
this away, line by line and without looking at the program, gives the plain listing, which
has one line for each boundary of the walk.

Whatever the entries of a listing fold and label, what they stand for are the instructions
of the walk (`Listing.statements_entries`), so no instruction is lost, doubled or moved. What
remains is about single lines: which ones are taken away, what a print shorthand expands to,
and that a token with the form of a label is one. An operand that is written as itself is a
number or a register, and has not that form.

## Main definitions

* `Listing.plainToken`, `Listing.plainLine`: A token and a line without labels.
* `Listing.plainLines`: The lines that a line of a listing stands for.
* `Listing.bare`: A listing without what its options add.

## Theorems

* `Listing.plainLine_textWith`: An instruction without labels.
* `Listing.plainLines_text`: What the line of an entry stands for.
* `Listing.statements_bodies`: The instructions of a listing, without their labels.
* `Listing.disassemble_plain`: A plain listing.
* `Listing.bare_disassemble`: Every listing is a plain one with annotation.
-/

namespace WordMachine

namespace Listing

/-! ### Taking annotation away -/

/-- What follows the stem of a kind in a token, if it is a number. -/
def numeral? (token : Text) (kind : Target.Kind) : Option Text :=
  (kind.stem.isPrefixOf? token).filter fun digits => !digits.isEmpty && digits.all Char.isDigit

/-- A token, with a label in place of an operand replaced by its number. -/
def plainToken (token : Text) : Text :=
  (Target.Kind.all.findSome? (numeral? token)).getD token

/-- A line whose operands are replaced. -/
def plainLine (line : Text) : Text :=
  match Text.words line with
  | name :: operands => Text.unwords (name :: operands.map plainToken)
  | [] => line

/-- Whether a line of a listing is there for what it says, and not for a label or a
    comment. -/
def isStatement (line : Text) : Bool := !Text.startsWith '#' line && !Text.startsWith ':' line

/-- The lines that a line of a listing stands for: the instructions of a print shorthand, or
    the line with its operands replaced. -/
def plainLines (number : Nat) (line : Text) : Except AssemblyError (List Text) :=
  if (Line.mk number line).head = Shorthand.printName ∨
      (Line.mk number line).head = Shorthand.printlnName then
    Shorthand.expandLine ⟨number, line⟩
  else .ok [plainLine line]

/-- A listing without what its options add. The number is the one that its lines are given
    where a print shorthand is expanded. -/
def bare (number : Nat) (listing : List Text) : Except AssemblyError (List Text) := do
  return (← (listing.filter isStatement).mapM (plainLines number)).flatten

/-! ### Tokens -/

/-- Each label has the form of its own kind only. -/
theorem numeral?_label (t : Target) (kind : Target.Kind) :
    numeral? t.label kind = if kind = t.kind then some (Decimal.write t.address) else none := by
  rcases t with ⟨own, address⟩
  have hdigits : (Decimal.write address).all Char.isDigit = true :=
    List.all_eq_true.mpr fun _ hc => Decimal.isDigit_of_mem_write hc
  have hnumber : (!(Decimal.write address).isEmpty &&
      (Decimal.write address).all Char.isDigit) = true := by
    simp [hdigits, (Decimal.isToken_write address).1]
  by_cases hkind : kind = own
  · have hstem : kind.stem.isPrefixOf? (Target.mk own address).label =
        some (Decimal.write address) := by
      rw [hkind]
      cases own <;> rfl
    rw [numeral?, hstem, Option.filter_some, if_pos hnumber, if_pos hkind]
  · -- The stems differ, and none is the beginning of another.
    rw [if_neg hkind]
    revert hkind
    cases kind <;> cases own <;> intro hkind <;> first | rfl | exact absurd rfl hkind

/-- A label is replaced by its number. -/
theorem plainToken_label (t : Target) : plainToken t.label = Decimal.write t.address := by
  unfold plainToken Target.Kind.all
  simp only [List.findSome?_cons, numeral?_label]
  cases t.kind <;> rfl

/-- What does not begin like a label stays. -/
theorem plainToken_of_startsWith {token : Text} (h : Text.startsWith ':' token = false) :
    plainToken token = token := by
  have hnone : ∀ kind, numeral? token kind = none := by
    intro kind
    obtain ⟨letters, hstem⟩ : ∃ letters, kind.stem = ':' :: letters := by
      cases kind <;> exact ⟨_, rfl⟩
    rw [numeral?, hstem]
    cases token with
    | nil => rfl
    | cons c rest =>
        have hne : ':' ≠ c := by
          intro heq
          simp [Text.startsWith, ← heq] at h
        simp [List.isPrefixOf?, hne]
  simp [plainToken, Target.Kind.all, hnone]

/-- An operand of a listing is replaced by the operand itself. -/
theorem plainToken_operandText (s : Survey) (options : Options) (op : Opcode) (role : Role)
    (w : Word) : plainToken (s.operandText options op role w) = Operand.wordText w := by
  have hself : plainToken (Operand.wordText w) = Operand.wordText w :=
    plainToken_of_startsWith (Operand.startsWith_wordText (by decide) (by decide) w)
  unfold Survey.operandText
  cases htarget : Target.ofOperand? options op role w with
  | none => exact hself
  | some target =>
      by_cases hboundary : s.boundaries.contains target.address = true
      · rcases Target.exists_literal htarget with ⟨address, hword, haddress⟩
        simp only [hboundary, if_true]
        rw [plainToken_label, haddress, Operand.wordText, hword]
        rfl
      · simp only [hboundary]
        exact hself

/-! ### Lines -/

/-- An instruction of a listing without its labels is written with numbers and
    registers. -/
theorem plainLine_textWith (s : Survey) (options : Options) (i : Instruction) :
    plainLine (i.textWith (s.operandText options)) = i.text := by
  have hwords : Text.words (i.textWith (s.operandText options)) =
      i.tokensWith (s.operandText options) :=
    i.tokens_textWith (s.isToken_operandText options) 0
  have htext : i.text = Text.unwords (i.tokensWith fun _ _ => Operand.wordText) :=
    i.textWith_eq _
  rw [plainLine, hwords, htext]
  unfold Instruction.tokensWith
  cases i.opcode with
  | none =>
      -- The number of a raw word is no label.
      have hraw : plainToken (Decimal.writeWord i.word) = Decimal.writeWord i.word :=
        plainToken_of_startsWith (Decimal.startsWith_write (by decide) _)
      simp only [List.map_cons, List.map_nil, hraw]
  | some op => simp only [List.map_zipWith, plainToken_operandText]

/-- The instruction that prints a character has no labels. -/
theorem plainLine_outLine (c : Char) : plainLine (Shorthand.outLine c) = Shorthand.outLine c := by
  have hnumber : plainToken (Decimal.write c.toNat) = Decimal.write c.toNat :=
    plainToken_of_startsWith (Decimal.startsWith_write (by decide) _)
  simp only [plainLine, Shorthand.words_outLine, List.map_cons, List.map_nil, hnumber]
  rfl

/-- The line of an entry stands for its instructions, written without labels. -/
theorem plainLines_text {body : Body} (s : Survey) (options : Options) (number : Nat)
    (h : body.IsPlain) :
    plainLines number (body.text s options) =
      .ok ((body.statements s options).map plainLine) := by
  cases body with
  | instruction i =>
      have hhead : ¬ ((Line.mk number (i.textWith (s.operandText options))).head =
          Shorthand.printName ∨ (Line.mk number (i.textWith (s.operandText options))).head =
          Shorthand.printlnName) := by
        rw [i.head_textWith (s.isToken_operandText options), i.name_eq]
        cases i.opcode with
        | none => decide
        | some op => cases op <;> decide
      rw [plainLines, Body.text, if_neg hhead]
      rfl
  | print text newline =>
      have hhead : (Line.mk number (printText text newline)).head = Shorthand.printName ∨
          (Line.mk number (printText text newline)).head = Shorthand.printlnName := by
        rw [head_printText]
        cases newline <;> decide
      have hout : ((Body.print text newline).statements s options).map plainLine =
          (Body.print text newline).statements s options := by
        cases newline <;> simp [Body.statements, Function.comp_def, plainLine_outLine]
      rw [plainLines, Body.text, if_pos hhead, expandLine_printText s options number newline h,
        hout]

/-! ### Whole listings -/

theorem isStatement_label (t : Target) : isStatement t.label = false := by
  rw [t.label_eq]
  rfl

theorem isStatement_textWith (s : Survey) (options : Options) (i : Instruction) :
    isStatement (i.textWith (s.operandText options)) = true := by
  rw [isStatement, i.startsWith_textWith _ (by decide), i.startsWith_textWith _ (by decide)]
  rfl

/-- The line of an entry is there for what it says. -/
theorem isStatement_text (s : Survey) (options : Options) (body : Body) :
    isStatement (body.text s options) = true := by
  cases body with
  | instruction i => exact isStatement_textWith s options i
  | print text newline => cases newline <;> rfl

/-- So is everything that an entry stands for, apart from its labels. -/
theorem isStatement_of_mem_statements {s : Survey} {options : Options} {body : Body} {l : Text}
    (h : l ∈ body.statements s options) : isStatement l = true := by
  cases body with
  | instruction i =>
      rw [List.mem_singleton.mp h]
      exact isStatement_textWith s options i
  | print text newline =>
      rcases List.mem_append.mp h with h | h
      · rcases List.mem_map.mp h with ⟨c, _, rfl⟩
        rfl
      · split at h
        · rw [List.mem_singleton.mp h]
          rfl
        · exact absurd h List.not_mem_nil

/-- Labels are taken away. -/
theorem filter_isStatement_labels (labels : List Target) :
    (labels.map Target.label).filter isStatement = [] := by
  refine List.filter_eq_nil_iff.mpr fun l hl => ?_
  rcases List.mem_map.mp hl with ⟨t, _, rfl⟩
  rw [isStatement_label]
  exact Bool.false_ne_true

/-- So are comments. -/
theorem filter_isStatement_lines (s : Survey) (options : Options) (e : Entry) :
    (e.lines s options).filter isStatement = [e.body.text s options] := by
  have haddress : (if options.addressComments then [addressComment e.address] else []).filter
      isStatement = [] := by
    split <;> rfl
  rw [Entry.lines, List.filter_append, List.filter_append, filter_isStatement_labels, haddress]
  exact List.filter_cons_of_pos (isStatement_text s options e.body)

/-- What is left of a listing are the lines of its entries. -/
theorem filter_isStatement_disassemble (m : Machine) (options : Options) :
    (disassemble m options).filter isStatement =
      (m.listing options).entries.map (·.body.text (Survey.ofMachine m options) options) := by
  have hunaligned : ((m.listing options).survey.unaligned.map unalignedComment).filter
      isStatement = [] := by
    refine List.filter_eq_nil_iff.mpr fun l hl => ?_
    rcases List.mem_map.mp hl with ⟨t, _, rfl⟩
    exact Bool.false_ne_true
  rw [disassemble_eq, lines, List.filter_append, hunaligned, List.nil_append, List.filter_flatMap,
    List.map_eq_flatMap]
  exact List.flatMap_congr fun e _ => filter_isStatement_lines _ _ e

/-- The entries of a listing stand for the instructions of the walk, labels aside. -/
theorem statements_bodies (m : Machine) (options : Options) :
    (m.listing options).entries.flatMap
        (fun e => e.body.statements (Survey.ofMachine m options) options) =
      m.boundaries.map fun address => (m.decode (UInt16.ofNat address)).textWith
        ((Survey.ofMachine m options).operandText options) := by
  -- Both sides are what is left of the statements without the labels.
  have hstatements := congrArg (List.filter isStatement) (statements_entries m options)
  rw [Machine.statements, ← Machine.boundaries, List.filter_flatMap, List.filter_flatMap]
    at hstatements
  have hentries : ∀ e ∈ (m.listing options).entries,
      (e.statements (Survey.ofMachine m options) options).filter isStatement =
        e.body.statements (Survey.ofMachine m options) options := by
    intro e _
    rw [Entry.statements, List.filter_append, filter_isStatement_labels, List.nil_append]
    exact List.filter_eq_self.mpr fun _ => isStatement_of_mem_statements
  rw [← List.flatMap_congr hentries, hstatements, List.map_eq_flatMap]
  refine List.flatMap_congr fun address _ => ?_
  rw [List.filter_append, filter_isStatement_labels, List.nil_append]
  exact List.filter_cons_of_pos (isStatement_textWith _ _ _)

/-- Without annotation, every listing is the instructions of the walk, written with numbers
    and registers. -/
theorem bare_eq (m : Machine) (options : Options) (number : Nat) :
    bare number (disassemble m options) =
      .ok (m.boundaries.map fun address => m.textAt (UInt16.ofNat address)) := by
  have hparts : (((m.listing options).entries.map
      (·.body.text (Survey.ofMachine m options) options)).mapM (plainLines number)) =
        .ok ((m.listing options).entries.map fun e =>
          (e.body.statements (Survey.ofMachine m options) options).map plainLine) := by
    rw [mapM_eq_ok_iff, List.forall₂_map_left_iff, List.forall₂_map_right_iff, List.forall₂_same]
    exact fun e he => plainLines_text _ _ number (isPlain_of_mem_entries he)
  have hplain : ((m.listing options).entries.flatMap fun e =>
      (e.body.statements (Survey.ofMachine m options) options).map plainLine) =
        m.boundaries.map fun address => m.textAt (UInt16.ofNat address) := by
    rw [← List.map_flatMap, statements_bodies, List.map_map]
    exact List.map_congr_left fun address _ => plainLine_textWith _ _ _
  rw [bare, filter_isStatement_disassemble, hparts, ← hplain, List.flatMap_def]
  rfl

/-! ### The plain listing -/

/-- Without options, nothing is a target. -/
theorem ofOperand?_plain (op : Opcode) (role : Role) (w : Word) :
    Target.ofOperand? {} op role w = none := by
  unfold Target.ofOperand?
  split
  · rename_i kind _ _ _
    cases kind <;> rfl
  · rfl

theorem contains_targets_plain (m : Machine) (kind : Target.Kind) (address : Nat) :
    ((Survey.ofMachine m {}).targets kind).contains address = false := by
  rw [Bool.eq_false_iff]
  intro hcontains
  have hnamed := (Survey.contains_targets_iff m {} ⟨kind, address⟩).mp hcontains
  rcases List.mem_flatMap.mp hnamed with ⟨_, _, htarget⟩
  unfold Instruction.targets at htarget
  split at htarget
  · rcases List.mem_filterMap.mp htarget with ⟨⟨role, w⟩, _, hoperand⟩
    simp [ofOperand?_plain] at hoperand
  · exact absurd htarget List.not_mem_nil

/-- Without targets, there is nothing to label and nothing to report. -/
theorem labelsAt_plain (m : Machine) (address : Nat) :
    (Survey.ofMachine m {}).labelsAt address = [] := by
  refine List.eq_nil_iff_forall_not_mem.mpr fun t ht => ?_
  have hcontains := ((Survey.mem_labelsAt_iff _ _ _).mp ht).2
  rw [contains_targets_plain] at hcontains
  cases hcontains

theorem unaligned_plain (m : Machine) : (Survey.ofMachine m {}).unaligned = [] := by
  refine List.flatMap_eq_nil_iff.mpr fun kind _ => ?_
  rw [List.map_eq_nil_iff, List.filter_eq_nil_iff]
  intro address haddress
  rw [Std.TreeSet.mem_toList, ← Std.TreeSet.contains_iff_mem, contains_targets_plain] at haddress
  cases haddress

theorem operandText_plain (s : Survey) : s.operandText {} = fun _ _ => Operand.wordText := by
  funext op role w
  rw [Survey.operandText, ofOperand?_plain]

/-- Without options, every instruction is an entry of its own. -/
theorem entries_plain (m : Machine) :
    (m.listing {}).entries = m.boundaries.map fun address =>
      ⟨address, [], .instruction (m.decode (UInt16.ofNat address))⟩ := by
  simp only [Machine.listing, labelsAt_plain]
  generalize m.boundaries = boundaries
  induction boundaries with
  | nil => rfl
  | cons address rest ih =>
      rw [List.foldr_cons, ih]
      rfl

/-- A plain listing has one line for each boundary: the instruction there. -/
theorem disassemble_plain (m : Machine) :
    disassemble m {} = m.boundaries.map fun address => m.textAt (UInt16.ofNat address) := by
  have hunaligned : (m.listing {}).survey.unaligned = [] := unaligned_plain m
  have hlines : ∀ address, Entry.lines (Survey.ofMachine m {}) {}
      ⟨address, [], .instruction (m.decode (UInt16.ofNat address))⟩ =
        [m.textAt (UInt16.ofNat address)] := by
    intro address
    simp only [Entry.lines, Body.text, operandText_plain]
    rfl
  rw [disassemble_eq, lines, hunaligned, List.map_nil, List.nil_append, entries_plain,
    List.flatMap_map, List.map_eq_flatMap]
  exact List.flatMap_congr fun address _ => hlines address

/-- Taking annotation away from a listing with any options gives the listing without
    options. -/
theorem bare_disassemble (m : Machine) (options : Options) (number : Nat) :
    bare number (disassemble m options) = .ok (disassemble m {}) := by
  rw [bare_eq, disassemble_plain]

end Listing

end WordMachine
