import WordMachine.Proofs.Assembly.Language
import WordMachine.Proofs.Machine.Budget
import WordMachine.Proofs.Machine.Code

/-!
# Printing

A source that prints a text prints that text.

Almost any text can be printed. It may hold blanks at its ends, characters that mark other
lines, and characters of any script, since all that is looked for in it is the quote that
ends it. What remains are three conditions: that it holds no quote, that its codes are
values, and that there is room for two words for each of its characters. All of them are
needed (`InLanguage.println`) and no others are (`inLanguage_println`), and a source that
meets them assembles to the code that prints its codes (`Passes.words_println`).

What that code does when executed is a matter of the machine alone. `Machine.run_printing`
is about any machine that has come to such code, wherever it is, so the induction on what is
printed can go from one character to the next.

## Main definitions

* `printing`: The code that prints.
* `printlnSource`: A source that prints a line and halts.
* `printedLines`: The lines that it stands for.
* `printedCodes`: The codes that are printed for a text.

## Theorems

* `Machine.step_prints`, `Machine.step_halts`, `Machine.run_printing`: Code that prints,
  executed.
* `Shorthand.stands_println_iff`: The lines that the line to print stands for.
* `InLanguage.println`, `inLanguage_println`: The texts that can be printed.
* `Passes.words_println`: The words of the program.
* `println_prints`: The source assembled and the program run.
-/

namespace WordMachine

/-! ### Execution -/

/-- The code that prints some codes one after the other and halts. -/
def printing (codes : List Word) : List Word :=
  codes.flatMap (fun code => [Opcode.word .out, code]) ++ [Opcode.word .halt]

theorem length_printing (codes : List Word) : (printing codes).length = 2 * codes.length + 1 := by
  simp [printing, List.length_flatMap, Nat.mul_comm]

namespace Machine

/-- The step that prints a code. -/
theorem step_prints {m : Machine} {code : Word} (hhalted : m.halted = false)
    (hvalue : code.IsValue) (hcode : m.memory.wordsFrom m.ip 2 = [Opcode.word .out, code]) :
    m.step = ⟨.ok (.output code), { m with ip := Word.after m.ip 2 }⟩ := by
  have hsize : Opcode.size .out = 2 := rfl
  rw [← hsize, m.memory.wordsFrom_size, List.cons.injEq] at hcode
  have hop : Opcode.ofWord? (m.memory.read m.ip) = some .out := by
    rw [hcode.1, Opcode.ofWord?_word]
  have hoperand : m.memory.read (Word.after m.ip 1) = code := (List.cons.inj hcode.2).1
  have hliteral : (Operand.literal code).InRange := hvalue
  refine step_out hhalted hop (value_of_literal ?_)
  rw [hoperand]
  exact Operand.ofWord?_toWord hliteral

/-- The step that halts. -/
theorem step_halts {m : Machine} (hhalted : m.halted = false)
    (hcode : m.memory.wordsFrom m.ip 1 = [Opcode.word .halt]) :
    m.step = ⟨.ok .halt, { m with halted := true }⟩ := by
  have hsize : Opcode.size .halt = 1 := rfl
  rw [← hsize, m.memory.wordsFrom_size, List.cons.injEq] at hcode
  refine step_halt hhalted ?_
  rw [hcode.1, Opcode.ofWord?_word]

/-- Code that prints, executed with as many steps as it needs, or more. -/
theorem run_printing {m : Machine} {codes : List Word} (hhalted : m.halted = false)
    (hip : m.ip.IsValue) (hvalues : ∀ code ∈ codes, code.IsValue)
    (hcode : m.memory.wordsFrom m.ip (2 * codes.length + 1) = printing codes) (rest : Nat) :
    m.run (codes.length + 1 + rest) = ⟨.ok .halt, codes.toArray,
      { m with ip := Word.after m.ip (2 * codes.length), halted := true }⟩ := by
  induction codes generalizing m with
  | nil =>
      have hstay : Word.after m.ip 0 = m.ip := by
        apply UInt16.toNat_inj.mp
        rw [Word.toNat_after, Nat.add_zero, Nat.mod_eq_of_lt hip]
      rw [List.length_nil, Nat.zero_add, Nat.add_comm, run_succ, step_halts hhalted hcode,
        Nat.mul_zero, hstay]
      rfl
  | cons code codes ih =>
      rw [List.forall_mem_cons] at hvalues
      -- The first two words print the first code, and the others print the rest.
      have hsplit : 2 * (code :: codes).length + 1 = 2 + (2 * codes.length + 1) := by
        rw [List.length_cons]
        omega
      have hparts : printing (code :: codes) = [Opcode.word .out, code] ++ printing codes := rfl
      rw [hsplit, m.memory.wordsFrom_add, hparts] at hcode
      rcases List.append_inj hcode (by rw [Memory.wordsFrom, List.length_map]; rfl) with
        ⟨hfirst, hothers⟩
      have hstep := step_prints hhalted hvalues.1 hfirst
      have hrest := ih (m := { m with ip := Word.after m.ip 2 }) hhalted (Word.isValue_after _ _)
        hvalues.2 hothers
      have hbudget : (code :: codes).length + 1 + rest = (codes.length + 1 + rest) + 1 := by
        rw [List.length_cons]
        omega
      have hend : Word.after (Word.after m.ip 2) (2 * codes.length) =
          Word.after m.ip (2 * (code :: codes).length) := by
        rw [Word.after_after, List.length_cons, Nat.mul_succ, Nat.add_comm]
      rw [hbudget, run_succ, hstep]
      simp only [Run.goesOn, if_true, hrest, hend]
      simp [Run.behind, Run.printed?]

/-- The same for a program that was just loaded. -/
theorem run_loaded_printing {codes : List Word} (hvalues : ∀ code ∈ codes, code.IsValue)
    (hfits : (printing codes).length ≤ memorySize) (rest : Nat) :
    (loaded (Memory.image (printing codes)) (printing codes)).run (codes.length + 1 + rest) =
      ⟨.ok .halt, codes.toArray,
        { loaded (Memory.image (printing codes)) (printing codes) with
          ip := Word.after 0 (2 * codes.length), halted := true }⟩ := by
  have hzero : Word.IsValue 0 := by decide
  have hcode : (Memory.image (printing codes)).wordsFrom 0 (2 * codes.length + 1) =
      printing codes := by
    rw [← length_printing]
    exact Memory.wordsFrom_image hfits
  exact run_printing (m := loaded (Memory.image (printing codes)) (printing codes)) rfl hzero
    hvalues hcode rest

end Machine

/-! ### The lines of the source -/

/-- The source of two lines that prints a text, ends the line and halts. -/
def printlnSource (text : Text) : Text := "!println `".toList ++ text ++ "`\nHALT".toList

/-- The lines that it stands for: one for each character, and the one that halts. -/
def printedLines (text : Text) : List Line :=
  text.map (fun c => ⟨1, Shorthand.outLine c⟩) ++ [⟨2, Opcode.name .halt⟩]

theorem printlnSource_eq (text : Text) :
    printlnSource text = Text.unlines [Listing.printText text true, Opcode.name .halt] := by
  have hstart : "!println `".toList = Shorthand.printlnName ++ [' ', Shorthand.quote] := by decide
  have hend : "`\nHALT".toList = [Shorthand.quote] ++ (['\n'] ++ Opcode.name .halt) := by decide
  calc
    printlnSource text
      = Shorthand.printlnName ++ [' ', Shorthand.quote] ++ text ++
          ([Shorthand.quote] ++ (['\n'] ++ Opcode.name .halt)) :=
        congrArg₂ (fun first second => first ++ text ++ second) hstart hend
    _ = Listing.printText text true ++ (['\n'] ++ Opcode.name .halt) :=
        (List.append_assoc _ _ _).symm
    _ = Text.unlines [Listing.printText text true, Opcode.name .halt] := by
        rw [Text.unlines, List.intercalate_cons_cons, List.intercalate_singleton, List.append_assoc]

/-- No character of the text is lost where the source is cut into lines. -/
theorem ofSource_printlnSource {text : Text} (h : '\n' ∉ text) :
    Line.ofSource (printlnSource text) =
      [⟨1, Listing.printText text true⟩, ⟨2, Opcode.name .halt⟩] := by
  have hprint : Text.IsLine (Listing.printText text true) := Listing.isLine_printText true h
  have hhalt : Text.IsLine (Opcode.name .halt) :=
    Text.isLine_of_isToken (Opcode.isToken_name .halt)
  have hlines : Text.lines (printlnSource text) =
      [Listing.printText text true, Opcode.name .halt] := by
    rw [printlnSource_eq]
    refine Text.lines_unlines ?_
    rw [List.forall_mem_cons, List.forall_mem_singleton]
    exact ⟨⟨Text.ne_nil_of_isSolid hprint.1, hprint.2⟩, Text.ne_nil_of_isSolid hhalt.1, hhalt.2⟩
  have hnumbered : Line.numbered (printlnSource text) =
      [⟨1, Listing.printText text true⟩, ⟨2, Opcode.name .halt⟩] := by
    rw [Line.numbered, hlines]
    change [Line.mk 1 (Text.trim _), Line.mk 2 (Text.trim _)] = _
    rw [Text.trim_of_isSolid hprint.1, Text.trim_of_isSolid hhalt.1]
  have hfirst : Line.isMeaningful (Listing.printText text true) = true := rfl
  have hsecond : Line.isMeaningful (Opcode.name .halt) = true := by decide
  rw [Line.ofSource, hnumbered]
  simp [hfirst, hsecond]

/-- Neither of the two lines declares data. -/
theorem filter_isDeclaration_println {text : Text} (h : '\n' ∉ text) :
    (Line.ofSource (printlnSource text)).filter (!Declaration.isDeclaration ·) =
        [⟨1, Listing.printText text true⟩, ⟨2, Opcode.name .halt⟩] ∧
      (Line.ofSource (printlnSource text)).filter Declaration.isDeclaration = [] := by
  have hfirst : Declaration.isDeclaration ⟨1, Listing.printText text true⟩ = false := rfl
  have hsecond : Declaration.isDeclaration ⟨2, Opcode.name .halt⟩ = false := by decide
  rw [ofSource_printlnSource h]
  simp [hfirst, hsecond]

namespace Shorthand

theorem isBlank_of_mem_space : ∀ c ∈ [' '], Text.isBlank c = true := by
  rw [List.forall_mem_singleton]
  rfl

/-- A text that stands after the name and a space is the text that is quoted. -/
theorem Quotes.eq_of_shape {line name quoted text : Text} (h : Quotes line name quoted)
    (hline : line = name ++ ' ' :: (quote :: text ++ [quote])) : quoted = text := by
  rcases h.shape with ⟨blanks, _, hblanks, hshape⟩
  rw [hline] at hshape
  -- Both are what is left when the blanks are trimmed.
  have htrim := congrArg Text.trim (List.append_cancel_left hshape)
  rw [Text.trim_append_of_isBlank hblanks (Listing.isSolid_quoted quoted)] at htrim
  have hspace := Text.trim_append_of_isBlank isBlank_of_mem_space (Listing.isSolid_quoted text)
  have hquoted := List.append_cancel_right (htrim.symm.trans hspace)
  exact (List.cons.inj hquoted).2

/-- A line to print stands for one line for each character, if it holds no quote and all
    codes are values. -/
theorem stands_println_iff (number : Nat) (text : Text) (part : List Line) :
    Stands ⟨number, Listing.printText text true⟩ part ↔
      quote ∉ text ∧ (∀ c ∈ text, c.toNat ≤ 32767) ∧
        part = (text ++ ['\n']).map fun c => ⟨number, outLine c⟩ := by
  have hshape := Listing.printText_eq text true
  have hhead := Listing.head_printText number text true
  constructor
  · intro h
    cases h with
    | plain unmarked => cases unmarked
    | print quotes values =>
        rw [quotes.head (by decide)] at hhead
        exact absurd hhead (by decide)
    | println quotes values =>
        rw [quotes.eq_of_shape hshape] at values ⊢
        exact ⟨quotes.eq_of_shape hshape ▸ quotes.inner, values, rfl⟩
    | negate tokens =>
        rw [(Line.parts_of_tokens tokens).1] at hhead
        exact absurd hhead (by decide)
  · rintro ⟨hquote, hvalues, rfl⟩
    have hquotes : Quotes (Line.mk number (Listing.printText text true)).text printlnName text :=
      ⟨⟨[' '], List.cons_ne_nil _ _, isBlank_of_mem_space, hshape⟩, hquote⟩
    exact .println hquotes hvalues

end Shorthand

/-! ### The texts that can be printed -/

theorem tokens_outLine (number : Nat) (c : Char) :
    (Line.mk number (Shorthand.outLine c)).tokens = [Opcode.name .out, Decimal.write c.toNat] :=
  Shorthand.words_outLine c

theorem tokens_halt (number : Nat) :
    (Line.mk number (Opcode.name .halt)).tokens = [Opcode.name .halt] :=
  Text.words_of_isToken (Opcode.isToken_name .halt)

theorem isLabel_of_mem_printedLines {text : Text} {line : Line} (h : line ∈ printedLines text) :
    line.isLabel = false := by
  rcases List.mem_append.mp h with h | h
  · rcases List.mem_map.mp h with ⟨c, _, rfl⟩
    exact Line.isLabel_of_name (tokens_outLine 1 c)
  · rw [List.mem_singleton.mp h]
    exact Line.isLabel_of_name (tokens_halt 2)

/-- Every character takes two words, and the last line takes one. -/
theorem sum_size_printedLines (text : Text) :
    ((printedLines text).map Line.size).sum = 2 * text.length + 1 := by
  have hout : text.map (Line.size ∘ fun c => ⟨1, Shorthand.outLine c⟩) = text.map fun _ => 2 :=
    List.map_congr_left fun c _ => Line.size_of_name (tokens_outLine 1 c)
  have hhalt : Line.size ⟨2, Opcode.name .halt⟩ = 1 := Line.size_of_name (tokens_halt 2)
  rw [printedLines, List.map_append, List.map_map, List.sum_append, List.map_singleton, hhalt,
    List.sum_singleton, hout, List.map_const', List.sum_replicate_nat, Nat.mul_comm]

/-- The lines are statements if all codes are values. -/
theorem isStatement_of_mem_printedLines {defines : Namespace → Text → Prop} {text : Text}
    (hvalues : ∀ c ∈ text, c.toNat ≤ 32767) {line : Line} (h : line ∈ printedLines text) :
    IsStatement defines line.tokens := by
  rcases List.mem_append.mp h with h | h
  · rcases List.mem_map.mp h with ⟨c, hc, rfl⟩
    rw [tokens_outLine]
    refine .instruction .out rfl ?_
    rw [List.forall_mem_singleton]
    exact ⟨.number c.toNat, .number (Decimal.denotes_write _),
      Nat.le_trans (hvalues c hc) (by decide)⟩
  · rw [List.mem_singleton.mp h, tokens_halt]
    exact .instruction .halt rfl (by simp)

theorem stands_halt : Shorthand.Stands ⟨2, Opcode.name .halt⟩ [⟨2, Opcode.name .halt⟩] :=
  .plain (by decide)

/-- A source that prints a text is right only if the text can be printed, and stands for the
    lines that print its characters. -/
theorem InLanguage.println {text : Text} (hline : '\n' ∉ text) {declarations : List Declaration}
    {lines : List Line} (h : InLanguage (printlnSource text) declarations lines) :
    Shorthand.quote ∉ text ∧ (∀ c ∈ text, c.toNat ≤ 32767) ∧ 2 * text.length + 3 ≤ 32768 ∧
      declarations = [] ∧ lines = printedLines (text ++ ['\n']) := by
  rcases filter_isDeclaration_println hline with ⟨hcode, hdata⟩
  have hdeclares := h.declares
  rw [hdata, List.forall₂_nil_left_iff] at hdeclares
  -- There are two lines, and what each stands for is known.
  rcases h.stands with ⟨parts, hparts, hflatten⟩
  rw [hcode] at hparts
  rcases hparts with _ | ⟨hprint, _ | ⟨hlast, _ | _⟩⟩
  rcases (Shorthand.stands_println_iff _ _ _).mp hprint with ⟨hquote, hvalues, rfl⟩
  have hsolid : Text.IsSolid (Opcode.name .halt) :=
    Text.isSolid_of_isToken (Opcode.isToken_name .halt)
  rw [hlast.unique hsolid stands_halt, List.flatten_cons, List.flatten_singleton] at hflatten
  have hlines : lines = printedLines (text ++ ['\n']) := hflatten.symm
  have hfits := h.fits
  rw [hlines, sum_size_printedLines, List.length_append, List.length_singleton] at hfits
  exact ⟨hquote, hvalues, by omega, hdeclares, hlines⟩

/-- If the text can be printed, the source is right. -/
theorem inLanguage_println {text : Text} (hline : '\n' ∉ text) (hquote : Shorthand.quote ∉ text)
    (hvalues : ∀ c ∈ text, c.toNat ≤ 32767) (hfits : 2 * text.length + 3 ≤ 32768) :
    InLanguage (printlnSource text) [] (printedLines (text ++ ['\n'])) := by
  rcases filter_isDeclaration_println hline with ⟨hcode, hdata⟩
  have hcodes : ∀ c ∈ text ++ ['\n'], c.toNat ≤ 32767 := by
    rw [List.forall_mem_append, List.forall_mem_singleton]
    exact ⟨hvalues, by decide⟩
  have hprint := (Shorthand.stands_println_iff 1 text _).mpr ⟨hquote, hvalues, rfl⟩
  have hlabels : labelNames (printedLines (text ++ ['\n'])) = [] :=
    List.filterMap_eq_nil_iff.mpr fun line hmem =>
      line.label?_eq_none_iff.mpr (isLabel_of_mem_printedLines hmem)
  exact {
    declares := by rw [hdata]; exact List.Forall₂.nil
    dataNames := List.nodup_nil
    stands := ⟨_, by rw [hcode]; exact .cons hprint (.cons stands_halt .nil), rfl⟩
    statements := fun _ hmem => isStatement_of_mem_printedLines hcodes hmem
    labelNames := by rw [hlabels]; exact List.nodup_nil
    labelsInside := by
      intro before line after hsplit hlabel
      have hmem : line ∈ printedLines (text ++ ['\n']) := by
        rw [hsplit]
        simp
      rw [isLabel_of_mem_printedLines hmem] at hlabel
      cases hlabel
    dataInside := beginsInside_nil _
    fits := by
      rw [sum_size_printedLines, List.length_append, List.length_singleton, List.map_nil,
        List.sum_nil]
      omega }

/-! ### The program -/

/-- The codes that are printed for a text: those of its characters, and the end of the
    line. -/
def printedCodes (text : Text) : List Word := (text ++ ['\n']).map fun c => UInt16.ofNat c.toNat

theorem map_toNat_printedCodes {text : Text} (h : ∀ c ∈ text, c.toNat ≤ 32767) :
    (printedCodes text).map UInt16.toNat = text.map Char.toNat ++ [10] := by
  have hcodes : text.map (UInt16.toNat ∘ fun c => UInt16.ofNat c.toNat) = text.map Char.toNat :=
    List.map_congr_left fun c hc =>
      UInt16.toNat_ofNat_of_lt' (Nat.lt_of_le_of_lt (h c hc) (by decide))
  rw [printedCodes, List.map_append, List.map_append, List.map_map, hcodes]
  rfl

theorem isValue_of_mem_printedCodes {text : Text} (h : ∀ c ∈ text, c.toNat ≤ 32767) {code : Word}
    (hcode : code ∈ printedCodes text) : code.IsValue := by
  have hmem : code.toNat ∈ (printedCodes text).map UInt16.toNat := List.mem_map_of_mem hcode
  rw [map_toNat_printedCodes h] at hmem
  rcases List.mem_append.mp hmem with hmem | hmem
  · rcases List.mem_map.mp hmem with ⟨c, hc, hsame⟩
    rw [Word.IsValue, ← hsame]
    exact Nat.lt_succ_of_le (h c hc)
  · rw [Word.IsValue, List.mem_singleton.mp hmem]
    decide

/-- The words of a line that prints a number. -/
theorem Meaning.out {symbols : SymbolTable}
    (hsmall : ∀ s ∈ symbols.symbols, s.address.toNat ≤ 32775) {n : Nat} (hn : n ≤ 32775)
    {words : List Word} (h : Meaning symbols [Opcode.name .out, Decimal.write n] words) :
    words = [Opcode.word .out, UInt16.ofNat n] := by
  rcases h.operands with ⟨_, rfl, _ | ⟨hcode, _ | _⟩⟩
  rw [Term.operand_unique (Decimal.isToken_write n) hsmall hcode
    ⟨.number n, .number (Decimal.denotes_write n), hn, rfl⟩]

/-- The words of a line that halts. -/
theorem Meaning.halt {symbols : SymbolTable} {words : List Word}
    (h : Meaning symbols [Opcode.name .halt] words) : words = [Opcode.word .halt] := by
  rcases h.operands with ⟨_, rfl, _ | _⟩
  rfl

/-- A source that prints a text assembles to the code that prints it. -/
theorem Passes.words_println {text : Text} (hline : '\n' ∉ text)
    (t : Passes (printlnSource text)) : t.program.words = printing (printedCodes text) := by
  rcases t.inLanguage.println hline with ⟨_, hvalues, _, hdeclarations, hexpanded⟩
  have hcodes : ∀ c ∈ text ++ ['\n'], c.toNat ≤ 32775 := by
    rw [List.forall_mem_append, List.forall_mem_singleton]
    exact ⟨fun c hc => Nat.le_trans (hvalues c hc) (by decide), by decide⟩
  have hinstructions : t.instructions = printedLines (text ++ ['\n']) := by
    rw [t.instructions_eq, hexpanded]
    refine List.filter_eq_self.mpr fun line hmem => ?_
    rw [isLabel_of_mem_printedLines hmem]
    rfl
  -- Each character is encoded in its two words, and the last line in its one.
  have hmeaning := t.forall₂_meaning
  rw [hinstructions, printedLines] at hmeaning
  rcases exists_of_forall₂_append hmeaning with ⟨printed, last, hencoded, hprinted, hlast⟩
  rcases hlast with _ | ⟨hhalt, _ | _⟩
  rw [tokens_halt] at hhalt
  have hprints : (text ++ ['\n']).map (fun c => [Opcode.word .out, UInt16.ofNat c.toNat]) =
      printed.map id := by
    rw [map_eq_map_iff_forall₂]
    rw [List.forall₂_map_left_iff] at hprinted
    refine ((List.forall₂_and_left _ _).mpr ⟨hcodes, hprinted⟩).imp ?_
    rintro c words ⟨hcode, hwords⟩
    rw [tokens_outLine] at hwords
    exact (hwords.out (fun _ => t.address_le) hcode).symm
  rw [List.map_id] at hprints
  rw [program, hencoded, hdeclarations, hhalt.halt, ← hprints, List.flatten_append,
    List.flatten_singleton, List.flatMap_nil, List.append_nil, printing, printedCodes,
    List.flatMap_map, List.flatMap_def]

/-- A text in one line is printed by a source of two lines exactly if it holds no quote, its
    codes are values, and there is room for the code. The program then prints the text and
    the end of the line and halts, within one step for each code and one more, and leaves
    everything else as it was. -/
theorem println_prints {text : Text} (hline : '\n' ∉ text) :
    ((∃ p, assemble (printlnSource text) = .ok p) ↔
      Shorthand.quote ∉ text ∧ (∀ c ∈ text, c.toNat ≤ 32767) ∧ 2 * text.length + 3 ≤ 32768) ∧
    ∀ p, assemble (printlnSource text) = .ok p →
      ∃ m, Machine.ofBytes p.bytes = .ok m ∧
        (∀ before : Machine, before.load p.words = ⟨.ok (), m⟩) ∧
        ∀ budget, text.length + 2 ≤ budget →
          (m.run budget).stop = .ok .halt ∧
          (m.run budget).outputs.toList.map UInt16.toNat = text.map Char.toNat ++ [10] ∧
          (m.run budget).machine.registers = m.registers ∧
          (m.run budget).machine.stack = m.stack ∧
          (m.run budget).machine.memory = m.memory := by
  constructor
  · constructor
    · rintro ⟨p, hp⟩
      rcases (assemble_eq_ok_iff _ p).mp hp with ⟨t, _⟩
      rcases t.inLanguage.println hline with ⟨hquote, hvalues, hfits, _⟩
      exact ⟨hquote, hvalues, hfits⟩
    · rintro ⟨hquote, hvalues, hfits⟩
      rcases (inLanguage_println hline hquote hvalues hfits).exists_passes with ⟨t⟩
      exact ⟨t.program, (assemble_eq_ok_iff _ _).mpr ⟨t, rfl⟩⟩
  · intro p hp
    rcases (assemble_eq_ok_iff _ p).mp hp with ⟨t, rfl⟩
    rcases t.inLanguage.println hline with ⟨_, hvalues, _⟩
    have hwords := t.words_println hline
    have hfits := t.length_words_le
    refine ⟨_, Machine.ofBytes_toBytes hfits, Machine.load_of_le hfits, fun budget hbudget => ?_⟩
    generalize t.program.words = words at hfits hwords ⊢
    subst hwords
    -- A budget that is enough is what the code takes and some more.
    have hrun := Machine.run_loaded_printing (fun _ => isValue_of_mem_printedCodes hvalues) hfits
      (budget - (text.length + 2))
    have hsteps : (printedCodes text).length + 1 + (budget - (text.length + 2)) = budget := by
      rw [printedCodes, List.length_map, List.length_append, List.length_singleton]
      omega
    rw [hsteps] at hrun
    rw [hrun]
    exact ⟨rfl, map_toNat_printedCodes hvalues, rfl, rfl, rfl⟩

/-- Blanks at both ends, marks of comments, labels and data, a carriage return and a sign
    that takes more than one byte. -/
theorem println_prints_marks :
    '\n' ∉ " #:.\r∀ ".toList ∧
      ∃ p m, assemble (printlnSource " #:.\r∀ ".toList) = .ok p ∧
        Machine.ofBytes p.bytes = .ok m ∧ (m.run 9).stop = .ok .halt ∧
        (m.run 9).outputs.toList.map UInt16.toNat = [32, 35, 58, 46, 13, 8704, 32, 10] := by
  have hline : '\n' ∉ " #:.\r∀ ".toList := by decide
  have hquote : Shorthand.quote ∉ " #:.\r∀ ".toList := by decide
  have hall : " #:.\r∀ ".toList.all (fun c => c.toNat ≤ 32767) = true := by decide
  have hvalues : ∀ c ∈ " #:.\r∀ ".toList, c.toNat ≤ 32767 := fun c hc =>
    of_decide_eq_true (List.all_eq_true.mp hall c hc)
  rcases println_prints hline with ⟨hassembles, hruns⟩
  rcases hassembles.mpr ⟨hquote, hvalues, by decide⟩ with ⟨p, hp⟩
  rcases hruns p hp with ⟨m, hm, _, hrun⟩
  rcases hrun 9 (by decide) with ⟨hstop, houtputs, _⟩
  exact ⟨hline, p, m, hp, hm, hstop, houtputs.trans (by decide)⟩

end WordMachine
