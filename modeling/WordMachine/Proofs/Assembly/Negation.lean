import WordMachine.Proofs.Assembly.Agreement
import WordMachine.Proofs.Assembly.Language
import WordMachine.Proofs.Machine.Code

/-!
# Negation

What a line that negates does, from its tokens to the two steps that execute it.

A negation is a complement followed by the addition of one, both into the same destination.
The second instruction has the destination among its sources, and there it is read as any
source is. A register gives back the complement that was just stored, so that the sum is the
negative. A literal does not: as a destination it names a cell, as a source it is a value. So
a cell is given the number after its own address, and the complement is lost.

The words of the code are known from the tokens of the line, and may be anywhere in memory
when they are executed. `Passes.words_negation` is the one half of this and
`Machine.steps_negation` the other.

## Main definitions

* `negation`: The words of a negation.
* `Machine.negated`: The number that a negation leaves.
* `SymbolTable.Reads`: The operand that a token stands for.

## Theorems

* `Machine.steps_negation`: The two steps of a negation.
* `Meaning.negation`: The words that the tokens of a negation stand for.
* `Passes.exists_part`: Where the lines that a line stands for are.
* `Passes.words_of_part`: The words of some of the lines.
* `Passes.words_negation`: The words that a negation is assembled to.
* `negation_executes`: A line that negates, assembled and executed.
-/

namespace WordMachine

/-! ### The two steps -/

/-- The words of a negation: a complement, and the addition of one. -/
def negation (destination source : Operand) : List Word :=
  [Opcode.word .not, destination.toWord, source.toWord,
    Opcode.word .add, destination.toWord, destination.toWord, 1]

namespace Machine

/-- The number that a negation leaves. In a register it is the negative of the source. A
    destination that is a literal is the cell with that address, but the address itself
    where it is read. -/
def negated (m : Machine) (source : Operand) : Operand → Nat
  | .register _ => (memorySize - (m.valueOf source).toNat) % memorySize
  | .literal address => (address.toNat + 1) % memorySize

/-- The two steps of a negation whose words are the next. -/
theorem steps_negation {m : Machine} {destination source : Operand}
    (hdestination : destination.InRange) (hsource : source.InRange) (hhalted : m.halted = false)
    (hregisters : ∀ w ∈ m.registers, w.IsValue)
    (hcode : m.memory.wordsFrom m.ip 7 = negation destination source)
    (houtside : destination.Outside m.ip 7) :
    ∃ (m' m'' : Machine) (result : Word), m.step = ⟨.ok .none, m'⟩ ∧
      m'.step = ⟨.ok .none, m''⟩ ∧ m.Assigns m'' result destination 7 ∧
      result.toNat = m.negated source destination := by
  -- The complement is the first three words, and the addition the other four.
  have hparts : negation destination source =
      (Opcode.word .not :: [destination, source].map Operand.toWord) ++
        (Opcode.word .add :: [destination, destination, .literal 1].map Operand.toWord) := rfl
  rw [m.memory.wordsFrom_add m.ip 3 4, hparts] at hcode
  rcases List.append_inj hcode (by rw [Memory.wordsFrom, List.length_map]; rfl) with ⟨hnot, hadd⟩
  rcases step_computes .not destination [source] hhalted hregisters (by decide) (by decide)
    (by simp [hdestination, hsource]) hnot with ⟨m', value, hstep, hvalue, hassigns⟩
  have hcomplement : memorySize - 1 - (m.valueOf source).toNat = value.toNat :=
    Option.some.inj hvalue
  have hisValue : value.IsValue := by
    rw [Word.IsValue, ← hcomplement]
    exact Nat.lt_of_le_of_lt (Nat.sub_le _ _) (by decide)
  -- The addition is still there, and the sum is that of one and what the destination is now.
  have hthere : m'.memory.wordsFrom m'.ip 4 =
      Opcode.word .add :: [destination, destination, .literal 1].map Operand.toWord :=
    (hassigns.wordsFrom houtside).trans hadd
  have hone : (Operand.literal 1).InRange := (by decide : Word.IsValue 1)
  rcases step_computes .add destination [destination, .literal 1] (hassigns.halted.trans hhalted)
    (hassigns.writes.isValue_registers hisValue hregisters) (by decide) (by decide)
    (by simp [hdestination, hone]) hthere with ⟨m'', result, hstep', hresult, hassigns'⟩
  have hsum : ((m'.valueOf destination).toNat + 1) % memorySize = result.toNat :=
    Option.some.inj hresult
  refine ⟨m', m'', result, hstep, hstep', hassigns.trans hassigns', hsum.symm.trans ?_⟩
  cases hassigns.writes with
  | register _ hwritten _ _ =>
      have hlt : (m.valueOf source).toNat < memorySize := isValue_valueOf hregisters hsource
      rw [valueOf, hwritten, negated, ← hcomplement]
      congr 1
      omega
  | cell _ _ _ => rfl

end Machine

/-! ### The words of a line -/

/-- The token is an operand, and this is the operand that it stands for. -/
def SymbolTable.Reads (symbols : SymbolTable) (token : Text) (operand : Operand) : Prop :=
  ∃ (a : Term) (w : Word), a.Written token ∧ a.IsOperand symbols.Defines ∧
    a.word? symbols = some w ∧ Operand.ofWord? w = some operand

namespace SymbolTable

variable {symbols : SymbolTable} {token : Text}

theorem exists_reads (hsmall : ∀ s ∈ symbols.symbols, s.address.toNat ≤ 32775) {w : Word}
    (h : ∃ a : Term, a.Written token ∧ a.IsOperand symbols.Defines ∧ a.word? symbols = some w) :
    ∃ operand, symbols.Reads token operand ∧ operand.toWord = w := by
  rcases h with ⟨a, hwritten, hoperand, hword⟩
  have hsome := (Operand.ofWord?_isSome_iff w).mpr (Term.word_le hsmall hoperand hword)
  rcases Option.isSome_iff_exists.mp hsome with ⟨operand, hdecoded⟩
  exact ⟨operand, ⟨a, w, hwritten, hoperand, hword, hdecoded⟩, Operand.toWord_of_ofWord? hdecoded⟩

theorem Reads.inRange {operand : Operand} (h : symbols.Reads token operand) : operand.InRange := by
  rcases h with ⟨_, _, _, _, _, hdecoded⟩
  exact Operand.inRange_of_ofWord? hdecoded

end SymbolTable

/-- Different operands in range have different words. -/
theorem Operand.eq_of_toWord {a b : Operand} (ha : a.InRange) (hb : b.InRange)
    (h : a.toWord = b.toWord) : a = b := by
  have hdecoded := ofWord?_toWord ha
  rw [h, ofWord?_toWord hb] at hdecoded
  exact (Option.some.inj hdecoded).symm

/-- The words of a complement and of the addition of one are those of a negation. -/
theorem Meaning.negation {symbols : SymbolTable}
    (hsmall : ∀ s ∈ symbols.symbols, s.address.toNat ≤ 32775) {dest src : Text}
    (hdest : Text.IsToken dest) {complement sum : List Word}
    (hnot : Meaning symbols [Opcode.name .not, dest, src] complement)
    (hadd : Meaning symbols [Opcode.name .add, dest, dest, Decimal.write 1] sum) :
    ∃ destination origin, symbols.Reads dest destination ∧ symbols.Reads src origin ∧
      complement ++ sum = negation destination origin := by
  rcases hnot.operands with ⟨_, rfl, hoperands⟩
  rcases hadd.operands with ⟨_, rfl, hoperands'⟩
  rcases hoperands with _ | ⟨hd, _ | ⟨hs, _ | _⟩⟩
  rcases hoperands' with _ | ⟨hd', _ | ⟨hd'', _ | ⟨hone, _ | _⟩⟩⟩
  rcases SymbolTable.exists_reads hsmall hd with ⟨destination, hreads, hword⟩
  rcases SymbolTable.exists_reads hsmall hs with ⟨origin, hreads', hword'⟩
  refine ⟨destination, origin, hreads, hreads', ?_⟩
  -- A token stands for the same word wherever it is, and the last token is the number one.
  have hnumber := Term.operand_unique (Decimal.isToken_write 1) hsmall hone
    ⟨.number 1, .number (Decimal.denotes_write 1), (by decide : 1 ≤ 32775), rfl⟩
  rw [Term.operand_unique hdest hsmall hd' hd, Term.operand_unique hdest hsmall hd'' hd, hnumber,
    ← hword, ← hword']
  rfl

namespace Passes

variable {source : Text} (t : Passes source)

/-- The lines that a line of code stands for are among the expanded lines, together. -/
theorem exists_part {line : Line} (hline : line ∈ Line.ofSource source)
    (hcode : Declaration.isDeclaration line = false) {part : List Line}
    (hstands : Shorthand.Stands line part) :
    ∃ before after, t.expanded = before ++ (part ++ after) := by
  rcases t.inLanguage.stands with ⟨parts, hparts, hflatten⟩
  have hmem : line ∈ (Line.ofSource source).filter (!Declaration.isDeclaration ·) :=
    List.mem_filter.mpr ⟨hline, by simp [hcode]⟩
  rcases List.append_of_mem hmem with ⟨front, back, hsplit⟩
  rw [hsplit] at hparts
  rcases exists_of_forall₂_append hparts with ⟨before, rest, rfl, _, hrest⟩
  rcases List.forall₂_cons_left_iff.mp hrest with ⟨other, after, hother, _, rfl⟩
  rw [Shorthand.Stands.unique (Line.isSolid_of_mem_ofSource hline) hstands hother]
  exact ⟨before.flatten, after.flatten, by rw [← hflatten, List.flatten_append, List.flatten_cons]⟩

/-- The words of some lines without labels are in the program after those of the lines
    before. -/
theorem words_of_part {before part after : List Line}
    (h : t.expanded = before ++ (part ++ after)) (hlabels : ∀ line ∈ part, line.isLabel = false) :
    ∃ encoded, List.Forall₂ (fun line words => Meaning t.final.symbols line.tokens words)
        part encoded ∧
      (t.program.words.drop (before.map Line.size).sum).take encoded.flatten.length =
        encoded.flatten := by
  have hfilter : part.filter (!·.isLabel) = part :=
    List.filter_eq_self.mpr fun line hline => by rw [hlabels line hline]; rfl
  have hmeaning := t.forall₂_meaning
  rw [t.instructions_eq, h, List.filter_append, List.filter_append, hfilter] at hmeaning
  rcases exists_of_forall₂_append hmeaning with ⟨first, rest, hfirst, hbefore, hrest⟩
  rcases exists_of_forall₂_append hrest with ⟨encoded, last, rfl, hpart, _⟩
  refine ⟨encoded, hpart, ?_⟩
  -- The sizes of the lines before are the lengths of their words.
  have hsize : (before.map Line.size).sum = first.flatten.length := by
    rw [t.sum_size_eq h, wordsBefore, hfirst, List.countP_eq_length_filter,
      List.take_left' hbefore.length_eq.symm]
  rw [hsize, program, hfirst, List.flatten_append, List.flatten_append, List.append_assoc,
    List.append_assoc, List.drop_left, List.take_left]

/-- A line that negates is assembled to the words of a negation of its operands. -/
theorem words_negation {line : Line} {dest src : Text} (hline : line ∈ Line.ofSource source)
    (htokens : line.tokens = [Shorthand.negateName, dest, src]) :
    ∃ before after destination origin,
      t.expanded =
        before ++ ((Shorthand.negateLines dest src).map (⟨line.number, ·⟩) ++ after) ∧
      t.final.symbols.Reads dest destination ∧ t.final.symbols.Reads src origin ∧
      (t.program.words.drop (before.map Line.size).sum).take 7 = negation destination origin := by
  have hisToken : ∀ token ∈ line.tokens, Text.IsToken token := fun _ => Line.isToken_of_mem_tokens
  rw [htokens] at hisToken
  have hdest : Text.IsToken dest := hisToken dest (by simp)
  have hsrc : Text.IsToken src := hisToken src (by simp)
  have hcode : Declaration.isDeclaration line = false := by
    have hhead : line.head = Shorthand.negateName := (Line.parts_of_tokens htokens).1
    have hsolid : Text.IsSolid line.text := Line.isSolid_of_mem_ofSource hline
    rw [Declaration.isDeclaration, ← Line.startsWith_head hsolid, hhead]
    rfl
  rcases t.exists_part hline hcode (.negate htokens) with ⟨before, after, hexpanded⟩
  rw [← Shorthand.map_negateLines] at hexpanded
  -- The line stands for two lines, both of them instructions.
  have hnot := Line.tokens_unwords line.number [Opcode.name .not, dest, src]
    (by simp [Opcode.isToken_name, hdest, hsrc])
  have hadd := Line.tokens_unwords line.number [Opcode.name .add, dest, dest, Decimal.write 1]
    (by simp [Opcode.isToken_name, Decimal.isToken_write, hdest])
  rcases t.words_of_part hexpanded (by
    simp [Shorthand.negateLines, Line.isLabel_of_name hnot, Line.isLabel_of_name hadd]) with
    ⟨_, _ | ⟨hcomplement, _ | ⟨hsum, _ | _⟩⟩, hwords⟩
  rw [hnot] at hcomplement
  rw [hadd] at hsum
  rcases Meaning.negation (fun _ => t.address_le) hdest hcomplement hsum with
    ⟨destination, origin, hreads, hreads', hnegation⟩
  rw [List.flatten_cons, List.flatten_cons, List.flatten_nil, List.append_nil, hnegation] at hwords
  exact ⟨before, after, destination, origin, hexpanded, hreads, hreads', hwords⟩

end Passes

/-- A line that negates is assembled to seven words. Wherever they are the next words of a
    machine, and the destination is no cell among them, the machine executes them in two
    steps that report nothing, and all they change is the destination. A register is left
    with the negative of what the source was before, also if it is the source, and a cell
    with the number after its address. -/
theorem negation_executes {source : Text} {p : Program} (h : assemble source = .ok p)
    {line : Line} {dest src : Text} (hline : line ∈ Line.ofSource source)
    (htokens : line.tokens = [Shorthand.negateName, dest, src]) :
    ∃ t : Passes source, t.program = p ∧ ∃ before after destination origin,
      t.expanded =
        before ++ ((Shorthand.negateLines dest src).map (⟨line.number, ·⟩) ++ after) ∧
      SymbolTable.Reads ⟨p.symbols⟩ dest destination ∧ SymbolTable.Reads ⟨p.symbols⟩ src origin ∧
      (p.words.drop (before.map Line.size).sum).take 7 = negation destination origin ∧
      ∀ m : Machine, m.halted = false → (∀ w ∈ m.registers, w.IsValue) →
        m.memory.wordsFrom m.ip 7 = negation destination origin →
        destination.Outside m.ip 7 →
        ∃ (m' m'' : Machine) (result : Word), m.step = ⟨.ok .none, m'⟩ ∧
          m'.step = ⟨.ok .none, m''⟩ ∧ m.Assigns m'' result destination 7 ∧
          result.toNat = m.negated origin destination := by
  rcases (assemble_eq_ok_iff source p).mp h with ⟨t, rfl⟩
  rcases t.words_negation hline htokens with
    ⟨before, after, destination, origin, hexpanded, hreads, hreads', hwords⟩
  refine ⟨t, rfl, before, after, destination, origin, hexpanded, hreads, hreads', hwords, ?_⟩
  intro m hhalted hregisters hcode houtside
  exact Machine.steps_negation hreads.inRange hreads'.inRange hhalted hregisters hcode houtside

namespace Machine

/-- A machine at the top of memory, about to negate a register in place. The addition is at
    the bottom. -/
def negatingAround : Machine :=
  { empty.store (.register 1) 5 with
    memory := (((Memory.image [9, 32769, 32769, 1]).write 32765 14).write 32766 32769).write
      32767 32769
    ip := 32765 }

theorem wordsFrom_negatingAround :
    negatingAround.memory.wordsFrom negatingAround.ip 7 = negation (.register 1) (.register 1) := by
  have hread : ∀ address, negatingAround.memory.read address =
      if Word.cell 32767 = Word.cell address then 32769
        else if Word.cell 32766 = Word.cell address then 32769
          else if Word.cell 32765 = Word.cell address then 14
            else [9, 32769, 32769, 1].getD (Word.cell address).val 0 := by
    intro address
    change ((((Memory.image _).write _ _).write _ _).write _ _).read address = _
    rw [Memory.read_write, Memory.read_write, Memory.read_write, Memory.read_image]
  simp only [Memory.wordsFrom, hread]
  decide

/-- A register is negated in place, by code that goes around the top of memory. -/
theorem negation_executes_around :
    assemble "!neg r1 r1".toList = .ok ⟨[14, 32769, 32769, 9, 32769, 32769, 1], 7, []⟩ ∧
      ∃ m' m'' : Machine, negatingAround.step = ⟨.ok .none, m'⟩ ∧ m'.step = ⟨.ok .none, m''⟩ ∧
        negatingAround.Assigns m'' 32763 (.register 1) 7 := by
  have hline : (⟨1, "!neg r1 r1".toList⟩ : Line) ∈ Line.ofSource "!neg r1 r1".toList := by
    decide
  have hassembled : assemble "!neg r1 r1".toList =
      .ok ⟨[14, 32769, 32769, 9, 32769, 32769, 1], 7, []⟩ := rfl
  rcases negation_executes hassembled hline rfl with
    ⟨_, _, before, _, destination, origin, _, hreads, hreads', hwords, hexecutes⟩
  -- There are only seven words, so they are the ones of the line.
  have hstart : (before.map Line.size).sum = 0 := by
    have hlength := congrArg List.length hwords
    rw [List.length_take, List.length_drop] at hlength
    simp only [negation, List.length_cons, List.length_nil] at hlength
    omega
  rw [hstart] at hwords
  injection hwords with _ hwords
  injection hwords with hdestination hwords
  injection hwords with horigin _
  have hregister : (Operand.register 1).InRange := (by decide : 1 < registerCount)
  obtain rfl : destination = .register 1 :=
    Operand.eq_of_toWord hreads.inRange hregister hdestination.symm
  obtain rfl : origin = .register 1 :=
    Operand.eq_of_toWord hreads'.inRange hregister horigin.symm
  have hregisters : ∀ w ∈ negatingAround.registers, w.IsValue :=
    (inRange_store inRange_empty (.register 1) (by decide)).registers
  rcases hexecutes negatingAround rfl hregisters wordsFrom_negatingAround nofun with
    ⟨m', m'', result, hstep, hstep', hassigns, hresult⟩
  have hvalue : result = 32763 := by
    apply UInt16.toNat_inj.mp
    rw [hresult]
    decide
  exact ⟨hassembled, m', m'', hstep, hstep', hvalue ▸ hassigns⟩

/-- A machine that is about to negate a register into a cell. -/
def negatingIntoCell : Machine :=
  { empty.store (.register 1) 5 with
    memory := Memory.image [14, 100, 32769, 9, 100, 100, 1]
    wordCount := 7 }

/-- A cell is not left with the negative: the register holds five, and cell one hundred is
    given one hundred and one. -/
theorem cell_not_negated :
    assemble "!neg 100 r1".toList = .ok ⟨[14, 100, 32769, 9, 100, 100, 1], 7, []⟩ ∧
      negatingIntoCell.halted = false ∧ negatingIntoCell.ip = 0 ∧
      (∀ w ∈ negatingIntoCell.registers, w.IsValue) ∧
      negatingIntoCell.memory.wordsFrom 0 7 = [14, 100, 32769, 9, 100, 100, 1] ∧
      (∀ i < 7, Word.cell 100 ≠ Word.cell (Word.after 0 i)) ∧
      negatingIntoCell.valueOf (.register 1) = 5 ∧
      ∃ m' m'' : Machine, negatingIntoCell.step = ⟨.ok .none, m'⟩ ∧ m'.step = ⟨.ok .none, m''⟩ ∧
        (m''.memory.read 100).toNat = 101 ∧ (m''.memory.read 100).toNat ≠ (32768 - 5) % 32768 := by
  have hcode : negatingIntoCell.memory.wordsFrom 0 7 = [14, 100, 32769, 9, 100, 100, 1] := by
    have hread := Memory.read_image [14, 100, 32769, 9, 100, 100, 1]
    change (Memory.image _).wordsFrom 0 7 = _
    simp only [Memory.wordsFrom, hread]
    decide
  have hfive : Word.IsValue 5 := by decide
  have hregisters : ∀ w ∈ negatingIntoCell.registers, w.IsValue :=
    (inRange_store inRange_empty (.register 1) hfive).registers
  have hapart : ∀ i < 7, Word.cell 100 ≠ Word.cell (Word.after 0 i) := by decide
  have hdestination : (Operand.literal 100).InRange := (by decide : Word.IsValue 100)
  have hsource : (Operand.register 1).InRange := (by decide : 1 < registerCount)
  rcases steps_negation hdestination hsource (m := negatingIntoCell) rfl hregisters hcode
    (by rintro _ ⟨⟩; exact hapart) with ⟨m', m'', result, hstep, hstep', hassigns, hresult⟩
  have hleft : (m''.memory.read 100).toNat = 101 := by
    cases hassigns.writes with
    | cell hvalue _ _ =>
        rw [hvalue, hresult]
        decide
  refine ⟨rfl, rfl, rfl, hregisters, hcode, hapart, by decide, m', m'', hstep, hstep', hleft, ?_⟩
  rw [hleft]
  decide

end Machine

end WordMachine
