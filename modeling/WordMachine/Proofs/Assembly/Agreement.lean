import WordMachine.Proofs.Assembly.Meaning
import WordMachine.Proofs.Listing.Assembled
import WordMachine.Proofs.Machine.Faults

/-!
# Agreement on Every Line

A line of source, the words in memory and the step that executes them agree.

Three parts of the machine read the table of instructions. The assembler goes from a
name to a word, decoding from a word to a name, and execution from a word to what it
reads and does. `Machine.Agrees` says of one line at one address that all three see
the same instruction: what is decoded there has the name of the line and the words
that its operands stand for, it is written as the line in canonical form, and a
machine that comes to it can execute it, as far as that depends on the words. What is
left to go wrong is an empty stack or a zero divisor.

The words of the lines lie one after the other in a loaded program, so a line is held
at the sum of the sizes before it, which is where it was placed. The rest is said of
a single line that is held at an address, in any machine.

## Main definitions

* `Operand.canonical`: The one way in which an operand word is written.
* `Machine.Agrees`: A line and what a machine holds at an address.

## Theorems

* `Memory.forall₂_strideStarts`: Words are held where they start.
* `Instruction.decode_of_slice`: What is decoded where an instruction is held.
* `Machine.not_undecodable_of_slice`: A step where an instruction is held.
* `assembled_lines_agree`: All lines of a source agree with the loaded program.
-/

namespace WordMachine

/-! ### Canonical form -/

/-- The one way in which an operand word is written: a number without zeros in front, or
    `r` and the number of a register. -/
def Operand.canonical (w : Word) : Text :=
  if w.toNat < 32768 then Decimal.write w.toNat else 'r' :: Decimal.write (w.toNat - 32768)

theorem Operand.wordText_eq_canonical {w : Word} (h : w ≤ maxWord) :
    wordText w = canonical w := by
  unfold wordText ofWord? canonical
  by_cases hlt : w < registerBase
  · have hvalue : w.toNat < 32768 := UInt16.lt_iff_toNat_lt.mp hlt
    rw [if_pos hlt, if_pos hvalue]
    rfl
  · have hvalue : ¬ w.toNat < 32768 := fun hc => hlt (UInt16.lt_iff_toNat_lt.mpr hc)
    have hbase : registerBase ≤ w := UInt16.not_lt.mp hlt
    rw [if_neg hlt, if_pos h, if_neg hvalue]
    simp only [text, UInt16.toNat_sub_of_le _ _ hbase]
    rfl

/-- What an operand stands for encodes an operand. -/
theorem Term.word_le {symbols : SymbolTable} {a : Term} {w : Word}
    (hsmall : ∀ s ∈ symbols.symbols, s.address.toNat ≤ 32775)
    (ha : a.IsOperand symbols.Defines) (hw : a.word? symbols = some w) :
    w ≤ Operand.maxWord := by
  refine UInt16.le_iff_toNat_le.mpr (show w.toNat ≤ 32775 from ?_)
  cases a with
  | number n =>
      cases hw
      rw [UInt16.toNat_ofNat_of_lt' (Nat.lt_of_le_of_lt ha (by decide))]
      exact ha
  | register n =>
      cases hw
      have hle : n ≤ 7 := ha
      rw [UInt16.toNat_ofNat_of_lt' (show 32768 + n < 65536 by omega)]
      omega
  | symbol space name =>
      rcases ha with ⟨s, hs⟩
      rw [word?, hs] at hw
      cases hw
      exact hsmall s (SymbolTable.find?_some hs).1

/-! ### Instructions that are held -/

/-- Words that lie one after the other are each held where they start. -/
theorem Memory.forall₂_strideStarts (memory : Memory) {strides : List (List Word)} {start : Nat}
    (hfit : start + strides.flatten.length ≤ memorySize)
    (h : memory.slice start strides.flatten.length = strides.flatten) :
    List.Forall₂ (fun words o => o + words.length ≤ memorySize ∧
      memory.slice o words.length = words) strides (strideStarts start strides) := by
  induction strides generalizing start with
  | nil => exact List.Forall₂.nil
  | cons words rest ih =>
      rw [List.flatten_cons, List.length_append] at hfit h
      -- The first words are the first stretch, and the others begin after it.
      rw [memory.slice_append] at h
      rcases List.append_inj h (memory.length_slice (by omega)) with ⟨hfirst, hrest⟩
      exact List.Forall₂.cons ⟨by omega, hfirst⟩ (ih (by omega) hrest)

theorem Memory.read_of_slice {memory : Memory} {o n : Nat} {w : Word} {words : List Word}
    (hlt : o < memorySize) (h : memory.slice o (n + 1) = w :: words) :
    memory.read (UInt16.ofNat o) = w := by
  rw [memory.slice_succ n hlt, List.cons.injEq] at h
  exact h.1

namespace Instruction

variable {memory : Memory} {o : Nat} {op : Opcode} {operands : List Word}

/-- Where an instruction with good operands is held, that instruction is decoded. -/
theorem decode_of_slice (hlength : operands.length = op.arity)
    (hmax : ∀ w ∈ operands, w ≤ Operand.maxWord) (hfit : o + (operands.length + 1) ≤ memorySize)
    (hslice : memory.slice o (operands.length + 1) = op.word :: operands) :
    decode memory (UInt16.ofNat o) = .ofParts (UInt16.ofNat o) op.word (some op) operands := by
  have hsize := (IsStride.instruction op operands hlength hmax).sizeAt_eq hfit hslice
  have hwords := words_decode memory (by rw [hsize]; exact hfit)
  rw [hsize, List.length_cons, hslice] at hwords
  -- The first word decides the opcode, and all words together are the ones held.
  have hlt : o < memorySize := by omega
  have hread := Memory.read_of_slice hlt hslice
  have hop : Opcode.ofWord? (memory.read (UInt16.ofNat o)) = some op := by
    rw [hread, op.ofWord?_word]
  have hlow : Word.low (UInt16.ofNat o) = UInt16.ofNat o := by
    refine Word.low_eq_self ?_
    rw [UInt16.toNat_ofNat_of_lt' (Nat.lt_trans hlt (by decide))]
    exact hlt
  rw [decode_of_opcode hop] at hwords ⊢
  rw [hlow, hread] at hwords ⊢
  injection hwords with _ hoperands
  rw [show operandWords memory (UInt16.ofNat o) op = operands from hoperands]

end Instruction

namespace Machine

/-- At an instruction whose operands are all operands, a step fails only for what it finds on
    the stack or in a divisor. -/
theorem fault_of_step {m : Machine} {op : Opcode} {fault : Fault} (hhalted : m.halted = false)
    (hop : Opcode.ofWord? (m.memory.read m.ip) = some op)
    (hoperands : ∀ n, n < op.arity → ∃ operand, m.operand n = .ok operand)
    (h : m.step.result = .error fault) :
    fault = .stackUnderflow m.ip op ∨ fault = .divisionByZero m.ip := by
  -- The instruction that begins is the one that is there.
  have hsame : ∀ {other}, m.Begins other → other = op := by
    intro other hbegins
    rw [hbegins.opcode, Opcode.ofWord?_word] at hop
    exact Option.some.inj hop
  rw [result_step_eq_error_iff] at h
  cases h with
  | halted h =>
      rw [hhalted] at h
      cases h
  | opcode _ h =>
      rw [(Opcode.ofWord?_eq_none_iff _).mpr h] at hop
      cases hop
  | operand hbegins hi _ h =>
      rw [hsame hbegins] at hi
      exact absurd ((exists_operand_iff _ _).mp (hoperands _ hi)) (UInt16.not_le.mpr h)
  | stack hbegins => exact Or.inl (by rw [hsame hbegins])
  | divisor => exact Or.inr rfl

/-- Where an instruction with good operands is held, a step finds an opcode and
    operands. -/
theorem not_undecodable_of_slice {m : Machine} {o : Nat} {op : Opcode} {operands : List Word}
    (hlength : operands.length = op.arity) (hmax : ∀ w ∈ operands, w ≤ Operand.maxWord)
    (hfit : o + (operands.length + 1) ≤ memorySize)
    (hslice : m.memory.slice o (operands.length + 1) = op.word :: operands)
    (hhalted : m.halted = false) (hip : m.ip = UInt16.ofNat o) (address w : Word) :
    m.step.result ≠ .error (.illegalOpcode address w) ∧
      m.step.result ≠ .error (.invalidOperand address w) := by
  have hdecode := Instruction.decode_of_slice hlength hmax hfit hslice
  have hop : Opcode.ofWord? (m.memory.read m.ip) = some op := by
    rw [hip, Memory.read_of_slice (by omega) hslice, op.ofWord?_word]
  -- The operand words are the ones decoded, so they are all held.
  have hwords : Instruction.operandWords m.memory m.ip op = operands := by
    rw [← hip] at hdecode
    rw [Instruction.decode_of_opcode hop] at hdecode
    injection hdecode with haddress _ _ _ hoperands
    rwa [haddress] at hoperands
  have hoperands : ∀ n, n < op.arity → ∃ operand, m.operand n = .ok operand := by
    intro n hn
    have hmem : m.memory.read (Word.after m.ip (n + 1)) ∈ operands := by
      rw [← hwords, Instruction.operandWords_eq]
      exact List.mem_map_of_mem (List.mem_range.mpr hn)
    have hsome := (Operand.ofWord?_isSome_iff _).mpr (hmax _ hmem)
    rcases Option.isSome_iff_exists.mp hsome with ⟨operand, hoperand⟩
    exact ⟨operand, (operand_eq_ok_iff _ _ _).mpr hoperand⟩
  constructor
  · intro h
    rcases fault_of_step hhalted hop hoperands h with hfault | hfault <;> cases hfault
  · intro h
    rcases fault_of_step hhalted hop hoperands h with hfault | hfault <;> cases hfault

/-- A line of source and what a machine holds at an address say the same. -/
inductive Agrees (m : Machine) (symbols : SymbolTable) (line : Line) (o : Nat) : Prop
  /-- A raw word is there as it is given. -/
  | raw (token : Text) (a : Term) (w : Word)
      (tokens : line.tokens = [Opcode.rawName, token])
      (written : a.Written token) (admissible : a.IsRaw symbols.Defines)
      (word : a.word? symbols = some w)
      (held : m.memory.read (UInt16.ofNat o) = w)
  /-- An instruction is decoded with the name of the line and the words that its operands
      stand for, is written in canonical form, and is never taken for something that
      cannot be decoded by a machine that comes to it and still holds its words. -/
  | instruction (op : Opcode) (words : List Word)
      (name : line.head = op.name)
      (denoted : List.Forall₂ (fun token w => ∃ a : Term, a.Written token ∧
        a.IsOperand symbols.Defines ∧ a.word? symbols = some w) line.operands words)
      (decoded : m.decode (UInt16.ofNat o) = .ofParts (UInt16.ofNat o) op.word (some op) words)
      (size : (m.decode (UInt16.ofNat o)).size = 1 + line.operands.length)
      (text : m.textAt (UInt16.ofNat o) =
        Text.unwords (line.head :: words.map Operand.canonical))
      (executable : ∀ m' : Machine,
        m'.memory.slice o (1 + line.operands.length) =
          m.memory.slice o (1 + line.operands.length) →
        m'.halted = false → m'.ip = UInt16.ofNat o → ∀ address w,
          m'.step.result ≠ .error (.illegalOpcode address w) ∧
            m'.step.result ≠ .error (.invalidOperand address w))

/-- A line agrees with a machine where the words that it means are held. -/
theorem agrees_of_meaning {m : Machine} {symbols : SymbolTable} {line : Line}
    {words : List Word} {o : Nat}
    (hsmall : ∀ s ∈ symbols.symbols, s.address.toNat ≤ 32775)
    (hmeaning : Meaning symbols line.tokens words) (hfit : o + words.length ≤ memorySize)
    (hslice : m.memory.slice o words.length = words) : m.Agrees symbols line o := by
  generalize htokens : line.tokens = tokens at hmeaning
  cases hmeaning with
  | raw written admissible word =>
      rw [List.length_singleton] at hfit hslice
      exact .raw _ _ _ htokens written admissible word (Memory.read_of_slice (by omega) hslice)
  | instruction op count operands =>
      rename_i rest operandWords
      rcases Line.parts_of_tokens htokens with ⟨hhead, hoperands⟩
      have hlength : operandWords.length = op.arity := operands.length_eq ▸ count
      have hsize : 1 + line.operands.length = operandWords.length + 1 := by
        rw [hoperands, operands.length_eq, Nat.add_comm]
      -- Every operand word decodes, since the symbols lie in the memory.
      have hmax : ∀ w ∈ operandWords, w ≤ Operand.maxWord := by
        intro w hw
        rcases List.forall₂_iff_get.mp operands with ⟨hsame, hget⟩
        rcases List.get_of_mem hw with ⟨⟨i, hi⟩, rfl⟩
        rcases hget i (by omega) hi with ⟨a, _, ha, hword⟩
        exact Term.word_le hsmall ha hword
      rw [List.length_cons] at hfit hslice
      have hdecode : m.decode (UInt16.ofNat o) =
          .ofParts (UInt16.ofNat o) op.word (some op) operandWords :=
        Instruction.decode_of_slice hlength hmax hfit hslice
      refine .instruction op operandWords hhead ?_ hdecode ?_ ?_ ?_
      · rw [hoperands]
        exact operands
      · rw [hdecode, Instruction.size_eq, hsize, Nat.add_comm]
        rfl
      · -- Good operands are written canonically, whatever their roles.
        rw [textAt, hdecode, hhead, Instruction.text, Instruction.textWith_eq]
        have htexts := Instruction.zipWith_wordText
          (i := .ofParts (UInt16.ofNat o) op.word (some op) operandWords) hlength
        exact congrArg (fun ts => Text.unwords (op.name :: ts)) (htexts.trans
          (List.map_congr_left fun w hw => Operand.wordText_eq_canonical (hmax w hw)))
      · intro m' hsame hhalted hip address w
        rw [hsize, hslice] at hsame
        exact not_undecodable_of_slice hlength hmax hfit hsame hhalted hip address w

end Machine

namespace Passes

variable {source : Text}

/-- In a loaded program the words of each line are held where it was placed. -/
theorem forall₂_held (t : Passes source) :
    List.Forall₂ (fun words o => o + words.length ≤ memorySize ∧
      (Memory.image t.program.words).slice o words.length = words) t.encoded
      (Layout.empty.offsets t.expanded) := by
  have hfit := t.length_words_le
  have hslice := Memory.slice_image hfit
  -- The code is the first stretch of the program.
  rw [program, List.length_append] at hfit hslice
  rw [Memory.slice_append] at hslice
  have hcode := List.append_inj_left hslice (Memory.length_slice _ (by omega))
  rw [Layout.offsets_eq t.foldlM_place (t.instructions_eq ▸ t.forall₂_size)]
  exact Memory.forall₂_strideStarts _ (show 0 + _ ≤ _ by omega) hcode

end Passes

/-- Every instruction line of a source that assembles agrees with what the loaded program
    holds where the line was placed. -/
theorem assembled_lines_agree {source : Text} {p : Program} (h : assemble source = .ok p) :
    ∃ t : Passes source, t.program = p ∧ ∃ m, Machine.ofBytes p.bytes = .ok m ∧
      List.Forall₂ (m.Agrees ⟨p.symbols⟩) t.instructions (Layout.empty.offsets t.expanded) := by
  rcases (assemble_eq_ok_iff source p).mp h with ⟨t, rfl⟩
  refine ⟨t, rfl, _, Machine.ofBytes_toBytes t.length_words_le, ?_⟩
  -- A line means its words, and its words are held at its place.
  refine ((exists_forall₂_iff _ _).mp ⟨_, t.forall₂_meaning, t.forall₂_held⟩).imp ?_
  rintro line o ⟨words, hmeaning, hfit, hslice⟩
  exact Machine.agrees_of_meaning (fun _ => t.address_le) hmeaning hfit hslice

/-- A register given by its word, zeros in front of a number, a label, a raw word that
    names data, and a data word that is no operand. -/
theorem lines_agree_of_mixed_source :
    assemble "SET 32769 007\n:a\nJMP :a\n?? .b\n.b 65535".toList =
        .ok ⟨[1, 32769, 7, 6, 3, 6, 65535], 6,
          [⟨['a'], .label, 3, 2⟩, ⟨['b'], .data 65535 1, 6, 5⟩]⟩ ∧
      ∃ t : Passes "SET 32769 007\n:a\nJMP :a\n?? .b\n.b 65535".toList,
        t.program = ⟨[1, 32769, 7, 6, 3, 6, 65535], 6,
          [⟨['a'], .label, 3, 2⟩, ⟨['b'], .data 65535 1, 6, 5⟩]⟩ ∧
        ∃ m, Machine.ofBytes (Word.toBytes [1, 32769, 7, 6, 3, 6, 65535]) = .ok m ∧
          List.Forall₂
            (m.Agrees ⟨[⟨['a'], .label, 3, 2⟩, ⟨['b'], .data 65535 1, 6, 5⟩]⟩)
            t.instructions (Layout.empty.offsets t.expanded) :=
  ⟨rfl, assembled_lines_agree rfl⟩

end WordMachine
