import WordMachine.Proofs.Listing.Emission

/-!
# Runs of Output

A print shorthand in a listing stands for exactly the instructions it was made from.

Entries are put together from the end of a program backwards, and an output
instruction may disappear into the entry after it. What an entry stands for, its
statements, keeps track of them: the labels, and then the instruction, or one output
instruction for each character of the run. Putting an instruction before some entries
puts its labels and its text before their statements, whether it is folded or not,
so the statements of a whole listing are the instructions of the walk, each after its
labels. Only a run without a label is ever joined, which is why no label is moved.

A character that is folded is a line break, which ends a run, or it can stand
between quotes; the texts of runs are therefore plain.

## Main definitions

* `Listing.IsPlain`: A character that can stand between quotes.
* `Listing.Body.statements`, `Listing.Entry.statements`: What an entry stands for.
* `Machine.statements`: The instructions of a walk as source text, with their labels.

## Theorems

* `Listing.foldable?_some`: What can be folded.
* `Listing.textWith_of_foldable?`: A folded instruction is what a run expands to.
* `Listing.statements_attach`: Putting an instruction before some entries.
* `Listing.isPlain_of_mem_entries`: The texts of runs are plain.
* `Listing.statements_entries`: The statements of a listing.
-/

namespace WordMachine

namespace Listing

/-- A character that can stand between quotes: printable, and not the quote. -/
def IsPlain (c : Char) : Prop := 32 ≤ c.toNat ∧ c.toNat ≤ 126 ∧ c ≠ Shorthand.quote

/-- What can be folded is the output of a character: a line break or a plain one. -/
theorem foldable?_some {i : Instruction} {c : Char} (h : foldable? i = some c) :
    ∃ code, i.opcode = some .out ∧ i.operands = [code] ∧ code.toNat = c.toNat ∧
      (c = '\n' ∨ IsPlain c) := by
  unfold foldable? at h
  split at h
  · rename_i code hopcode hoperands
    split at h
    · rename_i hfold
      cases h
      have hcases : code.toNat = 10 ∨ 32 ≤ code.toNat ∧ code.toNat ≤ 126 ∧ code.toNat ≠ 96 := by
        simpa [isFoldable, UInt16.le_iff_toNat_le, ← UInt16.toNat_inj, Shorthand.quote, and_assoc]
          using hfold
      -- The code is small, so it is the code of a character and not of a surrogate.
      have hchar : (Char.ofNat code.toNat).toNat = code.toNat := by
        rw [Char.ofNat, dif_pos (Or.inl (by omega))]
        rfl
      refine ⟨code, hopcode, hoperands, hchar.symm, ?_⟩
      rcases hcases with hten | ⟨hlow, hhigh, hquote⟩
      · exact Or.inl (by rw [hten])
      · right
        refine ⟨by omega, by omega, fun heq => hquote ?_⟩
        rw [← hchar, heq]
        rfl
    · cases h
  · cases h

/-- The operand of an output instruction is written as it is. -/
theorem operandText_out (s : Survey) (options : Options) (w : Word) :
    s.operandText options .out .value w = Operand.wordText w := by
  rfl

/-- A folded instruction is the one that a print shorthand expands to. -/
theorem textWith_of_foldable? {i : Instruction} {c : Char} (s : Survey) (options : Options)
    (h : foldable? i = some c) :
    i.textWith (s.operandText options) = Shorthand.outLine c := by
  rcases foldable?_some h with ⟨code, hopcode, hoperands, hcode, hc⟩
  -- No code of a character names a register, so it is written as a number.
  have hsmall : code < Operand.registerBase := by
    rw [UInt16.lt_iff_toNat_lt, hcode]
    rcases hc with rfl | hplain
    · decide
    · exact Nat.lt_of_le_of_lt hplain.2.1 (by decide)
  have htext : Operand.wordText code = Decimal.write c.toNat := by
    rw [Operand.wordText, Operand.ofWord?, if_pos hsmall, ← hcode]
    rfl
  rw [Shorthand.outLine, ← htext, ← operandText_out s options code]
  simp only [Instruction.textWith, Instruction.name_of_opcode hopcode, hopcode, hoperands]
  rfl

section Statements

variable (s : Survey) (options : Options)

/-- The instructions that the body of an entry stands for. -/
def Body.statements : Body → List Text
  | .instruction i => [i.textWith (s.operandText options)]
  | .print text newline =>
    text.map Shorthand.outLine ++ if newline then [Shorthand.outLine '\n'] else []

/-- What an entry stands for: its labels, and then its instructions. -/
def Entry.statements (e : Entry) : List Text :=
  e.labels.map Target.label ++ e.body.statements s options

/-- Putting an instruction before some entries puts its labels and its text before
    what they stand for. -/
theorem statements_attach (address : Nat) (labels : List Target) (i : Instruction)
    (entries : List Entry) :
    (attach options address labels i entries).flatMap (Entry.statements s options) =
      labels.map Target.label ++ i.textWith (s.operandText options) ::
        entries.flatMap (Entry.statements s options) := by
  unfold attach
  split
  · -- Not folded: the instruction is an entry of its own.
    simp [Entry.statements, Body.statements]
  · rename_i c hfold
    have hc : foldable? i = some c := (Option.ite_none_right_eq_some.mp hfold).2
    rw [textWith_of_foldable? s options hc]
    split
    · -- A line break begins a run at its end.
      rename_i hnewline
      simp [Entry.statements, Body.statements, hnewline]
    · split
      · -- The run after it has no label, so nothing stands between the two.
        simp [Entry.statements, Body.statements]
      · simp [Entry.statements, Body.statements]

end Statements

/-- A body whose text, if it is a run, can stand between quotes. -/
def Body.IsPlain : Body → Prop
  | .instruction _ => True
  | .print text _ => ∀ c ∈ text, Listing.IsPlain c

/-- Putting an instruction before plain entries leaves all of them plain. -/
theorem isPlain_attach {options : Options} {address : Nat} {labels : List Target}
    {i : Instruction} {entries : List Entry} (h : ∀ e ∈ entries, e.body.IsPlain) :
    ∀ e ∈ attach options address labels i entries, e.body.IsPlain := by
  unfold attach
  split
  · exact List.forall_mem_cons.mpr ⟨trivial, h⟩
  · rename_i c hfold
    have hc : foldable? i = some c := (Option.ite_none_right_eq_some.mp hfold).2
    rcases foldable?_some hc with ⟨_, _, _, _, hcases⟩
    split
    · -- The line break is not part of the text of its run.
      exact List.forall_mem_cons.mpr ⟨fun _ hd => absurd hd List.not_mem_nil, h⟩
    · rename_i hne
      have hplain : Listing.IsPlain c := hcases.resolve_left hne
      split
      · rcases List.forall_mem_cons.mp h with ⟨hfirst, hrest⟩
        exact List.forall_mem_cons.mpr ⟨List.forall_mem_cons.mpr ⟨hplain, hfirst⟩, hrest⟩
      · refine List.forall_mem_cons.mpr ⟨fun d hd => ?_, h⟩
        rw [List.mem_singleton.mp hd]
        exact hplain

/-- The texts of the runs of a listing are plain. -/
theorem isPlain_of_mem_entries {m : Machine} {options : Options} {e : Entry}
    (h : e ∈ (m.listing options).entries) : e.body.IsPlain := by
  rw [Machine.listing] at h
  revert e
  -- Along the boundaries from the last one back, as the entries are put together.
  generalize m.boundaries = boundaries
  induction boundaries with
  | nil => exact fun he => absurd he List.not_mem_nil
  | cons address rest ih => exact isPlain_attach (fun e he => ih he) _

end Listing

namespace Machine

/-- The instructions of a walk as source text, each after its labels. -/
def statements (m : Machine) (s : Survey) (options : Listing.Options) (start : Nat) : List Text :=
  (m.walk start).flatMap fun address =>
    (s.labelsAt address).map Target.label ++
      [(m.decode (UInt16.ofNat address)).textWith (s.operandText options)]

end Machine

/-- A listing stands for the instructions of the walk, each after its labels. -/
theorem Listing.statements_entries (m : Machine) (options : Options) :
    (m.listing options).entries.flatMap
        (Entry.statements (Survey.ofMachine m options) options) =
      m.statements (Survey.ofMachine m options) options 0 := by
  rw [Machine.listing, Machine.statements, ← Machine.boundaries]
  generalize m.boundaries = boundaries
  induction boundaries with
  | nil => rfl
  | cons address rest ih =>
      rw [List.foldr_cons, statements_attach, ih, List.flatMap_cons, List.append_assoc,
        List.singleton_append]

end WordMachine
