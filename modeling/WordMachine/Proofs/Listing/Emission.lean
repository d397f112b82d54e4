import WordMachine.Listing.Basic
import WordMachine.Proofs.Listing.Labels

/-!
# Entries

What a listing is made of: an entry for each instruction of the walk, or for each run
of output instructions that a print shorthand stands for.

The listing itself is emitted from the front, with a run of output held back until it
is known where the run ends. Put together from the end of the program backwards,
nothing has to be held back: an output instruction joins the entry after it if that
one is a print shorthand without a label, and is a run of its own otherwise. A run is
thus as long as it can be. This is the form in which listings are reasoned about, and
the form of an entry does not depend on what stands before it.

The two meet in `resume`, which puts what is held back in front of the entries that
are still to come. Emitting one instruction, and attaching it to the entries after it,
come to the same lines then (`Emission.visit_lines`), whatever was emitted before, and
so the whole listing is the text of its entries.

A label is emitted once, and is no longer pending afterwards. No address is visited
twice, so at each boundary all its labels are still pending.

## Main definitions

* `Listing.Entry`: An instruction or a run of output, with its labels.
* `Listing.attach`: Putting an instruction before the entries after it.
* `Machine.listing`: The entries of a loaded program.
* `Listing.lines`: The text of the entries.
* `Listing.resume`: Putting a run that is held back before the entries after it.

## Theorems

* `Listing.Emission.visit_lines`: Emitting an instruction is attaching it.
* `Listing.Emission.foldl_visit_lines`: Emitting a stretch of the walk.
* `disassemble_eq`: What is emitted is the text of the entries.
-/

namespace WordMachine

namespace Listing

/-- What an entry shows. -/
inductive Body
  /-- An instruction or a raw word. -/
  | instruction (i : Instruction)
  /-- A run of output, with or without a line break at its end. -/
  | print (text : Text) (newline : Bool)
  deriving DecidableEq, Repr

/-- An entry of a listing. -/
structure Entry where
  address : Nat
  labels : List Target
  body : Body
  deriving DecidableEq, Repr

/-- Puts an instruction before the entries after it. -/
def attach (options : Options) (address : Nat) (labels : List Target) (i : Instruction)
    (entries : List Entry) : List Entry :=
  match if options.foldOutput then foldable? i else none with
  | none => ⟨address, labels, .instruction i⟩ :: entries
  | some c =>
    if c = '\n' then ⟨address, labels, .print [] true⟩ :: entries
    else match entries with
      | ⟨_, [], .print text newline⟩ :: rest =>
        ⟨address, labels, .print (c :: text) newline⟩ :: rest
      | _ => ⟨address, labels, .print [c] false⟩ :: entries

/-- The text of an entry without its labels. -/
def Body.text (survey : Survey) (options : Options) : Body → Text
  | .instruction i => i.textWith (survey.operandText options)
  | .print text newline => printText text newline

/-- The lines of an entry: its labels, its address if that is shown, and its
    text. -/
def Entry.lines (survey : Survey) (options : Options) (e : Entry) : List Text :=
  e.labels.map Target.label
    ++ (if options.addressComments then [addressComment e.address] else [])
    ++ [e.body.text survey options]

end Listing

/-- The listing of a program. -/
structure Listing where
  options : Listing.Options
  survey : Survey
  entries : List Listing.Entry

/-- The listing of a loaded program. -/
def Machine.listing (m : Machine) (options : Listing.Options) : Listing :=
  let survey := Survey.ofMachine m options
  { options := options
    survey := survey
    entries := m.boundaries.foldr (fun address =>
      Listing.attach options address (survey.labelsAt address)
        (m.decode (UInt16.ofNat address))) [] }

/-- The text of a listing: the unaligned targets, then the entries. -/
def Listing.lines (l : Listing) : List Text :=
  l.survey.unaligned.map unalignedComment
    ++ l.entries.flatMap (Entry.lines l.survey l.options)

/-! ### Labels that are pending -/

namespace Survey

/-- Taking out the targets at an address leaves those at the others. -/
theorem labelsAt_without (s : Survey) {address other : Nat} (h : address ≠ other) :
    (s.without address).labelsAt other = s.labelsAt other := by
  have hcontains : ∀ kind, ((s.without address).targets kind).contains other =
      (s.targets kind).contains other := by
    intro kind
    cases kind <;> simp [targets, without, Std.TreeSet.contains_erase, h]
  simp only [labelsAt, hcontains]

end Survey

/-! ### Emitting the entries -/

namespace Listing

/-- Puts a run that is held back before the entries after it. -/
def resume : Option OutputRun → List Entry → List Entry
  | none, entries => entries
  | some run, ⟨_, [], .print text newline⟩ :: rest =>
    ⟨run.start, [], .print (run.text.toList ++ text) newline⟩ :: rest
  | some run, entries => ⟨run.start, [], .print run.text.toList false⟩ :: entries

/-- Entries that no run can be put together with. -/
def EndsRun (entries : List Entry) : Prop :=
  ∀ run : OutputRun,
    resume (some run) entries = ⟨run.start, [], .print run.text.toList false⟩ :: entries

theorem endsRun_nil : EndsRun [] := fun _ => rfl

theorem endsRun_instruction (address : Nat) (labels : List Target) (i : Instruction)
    (rest : List Entry) : EndsRun (⟨address, labels, .instruction i⟩ :: rest) := fun _ => by
  cases labels <;> rfl

theorem endsRun_labelled {labels : List Target} (h : labels ≠ []) (address : Nat) (body : Body)
    (rest : List Entry) : EndsRun (⟨address, labels, body⟩ :: rest) := fun _ => by
  cases labels with
  | nil => exact absurd rfl h
  | cons label labels => rfl

/-- An instruction that is attached is the first of the entries, or joins the first. The
    labels make no difference to the others. -/
theorem exists_attach_eq (options : Options) (address : Nat) (i : Instruction)
    (entries : List Entry) :
    ∃ body rest, ∀ labels, attach options address labels i entries =
      ⟨address, labels, body⟩ :: rest := by
  unfold attach
  split
  · exact ⟨_, _, fun _ => rfl⟩
  · split
    · exact ⟨_, _, fun _ => rfl⟩
    · split
      · exact ⟨_, _, fun _ => rfl⟩
      · exact ⟨_, _, fun _ => rfl⟩

namespace Emission

variable {s : Survey} {options : Options} {e : Emission}

/-- What is emitted, and the entries that are still to come, with the run that is held
    back. -/
def linesWith (s : Survey) (options : Options) (e : Emission) (entries : List Entry) :
    List Text :=
  e.lines.toList ++ (resume e.run entries).flatMap (Entry.lines s options)

theorem linesWith_of_run (h : e.run = none) (entries : List Entry) :
    e.linesWith s options entries =
      e.lines.toList ++ entries.flatMap (Entry.lines s options) := by
  rw [linesWith, h]
  rfl

/-- A text is listed like an entry without labels. -/
theorem linesWith_list (h : e.run = none) (address : Nat) (body : Body) (entries : List Entry) :
    (e.list options address (body.text s options)).linesWith s options entries =
      e.linesWith s options (⟨address, [], body⟩ :: entries) := by
  have hrun : (e.list options address (body.text s options)).run = none := h
  rw [linesWith_of_run hrun, linesWith_of_run h, list, List.flatMap_cons, Entry.lines]
  split <;> simp

theorem flush_run : (e.flush options).run = none := by
  unfold flush
  split
  · assumption
  · rfl

/-- A run can be listed before entries that it cannot be put together with. -/
theorem linesWith_flush {entries : List Entry} (h : EndsRun entries) :
    (e.flush options).linesWith s options entries = e.linesWith s options entries := by
  unfold flush
  split
  · rfl
  · rename_i run hrun
    have hnone : ({ e with run := none } : Emission).run = none := rfl
    calc _ = ({ e with run := none } : Emission).linesWith s options
            (⟨run.start, [], .print run.text.toList false⟩ :: entries) :=
          linesWith_list hnone run.start (.print run.text.toList false) entries
      _ = e.linesWith s options entries := by
          rw [linesWith_of_run hnone, linesWith, hrun, h run]

/-- The labels of an address are listed like those of an entry. -/
theorem linesWith_label (address : Nat) (body : Body) (rest : List Entry) :
    (e.label options address).linesWith s options (⟨address, [], body⟩ :: rest) =
      e.linesWith s options (⟨address, e.pending.labelsAt address, body⟩ :: rest) := by
  unfold label
  generalize e.pending.labelsAt address = labels
  cases labels with
  | nil => simp [linesWith]
  | cons first labels =>
      -- A label ends the run that was held back.
      have hrun : (e.flush options).run = none := flush_run
      rw [← linesWith_flush (endsRun_labelled (List.cons_ne_nil first labels) _ _ _),
        linesWith_of_run hrun]
      simp [linesWith, Entry.lines, hrun, resume]

/-- Collecting a character is putting it before the entries. -/
theorem linesWith_collect {i : Instruction} {c : Char} (hfold : options.foldOutput = true)
    (hc : foldable? i = some c) (address : Nat) (entries : List Entry) :
    (e.collect options address c).linesWith s options entries =
      e.linesWith s options (attach options address [] i entries) := by
  have hattach : (if options.foldOutput then foldable? i else none) = some c := by
    rw [if_pos hfold, hc]
  rw [attach, hattach, collect]
  by_cases hnewline : c = '\n'
  · -- A line break ends the run, whatever comes after it.
    have hnone : ({ e with run := none } : Emission).run = none := rfl
    simp only [if_pos hnewline]
    calc _ = ({ e with run := none } : Emission).linesWith s options _ :=
          linesWith_list hnone _ (.print _ true) entries
      _ = _ := by
          rw [linesWith_of_run hnone, linesWith]
          cases e.run <;> simp [resume]
  · simp only [if_neg hnewline]
    rw [linesWith, linesWith]
    congr 2
    -- The character joins the run before it and the run after it, if there are such.
    split
    · cases e.run <;> simp [resume]
    · cases e.run <;> simp [resume]

/-- Listing an instruction is putting it before the entries. A run is held back only if
    output is folded. -/
theorem linesWith_instruction (hrun : options.foldOutput = false → e.run = none) (address : Nat)
    (i : Instruction) (entries : List Entry) :
    (e.instruction s options address i).linesWith s options entries =
      e.linesWith s options (attach options address [] i entries) := by
  unfold instruction
  split
  · rename_i hfold
    split
    · rename_i c hc
      exact linesWith_collect hfold hc address entries
    · rename_i hnone
      rw [attach, hfold, if_pos rfl, hnone,
        ← linesWith_flush (endsRun_instruction address [] i entries)]
      exact linesWith_list flush_run address (.instruction i) entries
  · rename_i hfold
    rw [attach, if_neg hfold]
    exact linesWith_list (hrun (Bool.eq_false_iff.mpr hfold)) address (.instruction i) entries

/-! ### Emitting the walk -/

/-- What is emitted at some addresses can be told from the survey: all their labels are
    still pending, and a run is held back only if output is folded. -/
structure Ready (s : Survey) (options : Options) (e : Emission) (addresses : List Nat) : Prop where
  pending : ∀ address ∈ addresses, e.pending.labelsAt address = s.labelsAt address
  run : options.foldOutput = false → e.run = none

theorem label_run (address : Nat) (h : e.run = none) : (e.label options address).run = none := by
  dsimp only [label]
  split
  · exact h
  · exact flush_run

theorem flush_pending : (e.flush options).pending = e.pending := by
  unfold flush
  split <;> rfl

theorem visit_pending (m : Machine) (address : Nat) :
    (e.visit m s options address).pending = e.pending.without address := by
  have hlabel : (e.label options address).pending = e.pending.without address := by
    dsimp only [label]
    split
    · rfl
    · rw [flush_pending]
  rw [visit, ← hlabel, instruction]
  split
  · split
    · unfold collect
      split <;> rfl
    · exact flush_pending
  · rfl

/-- At an address that is not visited again, everything is left as it was for the others. -/
theorem Ready.visit {m : Machine} {address : Nat} {rest : List Nat}
    (h : e.Ready s options (address :: rest)) (hfresh : address ∉ rest) :
    (e.visit m s options address).Ready s options rest where
  pending other hother := by
    rw [visit_pending, Survey.labelsAt_without _ (ne_of_mem_of_not_mem hother hfresh).symm]
    exact h.pending other (List.mem_cons_of_mem _ hother)
  run hfold := by
    rw [Emission.visit, instruction, if_neg (by rw [hfold]; exact Bool.false_ne_true)]
    exact label_run address (h.run hfold)

/-- Emitting what is at an address is putting it before the entries. -/
theorem visit_lines {m : Machine} {address : Nat} {rest : List Nat}
    (h : e.Ready s options (address :: rest)) (entries : List Entry) :
    (e.visit m s options address).linesWith s options entries =
      e.linesWith s options (attach options address (s.labelsAt address)
        (m.decode (UInt16.ofNat address)) entries) := by
  rcases exists_attach_eq options address (m.decode (UInt16.ofNat address)) entries with
    ⟨body, others, hattach⟩
  have hrun : options.foldOutput = false → (e.label options address).run = none := fun hfold =>
    label_run address (h.run hfold)
  rw [Emission.visit, linesWith_instruction hrun, hattach, hattach, linesWith_label,
    h.pending address List.mem_cons_self]

/-- Emitting what is at some addresses is putting it before the entries, from the last
    address to the first. -/
theorem foldl_visit_lines (m : Machine) {addresses : List Nat} (hnodup : addresses.Nodup)
    (h : e.Ready s options addresses) (entries : List Entry) :
    (addresses.foldl (Emission.visit m s options) e).linesWith s options entries =
      e.linesWith s options (addresses.foldr (fun address => attach options address
        (s.labelsAt address) (m.decode (UInt16.ofNat address))) entries) := by
  -- From whatever is emitted already: the addresses are visited from the front.
  induction addresses generalizing e with
  | nil => rfl
  | cons address rest ih =>
      rcases List.nodup_cons.mp hnodup with ⟨hfresh, hrest⟩
      rw [List.foldl_cons, ih hrest (h.visit hfresh), visit_lines h, List.foldr_cons]

end Emission

end Listing

/-- What is emitted is the text of the entries. -/
theorem disassemble_eq (m : Machine) (options : Listing.Options) :
    disassemble m options = (m.listing options).lines := by
  have hready : Listing.Emission.Ready (Survey.ofMachine m options) options
      ⟨Survey.ofMachine m options,
        ((Survey.ofMachine m options).unaligned.map Listing.unalignedComment).toArray, none⟩
      m.boundaries := ⟨fun _ _ => rfl, fun _ => rfl⟩
  have hnodup : m.boundaries.Nodup := (m.pairwise_walk 0).imp Nat.ne_of_lt
  have hfold := Listing.Emission.foldl_visit_lines m hnodup hready []
  -- At the end of the program the run that is held back is listed as well.
  rw [← Listing.Emission.linesWith_flush Listing.endsRun_nil,
    Listing.Emission.linesWith_of_run Listing.Emission.flush_run,
    Listing.Emission.linesWith_of_run rfl, List.flatMap_nil, List.append_nil] at hfold
  exact hfold

end WordMachine
