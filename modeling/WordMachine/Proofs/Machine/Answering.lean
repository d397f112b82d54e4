import Mathlib.Data.List.Induction
import WordMachine.Proofs.Machine.History

/-!
# When an Answer Is Accepted

A machine waits for input exactly when its last step said so and nothing has ended the
wait.

What a machine waits for is part of its state that a host cannot see directly, but it
follows from what a host did see. `Awaits` is that condition on a trace: the last step
reported a wait, and since then no value was accepted, no program was loaded and the
instruction pointer was not moved. Refused acts and edits of registers and of the stack
may stand anywhere in between.

The direction from the state to the trace rests on an invariant. A machine that waits is
at the input instruction it waits for, and the operand of that instruction is what it
waits for (`Machine.Attentive`). Steps keep this since a step at such an instruction
changes nothing, and the other acts either end the wait or leave the instruction alone.
Editing a cell is the exception: it can replace the instruction under a machine that
waits for it, which is why histories with such edits are left out here.

## Main definitions

* `Awaits`: The last step of a trace reported a wait that nothing has ended.
* `Machine.Attentive`: A machine that waits does so for the operand of its next
  instruction.

## Theorems

* `Machine.pendingInput_eq_some_iff`: When a machine waits, by its state.
* `Machine.result_resolve_eq_error_iff`, `Machine.result_resolve_eq_ok_iff`: When an
  answer is accepted, by the state.
* `Machine.attentive_step`, `Moment.attentive_next`: What keeps a machine attentive.
* `Machine.pendingInput_after_iff`: When a machine waits, by its trace.
* `Machine.awaits_iff_after_load`: The same for every history of calls, with what it
  means for an answer.
-/

namespace WordMachine

/-- The last step of a trace reported a wait for `destination`, and since then no value
    was supplied, no program loaded, and the instruction pointer not moved. -/
def Awaits (trace : List Moment) (destination : Operand) : Prop :=
  ∃ earlier x later, trace = earlier ++ x :: later ∧ x.act = .step ∧
    x.machine.step.result = .ok (.input destination) ∧
    ∀ y ∈ later, y.act ≠ .step ∧ y.restarts = false ∧ y.answers = false

/-- The last moment of a trace reports a wait, or leaves the one that there was. -/
theorem awaits_concat_iff (trace : List Moment) (x : Moment) (destination : Operand) :
    Awaits (trace ++ [x]) destination ↔
      (x.act = .step ∧ x.machine.step.result = .ok (.input destination)) ∨
      (x.act ≠ .step ∧ x.restarts = false ∧ x.answers = false ∧ Awaits trace destination) := by
  constructor
  · rintro ⟨earlier, y, later, hsplit, hstep, hresult, hlater⟩
    -- What comes after the step is nothing, or ends with the last moment.
    rcases List.eq_nil_or_concat' later with rfl | ⟨front, last, rfl⟩
    · have hlast := List.append_inj' hsplit rfl
      cases hlast.2
      exact Or.inl ⟨hstep, hresult⟩
    · rw [← List.cons_append, ← List.append_assoc] at hsplit
      have hlast := List.append_inj' hsplit rfl
      cases hlast.2
      rcases hlater x (by simp) with ⟨hact, hrestarts, hanswers⟩
      exact Or.inr ⟨hact, hrestarts, hanswers, earlier, y, front, hlast.1, hstep, hresult,
        fun z hz => hlater z (List.mem_append_left _ hz)⟩
  · rintro (⟨hstep, hresult⟩ | ⟨hact, hrestarts, hanswers, earlier, y, later, rfl, hstep,
      hresult, hlater⟩)
    · exact ⟨trace, x, [], rfl, hstep, hresult, fun _ h => absurd h List.not_mem_nil⟩
    · refine ⟨earlier, y, later ++ [x], by simp, hstep, hresult, ?_⟩
      intro z hz
      rcases List.mem_append.mp hz with hz | hz
      · exact hlater z hz
      · rw [List.mem_singleton.mp hz]
        exact ⟨hact, hrestarts, hanswers⟩

namespace Machine

/-! ### The state -/

theorem pendingInput_eq_some_iff (m : Machine) (destination : Operand) :
    m.pendingInput = some destination ↔ m.input = .pending m.ip destination := by
  unfold pendingInput
  rw [inputHere_eq]
  cases hinput : m.input with
  | idle => simp [Input.address?]
  | supplied address => by_cases h : address = m.ip <;> simp [Input.address?, h]
  | pending address awaited => by_cases h : address = m.ip <;> simp [Input.address?, h]

/-- An answer is out of place exactly when the machine does not wait. -/
theorem result_resolve_eq_error_iff (m : Machine) (destination : Operand) (value : Word) :
    (m.resolve destination value).result = .error .inputNotPending ↔ m.pendingInput = none := by
  rw [resolve_eq, pendingInput]
  cases m.inputHere with
  | idle => simp
  | supplied address => simp
  | pending address awaited =>
      by_cases h : value.toNat < memorySize <;> simp [edit, check, h]

/-- A machine that waits accepts the values and refuses all other words. -/
theorem result_resolve_eq_ok_iff {m : Machine} (h : m.pendingInput ≠ none)
    (destination : Operand) (value : Word) :
    (m.resolve destination value).result = .ok () ↔ value ≤ Word.maxValue := by
  rw [resolve_eq]
  unfold pendingInput at h
  have hvalue : value ≤ Word.maxValue ↔ value.toNat < memorySize := by
    rw [UInt16.le_iff_toNat_le]
    exact Nat.lt_succ_iff.symm
  rw [hvalue]
  cases hhere : m.inputHere with
  | idle => simp [hhere] at h
  | supplied address => simp [hhere] at h
  | pending address awaited =>
      by_cases hlt : value.toNat < memorySize <;> simp [edit, check, hlt]

/-! ### The invariant -/

/-- A machine that waits is at an input instruction, and waits for its operand. -/
def Attentive (m : Machine) : Prop :=
  ∀ address destination, m.input = .pending address destination →
    address = m.ip ∧ m.AtInput ∧ m.operand 0 = .ok destination

theorem attentive_of_ne_pending {m : Machine}
    (h : ∀ address destination, m.input ≠ .pending address destination) : m.Attentive :=
  fun address destination hpending => absurd hpending (h address destination)

theorem Attentive.poised {m : Machine} (h : m.Attentive) : m.Poised := by
  intro address destination hpending
  rcases h address destination hpending with ⟨hip, hat, _⟩
  exact ⟨hip, hat⟩

/-- An attentive machine whose next step executes no input instruction does not wait, and
    does not after the step. -/
theorem Attentive.ne_pending {m : Machine} (h : m.Attentive) (hnot : ¬ m.ExecutesInput)
    (address : Word) (destination : Operand) :
    m.step.machine.input ≠ .pending address destination := by
  intro hpending
  rw [(input_step_of_not_executesInput hnot).1] at hpending
  exact hnot (executesInput_of_pending h.poised hpending)

theorem attentive_step {m : Machine} (h : m.Attentive) : m.step.machine.Attentive := by
  rcases m.step_cases_of_input with ⟨hat, _, destination, hoperand, hstep⟩ | ⟨_, _, _, hstep⟩ |
    ⟨_, _, hstep⟩ | hnot
  · -- Only the input has changed, so the instruction and its operand are still there.
    rw [hstep]
    rintro _ _ ⟨⟩
    exact ⟨rfl, hat, hoperand⟩
  · rw [hstep]
    exact h
  · rw [hstep]
    exact attentive_of_ne_pending fun _ _ => nofun
  · exact attentive_of_ne_pending (h.ne_pending hnot)

/-- After a step an attentive machine waits exactly for what the step reported. -/
theorem pendingInput_step_iff {m : Machine} (h : m.Attentive) (destination : Operand) :
    m.step.machine.pendingInput = some destination ↔
      m.step.result = .ok (.input destination) := by
  rw [pendingInput_eq_some_iff]
  rcases m.step_cases_of_input with ⟨_, _, awaited, _, hstep⟩ | ⟨_, awaited, hinput, hstep⟩ |
    ⟨_, _, hstep⟩ | hnot
  · simp [hstep]
  · simp [hstep, hinput]
  · simp [hstep]
  · have hreport := (input_step_of_not_executesInput hnot).2 destination
    exact ⟨fun hpending => absurd hpending (h.ne_pending hnot _ _),
      fun hinput => absurd hinput hreport⟩

end Machine

namespace Moment

/-- Acts other than steps and edits of cells keep the machine attentive. -/
theorem attentive_next {x : Moment} (h : x.machine.Attentive) (hstep : x.act ≠ .step)
    (hcell : ∀ address word, x.act ≠ .setCell address word) : x.next.Attentive := by
  rcases x.next_cases_of_input hstep with ⟨_, _, _, hinput⟩ | ⟨_, _, hinput⟩ |
    ⟨_, _, hinput, hip, hhalted, hmemory⟩
  · exact Machine.attentive_of_ne_pending fun _ _ => by simp [hinput]
  · exact Machine.attentive_of_ne_pending fun _ _ => by simp [hinput]
  · intro address destination hpending
    rw [hinput] at hpending
    -- The instruction is read from the same memory, at the same place.
    simpa only [Machine.AtInput, Machine.operand, hip, hhalted, hmemory hcell] using
      h address destination hpending

/-- After an act other than a step the machine waits exactly if it did before and the act
    has not ended the wait. -/
theorem pendingInput_next_iff {x : Moment} (hstep : x.act ≠ .step) (destination : Operand) :
    x.next.pendingInput = some destination ↔
      x.restarts = false ∧ x.answers = false ∧ x.machine.pendingInput = some destination := by
  simp only [Machine.pendingInput_eq_some_iff]
  rcases x.next_cases_of_input hstep with ⟨hanswers, _, _, hinput⟩ | ⟨_, hrestarts, hinput⟩ |
    ⟨hanswers, hrestarts, hinput, hip, _⟩
  · simp [hanswers, hinput]
  · simp [hrestarts, hinput]
  · simp [hanswers, hrestarts, hinput, hip]

end Moment

namespace Machine

/-! ### The trace -/

/-- Without edits of cells, a machine that did not wait at first stays attentive, and it
    waits exactly for what its trace says. -/
theorem pendingInput_after_iff {start : Machine} (hidle : start.input = .idle) {acts : List Act}
    (hcell : ∀ address word, .setCell address word ∉ acts) :
    (start.after acts).Attentive ∧
      ∀ destination, (start.after acts).pendingInput = some destination ↔
        Awaits (start.trace acts) destination := by
  -- Along the acts, since a trace is extended at its end.
  induction acts using List.reverseRecOn with
  | nil =>
      refine ⟨attentive_of_ne_pending fun _ _ => by simp [after, hidle], ?_⟩
      intro destination
      rw [pendingInput_eq_some_iff]
      constructor
      · intro hpending
        simp [after, hidle] at hpending
      · rintro ⟨earlier, x, later, hsplit, _⟩
        simp [trace] at hsplit
  | append_singleton acts act ih =>
      have hbefore : ∀ address word, .setCell address word ∉ acts := fun address word hmem =>
        hcell address word (List.mem_append_left _ hmem)
      have hlast : ∀ address word, act ≠ .setCell address word := by
        rintro address word rfl
        exact hcell address word (by simp)
      rcases ih hbefore with ⟨hattentive, hwaits⟩
      have htrace : start.trace (acts ++ [act]) = start.trace acts ++ [⟨start.after acts, act⟩] :=
        start.trace_append acts [act]
      have hafter : start.after (acts ++ [act]) = Moment.next ⟨start.after acts, act⟩ :=
        start.after_append acts [act]
      rw [htrace, hafter]
      simp only [awaits_concat_iff]
      by_cases hstep : act = .step
      · subst hstep
        rw [Moment.next_of_step rfl]
        refine ⟨attentive_step hattentive, fun destination => ?_⟩
        rw [pendingInput_step_iff hattentive]
        simp
      · refine ⟨Moment.attentive_next hattentive hstep hlast, fun destination => ?_⟩
        rw [Moment.pendingInput_next_iff hstep, hwaits]
        simp [hstep]

/-- In every history of calls from a load on, in which no cell is edited, the machine
    waits exactly for what its trace says. It then is at an input instruction with that
    operand. An answer is out of place exactly when the machine does not wait, and
    otherwise it is accepted exactly if it is a value. -/
theorem awaits_iff_after_load {origin start : Machine} {words : List Word} {calls : List Call}
    (hload : origin.load words = ⟨.ok (), start⟩)
    (hcell : ∀ address word, .single (.setCell address word) ∉ calls) :
    (∀ destination, (start.afterCalls calls).pendingInput = some destination ↔
      Awaits (start.trace (start.actsOf calls)) destination) ∧
    (∀ destination, (start.afterCalls calls).pendingInput = some destination →
      (start.afterCalls calls).memory.read (start.afterCalls calls).ip = 20 ∧
      Operand.ofWord? ((start.afterCalls calls).memory.read
        (Word.after (start.afterCalls calls).ip 1)) = some destination ∧
      (start.afterCalls calls).halted = false) ∧
    ∀ (destination : Operand.Place) (value : Word),
      (((start.afterCalls calls).resolve destination.val value).result = .error .inputNotPending ↔
        (start.afterCalls calls).pendingInput = none) ∧
      ((start.afterCalls calls).pendingInput ≠ none →
        (((start.afterCalls calls).resolve destination.val value).result = .ok () ↔
          value ≤ Word.maxValue)) := by
  -- A run is steps alone, so the calls edit a cell only where an act of theirs does.
  have hacts : ∀ address word, .setCell address word ∉ start.actsOf calls := by
    intro address word hmem
    rcases mem_actsOf hmem with hstep | hcall
    · cases hstep
    · exact hcell address word hcall
  rcases pendingInput_after_iff (input_of_load hload) hacts with ⟨hattentive, hwaits⟩
  rw [← afterCalls_eq] at hattentive hwaits
  refine ⟨hwaits, ?_, ?_⟩
  · intro destination hpending
    rcases hattentive _ _ ((pendingInput_eq_some_iff _ _).mp hpending) with
      ⟨_, ⟨hhalted, hop⟩, hoperand⟩
    exact ⟨(Opcode.word_of_ofWord? hop).symm, (operand_eq_ok_iff _ _ _).mp hoperand, hhalted⟩
  · intro destination value
    exact ⟨result_resolve_eq_error_iff _ destination.val value,
      fun hpending => result_resolve_eq_ok_iff hpending destination.val value⟩

/-- A host that runs a program until it waits, is refused a wrong answer, and edits a
    register meanwhile. -/
def asking : List Call :=
  [.run 5, .single (.resolve ⟨.register 0, by simp⟩ 40000), .single (.setRegister 1 7)]

/-- A program that asks for a value for a register waits after what the host did. -/
theorem pendingInput_asking {memory : Memory}
    (hread : ∀ address, memory.read address = [20, 32768].getD (Word.cell address).val 0) :
    ((loaded memory [20, 32768]).afterCalls asking).pendingInput = some (.register 0) := by
  have hwords : Opcode.ofWord? (memory.read 0) = some .inp ∧
      Operand.ofWord? (memory.read 1) = some (.register 0) := by
    simp only [hread]
    decide
  have hat : (loaded memory [20, 32768]).AtInput := ⟨rfl, hwords.1⟩
  have hstep := step_of_idle hat rfl ((operand_eq_ok_iff _ _ _).mpr hwords.2)
  -- The first step suspends, so the run ends there.
  have hends : Run.goesOn (loaded memory [20, 32768]).step.result = false := by
    rw [hstep]
    rfl
  have hrun := (run_of_not_goesOn hends 4).2
  rw [pendingInput_eq_some_iff]
  simp only [afterCalls, asking, Call.perform, hrun, hstep]
  rfl

/-- The program still waits at its input instruction after what the host did, and takes
    the value. -/
theorem awaits_after_asking :
    ∃ start, empty.load [20, 32768] = ⟨.ok (), start⟩ ∧
      (∀ address word, .single (.setCell address word) ∉ asking) ∧
      Awaits (start.trace (start.actsOf asking)) (.register 0) ∧
      (start.afterCalls asking).memory.read (start.afterCalls asking).ip = 20 ∧
      ((start.afterCalls asking).resolve (.register 0) 65).result = .ok () := by
  have hload : empty.load [20, 32768] =
      ⟨.ok (), loaded (Memory.image [20, 32768]) [20, 32768]⟩ := by
    rw [load_eq, Memory.load, if_pos (by decide)]
  have hcell : ∀ address word, .single (.setCell address word) ∉ asking := by simp [asking]
  have hpending := pendingInput_asking (Memory.read_image [20, 32768])
  rcases awaits_iff_after_load hload hcell with ⟨hwaits, hinstruction, hanswer⟩
  refine ⟨_, hload, hcell, (hwaits _).mp hpending, (hinstruction _ hpending).1, ?_⟩
  have haccepts := (hanswer ⟨.register 0, by simp⟩ 65).2 (by rw [hpending]; simp)
  exact haccepts.mpr (by decide)

end Machine

end WordMachine
