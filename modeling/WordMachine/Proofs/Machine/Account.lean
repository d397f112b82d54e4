import WordMachine.Proofs.Machine.History

/-!
# An Account of Input

No input value is used twice.

Three things happen with input in a trace. A step suspends an input instruction, an
answer supplies a value, and a step completes an input instruction with it. A history
can interleave them in strange ways: edits replace the instruction that waits, jumps
leave a value behind that is found again later, loads drop everything. What cannot
happen is that one suspension is answered twice or that one value completes two
instructions. So the completions never outnumber the answers, nor the answers the
suspensions, and a value that is held or a wait that is under way is one that has not
been used yet.

That is a balance: an act that uses something up takes it out of the state, and only the
act before it in this order puts it there. `Moment.balance` says so for one act, from
whatever state it finds, and adding up gives the balance of a trace
(`Machine.balance_trace`). Since it holds of every stretch of a trace, it also says that
between two answers there is a suspension, and between two completions an answer.

## Main definitions

* `Input.isPending`, `Input.isSupplied`: What is under way.
* `Moment.suspends`, `Moment.completes`: Steps that begin and end an input.

## Theorems

* `Moment.balance`, `Machine.balance_trace`: The balance of one act and of a trace.
* `Machine.exists_suspends_between`, `Machine.exists_answers_between`: What lies between
  two uses.
* `Machine.input_used_once`: The account of every history.
-/

namespace WordMachine

namespace Input

def isPending : Input → Bool
  | .pending _ _ => true
  | _ => false

def isSupplied : Input → Bool
  | .supplied _ => true
  | _ => false

end Input

namespace Moment

/-- A step reports a wait that was not under way before. -/
def suspends (x : Moment) : Bool :=
  match x.act, x.machine.inputHere, x.machine.step.result with
  | .step, .idle, .ok (.input _) => true
  | _, _, _ => false

/-- A step at an input instruction reports nothing. -/
def completes (x : Moment) : Bool :=
  match x.act, x.machine.step.result with
  | .step, .ok .none => x.machine.memory.read x.machine.ip = 20
  | _, _ => false

theorem completes_iff (x : Moment) :
    x.completes = true ↔ x.act = .step ∧ x.machine.step.result = .ok .none ∧
      x.machine.memory.read x.machine.ip = 20 := by
  unfold completes
  split
  · rename_i hact hresult
    simp [hact, hresult]
  · rename_i hnot
    constructor
    · exact nofun
    · rintro ⟨hact, hresult, _⟩
      exact absurd hresult (hnot hact)

theorem suspends_of_ne_step {x : Moment} (h : x.act ≠ .step) : x.suspends = false := by
  unfold suspends
  split
  · rename_i hact _ _
    exact absurd hact h
  · rfl

end Moment

namespace Machine

/-- A step that succeeds at an input instruction executes it. -/
theorem executesInput_of_ok {m : Machine} {interrupt : Interrupt}
    (hresult : m.step.result = .ok interrupt) (hword : m.memory.read m.ip = 20) :
    m.ExecutesInput := by
  refine ⟨⟨?_, by rw [hword]; rfl⟩, interrupt, hresult⟩
  cases he : m.effect with
  | error fault =>
      rw [step_of_error he] at hresult
      cases hresult
  | ok e => exact ((effect_eq_ok_iff _ _).mp he).1

end Machine

namespace Moment

/-! ### One act -/

/-- A step that completes an input instruction uses up the value that was held, and leaves
    nothing under way. -/
theorem input_of_completes {x : Moment} (h : x.completes = true) :
    x.machine.input = .supplied x.machine.ip ∧ x.next.input = .idle := by
  rcases (completes_iff x).mp h with ⟨hact, hresult, hword⟩
  rw [next_of_step hact]
  rcases x.machine.step_cases_of_input with ⟨_, _, _, _, hstep⟩ | ⟨_, _, _, hstep⟩ |
    ⟨_, hinput, hstep⟩ | hnot
  · simp [hstep] at hresult
  · simp [hstep] at hresult
  · rw [hstep]
    exact ⟨hinput, rfl⟩
  · exact absurd (Machine.executesInput_of_ok hresult hword) hnot

/-- An answer ends the wait that was under way, and leaves its value. -/
theorem input_of_answers {x : Moment} (h : x.answers = true) :
    (∃ destination, x.machine.input = .pending x.machine.ip destination) ∧
      x.next.input = .supplied x.machine.ip := by
  rcases x.next_cases_of_input (ne_step_of_answers h) with ⟨_, _, hinput⟩ | ⟨hnot, _⟩ | ⟨hnot, _⟩
  · exact hinput
  · rw [hnot] at h
    cases h
  · rw [hnot] at h
    cases h

/-- The balance of a step. -/
theorem balance_of_step {x : Moment} (h : x.act = .step) :
    x.completes.toNat + x.next.input.isSupplied.toNat ≤ x.machine.input.isSupplied.toNat ∧
      x.next.input.isPending.toNat ≤ x.suspends.toNat + x.machine.input.isPending.toNat := by
  by_cases hcompletes : x.completes = true
  · rcases input_of_completes hcompletes with ⟨hinput, hnext⟩
    simp [hcompletes, hinput, hnext, Input.isSupplied, Input.isPending]
  · rw [next_of_step h, Bool.eq_false_iff.mpr hcompletes]
    rcases x.machine.step_cases_of_input with ⟨_, hidle, _, _, hstep⟩ | ⟨_, _, _, hstep⟩ |
      ⟨_, _, hstep⟩ | hnot
    · -- The wait that begins here is the one suspension that is counted.
      have hsuspends : x.suspends = true := by simp [suspends, h, hidle, hstep]
      simp [hstep, hsuspends, Input.isSupplied, Input.isPending]
    · simp [hstep]
    · simp [hstep, Input.isSupplied, Input.isPending]
    · simp [(Machine.input_step_of_not_executesInput hnot).1]

/-- What an act uses up is taken out of the state, where only the act before it in the
    order of suspension, answer and completion puts it. -/
theorem balance (x : Moment) :
    x.completes.toNat + x.next.input.isSupplied.toNat ≤
      x.answers.toNat + x.machine.input.isSupplied.toNat ∧
    x.answers.toNat + x.next.input.isPending.toNat ≤
      x.suspends.toNat + x.machine.input.isPending.toNat := by
  by_cases hact : x.act = .step
  · have hstep := balance_of_step hact
    rw [answers_of_step hact]
    simpa using hstep
  · have hcompletes : x.completes = false :=
      Bool.eq_false_iff.mpr fun h => hact ((completes_iff x).mp h).1
    rw [hcompletes]
    rcases x.next_cases_of_input hact with ⟨hanswers, _, ⟨destination, hpending⟩, hinput⟩ |
      ⟨hanswers, _, hinput⟩ | ⟨hanswers, _, hinput, _⟩
    · simp [hanswers, hinput, hpending, Input.isPending, Input.isSupplied]
    · simp [hanswers, hinput, Input.isPending, Input.isSupplied]
    · simp [hanswers, hinput]

end Moment

namespace Machine

/-! ### Traces -/

theorem countP_cons_eq (p : Moment → Bool) (x : Moment) (rest : List Moment) :
    (x :: rest).countP p = (p x).toNat + rest.countP p := by
  rw [List.countP_cons, Nat.add_comm]
  cases p x <;> rfl

/-- The balance of a trace, from whatever state it starts. -/
theorem balance_trace (m : Machine) (acts : List Act) :
    (m.trace acts).countP Moment.completes + (m.after acts).input.isSupplied.toNat ≤
      (m.trace acts).countP Moment.answers + m.input.isSupplied.toNat ∧
    (m.trace acts).countP Moment.answers + (m.after acts).input.isPending.toNat ≤
      (m.trace acts).countP Moment.suspends + m.input.isPending.toNat := by
  induction acts generalizing m with
  | nil => simp [trace, after]
  | cons act rest ih =>
      have hfirst := Moment.balance ⟨m, act⟩
      have hrest := ih (act.perform m)
      simp only [Moment.next] at hfirst
      simp only [trace, after, countP_cons_eq]
      omega

/-- Where something is used no more often than something else is put there, and is used
    last, the other was put there before. -/
theorem exists_of_countP_le {p q : Moment → Bool} {between : List Moment} {y : Moment}
    (h : (between ++ [y]).countP p ≤ (between ++ [y]).countP q) (hp : p y = true)
    (hq : q y = false) : ∃ z ∈ between, q z = true := by
  simp only [List.countP_append, List.countP_singleton, hp, hq] at h
  exact List.countP_pos_iff.mp (by simp at h; omega)

/-- A stretch of a trace is itself a trace, from the machine that the moment before it
    left. -/
theorem exists_trace_between {m : Machine} {acts : List Act}
    {earlier between later : List Moment} {x y : Moment}
    (h : m.trace acts = earlier ++ x :: (between ++ y :: later)) :
    ∃ part, x.next.trace part = between ++ [y] := by
  rcases exists_of_trace_eq_cons h with ⟨rest, hrest⟩
  rw [List.append_cons] at hrest
  rcases exists_of_trace_eq_append hrest with ⟨part, _, _, hpart, _⟩
  exact ⟨part, hpart⟩

/-- Between two answers an input instruction was suspended. -/
theorem exists_suspends_between {m : Machine} {acts : List Act}
    {earlier between later : List Moment} {x y : Moment}
    (h : m.trace acts = earlier ++ x :: (between ++ y :: later)) (hx : x.answers = true)
    (hy : y.answers = true) : ∃ z ∈ between, z.suspends = true := by
  rcases exists_trace_between h with ⟨part, hpart⟩
  have hbalance := (x.next.balance_trace part).2
  -- The first answer has ended its wait, so there is none to start with.
  rw [hpart, (Moment.input_of_answers hx).2] at hbalance
  exact exists_of_countP_le (Nat.le_trans (Nat.le_add_right _ _) hbalance) hy
    (Moment.suspends_of_ne_step (Moment.ne_step_of_answers hy))

/-- Between two completions a value was supplied. -/
theorem exists_answers_between {m : Machine} {acts : List Act}
    {earlier between later : List Moment} {x y : Moment}
    (h : m.trace acts = earlier ++ x :: (between ++ y :: later)) (hx : x.completes = true)
    (hy : y.completes = true) : ∃ z ∈ between, z.answers = true := by
  rcases exists_trace_between h with ⟨part, hpart⟩
  have hbalance := (x.next.balance_trace part).1
  -- The first completion has used its value up, so there is none to start with.
  rw [hpart, (Moment.input_of_completes hx).2] at hbalance
  exact exists_of_countP_le (Nat.le_trans (Nat.le_add_right _ _) hbalance) hy
    (Moment.answers_of_step ((Moment.completes_iff y).mp hy).1)

/-- In every history of calls from the empty machine on, and at every point of it, also
    between the steps of a run, each suspension has been answered at most once and each
    value has completed at most one input instruction. What is under way has not been
    used. -/
theorem input_used_once (calls : List Call) :
    empty.afterCalls calls = empty.after (empty.actsOf calls) ∧
    (∀ acts, acts <+: empty.actsOf calls →
      (empty.trace acts).countP Moment.completes + (empty.after acts).input.isSupplied.toNat ≤
        (empty.trace acts).countP Moment.answers ∧
      (empty.trace acts).countP Moment.answers + (empty.after acts).input.isPending.toNat ≤
        (empty.trace acts).countP Moment.suspends) ∧
    ∀ earlier x between y later,
      empty.trace (empty.actsOf calls) = earlier ++ x :: (between ++ y :: later) →
      (x.answers = true → y.answers = true → ∃ z ∈ between, z.suspends = true) ∧
      (x.completes = true → y.completes = true → ∃ z ∈ between, z.answers = true) := by
  refine ⟨empty.afterCalls_eq calls, ?_, ?_⟩
  · intro acts _
    -- Nothing is under way at first, so the balance of the whole trace remains.
    have hbalance := empty.balance_trace acts
    simpa [empty, Input.isSupplied, Input.isPending] using hbalance
  · intro earlier x between y later htrace
    exact ⟨exists_suspends_between htrace, exists_answers_between htrace⟩

/-- A program that asks for two values. -/
def twoInputs : List Word := [20, 30, 20, 31]

/-- A host that loads the program, answers both requests, and edits a cell in between. -/
def answeringTwice : List Act :=
  [.load twoInputs, .step, .resolve ⟨.literal 30, nofun⟩ 65, .step, .setCell 9 20, .step,
    .resolve ⟨.literal 31, nofun⟩ 66]

/-- The states of the program, by what changes in them. -/
def twoInputsAt (memory : Memory) (ip : Word) (input : Input) : Machine :=
  { loaded memory twoInputs with ip := ip, input := input }

/-- The trace of the host, from one answer to the other. -/
theorem trace_answeringTwice {memory : Memory}
    (hread : ∀ address, memory.read address = twoInputs.getD (Word.cell address).val 0)
    (hload : empty.load twoInputs = ⟨.ok (), loaded memory twoInputs⟩) :
    empty.trace answeringTwice =
      [⟨empty, .load twoInputs⟩, ⟨twoInputsAt memory 0 .idle, .step⟩] ++
      ⟨twoInputsAt memory 0 (.pending 0 (.literal 30)), .resolve ⟨.literal 30, nofun⟩ 65⟩ ::
      ([⟨twoInputsAt (memory.write 30 65) 0 (.supplied 0), .step⟩,
        ⟨twoInputsAt (memory.write 30 65) 2 .idle, .setCell 9 20⟩,
        ⟨twoInputsAt ((memory.write 30 65).write 9 20) 2 .idle, .step⟩] ++
      ⟨twoInputsAt ((memory.write 30 65).write 9 20) 2 (.pending 2 (.literal 31)),
        .resolve ⟨.literal 31, nofun⟩ 66⟩ :: []) := by
  have hfirst : Opcode.ofWord? (memory.read 0) = some .inp ∧
      Operand.ofWord? (memory.read 1) = some (.literal 30) ∧
      Opcode.ofWord? ((memory.write 30 65).read 0) = some .inp := by
    simp only [Memory.read_write, hread]
    decide
  have hsecond : Opcode.ofWord? (((memory.write 30 65).write 9 20).read 2) = some .inp ∧
      Operand.ofWord? (((memory.write 30 65).write 9 20).read 3) = some (.literal 31) := by
    simp only [Memory.read_write, hread]
    decide
  have hsuspends : (twoInputsAt memory 0 .idle).step = ⟨.ok (.input (.literal 30)),
      twoInputsAt memory 0 (.pending 0 (.literal 30))⟩ :=
    step_of_idle (m := twoInputsAt _ 0 _) ⟨rfl, hfirst.1⟩ rfl
      ((operand_eq_ok_iff _ _ _).mpr hfirst.2.1)
  have hcompletes : (twoInputsAt (memory.write 30 65) 0 (.supplied 0)).step =
      ⟨.ok .none, twoInputsAt (memory.write 30 65) 2 .idle⟩ :=
    step_of_supplied (m := twoInputsAt _ 0 _) ⟨rfl, hfirst.2.2⟩ rfl
  have hagain : (twoInputsAt ((memory.write 30 65).write 9 20) 2 .idle).step =
      ⟨.ok (.input (.literal 31)),
        twoInputsAt ((memory.write 30 65).write 9 20) 2 (.pending 2 (.literal 31))⟩ :=
    step_of_idle (m := twoInputsAt _ 2 _) ⟨rfl, hsecond.1⟩ rfl
      ((operand_eq_ok_iff _ _ _).mpr hsecond.2)
  have hloaded : Act.perform empty (.load twoInputs) = twoInputsAt memory 0 .idle :=
    congrArg Outcome.machine hload
  have hanswered : Act.perform (twoInputsAt memory 0 (.pending 0 (.literal 30)))
      (.resolve ⟨.literal 30, nofun⟩ 65) = twoInputsAt (memory.write 30 65) 0 (.supplied 0) := rfl
  have hedited : Act.perform (twoInputsAt (memory.write 30 65) 2 .idle) (.setCell 9 20) =
      twoInputsAt ((memory.write 30 65).write 9 20) 2 .idle := rfl
  have hstepped : ∀ m : Machine, Act.perform m .step = m.step.machine := fun _ => rfl
  simp only [answeringTwice, trace, hloaded, hstepped, hsuspends, hanswered, hcompletes, hedited,
    hagain, List.cons_append, List.nil_append]

theorem actsOf_single (m : Machine) (acts : List Act) : m.actsOf (acts.map .single) = acts := by
  induction acts generalizing m with
  | nil => rfl
  | cons act rest ih =>
      rw [List.map_cons, actsOf, ih]
      rfl

/-- Both answers of the host are accepted, and the theorem finds the suspension between
    them. -/
theorem suspends_between_answers :
    ∃ earlier x between y later,
      empty.trace (empty.actsOf (answeringTwice.map .single)) =
        earlier ++ x :: (between ++ y :: later) ∧
      x.answers = true ∧ y.answers = true ∧ ∃ z ∈ between, z.suspends = true := by
  have hload : empty.load twoInputs = ⟨.ok (), loaded (Memory.image twoInputs) twoInputs⟩ := by
    rw [load_eq, Memory.load, if_pos (by decide)]
  have htrace := trace_answeringTwice (Memory.read_image twoInputs) hload
  have hacts := empty.actsOf_single answeringTwice
  rw [← hacts] at htrace
  exact ⟨_, _, _, _, _, htrace, rfl, rfl,
    ((input_used_once (answeringTwice.map .single)).2.2 _ _ _ _ _ htrace).1 rfl rfl⟩

end Machine

end WordMachine
