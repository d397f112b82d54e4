import WordMachine.Proofs.Machine.Suspension

/-!
# Histories

What each act of a host found, and what it made of the input.

The trace of some acts pairs each of them with the machine it found. The outcome of an act
follows from that pair, and so a trace says what was reported, what was refused and what
it led to.

What happens to the input has one theorem for the steps,
`Machine.step_cases_of_input`, and one for all other acts, `Moment.next_cases_of_input`.
Between them they are everything that a history can do to it.

## Main definitions

* `Moment`, `Machine.trace`: Acts with the machines they found.
* `Moment.answers`, `Moment.restarts`: Acts that succeed in supplying a value, or in
  starting anew.

## Theorems

* `Machine.trace_append`, `Machine.exists_of_trace_eq_append`: A trace in parts.
* `Act.perform_of_error`: An act that fails changes nothing.
* `Moment.next_cases_of_input`: What acts other than steps make of the input.
-/

namespace WordMachine

namespace Act

/-- Whether an act supplies a value. -/
def isAnswer : Act → Bool
  | .resolve _ _ => true
  | _ => false

/-- Whether an act loads a program or moves the instruction pointer. -/
def isRestart : Act → Bool
  | .load _ => true
  | .loadBytes _ => true
  | .setIp _ => true
  | _ => false

end Act

/-- An act with the machine it found. -/
structure Moment where
  machine : Machine
  act : Act

namespace Moment

/-- The machine that the act left. -/
def next (x : Moment) : Machine := x.act.perform x.machine

def succeeds (x : Moment) : Bool := (x.act.outcome x.machine).result.isOk

/-- A value was supplied. -/
def answers (x : Moment) : Bool := x.act.isAnswer && x.succeeds

/-- A program was loaded, or the instruction pointer was moved. -/
def restarts (x : Moment) : Bool := x.act.isRestart && x.succeeds

theorem next_of_step {x : Moment} (h : x.act = .step) : x.next = x.machine.step.machine := by
  rw [next, h]
  rfl

theorem answers_of_step {x : Moment} (h : x.act = .step) : x.answers = false := by
  rw [answers, h]
  rfl

theorem ne_step_of_answers {x : Moment} (h : x.answers = true) : x.act ≠ .step := by
  intro hstep
  rw [answers_of_step hstep] at h
  cases h

end Moment

namespace Machine

/-! ### Traces -/

/-- The acts with the machines they found. -/
def trace (m : Machine) : List Act → List Moment
  | [] => []
  | act :: rest => ⟨m, act⟩ :: (act.perform m).trace rest

theorem trace_append (m : Machine) (first second : List Act) :
    m.trace (first ++ second) = m.trace first ++ (m.after first).trace second := by
  induction first generalizing m with
  | nil => rfl
  | cons act rest ih =>
      simp only [List.cons_append, trace, after]
      rw [ih]

/-- The parts of a trace are traces of the parts. -/
theorem exists_of_trace_eq_append {m : Machine} {acts : List Act} {first second : List Moment}
    (h : m.trace acts = first ++ second) :
    ∃ before rest, acts = before ++ rest ∧ m.trace before = first ∧
      (m.after before).trace rest = second := by
  induction first generalizing m acts with
  | nil => exact ⟨[], acts, rfl, rfl, h⟩
  | cons x first ih =>
      cases acts with
      | nil => cases h
      | cons act acts =>
          simp only [trace, List.cons_append, List.cons.injEq] at h
          rcases h with ⟨rfl, h⟩
          rcases ih h with ⟨before, rest, rfl, rfl, rfl⟩
          exact ⟨act :: before, rest, rfl, rfl, rfl⟩

/-- What comes after a moment of a trace is a trace from the machine that the moment
    left. -/
theorem exists_of_trace_eq_cons {m : Machine} {acts : List Act} {earlier later : List Moment}
    {x : Moment} (h : m.trace acts = earlier ++ x :: later) :
    ∃ rest, x.next.trace rest = later := by
  rcases exists_of_trace_eq_append h with ⟨before, rest, _, _, hrest⟩
  cases rest with
  | nil => cases hrest
  | cons act rest =>
      cases hrest
      exact ⟨rest, rfl⟩

/-! ### What becomes of the input -/

/-- Loading is refused and changes nothing, or leaves a machine that has just loaded. -/
theorem load_cases (m : Machine) (words : List Word) :
    (∃ fault, m.load words = ⟨.error fault, m⟩) ∨
      ∃ memory, m.load words = ⟨.ok (), loaded memory words⟩ := by
  rw [load_eq]
  cases Memory.load words with
  | error fault => exact Or.inl ⟨fault, rfl⟩
  | ok memory => exact Or.inr ⟨memory, rfl⟩

theorem machine_load_of_error {m : Machine} {words : List Word} {fault : Fault}
    (h : (m.load words).result = .error fault) : (m.load words).machine = m := by
  rcases m.load_cases words with ⟨_, hload⟩ | ⟨_, hload⟩
  · rw [hload]
  · rw [hload] at h
    cases h

theorem input_load_of_ok {m : Machine} {words : List Word} (h : (m.load words).result = .ok ()) :
    (m.load words).machine.input = .idle := by
  rcases m.load_cases words with ⟨_, hload⟩ | ⟨_, hload⟩
  · rw [hload] at h
    cases h
  · rw [hload]
    rfl

theorem machine_step_of_error {m : Machine} {fault : Fault} (h : m.step.result = .error fault) :
    m.step.machine = m := by
  rw [step_of_error ((m.step_result_eq_error_iff fault).mp h)]

theorem machine_resolve_of_error {m : Machine} {destination : Operand} {value : Word}
    {fault : Fault} (h : (m.resolve destination value).result = .error fault) :
    (m.resolve destination value).machine = m := by
  rcases m.resolve_cases destination value with ⟨_, hresolve⟩ | ⟨_, hresolve⟩
  · rw [hresolve]
  · rw [hresolve] at h
    cases h

/-- A value that is accepted was awaited at the instruction pointer, and is held there. -/
theorem input_resolve_of_ok {m : Machine} {destination : Operand} {value : Word}
    (h : (m.resolve destination value).result = .ok ()) :
    (∃ awaited, m.input = .pending m.ip awaited) ∧
      (m.resolve destination value).machine.input = .supplied m.ip := by
  rcases m.resolve_cases destination value with ⟨_, hresolve⟩ | ⟨⟨awaited, hhere⟩, hresolve⟩
  · rw [hresolve] at h
    cases h
  · rw [hresolve]
    exact ⟨⟨awaited, ((inputHere_eq_pending_iff _ _ _).mp hhere).1⟩, rfl⟩

theorem machine_edit_of_ok {m : Machine} {checks : Except Fault Unit}
    {change : Machine → Machine} (h : (m.edit checks change).result = .ok ()) :
    (m.edit checks change).machine = change m := by
  unfold edit at h ⊢
  split
  · rfl
  · cases h

end Machine

namespace Outcome

theorem result_of_map_error {α β : Type} {f : α → β} {outcome : Outcome α} {fault : Fault}
    (h : (outcome.map f).result = .error fault) : outcome.result = .error fault := by
  rcases outcome with ⟨result, m⟩
  cases result with
  | error found =>
      cases h
      rfl
  | ok a => cases h

theorem result_of_isOk_map {β : Type} {f : Unit → β} {outcome : Outcome Unit}
    (h : (outcome.map f).result.isOk = true) : outcome.result = .ok () := by
  rcases outcome with ⟨result, m⟩
  cases result with
  | error fault => cases h
  | ok u => rfl

end Outcome

/-- An act that fails leaves the machine as it is. -/
theorem Act.perform_of_error {m : Machine} {act : Act} {fault : Fault}
    (h : (act.outcome m).result = .error fault) : act.perform m = m := by
  cases act with
  | load | loadBytes => exact Machine.machine_load_of_error (Outcome.result_of_map_error h)
  | step => exact Machine.machine_step_of_error (Outcome.result_of_map_error h)
  | resolve => exact Machine.machine_resolve_of_error (Outcome.result_of_map_error h)
  | setRegister | setIp | setCell | setStack =>
      simp only [outcome, perform, Machine.setRegister_eq, Machine.setIp_eq, Machine.setCell_eq,
        Machine.setStack_eq] at h ⊢
      exact Machine.machine_edit_of_error (Outcome.result_of_map_error h)

namespace Moment

/-- An edit that succeeds is made. -/
theorem next_of_edit {x : Moment} {edited : Outcome Unit} {checks : Except Fault Unit}
    {change : Machine → Machine} (hact : x.act.outcome x.machine = edited.map fun _ => none)
    (hedit : edited = x.machine.edit checks change) (h : x.succeeds = true) :
    x.next = change x.machine := by
  rw [succeeds, hact, hedit] at h
  rw [next, Act.perform, hact, hedit]
  exact Machine.machine_edit_of_ok (Outcome.result_of_isOk_map h)

theorem next_of_not_succeeds {x : Moment} (h : x.succeeds = false) : x.next = x.machine := by
  unfold succeeds at h
  cases hresult : (x.act.outcome x.machine).result with
  | error fault => exact Act.perform_of_error hresult
  | ok report =>
      rw [hresult] at h
      cases h

/-- An act other than a step answers a wait, drops whatever was under way, or leaves the
    input and the instruction pointer as they are. Only an edit of a cell then changes
    the memory. -/
theorem next_cases_of_input (x : Moment) (h : x.act ≠ .step) :
    (x.answers = true ∧ x.restarts = false ∧
      (∃ destination, x.machine.input = .pending x.machine.ip destination) ∧
      x.next.input = .supplied x.machine.ip) ∨
    (x.answers = false ∧ x.restarts = true ∧ x.next.input = .idle) ∨
    (x.answers = false ∧ x.restarts = false ∧ x.next.input = x.machine.input ∧
      x.next.ip = x.machine.ip ∧ x.next.halted = x.machine.halted ∧
      ((∀ address word, x.act ≠ .setCell address word) →
        x.next.memory = x.machine.memory)) := by
  -- An act that fails leaves the whole machine, so only the accepted acts are told apart.
  by_cases hsucceeds : x.succeeds = true
  · rcases x with ⟨m, act⟩
    cases act with
    | step => exact absurd rfl h
    | load | loadBytes =>
        have hidle := Machine.input_load_of_ok (Outcome.result_of_isOk_map hsucceeds)
        exact Or.inr (Or.inl ⟨rfl, hsucceeds, hidle⟩)
    | resolve destination value =>
        have hinput := Machine.input_resolve_of_ok (Outcome.result_of_isOk_map hsucceeds)
        exact Or.inl ⟨hsucceeds, rfl, hinput⟩
    | setIp address =>
        have hmoved := next_of_edit rfl (Machine.setIp_eq m address) hsucceeds
        exact Or.inr (Or.inl ⟨rfl, hsucceeds, congrArg Machine.input hmoved⟩)
    | setRegister index value =>
        have hedited := next_of_edit rfl (Machine.setRegister_eq m index value) hsucceeds
        rw [hedited]
        exact Or.inr (Or.inr ⟨rfl, rfl, rfl, rfl, rfl, fun _ => rfl⟩)
    | setStack index value =>
        have hedited := next_of_edit rfl (Machine.setStack_eq m index value) hsucceeds
        rw [hedited]
        exact Or.inr (Or.inr ⟨rfl, rfl, rfl, rfl, rfl, fun _ => rfl⟩)
    | setCell address word =>
        have hedited := next_of_edit rfl (Machine.setCell_eq m address word) hsucceeds
        rw [hedited]
        exact Or.inr (Or.inr ⟨rfl, rfl, rfl, rfl, rfl, fun hcell => absurd rfl (hcell address word)⟩)
  · have hfails := Bool.eq_false_iff.mpr hsucceeds
    rw [next_of_not_succeeds hfails, answers, restarts, hfails, Bool.and_false, Bool.and_false]
    exact Or.inr (Or.inr ⟨rfl, rfl, rfl, rfl, rfl, fun _ => rfl⟩)

end Moment

end WordMachine
