import WordMachine.Machine.Run

/-!
# Runs as Steps

A run is a number of single steps.

A run is given a budget and collects what is printed, so its definition counts down and
carries an accumulator. What it does to the machine is simpler: it takes steps until one
of them ends it or the budget is used up, and every step before the last one reported
nothing or printed. `Machine.runLength` is the number of steps it takes. With it a run is
nothing new: whatever holds of single steps, in whatever state they are taken, is carried
over to runs by `Machine.machine_run`, and what ended a run is what its last step
reported.

## Main definitions

* `Run.goesOn`: A result after which a run goes on.
* `Machine.stepped`: The machine after a number of steps.
* `Machine.runLength`: The number of steps of a run.

## Theorems

* `Machine.machine_run`: A run leaves what its steps leave.
* `Machine.exists_last_step`: A run that is ended before its budget is ended by its last
  step.
-/

namespace WordMachine

/-- Whether a run goes on after a step with this result. -/
def Run.goesOn : Except Fault Interrupt → Bool
  | .ok .none => true
  | .ok (.output _) => true
  | _ => false

namespace Machine

/-- The machine after a number of steps, whatever they report. -/
def stepped (m : Machine) : Nat → Machine
  | 0 => m
  | n + 1 => m.step.machine.stepped n

theorem stepped_succ (m : Machine) (n : Nat) : m.stepped (n + 1) = (m.stepped n).step.machine := by
  induction n generalizing m with
  | zero => rfl
  | succ n ih => exact ih m.step.machine

/-- The number of steps that a run takes. The step that ends it is counted too. -/
def runLength (m : Machine) : Nat → Nat
  | 0 => 0
  | budget + 1 => if Run.goesOn m.step.result then m.step.machine.runLength budget + 1 else 1

/-- After a step that does not end it, a run goes on with one step less. -/
theorem run_of_goesOn {m : Machine} (h : Run.goesOn m.step.result = true) (budget : Nat) :
    (m.run (budget + 1)).stop = (m.step.machine.run budget).stop ∧
      (m.run (budget + 1)).machine = (m.step.machine.run budget).machine := by
  rcases hstep : m.step with ⟨result, next⟩
  rw [hstep] at h
  unfold run
  rw [runFrom, hstep]
  -- The two results that go on differ in the output only, which stands in front.
  cases result with
  | error fault => cases h
  | ok interrupt =>
      cases interrupt with
      | none => exact ⟨rfl, rfl⟩
      | output code =>
          dsimp only
          rw [runFrom_eq]
          exact ⟨rfl, rfl⟩
      | halt => cases h
      | input destination => cases h

/-- A step that ends a run decides how it ends. -/
theorem run_of_not_goesOn {m : Machine} (h : Run.goesOn m.step.result = false) (budget : Nat) :
    (m.run (budget + 1)).stop = m.step.result ∧
      (m.run (budget + 1)).machine = m.step.machine := by
  rcases hstep : m.step with ⟨result, next⟩
  rw [hstep] at h
  unfold run
  rw [runFrom, hstep]
  cases result with
  | error fault => exact ⟨rfl, rfl⟩
  | ok interrupt =>
      cases interrupt with
      | none => cases h
      | output code => cases h
      | halt => exact ⟨rfl, rfl⟩
      | input destination => exact ⟨rfl, rfl⟩

/-- A run leaves what its steps leave. -/
theorem machine_run (m : Machine) (budget : Nat) :
    (m.run budget).machine = m.stepped (m.runLength budget) := by
  induction budget generalizing m with
  | zero => rfl
  | succ budget ih =>
      by_cases h : Run.goesOn m.step.result = true
      · rw [(run_of_goesOn h budget).2, ih, runLength, if_pos h, stepped]
      · rw [(run_of_not_goesOn (Bool.eq_false_iff.mpr h) budget).2, runLength, if_neg h]
        rfl

/-- A run that did not use up its budget was ended by its last step, and by none
    before. -/
theorem exists_last_step {m : Machine} {budget : Nat} (h : (m.run budget).stop ≠ .ok .none) :
    ∃ n, n < budget ∧ m.runLength budget = n + 1 ∧
      (∀ k, k < n → Run.goesOn (m.stepped k).step.result = true) ∧
      (m.stepped n).step.result = (m.run budget).stop := by
  induction budget generalizing m with
  | zero => exact absurd rfl h
  | succ budget ih =>
      by_cases hgoes : Run.goesOn m.step.result = true
      · rw [(run_of_goesOn hgoes budget).1] at h ⊢
        rcases ih h with ⟨n, hlt, hlength, hbefore, hlast⟩
        refine ⟨n + 1, by omega, ?_, ?_, hlast⟩
        · rw [runLength, if_pos hgoes, hlength]
        · intro k hk
          -- The first step went on, and the others are those of the rest.
          cases k with
          | zero => exact hgoes
          | succ k => exact hbefore k (by omega)
      · have hends := run_of_not_goesOn (Bool.eq_false_iff.mpr hgoes) budget
        refine ⟨0, by omega, ?_, ?_, hends.1.symm⟩
        · rw [runLength, if_neg hgoes]
        · intro k hk
          omega

end Machine

end WordMachine
