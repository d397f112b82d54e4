import WordMachine.Machine.Step

/-!
# Runs

Steps repeated up to a budget.

A run goes on through steps that report nothing and through output, which it
collects, and ends at the first step that halts, waits for input or fails. A
budget bounds the number of steps, so every run ends.

## Main definitions

* `Run`: How a run ended, what it printed, and the machine after it.
* `Machine.run`: Running up to a budget.
* `Machine.runRecords`: The log records of a run.

## Theorems

* `Machine.runFrom_eq`: Earlier output only stands in front.
-/

namespace WordMachine

/-- A finished run. -/
structure Run where
  /-- The report or fault that ended it, or `Interrupt.none` at the end of the
      budget. -/
  stop : Except Fault Interrupt
  /-- The character codes printed, in order. -/
  outputs : Array Word
  machine : Machine

namespace Machine

/-- Runs for at most `budget` steps, adding to the codes printed so far. -/
def runFrom (outputs : Array Word) : Nat → Machine → Run
  | 0, m => ⟨.ok .none, outputs, m⟩
  | budget + 1, m =>
    match m.step with
    | ⟨.ok .none, next⟩ => runFrom outputs budget next
    | ⟨.ok (.output code), next⟩ => runFrom (outputs.push code) budget next
    | ⟨stop, next⟩ => ⟨stop, outputs, next⟩

/-- What was printed before a run only stands in front of what the run prints. -/
theorem runFrom_eq (outputs : Array Word) (budget : Nat) (m : Machine) :
    runFrom outputs budget m =
      ⟨(runFrom #[] budget m).stop, outputs ++ (runFrom #[] budget m).outputs,
        (runFrom #[] budget m).machine⟩ := by
  induction budget generalizing outputs m with
  | zero => simp [runFrom]
  | succ n ih =>
      simp only [runFrom]
      split
      · exact ih _ _
      · rename_i code next _
        rw [ih (outputs.push code), ih (#[].push code)]
        simp
      · simp

/-- Runs for at most `budget` steps. -/
def run (m : Machine) (budget : Nat) : Run := runFrom #[] budget m

/-- The records of the steps of a run, after the records so far. -/
def runRecordsFrom (records : Array Log.Record) : Nat → Machine → Array Log.Record
  | 0, _ => records
  | budget + 1, m =>
    let records := records ++ m.stepRecords
    match m.step with
    | ⟨.ok .none, next⟩ | ⟨.ok (.output _), next⟩ => runRecordsFrom records budget next
    | _ => records

/-- The records of the steps of a run. -/
def runRecords (m : Machine) (budget : Nat) : List Log.Record :=
  (runRecordsFrom #[] budget m).toList

end Machine

end WordMachine
