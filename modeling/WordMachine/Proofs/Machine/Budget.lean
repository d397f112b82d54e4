import WordMachine.Proofs.Loading
import WordMachine.Proofs.Machine.Stepping
import WordMachine.Proofs.Machine.Suspension

/-!
# Budgets

A run can be cut into slices.

A host that shares its time between machines runs each of them for a budget at a time. It
can, because nothing is lost or done twice where one slice ends and the next begins: a run
whose budget is used up is the beginning of any longer run, and a run that was ended by a
step is the whole of it. `Machine.run_add` says so of the run as a whole, the printed codes
included.

What a run of any budget does then follows from two cases only. As long as no step ends
it, it takes all the steps of its budget (`Machine.run_of_forall_goesOn`). If some step is
the first to end it, a run that comes that far is such a run and one step more.

## Main definitions

* `Run.printed?`: The code that a step prints.
* `Run.behind`: A run with codes in front that were printed before it.
* `Run.andThen`: A run that is taken up where its budget ended.
* `Machine.printedBy`: What the first steps print.
* `Machine.EndsAfter`: The first step that ends a run.

## Theorems

* `Machine.run_succ`: A run by its first step.
* `Machine.run_add`: Budgets add up.
* `Machine.run_of_forall_goesOn`, `Machine.run_of_endsAfter`: A run as its first steps.
* `Machine.budgets_compose`: Slices and steps of a run.
-/

namespace WordMachine

namespace Run

/-- The code that a step with this result prints. -/
def printed? : Except Fault Interrupt → Option Word
  | .ok (.output code) => some code
  | _ => none

/-- A step that ends a run prints nothing. -/
theorem printed?_of_not_goesOn {result : Except Fault Interrupt} (h : goesOn result = false) :
    printed? result = none := by
  cases result with
  | error fault => rfl
  | ok interrupt =>
      cases interrupt with
      | output code => cases h
      | none | halt | input => rfl

/-- The run with codes in front that were printed before it. -/
def behind (codes : Array Word) (r : Run) : Run := ⟨r.stop, codes ++ r.outputs, r.machine⟩

theorem behind_empty (r : Run) : r.behind #[] = r := by
  rw [behind, Array.empty_append]

theorem behind_behind (first second : Array Word) (r : Run) :
    (r.behind second).behind first = r.behind (first ++ second) := by
  rw [behind, behind, behind, Array.append_assoc]

/-- A run that is taken up again where its budget was used up. One that was ended by a
    step is left as it is. -/
def andThen (first : Run) (rest : Machine → Run) : Run :=
  match first.stop with
  | .ok .none => (rest first.machine).behind first.outputs
  | _ => first

theorem andThen_of_none (codes : Array Word) (m : Machine) (rest : Machine → Run) :
    andThen ⟨.ok .none, codes, m⟩ rest = (rest m).behind codes := rfl

/-- After a step that ended it, there is nothing to take up. -/
theorem andThen_of_not_goesOn {first : Run} (h : goesOn first.stop = false)
    (rest : Machine → Run) : first.andThen rest = first := by
  unfold andThen
  split
  · rename_i hnone
    rw [hnone] at h
    cases h
  · rfl

/-- What was printed before a run stands in front, whether or not it is taken up. -/
theorem andThen_behind (codes : Array Word) (first : Run) (rest : Machine → Run) :
    (first.behind codes).andThen rest = (first.andThen rest).behind codes := by
  rcases first with ⟨stop, outputs, m⟩
  cases stop with
  | error fault => rfl
  | ok interrupt =>
      cases interrupt with
      | none => exact (behind_behind codes outputs (rest m)).symm
      | halt | output | input => rfl

end Run

namespace Machine

/-! ### Slices -/

/-- A run by its first step. -/
theorem run_succ (m : Machine) (budget : Nat) :
    m.run (budget + 1) =
      if Run.goesOn m.step.result = true then
        (m.step.machine.run budget).behind (Run.printed? m.step.result).toArray
      else ⟨m.step.result, #[], m.step.machine⟩ := by
  rcases hstep : m.step with ⟨result, next⟩
  unfold run
  rw [runFrom, hstep]
  cases result with
  | error fault => rfl
  | ok interrupt =>
      cases interrupt with
      | none => exact (Run.behind_empty _).symm
      | output code => exact runFrom_eq (#[].push code) budget next
      | halt => rfl
      | input destination => rfl

/-- Budgets add up: a run of both is a run of the first that is taken up for the second. -/
theorem run_add (m : Machine) (a b : Nat) :
    m.run (a + b) = (m.run a).andThen fun rest => rest.run b := by
  induction a generalizing m with
  | zero =>
      rw [Nat.zero_add]
      exact (Run.behind_empty _).symm
  | succ a ih =>
      rw [Nat.succ_add, run_succ, run_succ]
      by_cases h : Run.goesOn m.step.result = true
      · rw [if_pos h, if_pos h, Run.andThen_behind, ih]
      · rw [if_neg h, if_neg h, Run.andThen_of_not_goesOn (Bool.eq_false_iff.mpr h)]

/-! ### Steps -/

/-- What the first `n` steps print, in order. -/
def printedBy (m : Machine) (n : Nat) : List Word :=
  (List.range n).filterMap fun i => Run.printed? (m.stepped i).step.result

theorem printedBy_succ (m : Machine) (n : Nat) :
    m.printedBy (n + 1) = m.printedBy n ++ (Run.printed? (m.stepped n).step.result).toList := by
  rw [printedBy, List.range_succ, List.filterMap_append, printedBy]
  cases h : Run.printed? (m.stepped n).step.result with
  | none => simp [h]
  | some code => simp [h]

/-- The step after `n` others is the first that ends a run: it halts, waits for input or
    fails. -/
structure EndsAfter (m : Machine) (n : Nat) : Prop where
  before : ∀ i, i < n → Run.goesOn (m.stepped i).step.result = true
  ends : Run.goesOn (m.stepped n).step.result = false

/-- A run that no step ends takes all the steps of its budget. -/
theorem run_of_forall_goesOn {m : Machine} {n : Nat}
    (h : ∀ i, i < n → Run.goesOn (m.stepped i).step.result = true) :
    m.run n = ⟨.ok .none, (m.printedBy n).toArray, m.stepped n⟩ := by
  induction n with
  | zero => rfl
  | succ n ih =>
      -- The last step is a slice of its own.
      have hlast : (m.stepped n).run 1 =
          ⟨.ok .none, (Run.printed? (m.stepped n).step.result).toArray, m.stepped (n + 1)⟩ := by
        rw [run_succ, if_pos (h n (Nat.lt_succ_self n)), stepped_succ]
        simp [Run.behind, run, runFrom]
      rw [run_add, ih fun i hi => h i (Nat.lt_succ_of_lt hi), Run.andThen_of_none, hlast,
        printedBy_succ, Run.behind]
      simp

/-- A run stops at the first step that ends it, if its budget comes that far. -/
theorem run_of_endsAfter {m : Machine} {k : Nat} (h : m.EndsAfter k) (n : Nat) :
    m.run n = ⟨if k < n then (m.stepped k).step.result else .ok .none,
      (m.printedBy (min n (k + 1))).toArray, m.stepped (min n (k + 1))⟩ := by
  by_cases hlt : k < n
  · obtain ⟨rest, rfl⟩ : ∃ rest, n = k + (rest + 1) := ⟨n - k - 1, by omega⟩
    have hmin : min (k + (rest + 1)) (k + 1) = k + 1 := by omega
    -- The steps that go on are a slice, and the step that ends the run is the other.
    have hlast : (m.stepped k).run (rest + 1) =
        ⟨(m.stepped k).step.result, #[], m.stepped (k + 1)⟩ := by
      rw [run_succ, if_neg (Bool.eq_false_iff.mp h.ends), stepped_succ]
    rw [if_pos hlt, hmin, run_add, run_of_forall_goesOn h.before, Run.andThen_of_none, hlast,
      printedBy_succ, Run.printed?_of_not_goesOn h.ends, Run.behind, Array.append_empty,
      Option.toList_none, List.append_nil]
  · have hmin : min n (k + 1) = n := by omega
    rw [if_neg hlt, hmin]
    exact run_of_forall_goesOn fun i hi => h.before i (by omega)

/-- If no step is the first to end a run, all steps go on. -/
theorem goesOn_of_forall_not_endsAfter {m : Machine} (h : ∀ k, ¬ m.EndsAfter k) (n : Nat) :
    Run.goesOn (m.stepped n).step.result = true := by
  induction n using Nat.strongRecOn with
  | ind n ih =>
      by_contra hends
      exact h n ⟨ih, Bool.eq_false_iff.mpr hends⟩

/-- A run can be cut into slices, and takes exactly the steps up to the first that ends
    it, or to the end of its budget. What those steps print is printed once and in order. -/
theorem budgets_compose (m : Machine) :
    (∀ a b, m.run (a + b) = (m.run a).andThen fun rest => rest.run b) ∧
    (∀ k, m.EndsAfter k → ∀ n,
      m.run n = ⟨if k < n then (m.stepped k).step.result else .ok .none,
        (m.printedBy (min n (k + 1))).toArray, m.stepped (min n (k + 1))⟩) ∧
    ((∀ k, ¬ m.EndsAfter k) → ∀ n,
      m.run n = ⟨.ok .none, (m.printedBy n).toArray, m.stepped n⟩) :=
  ⟨m.run_add, fun _ h n => run_of_endsAfter h n,
    fun h _ => run_of_forall_goesOn fun i _ => goesOn_of_forall_not_endsAfter h i⟩

/-- A machine that prints a character and then asks for another. -/
def prompting : Machine := loaded (Memory.image [19, 72, 20, 32768]) [19, 72, 20, 32768]

/-- A slice that ends right after the character was printed: it is not printed again, and
    the question is put in the next slice. -/
theorem budgets_compose_prompting :
    prompting.EndsAfter 1 ∧
      prompting.run 5 = ⟨.ok (.input (.register 0)), #[72], prompting.stepped 2⟩ ∧
      (prompting.run 1).andThen (fun rest => rest.run 4) =
        ⟨.ok (.input (.register 0)), #[72], prompting.stepped 2⟩ := by
  have hread := Memory.read_image [19, 72, 20, 32768]
  have hop : Opcode.ofWord? (prompting.memory.read prompting.ip) = some .out := by
    change Opcode.ofWord? ((Memory.image _).read 0) = _
    rw [hread]
    decide
  have hcode : prompting.value 0 = .ok 72 := by
    refine value_of_literal ?_
    change Operand.ofWord? ((Memory.image _).read _) = _
    rw [hread]
    decide
  have hprints := step_out rfl hop hcode
  have hat : (prompting.stepped 1).AtInput := by
    rw [stepped, hprints]
    refine ⟨rfl, ?_⟩
    change Opcode.ofWord? ((Memory.image _).read _) = _
    rw [hread]
    decide
  have hoperand : (prompting.stepped 1).operand 0 = .ok (.register 0) := by
    rw [stepped, hprints]
    refine (operand_eq_ok_iff _ _ _).mpr ?_
    change Operand.ofWord? ((Memory.image _).read _) = _
    rw [hread]
    decide
  have hidle : (prompting.stepped 1).inputHere = .idle := by
    rw [stepped, hprints]
    rfl
  have hasks := step_of_idle hat hidle hoperand
  have hends : prompting.EndsAfter 1 := by
    refine ⟨fun i hi => ?_, by rw [hasks]; rfl⟩
    obtain rfl : i = 0 := by omega
    rw [stepped, hprints]
    rfl
  have hprinted : prompting.printedBy 2 = [72] := by
    rw [printedBy_succ, printedBy_succ, hasks, stepped, hprints]
    rfl
  rcases budgets_compose prompting with ⟨hslices, hsteps, _⟩
  have hrun : prompting.run 5 = ⟨.ok (.input (.register 0)), #[72], prompting.stepped 2⟩ := by
    have hall := hsteps 1 hends 5
    rw [if_pos (by decide), show min 5 (1 + 1) = 2 by decide, hprinted, hasks] at hall
    exact hall
  exact ⟨hends, hrun, (hslices 1 4).symm.trans hrun⟩

end Machine

end WordMachine
