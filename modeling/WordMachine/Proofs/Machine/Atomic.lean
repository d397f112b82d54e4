import WordMachine.Proofs.Loading
import WordMachine.Proofs.Machine.History

/-!
# Failed Operations

An operation that fails has changed nothing.

Operations work on the machine in place, and nothing takes back what one of them has
changed before it fails. So a single act that fails has changed nothing only because of
the order in which it works: whatever can go wrong with it is found out before its first
change. An instruction decodes all of its operands and takes the top of the stack before
it writes, an edit makes both of its checks first, and a program is measured before the
memory is filled with zeros. For the instructions that has been gone through one by one
(`Action.outcome_execute`). It holds in every state, also in one that no history leads to.
So a host that is told of a fault still has the machine it had, with the registers, the
memory, the stack and the input under way, and can go on from there.

A run is different. It may have taken steps before the one that failed, and those are
not taken back. What it leaves is exactly what they left: the steps before the failing
one all went on, and the failing one added nothing.

## Theorems

* `Machine.machine_run_of_error`: What a run that fails leaves.
* `Machine.failure_changes_nothing`: What is left after a fault.
-/

namespace WordMachine

namespace Machine

/-- A run that fails leaves what the steps before the failing one left. -/
theorem machine_run_of_error {m : Machine} {budget : Nat} {fault : Fault}
    (h : (m.run budget).stop = .error fault) :
    ∃ n, n < budget ∧ (∀ k, k < n → Run.goesOn (m.stepped k).step.result = true) ∧
      (m.stepped n).step.result = .error fault ∧ (m.run budget).machine = m.stepped n := by
  have hended : (m.run budget).stop ≠ .ok .none := by
    rw [h]
    exact nofun
  rcases exists_last_step hended with ⟨n, hlt, hlength, hbefore, hlast⟩
  rw [h] at hlast
  refine ⟨n, hlt, hbefore, hlast, ?_⟩
  -- The last step is counted, but a step that fails leaves the machine as it is.
  rw [m.machine_run, hlength, stepped_succ, machine_step_of_error hlast]

/-- Every operation is all or nothing. A single act that fails leaves the whole machine as
    it was, and a run that fails leaves it as the steps that went on left it. -/
theorem failure_changes_nothing (m : Machine) :
    (∀ (act : Act) (fault : Fault), (act.outcome m).result = .error fault →
      (act.outcome m).machine = m) ∧
    ∀ (budget : Nat) (fault : Fault), (m.run budget).stop = .error fault →
      ∃ n, n < budget ∧ (∀ k, k < n → Run.goesOn (m.stepped k).step.result = true) ∧
        (m.stepped n).step.result = .error fault ∧ (m.run budget).machine = m.stepped n :=
  ⟨fun _ _ h => Act.perform_of_error h, fun _ _ h => machine_run_of_error h⟩

theorem step_of_zero_divisor {m : Machine} {destination : Operand} {dividend : Word}
    (hhalted : m.halted = false) (hop : Opcode.ofWord? (m.memory.read m.ip) = some .mod)
    (hdestination : m.operand 0 = .ok destination) (hdividend : m.value 1 = .ok dividend)
    (hzero : m.value 2 = .ok 0) : m.step = ⟨.error (.divisionByZero m.ip), m⟩ := by
  have hfault : m.effect = .error (.divisionByZero m.ip) := by
    simp only [effect, hhalted, hop, Bool.false_eq_true, if_false]
    exact execute_of_zero_divisor hdestination hdividend hzero
  exact step_of_error hfault

/-- A program that does nothing and then divides by zero. A run of it takes one step that
    goes on and fails at the next, and failing there again changes nothing either. -/
theorem failure_changes_nothing_dividing :
    ∃ m, ofWords [21, 11, 32768, 5, 0] = .ok m ∧
      (m.run 9).stop = .error (.divisionByZero 1) ∧
      (∃ n, n < 9 ∧ (∀ k, k < n → Run.goesOn (m.stepped k).step.result = true) ∧
        (m.stepped n).step.result = .error (.divisionByZero 1) ∧
        (m.run 9).machine = m.stepped n) ∧
      (Act.step.outcome (m.stepped 1)).result = .error (.divisionByZero 1) ∧
      (Act.step.outcome (m.stepped 1)).machine = m.stepped 1 := by
  obtain ⟨m, hload⟩ : ∃ m, ofWords [21, 11, 32768, 5, 0] = .ok m :=
    ⟨_, ofWords_of_le (by decide)⟩
  rcases (ofWords_eq_ok_iff _ _).mp hload with ⟨_, hm⟩
  have hread := (read_of_ofWords hload).2
  have hstart : m.ip = 0 ∧ m.halted = false := by
    rw [← hm]
    exact ⟨rfl, rfl⟩
  -- The first step goes on, and the second finds a divisor that is zero.
  have hnop : Opcode.ofWord? (m.memory.read m.ip) = some .nop := by
    rw [hstart.1, hread]
    decide
  have hfirst := step_nop hstart.2 hnop
  rw [hstart.1] at hfirst
  have hnext : m.stepped 1 = { m with ip := 1 } := congrArg Outcome.machine hfirst
  have hgoes : Run.goesOn m.step.result = true := by
    rw [hfirst]
    rfl
  have hmod : Opcode.ofWord? (m.memory.read 1) = some .mod := by
    rw [hread]
    decide
  have hoperands : Operand.ofWord? (m.memory.read 2) = some (.register 0) ∧
      Operand.ofWord? (m.memory.read 3) = some (.literal 5) ∧
      Operand.ofWord? (m.memory.read 4) = some (.literal 0) := by
    simp only [hread]
    decide
  have hsecond : (m.stepped 1).step = ⟨.error (.divisionByZero 1), m.stepped 1⟩ := by
    rw [hnext]
    exact step_of_zero_divisor (m := { m with ip := 1 }) hstart.2 hmod
      ((operand_eq_ok_iff _ _ _).mpr hoperands.1) (value_of_literal hoperands.2.1)
      (value_of_literal hoperands.2.2)
  have hstops : Run.goesOn (m.stepped 1).step.result = false := by
    rw [hsecond]
    rfl
  have hstop : (m.run 9).stop = .error (.divisionByZero 1) := by
    rw [(run_of_goesOn hgoes 8).1]
    exact (run_of_not_goesOn hstops 7).1.trans (congrArg Outcome.result hsecond)
  have hfails : (Act.step.outcome (m.stepped 1)).result = .error (.divisionByZero 1) := by
    rw [Act.outcome, hsecond]
    rfl
  exact ⟨m, hload, hstop, (failure_changes_nothing m).2 9 _ hstop, hfails,
    (failure_changes_nothing (m.stepped 1)).1 _ _ hfails⟩

end Machine

end WordMachine
