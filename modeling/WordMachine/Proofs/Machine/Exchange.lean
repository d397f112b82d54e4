import WordMachine.Proofs.Loading
import WordMachine.Proofs.Machine.History
import WordMachine.Proofs.Machine.Range

/-!
# One Exchange of Input

A step that asks, the answer to it, and the step after the answer.

Asking changes nothing but the input, which then waits at the instruction pointer for the
destination that was reported. So the very next thing can be an answer, and every value is
accepted; what the host names as destination is not compared with what was asked for. The
step after an accepted answer cannot ask again. If the instruction is still an input
instruction, it completes, and if the answer was stored over its opcode, it is no input
instruction any more.

All of this holds in every state. That the destination of a question is one that a word
encodes holds in the states that hold values only, which are all that acts lead to from a
program that was loaded.

## Main definitions

* `Machine.Asks`: The next step asks for a value.

## Theorems

* `Machine.step_of_asks`: What a step that asks does.
* `Machine.resolve_of_asks`: The answer right after the question.
* `Machine.not_asks_of_resolve`: The step after the answer does not ask.
* `Machine.inRange_of_asks`: What is asked for is a destination that a word encodes.
* `Machine.inRange_after`: Acts keep the machine in range.
-/

namespace WordMachine

namespace Machine

/-! ### Questions and answers -/

/-- The next step asks for a value. -/
def Asks (m : Machine) : Prop := ∃ destination, m.step.result = .ok (.input destination)

/-- A step that asks for a value waits for it at the instruction pointer, and does nothing
    else. -/
theorem step_of_asks {m : Machine} {destination : Operand}
    (h : m.step.result = .ok (.input destination)) :
    m.step = ⟨.ok (.input destination), { m with input := .pending m.ip destination }⟩ := by
  have hexecutes : m.ExecutesInput := by
    by_contra hnot
    exact (input_step_of_not_executesInput hnot).2 destination h
  rcases step_of_executesInput hexecutes with ⟨awaited, hstep⟩ | hstep
  · rw [hstep] at h
    cases h
    exact hstep
  · rw [hstep] at h
    cases h

/-- Right after a question, every value is accepted, for whatever destination. -/
theorem resolve_of_asks {m : Machine} {asked : Operand}
    (h : m.step.result = .ok (.input asked)) (destination : Operand) {value : Word}
    (hvalue : value.IsValue) :
    m.step.machine.resolve destination value =
      ⟨.ok (), { m.store destination value with input := .supplied m.ip }⟩ := by
  have hcheck : check .inputValue value.toNat memorySize = .ok () :=
    (check_eq_ok_iff _ _ _).mpr hvalue
  rw [step_of_asks h]
  simp only [resolve_eq, inputHere, if_true, edit, hcheck]
  cases destination <;> rfl

/-- A step of a machine that holds its answer does not ask. -/
theorem not_asks_of_supplied {m : Machine} (h : m.input = .supplied m.ip) : ¬ m.Asks := by
  intro hasks
  rcases hasks with ⟨destination, hresult⟩
  rcases m.step_cases_of_input with ⟨_, hidle, _⟩ | ⟨_, _, hpending, _⟩ | ⟨_, _, hstep⟩ | hnot
  · rw [(m.inputHere_eq_supplied_iff m.ip).mpr ⟨h, rfl⟩] at hidle
    cases hidle
  · rw [h] at hpending
    cases hpending
  · rw [hstep] at hresult
    cases hresult
  · exact (input_step_of_not_executesInput hnot).2 destination hresult

/-- The step after an answer that was accepted does not ask. -/
theorem not_asks_of_resolve {m next : Machine} {destination : Operand} {value : Word}
    (h : m.resolve destination value = ⟨.ok (), next⟩) : ¬ next.Asks := by
  rcases m.resolve_cases destination value with ⟨_, hrefused⟩ | ⟨_, haccepted⟩
  · rw [hrefused] at h
    cases h
  · rw [haccepted] at h
    cases h
    -- Storing the answer does not move the instruction pointer.
    apply not_asks_of_supplied
    cases destination <;> rfl

/-- What a machine in range asks for is in range. -/
theorem inRange_of_asks {m : Machine} (hm : m.InRange) {destination : Operand}
    (h : m.step.result = .ok (.input destination)) : destination.InRange := by
  have hinput := (inRange_step hm).input
  rw [step_of_asks h] at hinput
  exact hinput.2

/-! ### Ranges along acts -/

theorem inRange_after {m : Machine} (h : m.InRange) (acts : List Act) : (m.after acts).InRange := by
  induction acts generalizing m with
  | nil => exact h
  | cons act rest ih => exact ih (act.inRange_perform h)

/-- A machine that was loaded is in range. -/
theorem inRange_of_ofWords {words : List Word} {m : Machine} (h : ofWords words = .ok m) :
    m.InRange := by
  rcases (ofWords_eq_ok_iff _ _).mp h with ⟨hfit, rfl⟩
  exact ⟨inRange_empty.ip, inRange_empty.registers, inRange_empty.stack, hfit,
    inRange_empty.input⟩

end Machine

end WordMachine
