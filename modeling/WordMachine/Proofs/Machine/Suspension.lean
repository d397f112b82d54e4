import Mathlib.Data.List.Induction
import WordMachine.Proofs.Machine.Act
import WordMachine.Proofs.Machine.Effect

/-!
# Suspended Input

When an input instruction suspends, and when it completes on an old value.

A value that has been supplied stays with the address of the instruction it was supplied
for until an input instruction is executed. It is not dropped when control leaves that
address, only ignored. So an input instruction suspends when control arrives at it,
unless a value was supplied at its address before and no input instruction has been
executed since. That can happen: the value may be stored over the opcode of the very
instruction that waits for it, which is then not completed but executed as something
else, and the program may restore the opcode and come back. The instruction completes on
the old value, and the host is not asked.

`Machine.Unclaimed` is that condition, stated about the history of a machine and not
about its state. It is exactly when the machine holds a supplied value for an address
(`Machine.input_eq_supplied_iff`), and with that exactly when an input instruction that
control arrives at does not suspend (`Machine.suspends_iff`).

A machine that waits for input cannot get away from the instruction it waits at: only
steps and answers are considered, a step at that instruction changes nothing, and an
answer ends the wait. This invariant, `Machine.Poised`, is why no wait is ever left over
from an earlier visit.

## Main definitions

* `Act.IsExchange`: A step, or the answer to a request for input.
* `Machine.AtInput`: The next instruction is an input instruction.
* `Machine.Poised`: A machine that waits does so at an input instruction.
* `Machine.Unclaimed`: A value was supplied at an address, and is still there.

## Theorems

* `Machine.step_of_idle`, `Machine.step_of_pending`, `Machine.step_of_supplied`: A step
  at an input instruction.
* `Machine.step_cases_of_input`: What a step does about the input.
* `Machine.resolve_cases`: What an answer does.
* `Machine.poised_perform`: Steps and answers keep the machine poised.
* `Machine.input_eq_supplied_iff`: When a supplied value is held.
* `Machine.suspends_iff`: When an input instruction suspends on arrival.
-/

namespace WordMachine

/-- The acts of a host that runs a program and answers its requests. -/
def Act.IsExchange : Act → Prop
  | .step => True
  | .resolve _ _ => True
  | _ => False

theorem Effect.input_apply (e : Effect) (m : Machine) :
    (e.apply m).input = e.input.getD m.input := by
  unfold apply
  split
  · rename_i destination value _
    cases destination <;> rfl
  · rfl

namespace Machine

/-! ### Steps at an input instruction -/

/-- The next instruction is an input instruction, and the machine can execute it. -/
def AtInput (m : Machine) : Prop :=
  m.halted = false ∧ Opcode.ofWord? (m.memory.read m.ip) = some .inp

theorem effect_of_atInput {m : Machine} (h : m.AtInput) :
    m.effect = m.inputEffect (Word.after m.ip 2) := by
  simp only [effect, h.1, h.2, Bool.false_eq_true, if_false]
  rfl

theorem step_of_inputEffect {m : Machine} {e : Effect} (h : m.AtInput)
    (he : m.inputEffect (Word.after m.ip 2) = .ok e) :
    m.step = ⟨.ok e.interrupt, e.apply m⟩ :=
  step_of_ok ((effect_of_atInput h).trans he)

/-- With no input under way, the instruction suspends. -/
theorem step_of_idle {m : Machine} (h : m.AtInput) (hidle : m.inputHere = .idle)
    {destination : Operand} (hoperand : m.operand 0 = .ok destination) :
    m.step = ⟨.ok (.input destination), { m with input := .pending m.ip destination }⟩ := by
  rw [step_of_inputEffect h
    ((inputEffect_eq_ok_iff _ _ _).mpr (Or.inl ⟨destination, hidle, hoperand, rfl⟩))]
  simp only [Effect.apply, StackMove.apply, Option.getD_some, Bool.or_false]

/-- An instruction that waits goes on waiting. -/
theorem step_of_pending {m : Machine} (h : m.AtInput) {address : Word} {destination : Operand}
    (hpending : m.inputHere = .pending address destination) :
    m.step = ⟨.ok (.input destination), m⟩ := by
  rw [step_of_inputEffect h
    ((inputEffect_eq_ok_iff _ _ _).mpr (Or.inr (Or.inl ⟨address, destination, hpending, rfl⟩)))]
  simp only [Effect.apply, StackMove.apply, Option.getD_none, Bool.or_false]

/-- An instruction that has its value completes. -/
theorem step_of_supplied {m : Machine} (h : m.AtInput) {address : Word}
    (hsupplied : m.inputHere = .supplied address) :
    m.step = ⟨.ok .none, { m with ip := Word.after m.ip 2, input := .idle }⟩ := by
  rw [step_of_inputEffect h
    ((inputEffect_eq_ok_iff _ _ _).mpr (Or.inr (Or.inr ⟨address, hsupplied, rfl⟩)))]
  simp only [Effect.apply, StackMove.apply, Option.getD_some, Bool.or_false]

/-- The next step executes an input instruction and does not fail. -/
def ExecutesInput (m : Machine) : Prop :=
  m.AtInput ∧ ∃ interrupt, m.step.result = .ok interrupt

/-- A step that executes no input instruction leaves the input as it is, and waits for
    none. -/
theorem input_step_of_not_executesInput {m : Machine} (h : ¬ m.ExecutesInput) :
    m.step.machine.input = m.input ∧
      ∀ destination, m.step.result ≠ .ok (.input destination) := by
  cases he : m.effect with
  | error fault =>
      rw [step_of_error he]
      exact ⟨rfl, fun _ => nofun⟩
  | ok e =>
      rcases (effect_eq_ok_iff _ _).mp he with ⟨hhalted, op, hop, hexecute⟩
      -- The step succeeds, so it cannot be that of an input instruction.
      have hne : op ≠ .inp := by
        rintro rfl
        exact h ⟨⟨hhalted, hop⟩, e.interrupt, by rw [step_of_ok he]⟩
      rcases input_of_execute hexecute hne with ⟨hinput, hinterrupt⟩
      rw [step_of_ok he]
      refine ⟨?_, fun destination heq => hinterrupt destination (Except.ok.inj heq)⟩
      change (e.apply m).input = m.input
      rw [e.input_apply, hinput, Option.getD_none]

/-- An instruction that is executed with no input under way has a good operand. -/
theorem exists_operand_of_executesInput {m : Machine} (h : m.ExecutesInput)
    (hidle : m.inputHere = .idle) : ∃ destination, m.operand 0 = .ok destination := by
  rcases h with ⟨hat, interrupt, hok⟩
  cases hoperand : m.operand 0 with
  | ok destination => exact ⟨destination, rfl⟩
  | error fault =>
      -- An operand that is none is refused, so the step would fail.
      have heffect : m.effect = .error fault := by
        rw [effect_of_atInput hat, inputEffect, hidle]
        simp only [hoperand]
        rfl
      rw [step_of_error heffect] at hok
      cases hok

/-- A step suspends an input instruction, keeps it waiting, completes it, or executes no
    input instruction. -/
theorem step_cases_of_input (m : Machine) :
    (m.AtInput ∧ m.inputHere = .idle ∧ ∃ destination, m.operand 0 = .ok destination ∧
      m.step = ⟨.ok (.input destination), { m with input := .pending m.ip destination }⟩) ∨
    (m.AtInput ∧ ∃ destination, m.input = .pending m.ip destination ∧
      m.step = ⟨.ok (.input destination), m⟩) ∨
    (m.AtInput ∧ m.input = .supplied m.ip ∧
      m.step = ⟨.ok .none, { m with ip := Word.after m.ip 2, input := .idle }⟩) ∨
    ¬ m.ExecutesInput := by
  by_cases h : m.ExecutesInput
  · have hat := h.1
    cases hhere : m.inputHere with
    | idle =>
        rcases exists_operand_of_executesInput h hhere with ⟨destination, hoperand⟩
        exact Or.inl ⟨hat, rfl, destination, hoperand, step_of_idle hat hhere hoperand⟩
    | pending address destination =>
        rcases (inputHere_eq_pending_iff _ _ _).mp hhere with ⟨hinput, rfl⟩
        exact Or.inr (Or.inl ⟨hat, destination, hinput, step_of_pending hat hhere⟩)
    | supplied address =>
        rcases (inputHere_eq_supplied_iff _ _).mp hhere with ⟨hinput, rfl⟩
        exact Or.inr (Or.inr (Or.inl ⟨hat, hinput, step_of_supplied hat hhere⟩))
  · exact Or.inr (Or.inr (Or.inr h))

/-- A step that executes an input instruction suspends it and keeps it waiting, or
    completes it. No supplied value is held afterwards. -/
theorem step_of_executesInput {m : Machine} (h : m.ExecutesInput) :
    (∃ destination, m.step = ⟨.ok (.input destination),
      { m with input := .pending m.ip destination }⟩) ∨
    m.step = ⟨.ok .none, { m with ip := Word.after m.ip 2, input := .idle }⟩ := by
  rcases m.step_cases_of_input with ⟨_, _, destination, _, hstep⟩ | ⟨_, destination, hinput, hstep⟩ |
    ⟨_, _, hstep⟩ | hnot
  · exact Or.inl ⟨destination, hstep⟩
  · -- Waiting on is suspending again, since the machine already waits here.
    have hsame : { m with input := .pending m.ip destination } = m := by rw [← hinput]
    exact Or.inl ⟨destination, by rw [hstep, hsame]⟩
  · exact Or.inr hstep
  · exact absurd h hnot

/-! ### Answers -/

/-- An answer is refused and changes nothing, or ends the wait at the instruction
    pointer. -/
theorem resolve_cases (m : Machine) (destination : Operand) (value : Word) :
    (∃ fault, m.resolve destination value = ⟨.error fault, m⟩) ∨
    (∃ awaited, m.inputHere = .pending m.ip awaited) ∧
      m.resolve destination value =
        ⟨.ok (), { m.store destination value with input := .supplied m.ip }⟩ := by
  rw [resolve_eq]
  cases hhere : m.inputHere with
  | idle => exact Or.inl ⟨_, rfl⟩
  | supplied address => exact Or.inl ⟨_, rfl⟩
  | pending address awaited =>
      have hip := ((inputHere_eq_pending_iff _ _ _).mp hhere).2
      cases hcheck : check .inputValue value.toNat memorySize with
      | error fault => exact Or.inl ⟨fault, by simp only [edit]⟩
      | ok u => exact Or.inr ⟨⟨awaited, by rw [hip]⟩, by simp only [edit, hip]⟩

/-! ### Waiting -/

/-- A machine that waits for input does so at an input instruction, the next one. -/
def Poised (m : Machine) : Prop :=
  ∀ address destination, m.input = .pending address destination → address = m.ip ∧ m.AtInput

/-- A poised machine that waits goes on waiting. -/
theorem executesInput_of_pending {m : Machine} (h : m.Poised) {address : Word}
    {destination : Operand} (hpending : m.input = .pending address destination) :
    m.ExecutesInput := by
  rcases h address destination hpending with ⟨hip, hat⟩
  have hhere := (inputHere_eq_pending_iff _ _ _).mpr ⟨hpending, hip⟩
  exact ⟨hat, _, by rw [step_of_pending hat hhere]⟩

theorem poised_step {m : Machine} (h : m.Poised) : m.step.machine.Poised := by
  by_cases hexecutes : m.ExecutesInput
  · rcases step_of_executesInput hexecutes with ⟨destination, hstep⟩ | hstep
    · -- Nothing but the input changes, so the instruction is still there.
      rw [hstep]
      rintro _ _ ⟨⟩
      exact ⟨rfl, hexecutes.1⟩
    · rw [hstep]
      exact fun _ _ => nofun
  · rcases input_step_of_not_executesInput hexecutes with ⟨hinput, _⟩
    intro address destination hpending
    rw [hinput] at hpending
    exact absurd (executesInput_of_pending h hpending) hexecutes

theorem poised_resolve {m : Machine} (h : m.Poised) (destination : Operand) (value : Word) :
    (m.resolve destination value).machine.Poised := by
  rcases m.resolve_cases destination value with ⟨fault, hfault⟩ | ⟨_, hok⟩
  · rw [hfault]
    exact h
  · rw [hok]
    exact fun _ _ => nofun

/-- Steps and answers keep the machine poised. -/
theorem poised_perform {m : Machine} (h : m.Poised) {act : Act} (hact : act.IsExchange) :
    (act.perform m).Poised := by
  cases act with
  | step => exact poised_step h
  | resolve destination value => exact poised_resolve h destination.val value
  | load | loadBytes | setRegister | setIp | setCell | setStack => exact hact.elim

theorem poised_after {m : Machine} (h : m.Poised) {history : List Act}
    (hhistory : ∀ act ∈ history, act.IsExchange) : (m.after history).Poised := by
  induction history generalizing m with
  | nil => exact h
  | cons act rest ih =>
      rcases List.forall_mem_cons.mp hhistory with ⟨hact, hrest⟩
      exact ih (poised_perform h hact) hrest

/-- When control has just moved on, the machine does not wait for input. -/
theorem input_ne_pending_of_step {m : Machine} (h : m.Poised) {interrupt : Interrupt}
    (hstep : m.step.result = .ok interrupt)
    (hmoved : ∀ destination, interrupt ≠ .input destination) (address : Word)
    (destination : Operand) : m.step.machine.input ≠ .pending address destination := by
  intro hpending
  by_cases hexecutes : m.ExecutesInput
  · rcases step_of_executesInput hexecutes with ⟨awaited, hsuspended⟩ | hcompleted
    · rw [hsuspended] at hstep
      exact hmoved awaited (Except.ok.inj hstep).symm
    · rw [hcompleted] at hpending
      cases hpending
  · rcases input_step_of_not_executesInput hexecutes with ⟨hinput, _⟩
    rw [hinput] at hpending
    exact hexecutes (executesInput_of_pending h hpending)

/-! ### Supplied values -/

/-- A value was supplied for the instruction at an address, and no input instruction
    has been executed since. -/
inductive Unclaimed (start : Machine) : List Act → Word → Prop
  | supply {history : List Act} {destination : Operand.Place} {value : Word}
      (accepted : ((start.after history).resolve destination.val value).result = .ok ()) :
      Unclaimed start (history ++ [.resolve destination value]) (start.after history).ip
  | keep {history : List Act} {act : Act} {address : Word}
      (earlier : Unclaimed start history address)
      (passed : act = .step → ¬ (start.after history).ExecutesInput) :
      Unclaimed start (history ++ [act]) address

/-- An unclaimed value is held. -/
theorem input_of_unclaimed {start : Machine} {history : List Act} {address : Word}
    (h : start.Unclaimed history address) (hhistory : ∀ act ∈ history, act.IsExchange) :
    (start.after history).input = .supplied address := by
  induction h with
  | @supply history destination value accepted =>
      rw [after_concat]
      change ((start.after history).resolve destination.val value).machine.input = _
      rcases (start.after history).resolve_cases destination.val value with
        ⟨fault, hfault⟩ | ⟨_, hok⟩
      · rw [hfault] at accepted
        cases accepted
      · rw [hok]
  | @keep history act address earlier passed ih =>
      rcases List.forall_mem_append.mp hhistory with ⟨hbefore, hlast⟩
      have hheld := ih hbefore
      rw [after_concat]
      cases act with
      | step =>
          change (start.after history).step.machine.input = _
          rw [(input_step_of_not_executesInput (passed rfl)).1, hheld]
      | resolve destination value =>
          change ((start.after history).resolve destination.val value).machine.input = _
          rcases (start.after history).resolve_cases destination.val value with
            ⟨fault, hfault⟩ | ⟨⟨awaited, hhere⟩, _⟩
          · rw [hfault, hheld]
          · -- The machine holds a value, so it does not wait for one.
            rw [((inputHere_eq_pending_iff _ _ _).mp hhere).1] at hheld
            cases hheld
      | load | loadBytes | setRegister | setIp | setCell | setStack =>
          exact (hlast _ (List.mem_singleton_self _)).elim

/-- A value that is held is unclaimed. -/
theorem unclaimed_of_input {start : Machine} (hstart : start.input = .idle)
    {history : List Act} (hhistory : ∀ act ∈ history, act.IsExchange) {address : Word}
    (h : (start.after history).input = .supplied address) :
    start.Unclaimed history address := by
  -- The last act decides: it supplied the value, or it left one that was held before.
  induction history using List.reverseRecOn with
  | nil =>
      rw [show start.after [] = start from rfl, hstart] at h
      cases h
  | append_singleton history act ih =>
      rcases List.forall_mem_append.mp hhistory with ⟨hbefore, hlast⟩
      rw [after_concat] at h
      cases act with
      | step =>
          change (start.after history).step.machine.input = _ at h
          by_cases hexecutes : (start.after history).ExecutesInput
          · rcases step_of_executesInput hexecutes with ⟨destination, hstep⟩ | hstep <;>
              rw [hstep] at h <;> cases h
          · rw [(input_step_of_not_executesInput hexecutes).1] at h
            exact .keep (ih hbefore h) fun _ => hexecutes
      | resolve destination value =>
          change ((start.after history).resolve destination.val value).machine.input = _ at h
          rcases (start.after history).resolve_cases destination.val value with
            ⟨fault, hfault⟩ | ⟨_, hok⟩
          · rw [hfault] at h
            exact .keep (ih hbefore h) nofun
          · rw [hok] at h
            cases h
            exact .supply (by rw [hok])
      | load | loadBytes | setRegister | setIp | setCell | setStack =>
          exact (hlast _ (List.mem_singleton_self _)).elim

/-- After steps and answers, the machine holds a supplied value exactly when one is
    unclaimed. -/
theorem input_eq_supplied_iff {start : Machine} (hstart : start.input = .idle)
    {history : List Act} (hhistory : ∀ act ∈ history, act.IsExchange) (address : Word) :
    (start.after history).input = .supplied address ↔ start.Unclaimed history address :=
  ⟨unclaimed_of_input hstart hhistory, fun h => input_of_unclaimed h hhistory⟩

/-! ### Arriving at an input instruction -/

/-- A loaded machine has no input under way. -/
theorem input_of_load {origin start : Machine} {words : List Word}
    (h : origin.load words = ⟨.ok (), start⟩) : start.input = .idle := by
  rw [load_eq] at h
  split at h
  · cases h
    rfl
  · cases h

/-- An input instruction that control arrives at, in a run of steps and answers from a
    load on, suspends exactly when no value is unclaimed at its address. Otherwise it
    completes at once. -/
theorem suspends_iff {origin start m : Machine} {words : List Word} {history : List Act}
    {interrupt : Interrupt} {destination : Operand}
    (hload : origin.load words = ⟨.ok (), start⟩)
    (hhistory : ∀ act ∈ history, act.IsExchange)
    (hstep : (start.after history).step = ⟨.ok interrupt, m⟩)
    (harrived : interrupt = .none ∨ ∃ code, interrupt = .output code)
    (hhalted : m.halted = false) (hword : m.memory.read m.ip = 20)
    (hoperand : Operand.ofWord? (m.memory.read (Word.after m.ip 1)) = some destination) :
    (m.step.result = .ok (.input destination) ∧ m.step.machine.ip = m.ip ↔
      ¬ start.Unclaimed (history ++ [.step]) m.ip) ∧
    (start.Unclaimed (history ++ [.step]) m.ip →
      m.step.result = .ok .none ∧ m.step.machine.ip = Word.after m.ip 2) := by
  have hstart := input_of_load hload
  have hat : m.AtInput := ⟨hhalted, by rw [hword]; rfl⟩
  have hmachine : start.after (history ++ [.step]) = m := by
    rw [after_concat]
    exact congrArg Outcome.machine hstep
  have hexchange : ∀ act ∈ history ++ [.step], act.IsExchange :=
    List.forall_mem_append.mpr ⟨hhistory, by simp [Act.IsExchange]⟩
  have hiff := input_eq_supplied_iff hstart hexchange m.ip
  rw [hmachine] at hiff
  -- Control has moved on, so the machine does not wait.
  have hpoised : (start.after history).Poised :=
    poised_after (fun _ _ h => by rw [hstart] at h; cases h) hhistory
  have hmoved : ∀ destination, interrupt ≠ .input destination := by
    rcases harrived with rfl | ⟨code, rfl⟩ <;> exact fun _ => nofun
  have hnotPending := input_ne_pending_of_step hpoised (by rw [hstep]) hmoved
  rw [hstep] at hnotPending
  rw [← hiff]
  -- What is left is a value for this very address, or nothing that matters here.
  by_cases hheld : m.input = .supplied m.ip
  · have hhere := (inputHere_eq_supplied_iff _ _).mpr ⟨hheld, rfl⟩
    have hcomplete := step_of_supplied hat hhere
    rw [hcomplete]
    exact ⟨⟨fun h => (nomatch h.1), fun h => absurd hheld h⟩, fun _ => ⟨rfl, rfl⟩⟩
  · have hidle : m.inputHere = .idle := by
      cases hhere : m.inputHere with
      | idle => rfl
      | pending address awaited =>
          exact absurd ((inputHere_eq_pending_iff _ _ _).mp hhere).1 (hnotPending address awaited)
      | supplied address =>
          rcases (inputHere_eq_supplied_iff _ _).mp hhere with ⟨hinput, rfl⟩
          exact absurd hinput hheld
    have hsuspend := step_of_idle hat hidle ((operand_eq_ok_iff _ _ _).mpr hoperand)
    rw [hsuspend]
    exact ⟨⟨fun _ => hheld, fun _ => ⟨rfl, rfl⟩⟩, fun h => absurd h hheld⟩

/-! ### A value that outlives its instruction -/

/-- A program whose input instruction asks for a value to store over its own opcode. What
    comes after it restores the opcode and jumps back. -/
def restoring : List Word := [6, 16] ++ List.replicate 14 0 ++ [20, 16, 16, 20, 6, 16]

/-- A history of that program up to the jump back. The answer makes the input
    instruction one that does nothing. -/
def answering : List Act :=
  [.step, .step, .resolve ⟨.literal 16, nofun⟩ 21, .step, .step]

/-- The states of the program, by what changes in them. -/
def restoringAt (ip : Word) (memory : Memory) (input : Input) : Machine :=
  { loaded memory restoring with ip := ip, input := input }

section Restoring

variable {memory : Memory}

/-- The program jumps to the input instruction, which suspends. -/
theorem restoring_suspends
    (hread : ∀ address, memory.read address = restoring.getD (Word.cell address).val 0) :
    (restoringAt 0 memory .idle).step = ⟨.ok .none, restoringAt 16 memory .idle⟩ ∧
    (restoringAt 16 memory .idle).step = ⟨.ok (.input (.literal 16)),
      restoringAt 16 memory (.pending 16 (.literal 16))⟩ := by
  have hjump : Opcode.ofWord? (memory.read 0) = some .jmp ∧
      Operand.ofWord? (memory.read 1) = some (.literal 16) := by
    simp only [hread]
    decide
  have hinput : Opcode.ofWord? (memory.read 16) = some .inp ∧
      Operand.ofWord? (memory.read 17) = some (.literal 16) := by
    simp only [hread]
    decide
  have htarget : (restoringAt 0 memory .idle).value 0 = .ok 16 := value_of_literal hjump.2
  refine ⟨?_, ?_⟩
  · exact step_jmp (m := restoringAt 0 _ _) rfl hjump.1 htarget
  · exact step_of_idle (m := restoringAt 16 _ _) ⟨rfl, hinput.1⟩ rfl
      ((operand_eq_ok_iff _ _ _).mpr hinput.2)

/-- The answer is stored over the opcode. -/
theorem restoring_answered :
    (restoringAt 16 memory (.pending 16 (.literal 16))).resolve (.literal 16) 21 =
      ⟨.ok (), restoringAt 16 (memory.write 16 21) (.supplied 16)⟩ := by
  rfl

/-- The opcode is passed over, restored, and jumped to, with the value still there. -/
theorem restoring_returns
    (hread : ∀ address, memory.read address = restoring.getD (Word.cell address).val 0) :
    (restoringAt 16 (memory.write 16 21) (.supplied 16)).step =
      ⟨.ok .none, restoringAt 17 (memory.write 16 21) (.supplied 16)⟩ ∧
    (restoringAt 17 (memory.write 16 21) (.supplied 16)).step =
      ⟨.ok .none, restoringAt 20 ((memory.write 16 21).write 16 20) (.supplied 16)⟩ ∧
    (restoringAt 20 ((memory.write 16 21).write 16 20) (.supplied 16)).step =
      ⟨.ok .none, restoringAt 16 ((memory.write 16 21).write 16 20) (.supplied 16)⟩ := by
  have hnop : Opcode.ofWord? ((memory.write 16 21).read 16) = some .nop := by
    rw [Memory.read_write, if_pos rfl]
    rfl
  have hwrite : Opcode.ofWord? ((memory.write 16 21).read 17) = some .wmem ∧
      Operand.ofWord? ((memory.write 16 21).read 18) = some (.literal 16) ∧
      Operand.ofWord? ((memory.write 16 21).read 19) = some (.literal 20) := by
    simp only [Memory.read_write, hread]
    decide
  have hjump : Opcode.ofWord? (((memory.write 16 21).write 16 20).read 20) = some .jmp ∧
      Operand.ofWord? (((memory.write 16 21).write 16 20).read 21) = some (.literal 16) := by
    simp only [Memory.read_write, hread]
    decide
  have haddress : (restoringAt 17 (memory.write 16 21) (.supplied 16)).value 0 = .ok 16 :=
    value_of_literal hwrite.2.1
  have hvalue : (restoringAt 17 (memory.write 16 21) (.supplied 16)).value 1 = .ok 20 :=
    value_of_literal hwrite.2.2
  have htarget : (restoringAt 20 ((memory.write 16 21).write 16 20) (.supplied 16)).value 0 =
      .ok 16 := value_of_literal hjump.2
  refine ⟨?_, ?_, ?_⟩
  · exact step_nop (m := restoringAt 16 _ _) rfl hnop
  · exact step_wmem (m := restoringAt 17 _ _) rfl hwrite.1 haddress hvalue
  · exact step_jmp (m := restoringAt 20 _ _) rfl hjump.1 htarget

/-- After the history the program is about to jump back. -/
theorem after_answering
    (hread : ∀ address, memory.read address = restoring.getD (Word.cell address).val 0) :
    (loaded memory restoring).after answering =
      restoringAt 20 ((memory.write 16 21).write 16 20) (.supplied 16) := by
  rcases restoring_suspends hread with ⟨hjump, hsuspend⟩
  rcases restoring_returns hread with ⟨hnop, hrestore, _⟩
  have hstart : loaded memory restoring = restoringAt 0 memory .idle := rfl
  simp only [after, answering, Act.perform, Act.outcome, Outcome.map, hstart, hjump, hsuspend,
    restoring_answered, hnop, hrestore]

end Restoring

/-- The history of the program: control is back at the input instruction, and the value
    supplied for it before is held. -/
theorem exists_restored :
    ∃ start m, empty.load restoring = ⟨.ok (), start⟩ ∧
      (start.after answering).step = ⟨.ok .none, m⟩ ∧ m.halted = false ∧ m.ip = 16 ∧
      m.memory.read m.ip = 20 ∧
      Operand.ofWord? (m.memory.read (Word.after m.ip 1)) = some (.literal 16) ∧
      m.input = .supplied m.ip := by
  have hread := Memory.read_image restoring
  have hstep := (congrArg step (after_answering hread)).trans (restoring_returns hread).2.2
  refine ⟨loaded (Memory.image restoring) restoring, _, ?_, hstep, rfl, rfl, ?_, ?_, rfl⟩
  · rw [load_eq, Memory.load, if_pos (by decide)]
  · change (((Memory.image restoring).write 16 21).write 16 20).read 16 = 20
    rw [Memory.read_write, if_pos rfl]
  · change Operand.ofWord? ((((Memory.image restoring).write 16 21).write 16 20).read 17) = _
    simp only [Memory.read_write, hread]
    decide

theorem isExchange_of_mem_answering : ∀ act ∈ answering, act.IsExchange := by
  simp [answering, Act.IsExchange]

/-- On that run the theorem says that the value is unclaimed and the instruction
    completes. -/
theorem completes_after_restoring :
    ∃ start m, empty.load restoring = ⟨.ok (), start⟩ ∧
      (start.after answering).step = ⟨.ok .none, m⟩ ∧
      start.Unclaimed (answering ++ [.step]) m.ip ∧
      m.step.result = .ok .none ∧ m.step.machine.ip = Word.after m.ip 2 := by
  rcases exists_restored with ⟨start, m, hload, hstep, hhalted, _, hword, hoperand, hinput⟩
  have hmachine : start.after (answering ++ [.step]) = m := by
    rw [after_concat]
    exact congrArg Outcome.machine hstep
  have hunclaimed : start.Unclaimed (answering ++ [.step]) m.ip := by
    refine unclaimed_of_input (input_of_load hload) ?_ (by rw [hmachine, hinput])
    exact List.forall_mem_append.mpr ⟨isExchange_of_mem_answering, by simp [Act.IsExchange]⟩
  exact ⟨start, m, hload, hstep, hunclaimed,
    (suspends_iff hload isExchange_of_mem_answering hstep (Or.inl rfl) hhalted hword hoperand).2
      hunclaimed⟩

/-- Not every input instruction suspends when control arrives at it: here it is the
    next instruction after a step that reported nothing, its operand is good, and it
    does not ask for a value. The host has only answered what it was asked, for a
    destination that a word encodes. -/
theorem not_suspends_after_restoring :
    ∃ start m, empty.load restoring = ⟨.ok (), start⟩ ∧ (∀ act ∈ answering, act.IsExchange) ∧
      (∀ destination value, .resolve destination value ∈ answering →
        ∃ w, Operand.ofWord? w = some destination.val) ∧
      (start.after answering).step = ⟨.ok .none, m⟩ ∧ m.halted = false ∧
      m.memory.read m.ip = 20 ∧
      Operand.ofWord? (m.memory.read (Word.after m.ip 1)) = some (.literal 16) ∧
      m.step.result = .ok .none ∧ m.step.machine.ip = 18 := by
  rcases exists_restored with ⟨start, m, hload, hstep, hhalted, hip, hword, hoperand, hinput⟩
  have hcomplete := step_of_supplied ⟨hhalted, by rw [hword]; rfl⟩
    ((inputHere_eq_supplied_iff m m.ip).mpr ⟨hinput, rfl⟩)
  refine ⟨start, m, hload, isExchange_of_mem_answering, ?_, hstep, hhalted, hword, hoperand, ?_, ?_⟩
  · intro destination value hmem
    simp only [answering, List.mem_cons, reduceCtorEq, List.not_mem_nil, false_or,
      or_false] at hmem
    cases hmem
    exact ⟨16, rfl⟩
  · rw [hcomplete]
  · rw [hcomplete]
    change Word.after m.ip 2 = 18
    rw [hip]
    rfl

end Machine

end WordMachine
