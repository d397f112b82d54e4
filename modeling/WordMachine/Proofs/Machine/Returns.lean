import WordMachine.Proofs.Machine.History
import WordMachine.Proofs.Value

/-!
# Calls and Returns

A return goes back to the call it belongs to.

`CALL` and `RET` share one stack with `PUSH` and `POP`, and nothing marks which of its
entries are return addresses. What a return takes is whatever lies on top. So a call and
its return belong together only by the depth of the stack: as long as the stack stays
deeper than it was at the call, the return address and everything below it are out of
reach, whatever code is executed in between, and the return that brings the depth back to
that of the call finds the return address on top.

The argument is about the bottom of the stack only. A step moves the stack by one entry at
its top, so it cannot change anything below an entry that is still there afterwards
(`Machine.suffix_step`); the host's acts do not touch the stack at all, apart from those
that load a program or edit an entry (`Act.stack_perform`). What happens to registers and
memory does not matter, which is why self-modifying code is no exception.

Stacks are written with their top first, so the bottom of a stack is a suffix of it.

## Main definitions

* `Act.LeavesStack`, `Call.LeavesStack`: What a host does without touching the stack
  itself.

## Theorems

* `Machine.stack_step`: A step moves the stack by at most one entry.
* `Machine.suffix_step`: A step that leaves the stack deep enough leaves its bottom.
* `Act.stack_perform`: The other acts leave the stack.
* `Machine.suffix_after`: The bottom of the stack along a list of acts.
* `Machine.step_call`, `Machine.step_ret`: The steps of a call and of a return.
* `Machine.returns_to_call`: A call and its return, in every history.
-/

namespace WordMachine

/-! ### What leaves the stack alone -/

/-- An act that does not touch the stack itself: it loads no program and edits no entry.
    A step is one of them, since what it does is up to the program. -/
def Act.LeavesStack : Act → Prop
  | .load _ | .loadBytes _ | .setStack _ _ => False
  | _ => True

/-- A call whose acts do not touch the stack themselves. -/
def Call.LeavesStack : Call → Prop
  | .single act => act.LeavesStack
  | .run _ => True

theorem Effect.stack_apply (e : Effect) (m : Machine) :
    (e.apply m).stack = e.stack.apply m.stack := by
  unfold apply
  split
  · rename_i destination value _
    simp only [m.stack_store]
  · rfl

/-- An act other than a step leaves the stack as it is, unless it is about the stack. -/
theorem Act.stack_perform {act : Act} (h : act.LeavesStack) (hstep : act ≠ .step) (m : Machine) :
    (act.perform m).stack = m.stack := by
  -- An edit leaves what it is not about, whether it is made or refused.
  have hedit : ∀ (checks : Except Fault Unit) (change : Machine → Machine),
      (change m).stack = m.stack → (m.edit checks change).machine.stack = m.stack := by
    intro checks change hchange
    rcases m.machine_edit checks change with hsame | ⟨_, hmade⟩
    · rw [hsame]
    · rw [hmade, hchange]
  cases act with
  | step => exact absurd rfl hstep
  | load | loadBytes | setStack => exact h.elim
  | setRegister | setIp | setCell =>
      simp only [perform, outcome, Machine.setRegister_eq, Machine.setIp_eq, Machine.setCell_eq]
      exact hedit _ _ rfl
  | resolve destination value =>
      change (m.resolve destination.val value).machine.stack = m.stack
      rcases m.resolve_cases destination.val value with ⟨fault, hrefused⟩ | ⟨_, haccepted⟩
      · rw [hrefused]
      · rw [haccepted]
        exact m.stack_store destination.val value

theorem Act.perform_step (m : Machine) : Act.perform m .step = m.step.machine := rfl

namespace Machine

/-! ### The bottom of the stack -/

/-- A step moves the stack by at most one entry. -/
theorem stack_step (m : Machine) :
    ∃ move : StackMove, m.step.machine.stack = move.apply m.stack := by
  rcases m.machine_step with hsame | ⟨e, _, hmachine⟩
  · exact ⟨.keep, by rw [hsame]; rfl⟩
  · exact ⟨e.stack, by rw [hmachine, e.stack_apply]⟩

/-- A step after which the stack is still as deep as some bottom of it has left that
    bottom. -/
theorem suffix_step {m : Machine} {bottom : List Word} (h : bottom <:+ m.stack)
    (hdeep : bottom.length ≤ m.step.machine.stack.length) :
    bottom <:+ m.step.machine.stack := by
  rcases m.stack_step with ⟨move, hmove⟩
  rw [hmove] at hdeep ⊢
  cases move with
  | keep => exact h
  | push value => exact h.trans (List.suffix_cons value m.stack)
  | drop =>
      -- The entry that is dropped lies above the bottom, or the stack got too shallow.
      unfold StackMove.apply at hdeep ⊢
      cases hstack : m.stack with
      | nil =>
          rw [hstack] at h
          exact h
      | cons top rest =>
          rw [hstack] at h hdeep
          simp only [List.tail_cons] at hdeep ⊢
          rcases List.suffix_cons_iff.mp h with hwhole | hbelow
          · rw [hwhole, List.length_cons] at hdeep
            omega
          · exact hbelow

/-- Along acts that do not touch the stack themselves, a bottom of the stack stays as long
    as every step leaves the stack as deep as that. -/
theorem suffix_after {m : Machine} {bottom : List Word} {acts : List Act}
    (h : bottom <:+ m.stack) (hacts : ∀ act ∈ acts, act.LeavesStack)
    (hdeep : ∀ x ∈ m.trace acts, x.act = .step → bottom.length ≤ x.next.stack.length) :
    bottom <:+ (m.after acts).stack := by
  induction acts generalizing m with
  | nil => exact h
  | cons act rest ih =>
      rcases List.forall_mem_cons.mp hacts with ⟨hact, hrest⟩
      rcases List.forall_mem_cons.mp hdeep with ⟨hfirst, hothers⟩
      refine ih ?_ hrest hothers
      by_cases hstep : act = .step
      · rw [hstep, Act.perform_step]
        rw [hstep] at hfirst
        exact suffix_step h (hfirst rfl)
      · rw [Act.stack_perform hact hstep]
        exact h

/-! ### Calls and returns -/

/-- A call pushes the address after it and moves to its operand. -/
theorem step_call {m : Machine} {target : Word} (hhalted : m.halted = false)
    (hop : Opcode.ofWord? (m.memory.read m.ip) = some .call) (htarget : m.value 0 = .ok target) :
    m.step = ⟨.ok .none,
      { m with ip := Word.low target, stack := Word.after m.ip 2 :: m.stack }⟩ := by
  rw [step_of_execute hhalted hop ((bind_eq_ok_iff _ _ _).mpr ⟨target, htarget, rfl⟩)]
  simp only [Effect.apply, StackMove.apply, Option.getD_none, Bool.or_false]
  rfl

/-- A return takes the address on top of the stack and moves there. -/
theorem step_ret {m : Machine} {target : Word} {rest : List Word} (hhalted : m.halted = false)
    (hop : Opcode.ofWord? (m.memory.read m.ip) = some .ret) (hstack : m.stack = target :: rest) :
    m.step = ⟨.ok .none, { m with ip := Word.low target, stack := rest }⟩ := by
  have htop : m.top .ret = .ok target := by
    rw [top_eq_ok_iff, hstack, List.head?_cons]
  rw [step_of_execute hhalted hop ((bind_eq_ok_iff _ _ _).mpr ⟨target, htop, rfl⟩)]
  simp only [Effect.apply, StackMove.apply, Option.getD_none, Bool.or_false, hstack,
    List.tail_cons]

/-- A halted machine takes no step. -/
theorem step_of_halted {m : Machine} (h : m.halted = true) : m.step.machine = m := by
  have heffect : m.effect = .error .machineHalted := by
    rw [effect, if_pos h]
  rw [step_of_error heffect]

/-- A machine whose stack is a return address above the stack of the caller, and whose next
    instruction is a return, goes back to the caller, unless it has halted. -/
theorem step_of_return {m : Machine} {home : Word} {caller : List Word} (hhome : home.IsValue)
    (hret : m.memory.read m.ip = 18) (hstack : m.stack = home :: caller) :
    (m.step.machine.stack.length = caller.length ↔ m.halted = false) ∧
    (m.halted = false → m.step = ⟨.ok .none, { m with ip := home, stack := caller }⟩) := by
  have hop : Opcode.ofWord? (m.memory.read m.ip) = some .ret := by
    rw [hret]
    rfl
  have hreturns : m.halted = false →
      m.step = ⟨.ok .none, { m with ip := home, stack := caller }⟩ := by
    intro hhalted
    rw [step_ret hhalted hop hstack, Word.low_eq_self hhome]
  refine ⟨⟨?_, ?_⟩, hreturns⟩
  · intro hdepth
    by_contra hhalted
    -- The step of a halted machine fails, so the return address is still there.
    rw [step_of_halted (by simpa using hhalted), hstack, List.length_cons] at hdepth
    omega
  · intro hhalted
    rw [hreturns hhalted]

/-- From a call on, in every history of calls that leave the stack to the program, and at
    every point of it up to which each step has left the stack deeper than it was before
    the call, also between the steps of a run: the stack of the caller and the return
    address above it are still there. A return that then brings the depth back to that of
    the caller moves to the address after the call, and leaves the stack of the caller. -/
theorem returns_to_call {s : Machine} {operand : Operand} (hhalted : s.halted = false)
    (hcall : s.memory.read s.ip = 17)
    (hoperand : Operand.ofWord? (s.memory.read (Word.after s.ip 1)) = some operand)
    {calls : List Call} (hcalls : ∀ call ∈ calls, call.LeavesStack) :
    ∃ m home, s.step = ⟨.ok .none, m⟩ ∧ home.toNat = (s.ip.toNat + 2) % memorySize ∧
      m.stack = home :: s.stack ∧ m.afterCalls calls = m.after (m.actsOf calls) ∧
      ∀ acts, acts <+: m.actsOf calls →
        (∀ x ∈ m.trace acts, x.act = .step → s.stack.length + 1 ≤ x.next.stack.length) →
        home :: s.stack <:+ (m.after acts).stack ∧
        ((m.after acts).memory.read (m.after acts).ip = 18 →
          (m.after acts).stack.length = s.stack.length + 1 →
          ((m.after acts).step.machine.stack.length = s.stack.length ↔
            (m.after acts).halted = false) ∧
          ((m.after acts).halted = false → (m.after acts).step =
            ⟨.ok .none, { m.after acts with ip := home, stack := s.stack }⟩)) := by
  have hop : Opcode.ofWord? (s.memory.read s.ip) = some .call := by
    rw [hcall]
    rfl
  have htarget : s.value 0 = .ok (s.valueOf operand) :=
    (value_eq_ok_iff _ _ _).mpr ⟨operand, (operand_eq_ok_iff _ _ _).mpr hoperand, rfl⟩
  refine ⟨_, Word.after s.ip 2, step_call hhalted hop htarget, Word.toNat_after _ _, rfl,
    afterCalls_eq _ _, fun acts hpart hdeep => ?_⟩
  -- The acts are those of the calls, so they leave the stack to the program too.
  have hacts : ∀ act ∈ acts, act.LeavesStack := by
    intro act hact
    rcases mem_actsOf (hpart.subset hact) with hstep | hmem
    · rw [hstep]
      trivial
    · exact hcalls _ hmem
  have hbottom := suffix_after (List.suffix_refl _) hacts hdeep
  refine ⟨hbottom, fun hret hdepth => ?_⟩
  -- At the depth of the call there is nothing above the return address.
  have hstack := (hbottom.eq_of_length (by rw [hdepth, List.length_cons])).symm
  exact step_of_return (Word.isValue_after _ _) hret hstack

/-- A subroutine that calls another one before it returns. -/
def nesting : List Word := [3, 0, 0, 17, 6, 18, 18]

/-- The memory of the program. The call of the subroutine stands at the top, with its operand
    at the bottom. -/
def nestingMemory : Memory := (Memory.image nesting).write 32767 17

/-- The states of the program, by what changes in them. -/
def nestingAt (memory : Memory) (ip : Word) (stack : List Word) : Machine :=
  { empty with memory := memory, ip := ip, stack := stack }

theorem read_nestingMemory (address : Word) :
    nestingMemory.read address = if Word.cell 32767 = Word.cell address then 17
      else nesting.getD (Word.cell address).val 0 := by
  rw [nestingMemory, Memory.read_write, Memory.read_image]

/-- The subroutine returns behind the top of memory, to the address after the operand of its
    call. -/
theorem returns_to_call_nested :
    (nestingAt nestingMemory 32767 [9]).step = ⟨.ok .none, nestingAt nestingMemory 3 [1, 9]⟩ ∧
    (nestingAt nestingMemory 3 [1, 9]).afterCalls [.run 1, .single .step] =
      nestingAt nestingMemory 5 [1, 9] ∧
    (nestingAt nestingMemory 5 [1, 9]).step = ⟨.ok .none, nestingAt nestingMemory 1 [9]⟩ := by
  -- All that matters about the memory is what is read from it.
  obtain ⟨memory, hmemory, hread⟩ : ∃ memory, nestingMemory = memory ∧ ∀ address,
      memory.read address = if Word.cell 32767 = Word.cell address then 17
        else nesting.getD (Word.cell address).val 0 := ⟨_, rfl, read_nestingMemory⟩
  rw [hmemory]
  have hwords : memory.read 32767 = 17 ∧
      Operand.ofWord? (memory.read (Word.after 32767 1)) = some (.literal 3) ∧
      Opcode.ofWord? (memory.read 3) = some .call ∧
      Operand.ofWord? (memory.read 4) = some (.literal 6) ∧
      Opcode.ofWord? (memory.read 6) = some .ret ∧ memory.read 5 = 18 := by
    simp only [hread]
    decide
  rcases hwords with ⟨hcall, hsubroutine, hinner, htarget, hback, hret⟩
  have hopcode : Opcode.ofWord? (memory.read 32767) = some .call := by
    rw [hcall]
    rfl
  have hwrap : Word.after 32767 2 = 1 ∧ Word.low 3 = 3 := by decide
  have houter : (nestingAt memory 32767 [9]).step = ⟨.ok .none, nestingAt memory 3 [1, 9]⟩ := by
    rw [step_call (m := nestingAt memory 32767 [9]) rfl hopcode (value_of_literal hsubroutine)]
    simp only [nestingAt, hwrap]
  -- Inside the subroutine, the inner call and the return from it.
  have hdown : (nestingAt memory 3 [1, 9]).step = ⟨.ok .none, nestingAt memory 6 [5, 1, 9]⟩ :=
    step_call (m := nestingAt memory 3 [1, 9]) rfl hinner (value_of_literal htarget)
  have hup : (nestingAt memory 6 [5, 1, 9]).step = ⟨.ok .none, nestingAt memory 5 [1, 9]⟩ :=
    step_ret (m := nestingAt memory 6 [5, 1, 9]) rfl hback rfl
  have hleaves : ∀ call ∈ [Call.run 1, .single .step], call.LeavesStack := by
    simp [Call.LeavesStack, Act.LeavesStack]
  rcases returns_to_call (s := nestingAt memory 32767 [9]) rfl hcall hsubroutine hleaves with
    ⟨m, home, hstep, -, hstack, hafter, hreturn⟩
  have hm : m = nestingAt memory 3 [1, 9] := by
    rw [houter] at hstep
    exact (congrArg Outcome.machine hstep).symm
  subst hm
  have hhome : home = 1 := (List.cons.inj hstack).1.symm
  -- The run takes one step, and so the calls amount to two.
  have hacts : (nestingAt memory 3 [1, 9]).actsOf [.run 1, .single .step] = [.step, .step] := by
    simp [actsOf, Call.acts, runLength]
  have hsteps : (nestingAt memory 3 [1, 9]).after [.step, .step] = nestingAt memory 5 [1, 9] := by
    simp only [after, Act.perform_step, hdown, hup]
  have hdeep : ∀ x ∈ (nestingAt memory 3 [1, 9]).trace [.step, .step], x.act = .step →
      (nestingAt memory 32767 [9]).stack.length + 1 ≤ x.next.stack.length := by
    simp only [trace, Act.perform_step, hdown, List.forall_mem_cons, Moment.next, hup]
    simp [nestingAt]
  rw [hacts] at hafter hreturn
  rw [hsteps] at hafter
  have hlast := (hreturn _ (List.prefix_refl _) hdeep).2
  rw [hsteps, hhome] at hlast
  exact ⟨hstep, hafter, (hlast hret rfl).2 rfl⟩

end Machine

end WordMachine
