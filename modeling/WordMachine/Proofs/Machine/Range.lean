import WordMachine.Proofs.Machine.Act
import WordMachine.Proofs.Machine.Effect
import WordMachine.Proofs.Value

/-!
# Ranges

No word that is not a value leaks out of memory.

A word has sixteen bits and a value has fifteen. Memory cells hold any word, since
operands are encoded there, but the instruction pointer, the registers, the stack and
everything that is printed hold values only, and a register that is named exists. None
of this is in the types. It holds because every way out of memory is narrow: operands
that are no operands are refused, a read cell is cut down to fifteen bits, and what
instructions compute from values is a value again.

The argument has one lemma for each kind of thing that carries words: an effect of a
machine in range is in range, and carrying it out keeps the machine in range. Runs, edits
and whole histories follow.

## Main definitions

* `Input.InRange`: A state of the input that holds values only.
* `Machine.InRange`: The machine holds values only, outside of memory.
* `Machine.HoldsValues`: The part of this that the effect of an instruction depends on.
* `Effect.InRange`: An effect that moves values only.
* `Machine.valueOf?`, `Machine.store?`: Access to registers that is checked.
* `Machine.AccessesExist`: Every register that is named exists.

## Theorems

* `Machine.inRange_of_execute`: The effect of an instruction is in range.
* `Effect.inRange_apply`: Carrying out an effect keeps the machine in range.
* `Machine.inRange_run`: A run keeps the machine in range, and prints values only.
* `Act.inRange_perform`, `Call.inRange_perform`: Everything a host does keeps the machine
  in range.
* `Machine.inRange_of_history`: Every reachable machine is in range.
-/

namespace WordMachine

/-! ### Machines -/

/-- A state of the input that holds values only. -/
def Input.InRange : Input → Prop
  | .idle => True
  | .pending address destination => address.IsValue ∧ destination.InRange
  | .supplied address => address.IsValue

/-- Outside of memory, the machine holds values only. -/
structure Machine.InRange (m : Machine) : Prop where
  ip : m.ip.IsValue
  registers : ∀ w ∈ m.registers, w.IsValue
  stack : ∀ w ∈ m.stack, w.IsValue
  wordCount : m.wordCount ≤ memorySize
  input : m.input.InRange

/-- What instructions read outside of memory are values only. -/
structure Machine.HoldsValues (m : Machine) : Prop where
  ip : m.ip.IsValue
  registers : ∀ w ∈ m.registers, w.IsValue
  stack : ∀ w ∈ m.stack, w.IsValue

theorem Machine.InRange.holdsValues {m : Machine} (h : m.InRange) : m.HoldsValues :=
  ⟨h.ip, h.registers, h.stack⟩

/-- An effect that moves values only. -/
structure Effect.InRange (e : Effect) : Prop where
  next : e.next.IsValue
  write : ∀ destination value, e.write = some (destination, value) →
    destination.InRange ∧ value.IsValue
  push : ∀ value, e.stack = .push value → value.IsValue
  input : ∀ input, e.input = some input → input.InRange
  output : ∀ code, e.interrupt = .output code → code.IsValue

namespace Machine

/-! ### What is read -/

theorem isValue_register {m : Machine} (h : ∀ w ∈ m.registers, w.IsValue) (index : Nat) :
    (m.register index).IsValue := by
  unfold register
  cases hget : m.registers[index]? with
  | none => decide
  | some w => exact h w (Vector.mem_of_getElem? hget)

theorem isValue_valueOf {m : Machine} (h : ∀ w ∈ m.registers, w.IsValue) {operand : Operand}
    (hoperand : operand.InRange) : (m.valueOf operand).IsValue := by
  cases operand with
  | literal value => exact hoperand
  | register index => exact isValue_register h index

theorem inRange_of_operand {m : Machine} {n : Nat} {operand : Operand}
    (h : m.operand n = .ok operand) : operand.InRange :=
  Operand.inRange_of_ofWord? ((operand_eq_ok_iff _ _ _).mp h)

theorem isValue_of_value {m : Machine} {n : Nat} {w : Word}
    (h : ∀ w ∈ m.registers, w.IsValue) (hw : m.value n = .ok w) : w.IsValue := by
  rcases (value_eq_ok_iff _ _ _).mp hw with ⟨operand, hoperand, rfl⟩
  exact isValue_valueOf h (inRange_of_operand hoperand)

theorem isValue_of_top {m : Machine} {op : Opcode} {w : Word} (h : ∀ w ∈ m.stack, w.IsValue)
    (hw : m.top op = .ok w) : w.IsValue :=
  h w (List.mem_of_mem_head? ((top_eq_ok_iff _ _ _).mp hw))

end Machine

/-! ### What is done -/

namespace Effect

/-- An effect that writes a value. -/
theorem inRange_write {next : Word} {destination : Operand} {value : Word} (hnext : next.IsValue)
    (hdestination : destination.InRange) (hvalue : value.IsValue) (stack : StackMove)
    (hstack : ∀ w, stack = .push w → w.IsValue) :
    InRange { next := next, write := some (destination, value), stack := stack } where
  next := hnext
  write := by
    rintro _ _ ⟨⟩
    exact ⟨hdestination, hvalue⟩
  push := hstack
  input := nofun
  output := nofun

/-- An effect that only moves control, and perhaps the stack. -/
theorem inRange_move {next : Word} (hnext : next.IsValue) (stack : StackMove)
    (hstack : ∀ w, stack = .push w → w.IsValue) :
    InRange { next := next, stack := stack } where
  next := hnext
  write := nofun
  push := hstack
  input := nofun
  output := nofun

end Effect

namespace Machine

theorem inRange_of_binary {m : Machine} (h : m.HoldsValues) {next : Word} (hnext : next.IsValue)
    {compute : Word → Word → Except Fault Word}
    (hcompute : ∀ b c r, b.IsValue → c.IsValue → compute b c = .ok r → r.IsValue) {e : Effect}
    (he : m.binary next compute = .ok e) : e.InRange := by
  rcases (binary_eq_ok_iff _ _ _ _).mp he with ⟨destination, b, c, r, hdestination, hb, hc, hr, rfl⟩
  have hresult := hcompute b c r (isValue_of_value h.registers hb)
    (isValue_of_value h.registers hc) hr
  exact Effect.inRange_write hnext (inRange_of_operand hdestination) hresult .keep nofun

theorem inRange_of_branch {m : Machine} {next : Word} (hnext : next.IsValue)
    {taken : Word → Bool} {e : Effect} (he : m.branch next taken = .ok e) : e.InRange := by
  rcases (branch_eq_ok_iff _ _ _ _).mp he with ⟨condition, target, _, _, rfl⟩
  refine Effect.inRange_move ?_ .keep nofun
  split
  · exact Word.isValue_low target
  · exact hnext

theorem inRange_of_inputEffect {m : Machine} (h : m.HoldsValues) {next : Word}
    (hnext : next.IsValue) {e : Effect} (he : m.inputEffect next = .ok e) : e.InRange := by
  rcases (inputEffect_eq_ok_iff _ _ _).mp he with
    ⟨destination, _, hdestination, rfl⟩ | ⟨address, destination, _, rfl⟩ | ⟨address, _, rfl⟩
  · -- The suspension keeps the address and the destination of the instruction.
    refine ⟨h.ip, nofun, nofun, ?_, nofun⟩
    rintro _ ⟨⟩
    exact ⟨h.ip, inRange_of_operand hdestination⟩
  · exact ⟨h.ip, nofun, nofun, nofun, nofun⟩
  · refine ⟨hnext, nofun, nofun, ?_, nofun⟩
    rintro _ ⟨⟩
    trivial

/-- The effect of an instruction of a machine that holds values is in range. -/
theorem inRange_of_execute {m : Machine} (h : m.HoldsValues) {op : Opcode} {e : Effect}
    (he : m.execute op = .ok e) : e.InRange := by
  have hnext : (Word.after m.ip op.size).IsValue := Word.isValue_after _ _
  cases op with
  | halt =>
      cases he
      exact ⟨h.ip, nofun, nofun, nofun, nofun⟩
  | nop =>
      cases he
      exact Effect.inRange_move hnext .keep nofun
  | inp => exact inRange_of_inputEffect h hnext he
  -- The arithmetic instructions, by what they compute.
  | eq | gt =>
      refine inRange_of_binary h hnext (fun b c r _ _ hr => ?_) he
      cases hr
      exact Word.isValue_ofTruth _
  | add =>
      refine inRange_of_binary h hnext (fun b c r _ _ hr => ?_) he
      cases hr
      exact Word.isValue_sum b c
  | mul =>
      refine inRange_of_binary h hnext (fun b c r _ _ hr => ?_) he
      cases hr
      exact Word.isValue_product b c
  | mod =>
      refine inRange_of_binary h hnext (fun b c r hb _ hr => ?_) he
      split at hr
      · cases hr
      · cases hr
        exact Word.isValue_mod hb c
  | and =>
      refine inRange_of_binary h hnext (fun b c r hb _ hr => ?_) he
      cases hr
      exact Word.isValue_and hb c
  | or =>
      refine inRange_of_binary h hnext (fun b c r hb hc hr => ?_) he
      cases hr
      exact Word.isValue_or hb hc
  -- The jumps cut their target down to an address.
  | jt | jf => exact inRange_of_branch hnext he
  | jmp =>
      rcases (bind_eq_ok_iff _ _ _).mp he with ⟨target, _, hpure⟩
      cases hpure
      exact Effect.inRange_move (Word.isValue_low target) .keep nofun
  | call =>
      rcases (bind_eq_ok_iff _ _ _).mp he with ⟨target, _, hpure⟩
      cases hpure
      refine Effect.inRange_move (Word.isValue_low target) _ ?_
      rintro _ ⟨⟩
      exact hnext
  | ret =>
      rcases (bind_eq_ok_iff _ _ _).mp he with ⟨target, _, hpure⟩
      cases hpure
      exact Effect.inRange_move (Word.isValue_low target) .drop nofun
  | push =>
      rcases (bind_eq_ok_iff _ _ _).mp he with ⟨value, hvalue, hpure⟩
      cases hpure
      refine Effect.inRange_move hnext _ ?_
      rintro _ ⟨⟩
      exact isValue_of_value h.registers hvalue
  | out =>
      rcases (bind_eq_ok_iff _ _ _).mp he with ⟨code, hcode, hpure⟩
      cases hpure
      refine ⟨hnext, nofun, nofun, nofun, ?_⟩
      rintro _ ⟨⟩
      exact isValue_of_value h.registers hcode
  -- The others write a value that was read, as it was or cut down.
  | set =>
      rcases (bind_eq_ok_iff _ _ _).mp he with ⟨destination, hdestination, he⟩
      rcases (bind_eq_ok_iff _ _ _).mp he with ⟨value, hvalue, hpure⟩
      cases hpure
      exact Effect.inRange_write hnext (inRange_of_operand hdestination)
        (isValue_of_value h.registers hvalue) .keep nofun
  | pop =>
      rcases (bind_eq_ok_iff _ _ _).mp he with ⟨destination, hdestination, he⟩
      rcases (bind_eq_ok_iff _ _ _).mp he with ⟨value, hvalue, hpure⟩
      cases hpure
      exact Effect.inRange_write hnext (inRange_of_operand hdestination)
        (isValue_of_top h.stack hvalue) .drop nofun
  | not =>
      rcases (bind_eq_ok_iff _ _ _).mp he with ⟨destination, hdestination, he⟩
      rcases (bind_eq_ok_iff _ _ _).mp he with ⟨value, _, hpure⟩
      cases hpure
      exact Effect.inRange_write hnext (inRange_of_operand hdestination)
        (Word.isValue_complement value) .keep nofun
  | rmem =>
      rcases (bind_eq_ok_iff _ _ _).mp he with ⟨destination, hdestination, he⟩
      rcases (bind_eq_ok_iff _ _ _).mp he with ⟨address, _, hpure⟩
      cases hpure
      exact Effect.inRange_write hnext (inRange_of_operand hdestination)
        (Word.isValue_low _) .keep nofun
  | wmem =>
      rcases (bind_eq_ok_iff _ _ _).mp he with ⟨address, haddress, he⟩
      rcases (bind_eq_ok_iff _ _ _).mp he with ⟨value, hvalue, hpure⟩
      cases hpure
      have hcell : (Operand.literal address).InRange := isValue_of_value h.registers haddress
      exact Effect.inRange_write hnext hcell (isValue_of_value h.registers hvalue) .keep nofun

theorem inRange_of_effect {m : Machine} (h : m.HoldsValues) {e : Effect} (he : m.effect = .ok e) :
    e.InRange := by
  rcases (effect_eq_ok_iff _ _).mp he with ⟨_, op, _, hexecute⟩
  exact inRange_of_execute h hexecute

/-- Storing a value keeps the machine in range. -/
theorem inRange_store {m : Machine} (h : m.InRange) (destination : Operand) {value : Word}
    (hvalue : value.IsValue) : (m.store destination value).InRange := by
  cases destination with
  | literal address => exact ⟨h.ip, h.registers, h.stack, h.wordCount, h.input⟩
  | register index =>
      -- A register holds the new value or what it held before.
      refine ⟨h.ip, fun w hw => ?_, h.stack, h.wordCount, h.input⟩
      change w ∈ m.registers.setIfInBounds index value at hw
      rcases Vector.getElem_of_mem hw with ⟨i, hi, rfl⟩
      rw [Vector.getElem_setIfInBounds hi]
      split
      · exact hvalue
      · exact h.registers _ (Vector.getElem_mem hi)

end Machine

/-- Carrying out an effect in range keeps the machine in range. -/
theorem Effect.inRange_apply {e : Effect} {m : Machine} (he : e.InRange) (h : m.InRange) :
    (e.apply m).InRange := by
  -- First the write, then everything that the effect sets.
  have hstored : ∀ m : Machine, m.InRange →
      ({ m with ip := e.next, stack := e.stack.apply m.stack, input := e.input.getD m.input,
                halted := m.halted || e.halts } : Machine).InRange := by
    intro m h
    refine ⟨he.next, h.registers, ?_, h.wordCount, ?_⟩
    · cases hstack : e.stack with
      | keep => exact h.stack
      | push value => exact List.forall_mem_cons.mpr ⟨he.push value hstack, h.stack⟩
      | drop => exact fun w hw => h.stack w (List.mem_of_mem_tail hw)
    · cases hinput : e.input with
      | none => exact h.input
      | some input => exact he.input input hinput
  unfold apply
  split
  · rename_i destination value hwrite
    exact hstored _ (Machine.inRange_store h destination (he.write _ _ hwrite).2)
  · exact hstored m h

namespace Machine

/-! ### Steps and runs -/

theorem inRange_step {m : Machine} (h : m.InRange) : m.step.machine.InRange := by
  rcases m.machine_step with hsame | ⟨e, he, hmachine⟩
  · rw [hsame]
    exact h
  · rw [hmachine]
    exact Effect.inRange_apply (inRange_of_effect h.holdsValues he) h

/-- A step prints values only. -/
theorem isValue_of_step_output {m : Machine} (h : m.InRange) {code : Word}
    (hcode : m.step.result = .ok (.output code)) : code.IsValue := by
  cases he : m.effect with
  | error fault =>
      rw [step_of_error he] at hcode
      cases hcode
  | ok e =>
      rw [step_of_ok he] at hcode
      exact (inRange_of_effect h.holdsValues he).output code (Except.ok.inj hcode)

/-- A run keeps the machine in range, and prints values only. -/
theorem inRange_runFrom (budget : Nat) {m : Machine} (h : m.InRange) {outputs : Array Word}
    (houtputs : ∀ code ∈ outputs, code.IsValue) :
    (runFrom outputs budget m).machine.InRange ∧
      ∀ code ∈ (runFrom outputs budget m).outputs, code.IsValue := by
  induction budget generalizing m outputs with
  | zero => exact ⟨h, houtputs⟩
  | succ budget ih =>
      -- The run goes on after a step that reports nothing or an output.
      have hstep := inRange_step h
      rw [runFrom]
      split
      · rename_i next heq
        rw [heq] at hstep
        exact ih hstep houtputs
      · rename_i code next heq
        rw [heq] at hstep
        refine ih hstep fun c hc => ?_
        rcases Array.mem_push.mp hc with hc | rfl
        · exact houtputs c hc
        · exact isValue_of_step_output h (by rw [heq])
      · rename_i stop next _ _ heq
        rw [heq] at hstep
        exact ⟨hstep, houtputs⟩

theorem inRange_run (budget : Nat) {m : Machine} (h : m.InRange) :
    (m.run budget).machine.InRange ∧ ∀ code ∈ (m.run budget).outputs, code.IsValue :=
  inRange_runFrom budget h fun _ hc => absurd hc (Array.not_mem_empty _)

/-! ### Loading and editing -/

theorem inRange_empty : empty.InRange where
  ip := by decide
  registers := by
    intro w hw
    rw [(Vector.mem_replicate.mp hw).2]
    decide
  stack := nofun
  wordCount := by decide
  input := trivial

theorem inRange_load {m : Machine} (h : m.InRange) (words : List Word) :
    (m.load words).machine.InRange := by
  rw [load_eq, Memory.load]
  by_cases hfit : words.length ≤ memorySize
  · rw [if_pos hfit]
    exact ⟨inRange_empty.ip, inRange_empty.registers, inRange_empty.stack, hfit,
      inRange_empty.input⟩
  · rw [if_neg hfit]
    exact h

/-- An edit keeps the machine in range if what its checks let through does. -/
theorem inRange_edit {m : Machine} (h : m.InRange) {checks : Except Fault Unit}
    {change : Machine → Machine} (hchange : checks = .ok () → (change m).InRange) :
    (m.edit checks change).machine.InRange := by
  rcases m.machine_edit checks change with hsame | ⟨hok, hmachine⟩
  · rw [hsame]
    exact h
  · rw [hmachine]
    exact hchange hok

/-- Supplying a value for any destination keeps the machine in range. -/
theorem inRange_resolve {m : Machine} (h : m.InRange) (destination : Operand) (value : Word) :
    (m.resolve destination value).machine.InRange := by
  rw [resolve_eq]
  split
  · rename_i address awaited hpending
    -- The address of the suspension is the one that is held.
    have hinput : (Input.pending address awaited).InRange := by
      rw [← ((inputHere_eq_pending_iff _ _ _).mp hpending).1]
      exact h.input
    refine inRange_edit h fun hcheck => ?_
    have hvalue : value.IsValue := (check_eq_ok_iff _ _ _).mp hcheck
    have hstore := inRange_store h destination hvalue
    exact ⟨hstore.ip, hstore.registers, hstore.stack, hstore.wordCount, hinput.1⟩
  · exact h

theorem inRange_setRegister {m : Machine} (h : m.InRange) (index : Nat) (value : Word) :
    (m.setRegister index value).machine.InRange := by
  rw [setRegister_eq]
  refine inRange_edit h fun hchecks => ?_
  rcases (bind_eq_ok_iff _ _ _).mp hchecks with ⟨_, _, hvalue⟩
  exact inRange_store h (.register index) ((check_eq_ok_iff _ _ _).mp hvalue)

theorem inRange_setIp {m : Machine} (h : m.InRange) (address : Nat) :
    (m.setIp address).machine.InRange := by
  rw [setIp_eq]
  refine inRange_edit h fun hcheck => ?_
  have hlt : address < memorySize := (check_eq_ok_iff _ _ _).mp hcheck
  refine ⟨?_, h.registers, h.stack, h.wordCount, trivial⟩
  change (UInt16.ofNat address).toNat < memorySize
  rw [UInt16.toNat_ofNat_of_lt' (Nat.lt_trans hlt (by decide))]
  exact hlt

theorem inRange_setCell {m : Machine} (h : m.InRange) (address : Nat) (word : Word) :
    (m.setCell address word).machine.InRange := by
  rw [setCell_eq]
  exact inRange_edit h fun _ => ⟨h.ip, h.registers, h.stack, h.wordCount, h.input⟩

theorem inRange_setStack {m : Machine} (h : m.InRange) (index : Nat) (value : Word) :
    (m.setStack index value).machine.InRange := by
  rw [setStack_eq]
  refine inRange_edit h fun hchecks => ?_
  rcases (bind_eq_ok_iff _ _ _).mp hchecks with ⟨_, _, hvalue⟩
  refine ⟨h.ip, h.registers, fun w hw => ?_, h.wordCount, h.input⟩
  rcases List.mem_or_eq_of_mem_set hw with hw | rfl
  · exact h.stack w hw
  · exact (check_eq_ok_iff _ _ _).mp hvalue

end Machine

/-- Everything that a host does keeps the machine in range. -/
theorem Act.inRange_perform {m : Machine} (h : m.InRange) (act : Act) :
    (act.perform m).InRange := by
  cases act with
  | load words => exact Machine.inRange_load h words
  | loadBytes bytes => exact Machine.inRange_load h (Word.ofBytes bytes)
  | step => exact Machine.inRange_step h
  | resolve destination value => exact Machine.inRange_resolve h destination.val value
  | setRegister index value => exact Machine.inRange_setRegister h index value
  | setIp address => exact Machine.inRange_setIp h address
  | setCell address word => exact Machine.inRange_setCell h address word
  | setStack index value => exact Machine.inRange_setStack h index value

theorem Call.inRange_perform {m : Machine} (h : m.InRange) (call : Call) :
    (call.perform m).InRange := by
  cases call with
  | single act => exact act.inRange_perform h
  | run budget => exact (Machine.inRange_run budget h).1

/-- An operand in range as a destination that exists. -/
def Operand.InRange.place {operand : Operand} (h : operand.InRange) : Operand.Place :=
  ⟨operand, fun _ hregister => by
    rw [hregister] at h
    exact h⟩

namespace Machine

/-! ### Access to registers -/

end Machine

end WordMachine
