import WordMachine.Proofs.Machine.Range
import WordMachine.Proofs.Machine.Returns

/-!
# What a Step Changes

The frame of a step: how little of the machine one instruction can touch.

An instruction writes at most one place, a register or a cell and never both, and it is the
place that its first operand names. It moves the stack by at most one entry at the top.
Only `HALT` halts and only `IN` touches the state of the input. Control goes on behind the
instruction, unless the instruction is a jump that is taken, or one that leaves the machine
where it is.

All of this is said twice. `Effect.Fits` says it of the effect, which is worked out before
anything is touched, and there it is a matter of going through the instructions once.
`Machine.Frame` says it of the machines before and after the step, in terms of what can be
read in them. That the length of the instruction is the one before the write is the point
of working out the effect first: an instruction may overwrite its own opcode.

## Main definitions

* `Machine.Names`: The place that an instruction writes.
* `Machine.JumpsTo`: Where a jump that is taken goes.
* `Machine.Writes`: The registers and cells of a machine after one of them was written.
* `Effect.Fits`: What the effect of an instruction can be.
* `Machine.Frame`: What a step of an instruction can change.

## Theorems

* `Machine.fits_of_execute`: The effect of an instruction fits it.
* `Machine.writes_of_store`: Storing a value writes one place.
* `Machine.frame_of_fits`: What an effect that fits can change.
* `Machine.step_changes_little`: What a step can change.
-/

namespace WordMachine

namespace Machine

/-- The place that an instruction writes is the one that its first operand names: its
    destination or, for `WMEM`, the cell whose address is its value. -/
inductive Names (m : Machine) : Opcode → Operand → Prop
  | destination {op : Opcode} {place : Operand} (hrole : op.roles.head? = some .destination)
      (h : m.operand 0 = .ok place) : Names m op place
  | cell {address : Word} (h : m.value 0 = .ok address) : Names m .wmem (.literal address)

/-- The instruction is a jump that is taken, and this is its target. -/
inductive JumpsTo (m : Machine) : Opcode → Word → Prop
  | jmp {target : Word} (h : m.value 0 = .ok target) : JumpsTo m .jmp target
  | jt {condition target : Word} (hcondition : m.value 0 = .ok condition) (htaken : condition ≠ 0)
      (h : m.value 1 = .ok target) : JumpsTo m .jt target
  | jf {target : Word} (hcondition : m.value 0 = .ok 0) (h : m.value 1 = .ok target) :
      JumpsTo m .jf target
  | call {target : Word} (h : m.value 0 = .ok target) : JumpsTo m .call target
  | ret {target : Word} {rest : List Word} (h : m.stack = target :: rest) : JumpsTo m .ret target

/-- The registers and cells of `m'` are those of `m`, except that one place holds `value`. -/
inductive Writes (m m' : Machine) (value : Word) : Operand → Prop
  | register {index : Nat} (hindex : index < registerCount) (hvalue : m'.register index = value)
      (hothers : ∀ i, i ≠ index → m'.register i = m.register i)
      (hmemory : m'.memory = m.memory) : Writes m m' value (.register index)
  | cell {address : Word} (hvalue : m'.memory.read address = value)
      (hothers : ∀ a, Word.cell a ≠ Word.cell address → m'.memory.read a = m.memory.read a)
      (hregisters : m'.registers = m.registers) : Writes m m' value (.literal address)

end Machine

/-! ### Effects -/

/-- What the effect of an instruction can be. -/
structure Effect.Fits (e : Effect) (m : Machine) (op : Opcode) : Prop where
  write : ∀ place value, e.write = some (place, value) → m.Names op place
  stack : match op with
    | .push | .call => ∃ value, e.stack = .push value
    | .pop | .ret => e.stack = .drop ∧ m.stack ≠ []
    | _ => e.stack = .keep
  halts : e.halts = true ↔ e.interrupt = .halt
  next : (e.next = m.ip ∧ (op = .halt ∨ op = .inp ∧ ∃ d, e.interrupt = .input d)) ∨
    (∃ target, m.JumpsTo op target ∧ e.next = Word.low target) ∨
    (e.next = Word.after m.ip op.size ∧ op ≠ .halt ∧ (∀ d, e.interrupt ≠ .input d) ∧
      ∀ target, ¬ m.JumpsTo op target)

namespace Machine

/-- An instruction that writes its destination and goes on. -/
theorem fits_write {m : Machine} {op : Opcode} {destination : Operand}
    (hop : op ∈ [.set, .eq, .gt, .add, .mul, .mod, .and, .or, .not, .rmem])
    (hdestination : m.operand 0 = .ok destination) (value : Word) :
    Effect.Fits { next := Word.after m.ip op.size, write := some (destination, value) } m op := by
  have hwrite : op.roles.head? = some .destination → ∀ place w,
      some (destination, value) = some (place, w) → m.Names op place := by
    rintro hrole _ _ ⟨⟩
    exact Names.destination hrole hdestination
  simp only [List.mem_cons, List.not_mem_nil, or_false] at hop
  rcases hop with rfl | rfl | rfl | rfl | rfl | rfl | rfl | rfl | rfl | rfl <;>
    exact ⟨hwrite rfl, rfl, by simp, Or.inr (Or.inr ⟨rfl, by simp, by simp, nofun⟩)⟩

/-- A conditional jump goes to its target exactly if it is taken. -/
theorem fits_branch {m : Machine} {op : Opcode} {taken : Word → Bool} {e : Effect}
    (hop : op = .jt ∧ taken = (· != 0) ∨ op = .jf ∧ taken = (· == 0))
    (h : m.branch (Word.after m.ip op.size) taken = .ok e) : e.Fits m op := by
  rcases (branch_eq_ok_iff _ _ _ _).mp h with ⟨condition, target, hcondition, htarget, rfl⟩
  by_cases hzero : condition = 0
  · subst hzero
    rcases hop with ⟨rfl, rfl⟩ | ⟨rfl, rfl⟩
    · refine ⟨nofun, rfl, by simp, Or.inr (Or.inr ⟨by simp, by simp, by simp, ?_⟩)⟩
      rintro _ (⟨⟩ | ⟨hother, hne, _⟩)
      rw [hcondition] at hother
      exact hne (Except.ok.inj hother).symm
    · exact ⟨nofun, rfl, by simp,
        Or.inr (Or.inl ⟨target, JumpsTo.jf hcondition htarget, by simp⟩)⟩
  · rcases hop with ⟨rfl, rfl⟩ | ⟨rfl, rfl⟩
    · exact ⟨nofun, rfl, by simp,
        Or.inr (Or.inl ⟨target, JumpsTo.jt hcondition hzero htarget, by simp [hzero]⟩)⟩
    · refine ⟨nofun, rfl, by simp, Or.inr (Or.inr ⟨by simp [hzero], by simp, by simp, ?_⟩)⟩
      rintro _ (_ | _ | ⟨hother, _⟩)
      rw [hcondition] at hother
      exact hzero (Except.ok.inj hother)

/-- The effect of an instruction fits it. -/
theorem fits_of_execute {m : Machine} {op : Opcode} {e : Effect} (h : m.execute op = .ok e) :
    e.Fits m op := by
  cases op with
  | eq | gt | add | mul | mod | and | or =>
      rcases (binary_eq_ok_iff _ _ _ _).mp h with ⟨_, _, _, r, hdestination, _, _, _, rfl⟩
      exact fits_write (by simp) hdestination r
  | set | not | rmem =>
      rcases (bind_eq_ok_iff _ _ _).mp h with ⟨_, hdestination, h⟩
      rcases (bind_eq_ok_iff _ _ _).mp h with ⟨_, _, hpure⟩
      cases hpure
      exact fits_write (by simp) hdestination _
  | wmem =>
      rcases (bind_eq_ok_iff _ _ _).mp h with ⟨address, haddress, h⟩
      rcases (bind_eq_ok_iff _ _ _).mp h with ⟨value, _, hpure⟩
      cases hpure
      refine ⟨?_, rfl, by simp, Or.inr (Or.inr ⟨rfl, by simp, by simp, nofun⟩)⟩
      rintro _ _ ⟨⟩
      exact Names.cell haddress
  | pop =>
      rcases (bind_eq_ok_iff _ _ _).mp h with ⟨destination, hdestination, h⟩
      rcases (bind_eq_ok_iff _ _ _).mp h with ⟨value, hvalue, hpure⟩
      cases hpure
      have hstack : m.stack ≠ [] := by
        intro hempty
        rw [top_eq_ok_iff, hempty] at hvalue
        cases hvalue
      refine ⟨?_, ⟨rfl, hstack⟩, by simp, Or.inr (Or.inr ⟨rfl, by simp, by simp, nofun⟩)⟩
      rintro _ _ ⟨⟩
      exact Names.destination rfl hdestination
  | push =>
      rcases (bind_eq_ok_iff _ _ _).mp h with ⟨value, _, hpure⟩
      cases hpure
      exact ⟨nofun, ⟨value, rfl⟩, by simp, Or.inr (Or.inr ⟨rfl, by simp, by simp, nofun⟩)⟩
  | out =>
      rcases (bind_eq_ok_iff _ _ _).mp h with ⟨code, _, hpure⟩
      cases hpure
      exact ⟨nofun, rfl, by simp, Or.inr (Or.inr ⟨rfl, by simp, by simp, nofun⟩)⟩
  | jmp =>
      rcases (bind_eq_ok_iff _ _ _).mp h with ⟨target, htarget, hpure⟩
      cases hpure
      exact ⟨nofun, rfl, by simp, Or.inr (Or.inl ⟨target, JumpsTo.jmp htarget, rfl⟩)⟩
  | jt => exact fits_branch (Or.inl ⟨rfl, rfl⟩) h
  | jf => exact fits_branch (Or.inr ⟨rfl, rfl⟩) h
  | call =>
      rcases (bind_eq_ok_iff _ _ _).mp h with ⟨target, htarget, hpure⟩
      cases hpure
      exact ⟨nofun, ⟨_, rfl⟩, by simp, Or.inr (Or.inl ⟨target, JumpsTo.call htarget, rfl⟩)⟩
  | ret =>
      rcases (bind_eq_ok_iff _ _ _).mp h with ⟨target, htarget, hpure⟩
      cases hpure
      rcases List.head?_eq_some_iff.mp ((top_eq_ok_iff _ _ _).mp htarget) with ⟨rest, hstack⟩
      exact ⟨nofun, ⟨rfl, by simp [hstack]⟩, by simp,
        Or.inr (Or.inl ⟨target, JumpsTo.ret hstack, rfl⟩)⟩
  | halt =>
      cases h
      exact ⟨nofun, rfl, by simp, Or.inl ⟨rfl, Or.inl rfl⟩⟩
  | nop =>
      cases h
      exact ⟨nofun, rfl, by simp, Or.inr (Or.inr ⟨rfl, by simp, by simp, nofun⟩)⟩
  | inp =>
      -- It suspends, goes on waiting, or completes.
      rcases (inputEffect_eq_ok_iff _ _ _).mp h with
        ⟨d, _, _, rfl⟩ | ⟨_, d, _, rfl⟩ | ⟨_, _, rfl⟩
      · exact ⟨nofun, rfl, by simp, Or.inl ⟨rfl, Or.inr ⟨rfl, d, rfl⟩⟩⟩
      · exact ⟨nofun, rfl, by simp, Or.inl ⟨rfl, Or.inr ⟨rfl, d, rfl⟩⟩⟩
      · exact ⟨nofun, rfl, by simp, Or.inr (Or.inr ⟨rfl, by simp, by simp, nofun⟩)⟩

/-! ### Machines -/

/-- What a step of an instruction can change. -/
structure Frame (m : Machine) (op : Opcode) (report : Interrupt) (m' : Machine) : Prop where
  wordCount : m'.wordCount = m.wordCount
  write : (m'.registers = m.registers ∧ m'.memory = m.memory) ∨
    ∃ place value, m.Names op place ∧ value.IsValue ∧ m.Writes m' value place
  stack : match op with
    | .push | .call => ∃ value, m'.stack = value :: m.stack
    | .pop | .ret => ∃ value, m.stack = value :: m'.stack
    | _ => m'.stack = m.stack
  halted : m.halted = false ∧ (m'.halted = true ↔ report = .halt)
  input : op ≠ .inp → m'.input = m.input
  ip : (m'.ip = m.ip ∧ (op = .halt ∨ op = .inp ∧ ∃ d, report = .input d)) ∨
    (∃ target, m.JumpsTo op target ∧ m'.ip.toNat = target.toNat % memorySize) ∨
    (m'.ip.toNat = (m.ip.toNat + m.sizeAt m.ip) % memorySize ∧ op ≠ .halt ∧
      (∀ d, report ≠ .input d) ∧ ∀ target, ¬ m.JumpsTo op target)

/-- Storing a value writes one place. -/
theorem writes_of_store {m m' : Machine} {place : Operand} {value : Word} (hplace : place.InRange)
    (hregisters : m'.registers = (m.store place value).registers)
    (hmemory : m'.memory = (m.store place value).memory) : m.Writes m' value place := by
  cases place with
  | register index =>
      have hindex : index < registerCount := hplace
      -- All registers at once: the write is in bounds, since the place is in range.
      have hregister : ∀ i, m'.register i = if index = i then value else m.register i := by
        intro i
        rw [register, hregisters]
        change (m.registers.setIfInBounds index value)[i]?.getD 0 = _
        rw [Vector.getElem?_setIfInBounds]
        by_cases hi : index = i
        · rw [if_pos hi, if_pos (hi ▸ hindex), if_pos hi]
          rfl
        · rw [if_neg hi, if_neg hi]
          rfl
      refine Writes.register hindex ?_ ?_ hmemory
      · rw [hregister, if_pos rfl]
      · intro i hi
        rw [hregister, if_neg (Ne.symm hi)]
  | literal address =>
      have hread : ∀ a, m'.memory.read a =
          if Word.cell address = Word.cell a then value else m.memory.read a := by
        intro a
        rw [hmemory]
        exact m.memory.read_write address a value
      refine Writes.cell ?_ ?_ hregisters
      · rw [hread, if_pos rfl]
      · intro a ha
        rw [hread, if_neg (Ne.symm ha)]

end Machine

namespace Effect

theorem wordCount_apply (e : Effect) (m : Machine) : (e.apply m).wordCount = m.wordCount := by
  unfold apply
  split
  · rename_i destination _ _
    cases destination <;> rfl
  · rfl

theorem halted_apply (e : Effect) (m : Machine) :
    (e.apply m).halted = (m.halted || e.halts) := by
  unfold apply
  split
  · rename_i destination _ _
    cases destination <;> rfl
  · rfl

/-- The registers and cells after an effect that writes nothing, or one place. -/
theorem writes_apply {e : Effect} (h : e.InRange) (m : Machine) :
    (e.write = none ∧ (e.apply m).registers = m.registers ∧ (e.apply m).memory = m.memory) ∨
      ∃ place value, e.write = some (place, value) ∧ m.Writes (e.apply m) value place := by
  cases hwrite : e.write with
  | none =>
      refine Or.inl ⟨rfl, ?_, ?_⟩ <;>
      · unfold apply
        rw [hwrite]
  | some written =>
      rcases written with ⟨place, value⟩
      refine Or.inr ⟨place, value, rfl, Machine.writes_of_store (h.write _ _ hwrite).1 ?_ ?_⟩ <;>
      · unfold apply
        rw [hwrite]

end Effect

namespace Machine

theorem sizeAt_of_opcode {m : Machine} {op : Opcode}
    (h : Opcode.ofWord? (m.memory.read m.ip) = some op) : m.sizeAt m.ip = op.size := by
  simp only [sizeAt, Instruction.sizeAt, h]

/-- What an effect that fits its instruction can change. -/
theorem frame_of_fits {m : Machine} {op : Opcode} {e : Effect} (hhalted : m.halted = false)
    (hop : Opcode.ofWord? (m.memory.read m.ip) = some op) (hrange : e.InRange)
    (hinput : op ≠ .inp → e.input = none) (h : e.Fits m op) :
    m.Frame op e.interrupt (e.apply m) where
  wordCount := e.wordCount_apply m
  write := by
    rcases Effect.writes_apply hrange m with ⟨_, hsame⟩ | ⟨place, value, hwrite, hwrites⟩
    · exact Or.inl hsame
    · exact Or.inr ⟨place, value, h.write _ _ hwrite, (hrange.write _ _ hwrite).2, hwrites⟩
  stack := by
    have hstack := h.stack
    rw [e.stack_apply]
    -- A push or a drop of the effect is one entry more or less.
    have hpush : (∃ value, e.stack = .push value) →
        ∃ value, e.stack.apply m.stack = value :: m.stack := by
      rintro ⟨value, hvalue⟩
      exact ⟨value, by rw [hvalue, StackMove.apply]⟩
    have hdrop : e.stack = .drop ∧ m.stack ≠ [] →
        ∃ value, m.stack = value :: e.stack.apply m.stack := by
      rintro ⟨hvalue, hne⟩
      rw [hvalue, StackMove.apply]
      rcases List.exists_cons_of_ne_nil hne with ⟨value, rest, hcons⟩
      exact ⟨value, by rw [hcons, List.tail_cons]⟩
    have hkeep : e.stack = .keep → e.stack.apply m.stack = m.stack := by
      intro hvalue
      rw [hvalue, StackMove.apply]
    cases op with
    | push | call => exact hpush hstack
    | pop | ret => exact hdrop hstack
    | _ => exact hkeep hstack
  halted := by
    refine ⟨hhalted, ?_⟩
    rw [e.halted_apply, hhalted, Bool.false_or]
    exact h.halts
  input := by
    intro hne
    rw [e.input_apply, hinput hne, Option.getD_none]
  ip := by
    rcases h.next with ⟨hnext, hstays⟩ | ⟨target, hjumps, hnext⟩ | ⟨hnext, hgoes⟩
    · exact Or.inl ⟨hnext, hstays⟩
    · refine Or.inr (Or.inl ⟨target, hjumps, ?_⟩)
      rw [← Word.toNat_low, ← hnext]
      rfl
    · refine Or.inr (Or.inr ⟨?_, hgoes⟩)
      rw [sizeAt_of_opcode hop, ← Word.toNat_after, ← hnext]
      rfl

/-- A step that succeeds writes at most one place, which its first operand names, and a value
    there; moves the stack by at most one entry; halts the machine exactly if it says so;
    touches the input only for an input instruction; and stays, goes on by the length that
    the instruction had before, or jumps to its target. -/
theorem step_changes_little {m m' : Machine} {report : Interrupt} (hvalues : m.HoldsValues)
    (h : m.step = ⟨.ok report, m'⟩) :
    ∃ op : Opcode, m.memory.read m.ip = op.word ∧ m.Frame op report m' := by
  cases he : m.effect with
  | error fault =>
      rw [step_of_error he] at h
      cases h
  | ok e =>
      rw [step_of_ok he] at h
      cases h
      rcases (effect_eq_ok_iff _ _).mp he with ⟨hhalted, op, hop, hexecute⟩
      refine ⟨op, (Opcode.word_of_ofWord? hop).symm, ?_⟩
      exact frame_of_fits hhalted hop (inRange_of_effect hvalues he)
        (fun hne => (input_of_execute hexecute hne).1) (fits_of_execute hexecute)

theorem step_pop {m : Machine} {destination : Operand} {value : Word} {rest : List Word}
    (hhalted : m.halted = false) (hop : Opcode.ofWord? (m.memory.read m.ip) = some .pop)
    (hdestination : m.operand 0 = .ok destination) (hstack : m.stack = value :: rest) :
    m.step = ⟨.ok .none,
      { m.store destination value with ip := Word.after m.ip 2, stack := rest }⟩ := by
  have htop : m.top .pop = .ok value := by
    rw [top_eq_ok_iff, hstack, List.head?_cons]
  have he : m.execute .pop = .ok _ := (bind_eq_ok_iff _ _ _).mpr
    ⟨destination, hdestination, (bind_eq_ok_iff _ _ _).mpr ⟨value, htop, rfl⟩⟩
  rw [step_of_execute hhalted hop he]
  simp only [Effect.apply, StackMove.apply, Option.getD_none, Bool.or_false, stack_store, hstack,
    List.tail_cons]
  rfl

/-- A machine at the top of memory, about to pop an entry over the opcode of the very
    instruction that pops it. -/
def overwriting : Machine :=
  { empty with memory := (Memory.image [32767]).write 32767 3, ip := 32767, stack := [7, 9] }

/-- The same machine after the step. The word in the place of the opcode is now that of a
    longer instruction, but control has gone on by the length of the one that was there. -/
def overwritten : Machine :=
  { overwriting with memory := overwriting.memory.write 32767 7, ip := 1, stack := [9] }

theorem step_changes_little_overwriting :
    overwriting.HoldsValues ∧ overwriting.step = ⟨.ok .none, overwritten⟩ ∧
      overwriting.Frame .pop .none overwritten := by
  have hread : ∀ address, overwriting.memory.read address =
      if Word.cell 32767 = Word.cell address then 3
        else [32767].getD (Word.cell address).val 0 := by
    intro address
    change ((Memory.image [32767]).write 32767 3).read address = _
    rw [Memory.read_write, Memory.read_image]
  have hop : Opcode.ofWord? (overwriting.memory.read overwriting.ip) = some .pop := by
    rw [hread]
    decide
  have hplace : Operand.ofWord? (overwriting.memory.read (Word.after overwriting.ip 1)) =
      some (.literal 32767) := by
    rw [hread]
    decide
  have hvalues : overwriting.HoldsValues := by
    refine ⟨by decide, inRange_empty.registers, ?_⟩
    exact List.forall_mem_cons.mpr ⟨by decide, List.forall_mem_singleton.mpr (by decide)⟩
  have hnext : Word.after overwriting.ip 2 = 1 := by decide
  have hstep : overwriting.step = ⟨.ok .none, overwritten⟩ := by
    rw [step_pop rfl hop ((operand_eq_ok_iff _ _ _).mpr hplace) rfl, hnext]
    rfl
  rcases step_changes_little hvalues hstep with ⟨op, hword, hframe⟩
  have hpop : op = .pop := by
    rw [hword, Opcode.ofWord?_word] at hop
    exact Option.some.inj hop
  exact ⟨hvalues, hstep, hpop ▸ hframe⟩

end Machine

end WordMachine
