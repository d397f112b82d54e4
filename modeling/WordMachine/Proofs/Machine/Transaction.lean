import WordMachine.Proofs.Machine.Exchange
import WordMachine.Proofs.Machine.Frame

/-!
# Input from Beginning to End

Everything that happens from the first question of an input instruction to its completion.

A host may ask a suspended machine to step as often as it likes, and may go on answering
after its answer was accepted. Neither matters. From the first question on the machine
waits, and a step of a waiting machine leaves it as it is; from the accepted answer on it
holds a value, and another answer leaves it as it is. So the whole exchange passes through
three machines only, and `Machine.trace_transaction` lists what each act found.

The one thing a host can do wrong is to have its answer stored over the opcode of the
instruction. Then there is no input instruction left to complete. An answer that is stored
over its operand does no harm, since a machine that holds a value does not look at it again.

## Main definitions

* `Act.answer`: An answer as an act of the host.
* `Machine.transaction`: The acts of a whole exchange.
* `Machine.waiting`, `Machine.answered`, `Machine.completed`: The machine as it waits, holds
  its answer, and has taken it.

## Theorems

* `Machine.trace_of_forall_perform`: Acts that change nothing all find the same machine.
* `Machine.step_waiting`, `Machine.resolve_waiting`, `Machine.resolve_answered`,
  `Machine.step_answered`: The acts of an exchange.
* `Machine.trace_transaction`: What the acts of a whole exchange find.
* `Machine.results_transaction`: What they report.
* `Machine.input_transaction`: The whole exchange, and what it leaves.
-/

namespace WordMachine

/-- An answer as an act of the host. -/
def Act.answer (a : Operand.Place × Word) : Act := .resolve a.1 a.2

/-- What came of an act. -/
def Moment.result (x : Moment) : Except Fault (Option Interrupt) := (x.act.outcome x.machine).result

namespace Machine

/-! ### Acts that change nothing -/

section Unchanged

variable {m : Machine} {acts : List Act} (h : ∀ act ∈ acts, act.perform m = m)

include h

theorem after_of_forall_perform : m.after acts = m := by
  induction acts with
  | nil => rfl
  | cons act rest ih =>
      rw [List.forall_mem_cons] at h
      rw [after, h.1, ih h.2]

/-- Acts that change nothing all find the same machine. -/
theorem trace_of_forall_perform : m.trace acts = acts.map (Moment.mk m) := by
  induction acts with
  | nil => rfl
  | cons act rest ih =>
      rw [List.forall_mem_cons] at h
      rw [trace, h.1, ih h.2, List.map_cons]

end Unchanged

/-! ### The acts of an exchange -/

/-- The acts of a whole exchange: `repeats` steps after the first, an answer, answers that
    come too late, and the step that completes the instruction. -/
def transaction (repeats : Nat) (answer : Operand.Place × Word)
    (late : List (Operand.Place × Word)) : List Act :=
  .step :: (List.replicate repeats .step ++ Act.answer answer :: (late.map Act.answer ++ [.step]))

/-- The machine as it waits for an answer. -/
def waiting (m : Machine) (asked : Operand) : Machine := { m with input := .pending m.ip asked }

/-- The machine as it holds an answer. -/
def answered (m : Machine) (place : Operand) (value : Word) : Machine :=
  { m.store place value with input := .supplied m.ip }

/-- The machine as it has taken an answer. -/
def completed (m : Machine) (place : Operand) (value : Word) : Machine :=
  { m.store place value with ip := Word.after m.ip 2, input := .idle }

section Exchange

variable {m : Machine}

theorem step_waiting (hat : m.AtInput) (asked : Operand) :
    (m.waiting asked).step = ⟨.ok (.input asked), m.waiting asked⟩ :=
  step_of_pending (m := m.waiting asked) hat ((inputHere_eq_pending_iff _ _ _).mpr ⟨rfl, rfl⟩)

/-- A machine that waits accepts every value, for whatever destination. -/
theorem resolve_waiting (m : Machine) (asked place : Operand) {value : Word}
    (hvalue : value.IsValue) :
    (m.waiting asked).resolve place value = ⟨.ok (), m.answered place value⟩ := by
  have hhere : (m.waiting asked).inputHere = .pending m.ip asked :=
    (inputHere_eq_pending_iff _ _ _).mpr ⟨rfl, rfl⟩
  have hcheck : check .inputValue value.toNat memorySize = .ok () :=
    (check_eq_ok_iff _ _ _).mpr hvalue
  rw [resolve_eq, hhere]
  simp only [edit, hcheck]
  cases place <;> rfl

theorem inputHere_answered (m : Machine) (place : Operand) (value : Word) :
    (m.answered place value).inputHere = .supplied m.ip := by
  have hip : m.ip = (m.answered place value).ip := by
    cases place <;> rfl
  exact (inputHere_eq_supplied_iff _ _).mpr ⟨rfl, hip⟩

/-- A machine that holds its answer refuses another. -/
theorem resolve_answered (m : Machine) (place other : Operand) (value word : Word) :
    (m.answered place value).resolve other word =
      ⟨.error .inputNotPending, m.answered place value⟩ := by
  rw [resolve_eq, inputHere_answered]

variable {place : Operand}
  (hplace : ∀ address, place = .literal address → Word.cell address ≠ Word.cell m.ip)

include hplace

/-- An answer that is not stored over the opcode leaves the instruction in its place. -/
theorem atInput_answered (hat : m.AtInput) (value : Word) :
    (m.answered place value).AtInput := by
  cases place with
  | register index => exact hat
  | literal address =>
      refine ⟨hat.1, ?_⟩
      change Opcode.ofWord? ((m.memory.write address value).read m.ip) = some .inp
      rw [Memory.read_write, if_neg (hplace address rfl)]
      exact hat.2

/-- The step after the answer completes the instruction. -/
theorem step_answered (hat : m.AtInput) (value : Word) :
    (m.answered place value).step = ⟨.ok .none, m.completed place value⟩ := by
  rw [step_of_supplied (atInput_answered hplace hat value) (m.inputHere_answered place value)]
  cases place <;> rfl

end Exchange

/-! ### The whole exchange -/

section Transaction

variable {m : Machine} {asked : Operand} {place : Operand.Place} {value : Word}
  (hat : m.AtInput) (hidle : m.inputHere = .idle) (hasked : m.operand 0 = .ok asked)
  (hplace : ∀ address, place.val = .literal address → Word.cell address ≠ Word.cell m.ip)
  (hvalue : value.IsValue) (repeats : Nat) (late : List (Operand.Place × Word))

include hat hidle hasked hplace hvalue

/-- The acts of a whole exchange find the machine as it was, then waiting, then holding its
    answer, and leave it with the answer taken. -/
theorem trace_transaction :
    m.trace (transaction repeats (place, value) late) =
        ⟨m, .step⟩ :: (List.replicate repeats ⟨m.waiting asked, .step⟩ ++
          ⟨m.waiting asked, Act.answer (place, value)⟩ ::
            (late.map (fun a => ⟨m.answered place.val value, Act.answer a⟩) ++
              [⟨m.answered place.val value, .step⟩])) ∧
      m.after (transaction repeats (place, value) late) = m.completed place.val value := by
  have hasks : Act.perform m .step = m.waiting asked :=
    congrArg Outcome.machine (step_of_idle hat hidle hasked)
  have hanswer : Act.perform (m.waiting asked) (.answer (place, value)) =
      m.answered place.val value :=
    congrArg Outcome.machine (m.resolve_waiting asked place.val hvalue)
  have hcompletes : Act.perform (m.answered place.val value) .step =
      m.completed place.val value :=
    congrArg Outcome.machine (step_answered hplace hat value)
  -- Asking again and answering again change nothing.
  have hrepeats : ∀ act ∈ List.replicate repeats Act.step,
      act.perform (m.waiting asked) = m.waiting asked := by
    intro act hact
    rw [List.eq_of_mem_replicate hact]
    exact congrArg Outcome.machine (step_waiting hat asked)
  have hlate : ∀ act ∈ late.map Act.answer,
      act.perform (m.answered place.val value) = m.answered place.val value := by
    intro act hact
    rcases List.mem_map.mp hact with ⟨a, _, rfl⟩
    exact congrArg Outcome.machine (m.resolve_answered place.val a.1.val value a.2)
  constructor
  · rw [transaction, trace, hasks, trace_append, trace_of_forall_perform hrepeats,
      after_of_forall_perform hrepeats, trace, hanswer, trace_append,
      trace_of_forall_perform hlate, after_of_forall_perform hlate, List.map_replicate,
      List.map_map]
    rfl
  · rw [transaction, after, hasks, after_append, after_of_forall_perform hrepeats, after, hanswer,
      after_append, after_of_forall_perform hlate, after, hcompletes, after]

/-- What the acts of a whole exchange report. -/
theorem results_transaction :
    (m.trace (transaction repeats (place, value) late)).map Moment.result =
      List.replicate (repeats + 1) (.ok (some (.input asked))) ++
        .ok none :: (List.replicate late.length (.error .inputNotPending) ++
          [.ok (some .none)]) := by
  have hasks : Moment.result ⟨m, .step⟩ = .ok (some (.input asked)) := by
    rw [Moment.result, Act.outcome, step_of_idle hat hidle hasked]
    rfl
  have hagain : Moment.result ⟨m.waiting asked, .step⟩ = .ok (some (.input asked)) := by
    rw [Moment.result, Act.outcome, step_waiting hat]
    rfl
  have haccepts : Moment.result ⟨m.waiting asked, .answer (place, value)⟩ = .ok none := by
    rw [Moment.result, Act.answer, Act.outcome, m.resolve_waiting asked _ hvalue]
    rfl
  have hrefuses : ∀ a, Moment.result ⟨m.answered place.val value, .answer a⟩ =
      .error .inputNotPending := by
    intro a
    rw [Moment.result, Act.answer, Act.outcome, m.resolve_answered]
    rfl
  have hcompletes : Moment.result ⟨m.answered place.val value, .step⟩ = .ok (some .none) := by
    rw [Moment.result, Act.outcome, step_answered hplace hat]
    rfl
  rw [(trace_transaction hat hidle hasked hplace hvalue repeats late).1]
  simp [hasks, hagain, haccepts, hrefuses, hcompletes, List.replicate_succ, Function.comp_def]

end Transaction

/-- A machine at an input instruction asks as often as it is stepped, and from the second
    question on nothing changes. It then accepts an answer for any destination but the
    opcode itself, refuses all others without changing, and completes: the destination
    holds the answer, control has gone on, and everything else is as it was. -/
theorem input_transaction {m : Machine} {asked : Operand} {place : Operand.Place} {w value : Word}
    (hhalted : m.halted = false) (hip : m.ip.IsValue) (hword : m.memory.read m.ip = 20)
    (hidle : m.inputHere = .idle)
    (hasked : Operand.ofWord? (m.memory.read (Word.after m.ip 1)) = some asked)
    (hdecoded : Operand.ofWord? w = some place.val) (hplace : place.val ≠ .literal m.ip)
    (hvalue : value ≤ Word.maxValue) (repeats : Nat) (late : List (Operand.Place × Word)) :
    m.trace (transaction repeats (place, value) late) =
        ⟨m, .step⟩ :: (List.replicate repeats ⟨m.waiting asked, .step⟩ ++
          ⟨m.waiting asked, Act.answer (place, value)⟩ ::
            (late.map (fun a => ⟨m.answered place.val value, Act.answer a⟩) ++
              [⟨m.answered place.val value, .step⟩])) ∧
      (m.trace (transaction repeats (place, value) late)).map Moment.result =
        List.replicate (repeats + 1) (.ok (some (.input asked))) ++
          .ok none :: (List.replicate late.length (.error .inputNotPending) ++
            [.ok (some .none)]) ∧
      ∃ final, m.after (transaction repeats (place, value) late) = final ∧
        m.Writes final value place.val ∧ final.ip.toNat = (m.ip.toNat + 2) % memorySize ∧
        final.stack = m.stack ∧ final.wordCount = m.wordCount ∧ final.halted = m.halted ∧
        final.input = .idle := by
  have hat : m.AtInput := ⟨hhalted, by rw [hword]; rfl⟩
  have hoperand : m.operand 0 = .ok asked := (operand_eq_ok_iff _ _ _).mpr hasked
  have hrange : place.val.InRange := Operand.inRange_of_ofWord? hdecoded
  have hisValue : value.IsValue := Nat.lt_succ_of_le (UInt16.le_iff_toNat_le.mp hvalue)
  -- The answer does not overwrite the opcode, so the last step still finds an input.
  have hcell : ∀ address, place.val = .literal address → Word.cell address ≠ Word.cell m.ip := by
    intro address haddress
    rw [haddress] at hrange hplace
    exact Word.cell_ne_of_ne hrange hip fun h => hplace (by rw [h])
  rcases trace_transaction hat hidle hoperand hcell hisValue repeats late with ⟨htrace, hafter⟩
  refine ⟨htrace, results_transaction hat hidle hoperand hcell hisValue repeats late, _, hafter,
    writes_of_store hrange rfl rfl, Word.toNat_after _ _, m.stack_store _ _, ?_, ?_, rfl⟩
  · rw [completed]
    cases place.val <;> rfl
  · rw [completed]
    cases place.val <;> rfl

/-- A machine at an input instruction in the last cell, whose operand is in the first. An
    old answer for another instruction is still held. -/
def askingAtTheTop : Machine :=
  { empty with
    memory := (Memory.image [32769]).write 32767 20
    ip := 32767
    input := .supplied 5 }

/-- The answer goes to the cell of the operand itself, after three questions and before two
    answers more. -/
theorem input_transaction_atTheTop :
    ∃ final, askingAtTheTop.after (transaction 2 (⟨.literal 0, nofun⟩, 77)
        [(⟨.literal 0, nofun⟩, 40000), (⟨.literal 9, nofun⟩, 6)]) = final ∧
      (askingAtTheTop.trace (transaction 2 (⟨.literal 0, nofun⟩, 77)
        [(⟨.literal 0, nofun⟩, 40000), (⟨.literal 9, nofun⟩, 6)])).map Moment.result =
        [.ok (some (.input (.register 1))), .ok (some (.input (.register 1))),
          .ok (some (.input (.register 1))), .ok none, .error .inputNotPending,
          .error .inputNotPending, .ok (some .none)] ∧
      askingAtTheTop.Writes final 77 (.literal 0) ∧ final.ip.toNat = 1 ∧ final.input = .idle := by
  have hread : ∀ address, askingAtTheTop.memory.read address =
      if Word.cell 32767 = Word.cell address then 20
        else [32769].getD (Word.cell address).val 0 := by
    intro address
    change ((Memory.image [32769]).write 32767 20).read address = _
    rw [Memory.read_write, Memory.read_image]
  have hword : askingAtTheTop.memory.read askingAtTheTop.ip = 20 := by
    rw [hread]
    decide
  have hasked : Operand.ofWord? (askingAtTheTop.memory.read (Word.after askingAtTheTop.ip 1)) =
      some (.register 1) := by
    rw [hread]
    decide
  have hdecoded : Operand.ofWord? 0 = some (⟨.literal 0, nofun⟩ : Operand.Place).val := rfl
  have hvalue : (77 : Word) ≤ Word.maxValue := by decide
  rcases input_transaction rfl (by decide) hword rfl hasked hdecoded (by decide) hvalue 2
    [(⟨.literal 0, nofun⟩, 40000), (⟨.literal 9, nofun⟩, 6)] with
    ⟨_, hresults, final, hafter, hwrites, hip, _, _, _, hinput⟩
  exact ⟨final, hafter, hresults, hwrites, hip, hinput⟩

end Machine

end WordMachine
