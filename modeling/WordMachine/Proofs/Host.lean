import WordMachine.Host
import WordMachine.Proofs.Machine.Exchange

/-!
# The Embedded Machine Is the Machine

A host that knows only numbers and texts drives the same machine as one that has the types.

Nothing is lost between the two but the types of what is exchanged. Each request is an act
of the machine with its arguments decoded, and the reply tells the outcome of that act:
`Host.Tells` says for each result by which kind, number or text. The one exception is a
destination that is no operand. It names nothing, so there is no act to perform, and the
machine stays as it is.

What needs an argument is the way a destination takes. A step reports the destination it
waits for as a word, the host hands that word back, and it is decoded again. Encoding is
not injective on all operands: the type has registers that do not exist, and a literal of
all sixteen bits has the word of a register. So the destination only comes back because
what a machine asks for is in range, in every state that requests lead to, also where the
wait is left over from an instruction that has been edited since.

## Main definitions

* `Host.Request`, `Host.Request.reply`: What a host can ask, and the reply to it.
* `Host.Request.act?`: The act that a request amounts to.
* `Host.afterRequests`: The machine after some requests.
* `Host.Tells`: What a host is told of the result of an act.

## Theorems

* `Operand.ofWord?_toWord`: Decoding undoes encoding, for operands in range.
* `Host.reply_of_act?`: The reply to a request is the outcome of its act.
* `Host.afterRequests_eq`: Requests leave what their acts leave.
* `Host.tells_of_inRange`: Every act of a machine in range is told.
* `Host.place?_of_asks`: The word that a step reports is that of what is awaited.
* `Host.mirrors_machine`: All requests of a host, on every program.
-/

namespace WordMachine

namespace Operand

/-- The word of an operand in range is decoded to that operand. -/
theorem ofWord?_toWord {operand : Operand} (h : operand.InRange) :
    ofWord? operand.toWord = some operand := by
  cases operand with
  | literal value =>
      have hlt : value < registerBase := UInt16.lt_iff_toNat_lt.mpr h
      rw [toWord, ofWord?, if_pos hlt]
  | register index =>
      have hall : ∀ index < registerCount,
          ofWord? (register index).toWord = some (.register index) := by decide
      exact hall index h

/-- The destination that a word encodes. -/
def place? (w : Word) : Option Place :=
  match h : ofWord? w with
  | some _ => some (inRange_of_ofWord? h).place
  | none => none

theorem ofWord?_of_place? {w : Word} {place : Place} (h : place? w = some place) :
    ofWord? w = some place.val := by
  unfold place? at h
  split at h
  · cases h
    assumption
  · cases h

theorem place?_eq_none_iff (w : Word) : place? w = none ↔ ofWord? w = none := by
  unfold place?
  split
  · simp_all
  · simp_all

end Operand

namespace Host

/-! ### Requests -/

/-- What a host can ask of the embedded machine. -/
inductive Request
  | step
  | resolve (destination value : Word)
  | setRegister (index : Nat) (value : Word)
  | setIp (address : Nat)
  | setCell (address : Nat) (word : Word)
  | setStack (index : Nat) (value : Word)

/-- The reply with its result changed. -/
def Reply.map {α β : Type} (f : α → β) (reply : Reply α) : Reply β :=
  ⟨reply.result.map f, reply.machine⟩

/-- The reply to a request. Only a step has something to report. -/
def Request.reply (m : Machine) : Request → Reply (Option StepReport)
  | .step => (Host.step m).map some
  | .resolve destination value => (Host.resolve m destination value).map fun _ => none
  | .setRegister index value => (Host.setRegister m index value).map fun _ => none
  | .setIp address => (Host.setIp m address).map fun _ => none
  | .setCell address word => (Host.setCell m address word).map fun _ => none
  | .setStack index value => (Host.setStack m index value).map fun _ => none

/-- The machine after some requests. -/
def afterRequests (m : Machine) : List Request → Machine
  | [] => m
  | request :: rest => afterRequests (request.reply m).machine rest

/-- The act that a request amounts to. A destination that is no operand leaves none. -/
def Request.act? : Request → Option Act
  | .step => some .step
  | .resolve destination value =>
    (Operand.place? destination).map fun place => .resolve place value
  | .setRegister index value => some (.setRegister index value)
  | .setIp address => some (.setIp address)
  | .setCell address word => some (.setCell address word)
  | .setStack index value => some (.setStack index value)

/-! ### Replies -/

/-- Changing a result before or after it is encoded makes no difference. -/
theorem Reply.map_ofOutcome {α β γ δ : Type} {encode : α → β} {f : β → γ} {g : α → δ}
    {encode' : δ → γ} (h : ∀ a, f (encode a) = encode' (g a)) (outcome : Outcome α) :
    (Reply.ofOutcome encode outcome).map f = .ofOutcome encode' (outcome.map g) := by
  rcases outcome with ⟨result, m⟩
  cases result with
  | error fault => rfl
  | ok a => simp only [ofOutcome, map, Outcome.map, Except.map, Except.mapError, h]

/-- The reply to a request is the outcome of its act, with an interrupt as a report and a
    fault as its text. -/
theorem reply_of_act? {request : Request} {act : Act} (h : request.act? = some act)
    (m : Machine) :
    request.reply m = .ofOutcome (Option.map StepReport.ofInterrupt) (act.outcome m) := by
  cases request with
  | resolve destination value =>
      rcases Option.map_eq_some_iff.mp h with ⟨place, hplace, rfl⟩
      simp only [Request.reply, Host.resolve, Operand.ofWord?_of_place? hplace]
      refine Reply.map_ofOutcome ?_ _
      exact fun _ => rfl
  | step | setRegister | setIp | setCell | setStack =>
      cases h
      refine Reply.map_ofOutcome ?_ _
      exact fun _ => rfl

/-- A request that amounts to no act names a destination that is no operand. It is refused,
    and the machine stays as it is. -/
theorem reply_of_no_act {request : Request} (h : request.act? = none) (m : Machine) :
    ∃ destination value, request = .resolve destination value ∧
      Operand.ofWord? destination = none ∧
      request.reply m = ⟨.error (notAnOperand destination), m⟩ := by
  cases request with
  | resolve destination value =>
      have hword := (Operand.place?_eq_none_iff destination).mp (Option.map_eq_none_iff.mp h)
      refine ⟨destination, value, rfl, hword, ?_⟩
      simp only [Request.reply, Host.resolve, hword]
      rfl
  | step | setRegister | setIp | setCell | setStack => cases h

/-- Requests leave what their acts leave. -/
theorem afterRequests_eq (m : Machine) (requests : List Request) :
    afterRequests m requests = m.after (requests.filterMap Request.act?) := by
  induction requests generalizing m with
  | nil => rfl
  | cons request rest ih =>
      rw [afterRequests, ih]
      cases hact : request.act? with
      | none =>
          rcases reply_of_no_act hact m with ⟨_, _, _, _, hreply⟩
          rw [hreply, List.filterMap_cons_none hact]
      | some act =>
          rw [reply_of_act? hact, List.filterMap_cons_some hact]
          rfl

/-! ### What a host is told -/

/-- What a host is told of the result of an act. A step is told by the kind of its report
    and one number, which is zero for kinds that have none. The destination of a question
    is told by a word that encodes it, and a fault by its text. -/
inductive Tells : Except Fault (Option Interrupt) → Except String (Option StepReport) → Prop
  | done : Tells (.ok none) (.ok none)
  | quiet : Tells (.ok (some .none)) (.ok (some ⟨.none, 0⟩))
  | halt : Tells (.ok (some .halt)) (.ok (some ⟨.halt, 0⟩))
  | output (code : Word) : Tells (.ok (some (.output code))) (.ok (some ⟨.output, code⟩))
  | input {destination : Operand} {w : Word} (encoded : Operand.ofWord? w = some destination) :
      Tells (.ok (some (.input destination))) (.ok (some ⟨.input, w⟩))
  | fault (fault : Fault) : Tells (.error fault) (.error fault.message)

/-- Every act of a machine in range is told, since what a step can ask for has a word. -/
theorem tells_of_inRange {m : Machine} (hm : m.InRange) (act : Act) :
    Tells (act.outcome m).result
      (Reply.ofOutcome (Option.map StepReport.ofInterrupt) (act.outcome m)).result := by
  -- Only a step can ask, and what it asks for was decoded from the memory.
  have hasked : ∀ destination, (act.outcome m).result = .ok (some (.input destination)) →
      destination.InRange := by
    intro destination h
    cases act with
    | step =>
        rcases (map_eq_ok_iff _ _ _).mp h with ⟨interrupt, hinterrupt, heq⟩
        cases heq
        exact Machine.inRange_of_asks hm hinterrupt
    | load | loadBytes | resolve | setRegister | setIp | setCell | setStack =>
        rcases (map_eq_ok_iff _ _ _).mp h with ⟨_, _, heq⟩
        cases heq
  rcases houtcome : act.outcome m with ⟨result, next⟩
  rw [houtcome] at hasked
  cases result with
  | error fault => exact .fault fault
  | ok report =>
      cases report with
      | none => exact .done
      | some interrupt =>
          cases interrupt with
          | none => exact .quiet
          | halt => exact .halt
          | output code => exact .output code
          | input destination =>
              exact .input (Operand.ofWord?_toWord (hasked destination rfl))

/-! ### Destinations -/

/-- A step whose report is a question asks for what the word in the report encodes. -/
theorem place?_of_asks {m : Machine} (hm : m.InRange) {w : Word}
    (h : (step m).result = .ok ⟨.input, w⟩) :
    ∃ place : Operand.Place, m.step.result = .ok (.input place.val) ∧
      Operand.ofWord? w = some place.val := by
  rcases (map_eq_ok_iff _ _ _).mp ((mapError_eq_ok_iff _ _ _).mp h) with
    ⟨interrupt, hinterrupt, hreport⟩
  cases interrupt with
  | none | halt | output => cases hreport
  | input destination =>
      cases hreport
      have hrange := Machine.inRange_of_asks hm hinterrupt
      exact ⟨hrange.place, hinterrupt, Operand.ofWord?_toWord hrange⟩

/-- A word that encodes a destination stands for it. -/
theorem resolve_of_ofWord? {w : Word} {destination : Operand}
    (h : Operand.ofWord? w = some destination) (m : Machine) (value : Word) :
    resolve m w value = .ofOutcome id (m.resolve destination value) := by
  unfold resolve
  rw [h]

theorem result_ofOutcome_id {α : Type} (outcome : Outcome α) :
    (Reply.ofOutcome id outcome).result = outcome.result.mapError Fault.message := by
  rcases outcome with ⟨result, m⟩
  cases result <;> rfl

/-! ### All requests -/

/-- A program is loaded as the machine loads it, or refused with the text of the fault. After
    all requests to a machine that was loaded, it is in the state that the acts they amount
    to leave the machine in. There, every request leaves what its act leaves and tells what
    came of it, an answer for what is no operand is refused and changes nothing, and the word
    with which a step asks encodes what the machine asks for: it stands for that destination
    whenever it is handed back, and handed back at once with a value, that destination is
    written. -/
theorem mirrors_machine (bytes : List UInt8) :
    create bytes = (Machine.ofBytes bytes).mapError Fault.message ∧
    [StepKind.none, .halt, .output, .input].map StepKind.code = [0, 1, 2, 3] ∧
    ∀ m, create bytes = .ok m → ∀ requests : List Request, ∃ n,
      afterRequests m requests = n ∧ m.after (requests.filterMap Request.act?) = n ∧
      (∀ (request : Request) (act : Act), request.act? = some act →
        (request.reply n).machine = act.perform n ∧
        Tells (act.outcome n).result (request.reply n).result) ∧
      (∀ destination value, Operand.ofWord? destination = none →
        Request.act? (.resolve destination value) = none ∧
        Request.reply n (.resolve destination value) =
          ⟨.error (notAnOperand destination), n⟩) ∧
      ∀ w, (step n).result = .ok ⟨.input, w⟩ →
        ∃ place : Operand.Place, n.step.result = .ok (.input place.val) ∧
          Operand.ofWord? w = some place.val ∧
          (∀ (other : Machine) (value : Word),
            (resolve other w value).machine = (other.resolve place.val value).machine ∧
            (resolve other w value).result =
              (other.resolve place.val value).result.mapError Fault.message) ∧
          ∀ value : Word, value.IsValue → resolve (step n).machine w value =
            ⟨.ok (), { n.store place.val value with input := .supplied n.ip }⟩ := by
  refine ⟨rfl, rfl, fun m hcreate requests => ⟨_, rfl, (afterRequests_eq m requests).symm, ?_⟩⟩
  -- The state is one that acts lead to from a program, so it holds values only.
  have hrange : (afterRequests m requests).InRange := by
    rw [afterRequests_eq]
    exact Machine.inRange_after
      (Machine.inRange_of_ofWords ((mapError_eq_ok_iff _ _ _).mp hcreate)) _
  refine ⟨?_, ?_, ?_⟩
  · intro request act hact
    rw [reply_of_act? hact]
    exact ⟨rfl, tells_of_inRange hrange act⟩
  · intro destination value hword
    have hact : Request.act? (.resolve destination value) = none :=
      Option.map_eq_none_iff.mpr ((Operand.place?_eq_none_iff destination).mpr hword)
    rcases reply_of_no_act hact (afterRequests m requests) with ⟨_, _, heq, _, hreply⟩
    cases heq
    exact ⟨hact, hreply⟩
  · intro w hasks
    rcases place?_of_asks hrange hasks with ⟨place, hinput, hword⟩
    refine ⟨place, hinput, hword, fun other value => ?_, fun value hvalue => ?_⟩
    · rw [resolve_of_ofWord? hword]
      exact ⟨rfl, result_ofOutcome_id _⟩
    · rw [resolve_of_ofWord? hword]
      exact congrArg (Reply.ofOutcome id) (Machine.resolve_of_asks hinput place.val hvalue)

/-- A host that lets a program ask for a register, then edits the operand of the instruction
    that waits, and gives an answer for what is no operand. -/
def meddling : List Request := [.step, .setCell 1 7, .resolve 65535 65]

/-- The program still waits for the register, although its instruction names a cell now. -/
theorem result_step_meddling {memory : Memory}
    (hread : ∀ address, memory.read address = [20, 32769].getD (Word.cell address).val 0) :
    (step (afterRequests (.loaded memory [20, 32769]) meddling)).result =
      .ok ⟨.input, 32769⟩ := by
  have hwords : Opcode.ofWord? (memory.read 0) = some .inp ∧
      Operand.ofWord? (memory.read 1) = some (.register 1) ∧
      Opcode.ofWord? ((memory.write 1 7).read 0) = some .inp := by
    simp only [Memory.read_write, hread]
    decide
  rcases hwords with ⟨hop, hoperand, hedited⟩
  have hasks := Machine.step_of_idle (m := .loaded memory [20, 32769]) ⟨rfl, hop⟩ rfl
    ((Machine.operand_eq_ok_iff _ _ _).mpr hoperand)
  have hstate : afterRequests (.loaded memory [20, 32769]) meddling =
      { Machine.loaded (memory.write 1 7) [20, 32769] with input := .pending 0 (.register 1) } := by
    simp only [meddling, afterRequests, Request.reply, step, hasks]
    rfl
  have hwaits := Machine.step_of_pending (m := { Machine.loaded (memory.write 1 7) [20, 32769] with
    input := .pending 0 (.register 1) }) ⟨rfl, hedited⟩ rfl
  rw [hstate, step, hwaits]
  rfl

/-- Handing the word back writes the register. -/
theorem mirrors_machine_meddling :
    ∃ m, create [20, 0, 1, 128] = .ok m ∧
      (step (afterRequests m meddling)).result = .ok ⟨.input, 32769⟩ ∧
      (resolve (step (afterRequests m meddling)).machine 32769 65).machine.register 1 = 65 := by
  have hload : Machine.ofBytes (Word.toBytes [20, 32769]) =
      .ok (.loaded (Memory.image [20, 32769]) [20, 32769]) :=
    Machine.ofBytes_toBytes (by decide)
  rcases mirrors_machine [20, 0, 1, 128] with ⟨hcreate, _, hrequests⟩
  have hcreated : create [20, 0, 1, 128] =
      .ok (.loaded (Memory.image [20, 32769]) [20, 32769]) :=
    hcreate.trans (congrArg (Except.mapError Fault.message) hload)
  have hasks := result_step_meddling (Memory.read_image [20, 32769])
  rcases hrequests _ hcreated meddling with ⟨n, hstate, _, _, _, hanswer⟩
  rw [hstate] at hasks
  rcases hanswer _ hasks with ⟨place, _, hword, _, hwrites⟩
  have hplace : place.val = .register 1 := by
    rw [show Operand.ofWord? 32769 = some (.register 1) by decide] at hword
    exact (Option.some.inj hword).symm
  refine ⟨_, hcreated, by rw [hstate, hasks], ?_⟩
  rw [hstate, hwrites 65 (by decide), hplace]
  simp [Machine.register, Machine.store, registerCount]

end Host

end WordMachine
