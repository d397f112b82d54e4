import Mathlib.Data.List.Chain
import WordMachine.Command.Perform
import WordMachine.Proofs.Machine.Exchange

/-!
# Dialogues

A session at the command line drives its machine faithfully.

A session makes two kinds of calls on its machine, steps and answers. What it prints, which
bytes it takes and how it ends all follow from these calls, so they are written down as a
list, the course of the session, and `Session.playFrom_eq` says that the transcript is what
the course says it is. It also says so of the log records. A filter that shows everything
shows every call, and so there are none besides those in the course.

What the course looks like comes from one round of the loop, a turn with the answer to it
(`Session.round_cases`). A step that asks is answered at once, since bytes are values and the
machine waits for one, and after the answer the machine holds it, so that the next step does
not ask. This is why a session never ends by a refusal, although the loop provides for it.
The characters are characters because the machine prints values only, and all values lie
below the codes that are no characters.

A larger limit continues the course and changes nothing in it. That is a statement about the
loop alone, and needs nothing of the machine.

## Main definitions

* `Session.Event`: A call on the machine.
* `Session.round`, `Session.course`: One round of the loop, and all rounds of a session.
* `Session.Course.transcript`: The transcript that a course amounts to.
* `Session.Event.LeadsTo`: Which call can come right after which.
* `Session.Course.Faithful`: Questions and answers alternate, and the answers are the input.
* `Session.Course.Concludes`: How a course ends.

## Theorems

* `Session.playFrom_eq`: The transcript of a session is that of its course.
* `Session.round_cases`: What one round does.
* `Session.course_induction`: What the rounds keep, every course has.
* `Session.faithful_course`, `Session.concludes_course`: Every course is faithful, and ends
  as it says.
* `Session.course_add`: A larger limit continues the course.
* `Session.run_drives_machine`: The run of a program that is loaded.
-/

namespace WordMachine

/-- The step of a machine is where a session ends, in this way. -/
def Ending.EndsAt (m : Machine) (unread : List UInt8) : Ending → Prop
  | .halted _ => m.step.result = .ok .halt
  | .faulted _ fault => m.step.result = .error fault
  | .inputClosed => m.Asks ∧ unread = []
  | .limited _ | .refused _ => False

namespace Session

/-! ### The course of a session -/

/-- A call of a session on its machine, with the machine as the call finds it. -/
inductive Event
  | step (m : Machine)
  | resolve (m : Machine) (destination : Operand) (byte : UInt8)

namespace Event

/-- The machine that takes a step. -/
def stepper? : Event → Option Machine
  | .step m => some m
  | .resolve _ _ _ => none

/-- The byte that is given. -/
def byte? : Event → Option UInt8
  | .step _ => none
  | .resolve _ _ byte => some byte

/-- The code that a step reports as output. -/
def code? : Event → Option Word
  | .step m =>
    match m.step.result with
    | .ok (.output code) => some code
    | _ => none
  | .resolve _ _ _ => none

/-- The log records of a call. -/
def records : Event → List Log.Record
  | .step m => m.stepRecords
  | .resolve m destination byte => m.resolveRecords destination byte.toUInt16

/-- Which call can come right after which. After a step that reports nothing or an output
    comes the next step. After a step that asks comes an answer, for the destination that
    was reported. After an answer, which was accepted, comes a step that does not ask. -/
def LeadsTo : Event → Event → Prop
  | .step m, .step n => Run.goesOn m.step.result = true ∧ m.step.machine = n
  | .step m, .resolve n destination _ => m.step = ⟨.ok (.input destination), n⟩
  | .resolve m destination byte, .step n =>
    m.resolve destination byte.toUInt16 = ⟨.ok (), n⟩ ∧ ¬ n.Asks
  | .resolve _ _ _, .resolve _ _ _ => False

end Event

/-- What one round of the loop comes to: its calls, the session that goes on or how it ends,
    and the input that is left. -/
structure Round where
  events : List Event
  outcome : Except Ending Session
  unread : List UInt8

/-- One round of the loop: a turn, and the answer if it asks. -/
def round (s : Session) (input : List UInt8) : Round :=
  match s.turn with
  | .quiet next => ⟨[.step s.machine], .ok next, input⟩
  | .prints _ next => ⟨[.step s.machine], .ok next, input⟩
  | .ends ending => ⟨[.step s.machine], .error ending, input⟩
  | .asks destination next =>
    match input with
    | [] => ⟨[.step s.machine], .error .inputClosed, []⟩
    | byte :: rest =>
      ⟨[.step s.machine, .resolve next.machine destination byte],
        next.answer destination byte, rest⟩

/-- All calls of a session, how it ends, and the input that is left. -/
structure Course where
  events : List Event
  ending : Ending
  unread : List UInt8

/-- The course of a session of at most the given number of turns. -/
def course : Nat → Session → List UInt8 → Course
  | 0, s, input => ⟨[], .limited s.steps, input⟩
  | turns + 1, s, input =>
    match s.round input with
    | ⟨events, .error ending, unread⟩ => ⟨events, ending, unread⟩
    | ⟨events, .ok next, unread⟩ =>
      let later := course turns next unread
      { later with events := events ++ later.events }

namespace Course

/-- The codes that the steps of a course report as output. -/
def codes (c : Course) : List Word := c.events.filterMap Event.code?

/-- The machines that take the steps of a course. -/
def steppers (c : Course) : List Machine := c.events.filterMap Event.stepper?

/-- The log records of a course. -/
def records (c : Course) : List Log.Record := c.events.flatMap Event.records

/-- The transcript that a course amounts to, after what was printed and recorded before. -/
def transcript (c : Course) (filter : Log.Filter) (printed : Array Char)
    (records : Array Log.Record) : Transcript :=
  ⟨printed ++ (c.codes.map charOf).toArray, records ++ (filter.select c.records).toArray,
    c.ending, c.unread⟩

end Course

theorem playFrom_zero (filter : Log.Filter) (printed : Array Char) (records : Array Log.Record)
    (s : Session) (input : List UInt8) :
    playFrom filter printed records 0 s input = ⟨printed, records, .limited s.steps, input⟩ :=
  rfl

/-- A turn at a tape, by what it comes to. -/
theorem playFrom_turn (filter : Log.Filter) (printed : Array Char) (records : Array Log.Record)
    (turns : Nat) (s : Session) (input : List UInt8) :
    playFrom filter printed records (turns + 1) s input =
      match s.turn with
      | .quiet next =>
        playFrom filter printed (records ++ s.turnRecords filter) turns next input
      | .prints char next =>
        playFrom filter (printed.push char) (records ++ s.turnRecords filter) turns next input
      | .ends ending => ⟨printed, records ++ s.turnRecords filter, ending, input⟩
      | .asks destination next =>
        match input with
        | [] => ⟨printed, records ++ s.turnRecords filter, .inputClosed, []⟩
        | byte :: rest =>
          let records := records ++ s.turnRecords filter ++
            next.answerRecords filter destination byte
          match next.answer destination byte with
          | .ok resumed => playFrom filter printed records turns resumed rest
          | .error ending => ⟨printed, records, ending, rest⟩ := by
  unfold playFrom
  rw [converse]
  cases s.turn with
  | quiet | prints | ends => rfl
  | asks destination next =>
      cases input with
      | nil => rfl
      | cons byte rest =>
          cases hanswer : next.answer destination byte with
          | ok resumed => simp [Tape.console, Tape.take, hanswer]
          | error ending =>
              simp [Tape.console, Tape.take, hanswer]
              rfl

/-- The loop goes round by round, and adds what the calls of a round print and record. -/
theorem playFrom_succ (filter : Log.Filter) (printed : Array Char) (records : Array Log.Record)
    (turns : Nat) (s : Session) (input : List UInt8) :
    playFrom filter printed records (turns + 1) s input =
      match s.round input with
      | ⟨events, .error ending, unread⟩ =>
        Course.transcript ⟨events, ending, unread⟩ filter printed records
      | ⟨events, .ok next, unread⟩ =>
        playFrom filter (printed ++ ((events.filterMap Event.code?).map charOf).toArray)
          (records ++ (filter.select (events.flatMap Event.records)).toArray) turns next unread := by
  have hlist : ∀ (records : Array Log.Record) (l : List Log.Record),
      records ++ l = records ++ l.toArray := by
    intro records l
    apply Array.ext'
    simp
  -- A turn by what its step reports.
  rcases hstep : s.machine.step with ⟨result, m⟩
  cases result with
  | error fault =>
      simp [playFrom_turn, round, turn, hstep, turnRecords_eq, hlist, Course.transcript, Course.codes,
        Course.records, Event.code?, Event.records]
  | ok interrupt =>
      cases interrupt with
      | none | halt | output =>
          simp [playFrom_turn, round, turn, hstep, turnRecords_eq, hlist, Course.transcript,
            Course.codes, Course.records, Event.code?, Event.records]
      | input destination =>
          cases input with
          | nil =>
              simp [playFrom_turn, round, turn, hstep, turnRecords_eq, hlist, Course.transcript,
                Course.codes, Course.records, Event.code?, Event.records]
          | cons byte rest =>
              cases hanswer : answer ⟨m, s.steps + 1⟩ destination byte <;>
                simp [playFrom_turn, round, turn, hstep, hanswer, turnRecords_eq, answerRecords_eq,
                  hlist, Course.transcript, Course.codes, Course.records, List.filterMap_cons,
                  Event.code?, Event.records, Log.Filter.select]

/-- The transcript of a session is that of its course. -/
theorem playFrom_eq (filter : Log.Filter) (printed : Array Char) (records : Array Log.Record)
    (turns : Nat) (s : Session) (input : List UInt8) :
    playFrom filter printed records turns s input =
      (course turns s input).transcript filter printed records := by
  induction turns generalizing printed records s input with
  | zero => simp [playFrom_zero, course, Course.transcript, Course.codes, Course.records,
      Log.Filter.select]
  | succ turns ih =>
      rw [playFrom_succ, course]
      rcases s.round input with ⟨events, outcome, unread⟩
      cases outcome with
      | error ending => rfl
      | ok next =>
          simp only [ih, Course.transcript, Course.codes, Course.records, List.filterMap_append,
            List.map_append, List.flatMap_append, Log.Filter.select, List.filter_append,
            List.append_toArray, Array.append_assoc]

/-! ### One round -/

theorem isValue_toUInt16 (byte : UInt8) : Word.IsValue byte.toUInt16 := by
  have hlt := byte.toNat_lt
  rw [Word.IsValue, UInt8.toNat_toUInt16, memorySize]
  omega

/-- A round ends the session with its step, goes on after its step, or gives the byte that
    its step asks for, which is always accepted. -/
theorem round_cases (s : Session) (input : List UInt8) :
    (∃ ending : Ending, s.round input = ⟨[.step s.machine], .error ending, input⟩ ∧
      ending.EndsAt s.machine input) ∨
    (Run.goesOn s.machine.step.result = true ∧
      s.round input = ⟨[.step s.machine], .ok ⟨s.machine.step.machine, s.steps + 1⟩, input⟩) ∨
    ∃ destination byte rest asking next, input = byte :: rest ∧
      s.machine.step = ⟨.ok (.input destination), asking⟩ ∧
      asking.resolve destination byte.toUInt16 = ⟨.ok (), next⟩ ∧
      s.round input = ⟨[.step s.machine, .resolve asking destination byte],
        .ok ⟨next, s.steps + 1⟩, rest⟩ := by
  rcases hstep : s.machine.step with ⟨result, m⟩
  have hresult : s.machine.step.result = result := by rw [hstep]
  cases result with
  | error fault =>
      refine Or.inl ⟨.faulted (s.steps + 1) fault, ?_, hresult⟩
      simp only [round, turn, hstep]
  | ok interrupt =>
      cases interrupt with
      | halt =>
          refine Or.inl ⟨.halted (s.steps + 1), ?_, hresult⟩
          simp only [round, turn, hstep]
      | none | output =>
          refine Or.inr (Or.inl ⟨rfl, ?_⟩)
          simp only [round, turn, hstep]
      | input destination =>
          cases input with
          | nil =>
              refine Or.inl ⟨.inputClosed, ?_, ⟨destination, hresult⟩, rfl⟩
              simp only [round, turn, hstep]
          | cons byte rest =>
              -- A byte is always a value, so the answer cannot be refused.
              have hresolve := Machine.resolve_of_asks hresult destination (isValue_toUInt16 byte)
              rw [hstep] at hresolve
              refine Or.inr (Or.inr ⟨destination, byte, rest, m, _, rfl, rfl, hresolve, ?_⟩)
              simp only [round, turn, hstep, answer, hresolve]

/-! ### All rounds -/

/-- What is true of a course that has ended, and kept by the rounds before it, is true of
    every course. -/
theorem course_induction {motive : Nat → Session → List UInt8 → Course → Prop}
    (limited : ∀ s input, motive 0 s input ⟨[], .limited s.steps, input⟩)
    (ends : ∀ turns s input ending, Ending.EndsAt s.machine input ending →
      motive (turns + 1) s input ⟨[.step s.machine], ending, input⟩)
    (goes : ∀ turns s input later, Run.goesOn s.machine.step.result = true →
      motive turns ⟨s.machine.step.machine, s.steps + 1⟩ input later →
      motive (turns + 1) s input { later with events := .step s.machine :: later.events })
    (answers : ∀ turns s destination byte rest asking next later,
      s.machine.step = ⟨.ok (.input destination), asking⟩ →
      asking.resolve destination byte.toUInt16 = ⟨.ok (), next⟩ →
      motive turns ⟨next, s.steps + 1⟩ rest later →
      motive (turns + 1) s (byte :: rest) { later with
        events := .step s.machine :: .resolve asking destination byte :: later.events })
    (turns : Nat) (s : Session) (input : List UInt8) :
    motive turns s input (course turns s input) := by
  induction turns generalizing s input with
  | zero => exact limited s input
  | succ turns ih =>
      rw [course]
      rcases s.round_cases input with ⟨ending, hround, hends⟩ | ⟨hgoes, hround⟩ |
        ⟨destination, byte, rest, asking, next, rfl, hasks, hanswer, hround⟩
      · rw [hround]
        exact ends turns s input ending hends
      · rw [hround]
        exact goes turns s input _ hgoes (ih _ _)
      · rw [hround]
        exact answers turns s destination byte rest asking next _ hasks hanswer (ih _ _)

namespace Course

/-- Questions and answers alternate in the course of a session that starts with `m`. -/
structure Faithful (c : Course) (m : Machine) (input : List UInt8) : Prop where
  /-- The first call is a step of the machine. -/
  first : c.events = [] ∨ ∃ rest, c.events = .step m :: rest
  /-- Each call leads to the next one. -/
  linked : c.events.IsChain Event.LeadsTo
  /-- No answer is refused, the last one included. -/
  accepted : ∀ n destination byte, .resolve n destination byte ∈ c.events →
    (n.resolve destination byte.toUInt16).result = .ok ()
  /-- No two consecutive steps ask. -/
  alternate : c.steppers.IsChain fun n n' => ¬ (n.Asks ∧ n'.Asks)
  /-- The bytes that are given are the input from its start on. -/
  given : input = c.events.filterMap Event.byte? ++ c.unread

/-- How a course of a number of turns ends: by its limit, after as many steps, the last of
    which would have gone on, or at its last step. -/
def Concludes (c : Course) (before turns : Nat) : Prop :=
  (c.ending = .limited (before + turns) ∧ c.steppers.length = turns ∧
    ∀ m, c.events.getLast? = some (.step m) → Run.goesOn m.step.result = true) ∨
  ∃ m, c.events.getLast? = some (.step m) ∧ c.ending.EndsAt m c.unread

theorem Faithful.head_steppers {c : Course} {m : Machine} {input : List UInt8}
    (h : c.Faithful m input) : ∀ n ∈ c.steppers.head?, n = m := by
  intro n hn
  rcases h.first with hnil | ⟨rest, hcons⟩
  · simp [steppers, hnil] at hn
  · simp [steppers, hcons, Event.stepper?] at hn
    exact hn.symm

/-- A round without a question keeps a course faithful. -/
theorem Faithful.of_goes {m : Machine} {input : List UInt8} {later : Course}
    (hgoes : Run.goesOn m.step.result = true) (h : later.Faithful m.step.machine input) :
    Faithful { later with events := .step m :: later.events } m input where
  first := Or.inr ⟨later.events, rfl⟩
  linked := by
    refine List.isChain_cons.mpr ⟨fun e he => ?_, h.linked⟩
    rcases h.first with hnil | ⟨rest, hcons⟩
    · simp [hnil] at he
    · simp only [hcons, List.head?_cons, Option.mem_some_iff] at he
      rw [← he]
      exact ⟨hgoes, rfl⟩
  accepted := by
    intro n destination byte hmem
    rcases List.mem_cons.mp hmem with heq | hmem
    · cases heq
    · exact h.accepted n destination byte hmem
  alternate := by
    refine List.isChain_cons.mpr ⟨fun n _ hasks => ?_, h.alternate⟩
    rcases hasks.1 with ⟨destination, hresult⟩
    rw [hresult] at hgoes
    cases hgoes
  given := h.given

/-- A round with its question and the answer to it keeps a course faithful. -/
theorem Faithful.of_answers {m asking next : Machine} {destination : Operand} {byte : UInt8}
    {rest : List UInt8} {later : Course} (hasks : m.step = ⟨.ok (.input destination), asking⟩)
    (hanswer : asking.resolve destination byte.toUInt16 = ⟨.ok (), next⟩)
    (h : later.Faithful next rest) :
    Faithful { later with
      events := .step m :: .resolve asking destination byte :: later.events } m (byte :: rest) where
  first := Or.inr ⟨_, rfl⟩
  linked := by
    refine List.isChain_cons_cons.mpr ⟨hasks, List.isChain_cons.mpr ⟨fun e he => ?_, h.linked⟩⟩
    rcases h.first with hnil | ⟨rest, hcons⟩
    · simp [hnil] at he
    · simp only [hcons, List.head?_cons, Option.mem_some_iff] at he
      rw [← he]
      exact ⟨hanswer, Machine.not_asks_of_resolve hanswer⟩
  accepted := by
    intro n wanted given hmem
    rcases List.mem_cons.mp hmem with heq | hmem
    · cases heq
    · rcases List.mem_cons.mp hmem with heq | hmem
      · cases heq
        rw [hanswer]
      · exact h.accepted n wanted given hmem
  alternate := by
    refine List.isChain_cons.mpr ⟨fun n hn hboth => ?_, h.alternate⟩
    -- The next step is that of the machine that was answered.
    rw [h.head_steppers n hn] at hboth
    exact Machine.not_asks_of_resolve hanswer hboth.2
  given := congrArg (byte :: ·) h.given

/-- A round in front of a course leaves how it ends. -/
theorem Concludes.prepend {later : Course} {before turns : Nat}
    (h : later.Concludes (before + 1) turns) (events : List Event)
    (hsteps : (events.filterMap Event.stepper?).length = 1)
    (hlast : ∀ m, events.getLast? = some (.step m) → Run.goesOn m.step.result = true) :
    Concludes { later with events := events ++ later.events } before (turns + 1) := by
  unfold Concludes steppers at h ⊢
  rw [List.getLast?_append, List.filterMap_append, List.length_append]
  rcases h with ⟨hending, hlength, hgoes⟩ | ⟨m, hm, hends⟩
  · refine Or.inl ⟨?_, by omega, ?_⟩
    · rw [hending]
      congr 1
      omega
    · intro m hm
      cases hlater : later.events.getLast? with
      | none =>
          rw [hlater] at hm
          exact hlast m hm
      | some event =>
          rw [hlater] at hm hgoes
          exact hgoes m hm
  · refine Or.inr ⟨m, ?_, hends⟩
    rw [hm]
    rfl

end Course

theorem faithful_course (turns : Nat) (s : Session) (input : List UInt8) :
    (course turns s input).Faithful s.machine input := by
  refine course_induction (motive := fun _ s input c => c.Faithful s.machine input)
    ?_ ?_ ?_ ?_ turns s input
  · intro s input
    exact ⟨Or.inl rfl, List.isChain_nil, nofun, List.isChain_nil, rfl⟩
  · intro turns s input ending _
    refine ⟨Or.inr ⟨[], rfl⟩, List.isChain_singleton _, ?_, List.isChain_singleton _, rfl⟩
    intro n destination byte hmem
    cases List.mem_singleton.mp hmem
  · intro turns s input later hgoes ih
    exact ih.of_goes hgoes
  · intro turns s destination byte rest asking next later hasks hanswer ih
    exact ih.of_answers hasks hanswer

theorem concludes_course (turns : Nat) (s : Session) (input : List UInt8) :
    (course turns s input).Concludes s.steps turns := by
  refine course_induction (motive := fun turns s _ c => c.Concludes s.steps turns)
    ?_ ?_ ?_ ?_ turns s input
  · intro s input
    exact Or.inl ⟨rfl, rfl, nofun⟩
  · intro turns s input ending hends
    exact Or.inr ⟨s.machine, rfl, hends⟩
  · intro turns s input later hgoes ih
    refine ih.prepend [.step s.machine] rfl ?_
    intro m hm
    cases hm
    exact hgoes
  · intro turns s destination byte rest asking next later _ _ ih
    exact ih.prepend [.step s.machine, .resolve asking destination byte] rfl nofun

/-- All steps of a session are taken by machines in range, if it starts with one. -/
theorem inRange_course {turns : Nat} {s : Session} {input : List UInt8}
    (h : s.machine.InRange) : ∀ m ∈ (course turns s input).steppers, m.InRange := by
  revert h
  refine course_induction
    (motive := fun _ s _ c => s.machine.InRange → ∀ m ∈ c.steppers, m.InRange)
    ?_ ?_ ?_ ?_ turns s input
  · intro s input _ m hm
    cases hm
  · intro turns s input ending _ h m hm
    rw [List.mem_singleton.mp hm]
    exact h
  · intro turns s input later _ ih h
    exact List.forall_mem_cons.mpr ⟨h, ih (Machine.inRange_step h)⟩
  · intro turns s destination byte rest asking next later hasks hanswer ih h
    refine List.forall_mem_cons.mpr ⟨h, ih ?_⟩
    have hstep := Machine.inRange_step h
    rw [hasks] at hstep
    have hresolve := Machine.inRange_resolve hstep destination byte.toUInt16
    rw [hanswer] at hresolve
    exact hresolve

/-- A larger limit continues a course, and leaves one that did not end by its limit. -/
theorem course_add (turns more : Nat) (s : Session) (input : List UInt8) :
    (course turns s input).events <+: (course (turns + more) s input).events ∧
    ((∀ steps, (course turns s input).ending ≠ .limited steps) →
      course (turns + more) s input = course turns s input) := by
  induction turns generalizing s input with
  | zero => exact ⟨ List.nil_prefix, fun h => absurd rfl (h s.steps)⟩
  | succ turns ih =>
      rw [show turns + 1 + more = turns + more + 1 by omega]
      unfold course
      rcases s.round input with ⟨events, outcome, unread⟩
      cases outcome with
      | error ending => exact ⟨List.prefix_refl _, fun _ => rfl⟩
      | ok next =>
          rcases ih next unread with ⟨hevents, hsame⟩
          refine ⟨(List.prefix_append_right_inj events).mpr hevents, fun h => ?_⟩
          simp only [hsame h]

/-! ### Characters -/

/-- A value is the code of a character. -/
theorem isValidChar_of_isValue {code : Word} (h : code.IsValue) : code.toNat.isValidChar := by
  have hlt : code.toNat < 32768 := h
  exact Or.inl (by omega)

/-- Every output of a session that starts in range is a character, the one it prints. -/
theorem charOf_of_mem_codes {turns : Nat} {s : Session} {input : List UInt8}
    (h : s.machine.InRange) {code : Word} (hcode : code ∈ (course turns s input).codes) :
    code.toNat.isValidChar ∧ charOf code = Char.ofNat code.toNat := by
  rcases List.mem_filterMap.mp hcode with ⟨event, hevent, hreports⟩
  cases event with
  | resolve m destination byte => cases hreports
  | step m =>
      have hmem : m ∈ (course turns s input).steppers :=
        List.mem_filterMap.mpr ⟨_, hevent, rfl⟩
      have hresult : m.step.result = .ok (.output code) := by
        simp only [Event.code?] at hreports
        split at hreports
        · rename_i hresult
          rw [hresult, Option.some.inj hreports]
        · cases hreports
      have hvalid := isValidChar_of_isValue
        (Machine.isValue_of_step_output (inRange_course h m hmem) hresult)
      refine ⟨hvalid, ?_⟩
      rw [charOf, if_pos hvalid]

/-! ### The run of a program -/

theorem play_eq (filter : Log.Filter) (turns : Nat) (m : Machine) (input : List UInt8) :
    play filter turns m input = (course turns ⟨m, 0⟩ input).transcript filter #[] #[] :=
  playFrom_eq filter #[] #[] turns ⟨m, 0⟩ input

theorem ending_play (filter : Log.Filter) (turns : Nat) (m : Machine) (input : List UInt8) :
    (play filter turns m input).ending = (course turns ⟨m, 0⟩ input).ending := by
  rw [play_eq, Course.transcript]

theorem unread_play (filter : Log.Filter) (turns : Nat) (m : Machine) (input : List UInt8) :
    (play filter turns m input).unread = (course turns ⟨m, 0⟩ input).unread := by
  rw [play_eq, Course.transcript]

/-- A run at a tape records that its program is loaded, plays its session, and records how
    that ends. -/
theorem runProgram_tape (filter : Log.Filter) (path : Text) (limit : Nat) (m : Machine)
    (input : List UInt8) :
    (Command.runProgram Tape.console filter path (some limit) m).run { unread := input } =
      let loading := (#[] : Array Log.Record) ++ filter.select (Command.loadRecords path m)
      let transcript := playFrom filter #[] loading limit ⟨m, 0⟩ input
      (transcript.ending.failure?,
        ⟨transcript.printed, transcript.records ++ filter.select transcript.ending.records,
          transcript.unread⟩) :=
  rfl

/-- The report of a run is what the course of its session says. -/
theorem report_run {path : Text} {contents : Command.Contents} {m : Machine}
    (h : Command.loadProgram path contents = .ok m) (filter : Log.Filter)
    (written : Except FileFault Unit) (input : List UInt8) (limit : Nat) :
    Command.report (.run path (some limit)) filter contents written input =
      { printed := (course limit ⟨m, 0⟩ input).codes.map charOf
        records := filter.select (Command.loadRecords path m) ++
          filter.select (course limit ⟨m, 0⟩ input).records ++
          filter.select (course limit ⟨m, 0⟩ input).ending.records
        failure := (course limit ⟨m, 0⟩ input).ending.failure? } := by
  simp [Command.report, Command.reportRun, h, runProgram_tape, playFrom_eq, Course.transcript]

/-- The exit code tells a session that halted or reached its limit from all others. -/
theorem exitCode_iff {c : Course} {before turns : Nat} (h : c.Concludes before turns)
    {report : Report} (hreport : report.failure = c.ending.failure?) :
    (report.exitCode = 0 ↔
      (∃ steps, c.ending = .halted steps) ∨ ∃ steps, c.ending = .limited steps) ∧
    (report.exitCode = 1 ↔
      (∃ steps fault, c.ending = .faulted steps fault) ∨ c.ending = .inputClosed) := by
  unfold Report.exitCode
  rw [hreport]
  cases hending : c.ending with
  | halted | limited | faulted | inputClosed => simp [Ending.failure?]
  | refused fault =>
      -- No course ends so.
      rcases h with ⟨hlimited, _⟩ | ⟨m, _, hends⟩
      · rw [hending] at hlimited
        cases hlimited
      · rw [hending] at hends
        exact hends.elim

/-- The run of a program that is loaded, with any input and limit, is the course of a session
    in which every question is answered at once and accepted, with the next byte of the input,
    and no two consecutive steps ask. It prints the outputs of the steps in order, all of which
    are characters. Its exit code is zero if it halted or reached its limit, and one if a step
    failed or the input ended at a question, and there is no other way to end. A larger limit
    continues what it prints, and changes nothing if it did not end by its limit. -/
theorem run_drives_machine {path : Text} {contents : Command.Contents} {m : Machine}
    (h : Command.loadProgram path contents = .ok m) (input : List UInt8) (limit : Nat) :
    ∃ c : Course, c.Faithful m input ∧ c.Concludes 0 limit ∧
      (∀ code ∈ c.codes, code.toNat.isValidChar ∧ charOf code = Char.ofNat code.toNat) ∧
      ∀ filter written, ∃ report : Report,
        Command.report (.run path (some limit)) filter contents written input = report ∧
        (play filter limit m input).ending = c.ending ∧
        (play filter limit m input).unread = c.unread ∧
        report.records = filter.select (Command.loadRecords path m ++ c.records ++
          c.ending.records) ∧
        report.printed = c.codes.map (fun code => Char.ofNat code.toNat) ∧
        (report.exitCode = 0 ↔
          (∃ steps, c.ending = .halted steps) ∨ ∃ steps, c.ending = .limited steps) ∧
        (report.exitCode = 1 ↔
          (∃ steps fault, c.ending = .faulted steps fault) ∨ c.ending = .inputClosed) ∧
        ∀ larger, limit ≤ larger → ∃ continued : Report,
          Command.report (.run path (some larger)) filter contents written input = continued ∧
          report.printed <+: continued.printed ∧
          ((∀ steps, c.ending ≠ .limited steps) → continued.printed = report.printed) := by
  have hrange : m.InRange := by
    rcases (bind_eq_ok_iff _ _ _).mp h with ⟨bytes, _, hbytes⟩
    exact Machine.inRange_of_ofWords ((mapError_eq_ok_iff _ _ _).mp hbytes)
  have hcodes : ∀ code ∈ (course limit ⟨m, 0⟩ input).codes,
      code.toNat.isValidChar ∧ charOf code = Char.ofNat code.toNat :=
    fun _ hcode => charOf_of_mem_codes hrange hcode
  have hconcludes := concludes_course limit ⟨m, 0⟩ input
  refine ⟨course limit ⟨m, 0⟩ input, faithful_course limit ⟨m, 0⟩ input, hconcludes, hcodes,
    fun filter written => ⟨_, report_run h filter written input limit,
      ending_play filter limit m input, unread_play filter limit m input, ?_, ?_,
      (exitCode_iff hconcludes rfl).1, (exitCode_iff hconcludes rfl).2, ?_⟩⟩
  · simp only [Log.Filter.select, List.filter_append]
  · exact List.map_congr_left fun code hcode => (hcodes code hcode).2
  · intro larger hle
    -- The larger limit is the smaller one and what it exceeds it by.
    rcases course_add limit (larger - limit) ⟨m, 0⟩ input with ⟨hevents, hsame⟩
    rw [Nat.add_sub_cancel' hle] at hevents hsame
    refine ⟨_, report_run h filter written input larger,
      (hevents.filterMap Event.code?).map charOf, fun hending => ?_⟩
    rw [hsame hending]

/-- A program that prints the character it is given, and halts. -/
def echo : List Word := [20, 32768, 19, 32768, 0]

/-- The states of the program once it has its answer, by what changes in them. -/
def echoAt (memory : Memory) (ip : Word) (input : Input) : Machine :=
  { Machine.loaded memory echo with
    ip := ip, input := input, registers := Machine.empty.registers.setIfInBounds 0 65 }

/-- With three turns, the program asks, takes its answer and prints it. -/
theorem course_echo {memory : Memory}
    (hread : ∀ address, memory.read address = echo.getD (Word.cell address).val 0) :
    (course 3 ⟨.loaded memory echo, 0⟩ [65]).codes = [65] ∧
      (course 3 ⟨.loaded memory echo, 0⟩ [65]).ending = .limited 3 := by
  have hwords : Opcode.ofWord? (memory.read 0) = some .inp ∧
      Operand.ofWord? (memory.read 1) = some (.register 0) ∧
      Opcode.ofWord? (memory.read 2) = some .out ∧
      Operand.ofWord? (memory.read 3) = some (.register 0) := by
    simp only [hread]
    decide
  rcases hwords with ⟨hin, hplace, hout, hsource⟩
  obtain ⟨asking, hasks, hanswer⟩ : ∃ asking,
      (Machine.loaded memory echo).step = ⟨.ok (.input (.register 0)), asking⟩ ∧
      asking.resolve (.register 0) (65 : UInt8).toUInt16 =
        ⟨.ok (), echoAt memory 0 (.supplied 0)⟩ := by
    have hstep := Machine.step_of_idle (m := .loaded memory echo) ⟨rfl, hin⟩ rfl
      ((Machine.operand_eq_ok_iff _ _ _).mpr hplace)
    have hresolve := Machine.resolve_of_asks (congrArg Outcome.result hstep) (.register 0)
      (isValue_toUInt16 65)
    rw [hstep] at hresolve
    exact ⟨_, hstep, hresolve⟩
  have htakes : (echoAt memory 0 (.supplied 0)).step = ⟨.ok .none, echoAt memory 2 .idle⟩ :=
    Machine.step_of_supplied ⟨rfl, hin⟩ rfl
  have hvalue : (echoAt memory 2 .idle).value 0 = .ok 65 :=
    (Machine.value_eq_ok_iff _ _ _).mpr
      ⟨.register 0, (Machine.operand_eq_ok_iff _ _ _).mpr hsource, rfl⟩
  have hprints : (echoAt memory 2 .idle).step = ⟨.ok (.output 65), echoAt memory 4 .idle⟩ := by
    rw [Machine.step_of_execute (m := echoAt memory 2 .idle) rfl hout
      ((bind_eq_ok_iff _ _ _).mpr ⟨65, hvalue, rfl⟩)]
    rfl
  -- The three rounds, one after the other.
  have hfirst : round ⟨.loaded memory echo, 0⟩ [65] =
      ⟨[.step (.loaded memory echo), .resolve asking (.register 0) 65],
        .ok ⟨echoAt memory 0 (.supplied 0), 1⟩, []⟩ := by
    simp only [round, turn, hasks, answer, hanswer]
  have hsecond : round ⟨echoAt memory 0 (.supplied 0), 1⟩ [] =
      ⟨[.step (echoAt memory 0 (.supplied 0))], .ok ⟨echoAt memory 2 .idle, 2⟩, []⟩ := by
    simp only [round, turn, htakes]
  have hthird : round ⟨echoAt memory 2 .idle, 2⟩ [] =
      ⟨[.step (echoAt memory 2 .idle)], .ok ⟨echoAt memory 4 .idle, 3⟩, []⟩ := by
    simp only [round, turn, hprints]
  simp [course, hfirst, hsecond, hthird, Course.codes, List.filterMap_cons, Event.code?, hasks,
    htakes, hprints]

/-- The program prints its answer within three turns, and more turns only add to it. -/
theorem run_drives_machine_echo :
    ∃ m, Command.loadProgram ['e'] (.ok (Word.toBytes echo)) = .ok m ∧
      ∀ filter written, ∃ report : Report,
        Command.report (.run ['e'] (some 3)) filter (.ok (Word.toBytes echo)) written [65] =
          report ∧ report.printed = ['A'] ∧ report.exitCode = 0 ∧
        ∀ larger, 3 ≤ larger → ['A'] <+: (Command.report (.run ['e'] (some larger)) filter
          (.ok (Word.toBytes echo)) written [65]).printed := by
  have hload : Command.loadProgram ['e'] (.ok (Word.toBytes echo)) =
      .ok (.loaded (Memory.image echo) echo) := by
    have hbytes : Machine.ofBytes (Word.toBytes echo) = .ok (.loaded (Memory.image echo) echo) :=
      Machine.ofBytes_toBytes (by decide)
    refine (bind_eq_ok_iff _ _ _).mpr ⟨_, rfl, ?_⟩
    rw [hbytes]
    rfl
  rcases course_echo (Memory.read_image echo) with ⟨hcodes, hlimited⟩
  rcases run_drives_machine hload [65] 3 with ⟨c, _, _, _, hreports⟩
  refine ⟨_, hload, fun filter written => ?_⟩
  rcases hreports filter written with
    ⟨report, hreport, hending, _, _, _, hsucceeds, _, hlarger⟩
  rw [ending_play, hlimited] at hending
  have hprinted : report.printed = ['A'] := by
    rw [← hreport, report_run hload, hcodes]
    rfl
  refine ⟨report, hreport, hprinted, hsucceeds.mpr (Or.inr ⟨3, hending.symm⟩), ?_⟩
  intro larger hle
  rcases hlarger larger hle with ⟨continued, hcontinued, hadds, _⟩
  rw [hcontinued, ← hprinted]
  exact hadds

end Session

end WordMachine
