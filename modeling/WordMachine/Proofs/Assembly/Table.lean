import WordMachine.Proofs.Assembly.Placement

/-!
# Tables Over Time

What a table holds after any number of definitions.

A table begins empty and changes in one way only: a symbol is offered to it, and is
either put at its end or refused. The two namespaces share one list, and what a symbol
is refused for is found by searching that list. So whether labels and data are kept
apart, and whether an earlier definition can be lost, are questions about all the
symbols that were ever offered, in whatever order.

The answer is that the table remembers exactly the first definitions. A search finds the
first symbol that was offered under a name in a namespace (`find?_after`). This holds
from whatever table the definitions start with, as long as what it finds itself comes
first, and that is the form in which it is proved. All else follows: a refusal shows
what the search found, and an addition is found by its own name and no other.

## Main definitions

* `Symbol.IsNamed`: The name of a symbol, with its namespace.
* `SymbolTable.offer`: The table after a definition, accepted or refused.
* `SymbolTable.after`: The table after some definitions.
* `SymbolTable.IsFirst`: The first definition of a name.
* `SymbolTable.Answered`: What becomes of a definition, given the ones before it.

## Theorems

* `SymbolTable.find?_offer`, `SymbolTable.find?_after`: Looking a name up after one
  definition and after all.
* `SymbolTable.distinct_offer`, `SymbolTable.distinct_after`: No name is held twice.
* `SymbolTable.first_definition_stands`: The laws of a table, over any history.
-/

namespace WordMachine

/-- Whether a symbol has a name in a namespace. -/
def Symbol.IsNamed (s : Symbol) (space : Namespace) (name : Text) : Prop :=
  s.kind.space = space ∧ s.name = name

theorem Symbol.answers_iff (s : Symbol) (space : Namespace) (name : Text) :
    s.answers space name = true ↔ s.IsNamed space name := by
  simp only [answers, IsNamed, Bool.and_eq_true, beq_iff_eq]

namespace SymbolTable

/-- The table after a symbol is offered to it. A symbol that is refused leaves it as it
    is. -/
def offer (t : SymbolTable) (s : Symbol) : SymbolTable :=
  match t.add s with
  | .ok next => next
  | .error _ => t

/-- The table after some symbols are offered to an empty one, in turn. -/
def after (offers : List Symbol) : SymbolTable := offers.foldl offer empty

theorem after_concat (offers : List Symbol) (s : Symbol) :
    after (offers ++ [s]) = (after offers).offer s :=
  List.foldl_concat _ _ _ _

/-- The first of some symbols that has a name in a namespace. -/
def IsFirst (offers : List Symbol) (space : Namespace) (name : Text) (s : Symbol) : Prop :=
  s.IsNamed space name ∧
    ∃ earlier later, offers = earlier ++ s :: later ∧ ∀ e ∈ earlier, ¬ e.IsNamed space name

/-! ### Looking names up -/

theorem add_eq_error_iff (t : SymbolTable) (s existing : Symbol) :
    t.add s = .error existing ↔ t.find? s.kind.space s.name = some existing := by
  unfold add
  cases t.find? s.kind.space s.name with
  | none => simp
  | some found => simp

/-- After a definition, a name means what it meant before, and the new symbol only if it
    meant nothing. -/
theorem find?_offer (t : SymbolTable) (s : Symbol) (space : Namespace) (name : Text) :
    (t.offer s).find? space name =
      (t.find? space name).or (if s.answers space name then some s else none) := by
  unfold offer
  cases hadd : t.add s with
  | ok next =>
      simp only [find?_of_add hadd]
      by_cases hname : s.answers space name
      · -- The symbol was added, so its name was free.
        rcases (s.answers_iff space name).mp hname with ⟨rfl, rfl⟩
        simp only [hname, if_true, ((add_eq_ok_iff _ _ _).mp hadd).1, Option.none_or]
      · simp only [hname, Bool.false_eq_true, if_false, Option.or_none]
  | error existing =>
      by_cases hname : s.answers space name
      · -- The symbol was refused, so its name was found.
        rcases (s.answers_iff space name).mp hname with ⟨rfl, rfl⟩
        simp only [(add_eq_error_iff _ _ _).mp hadd, Option.some_or]
      · simp only [hname, Bool.false_eq_true, if_false, Option.or_none]

theorem find?_foldl_offer (offers : List Symbol) (t : SymbolTable) (space : Namespace)
    (name : Text) :
    (offers.foldl offer t).find? space name =
      (t.find? space name).or (offers.find? (·.answers space name)) := by
  -- From whatever table the earlier definitions have left.
  induction offers generalizing t with
  | nil => simp only [List.foldl_nil, List.find?_nil, Option.or_none]
  | cons s rest ih =>
      rw [List.foldl_cons, ih, find?_offer, Option.or_assoc, List.find?_cons]
      cases s.answers space name with
      | true => simp
      | false => simp

/-- A name means the first symbol that was offered under it. -/
theorem find?_after (offers : List Symbol) (space : Namespace) (name : Text) :
    (after offers).find? space name = offers.find? (·.answers space name) := by
  rw [after, find?_foldl_offer]
  exact Option.none_or

theorem isFirst_iff (offers : List Symbol) (space : Namespace) (name : Text) (s : Symbol) :
    offers.find? (·.answers space name) = some s ↔ IsFirst offers space name s := by
  rw [List.find?_eq_some_iff_append, Symbol.answers_iff, IsFirst]
  simp only [Bool.not_eq_true', ← Bool.not_eq_true, Symbol.answers_iff]

theorem find?_after_eq_some_iff (offers : List Symbol) (space : Namespace) (name : Text)
    (s : Symbol) : (after offers).find? space name = some s ↔ IsFirst offers space name s := by
  rw [find?_after, isFirst_iff]

theorem find?_after_eq_none_iff (offers : List Symbol) (space : Namespace) (name : Text) :
    (after offers).find? space name = none ↔ ∀ s ∈ offers, ¬ s.IsNamed space name := by
  rw [find?_after, List.find?_eq_none]
  simp only [Symbol.answers_iff]

/-! ### Names held once -/

/-- No two symbols of a table have the same name in the same namespace. -/
def Distinct (t : SymbolTable) : Prop :=
  t.symbols.Pairwise fun s s' => ¬ s'.IsNamed s.kind.space s.name

theorem distinct_offer {t : SymbolTable} (h : t.Distinct) (s : Symbol) : (t.offer s).Distinct := by
  unfold offer
  cases hadd : t.add s with
  | error existing => exact h
  | ok next =>
      rcases (add_eq_ok_iff _ _ _).mp hadd with ⟨hfree, rfl⟩
      refine List.pairwise_append.mpr ⟨h, List.pairwise_singleton _ _, fun e he s' hs' => ?_⟩
      rw [List.mem_singleton.mp hs']
      intro hsame
      exact (find?_eq_none_iff _ _ _).mp hfree e he ⟨hsame.1.symm, hsame.2.symm⟩

theorem distinct_after (offers : List Symbol) : (after offers).Distinct :=
  List.foldlRecOn offers offer List.Pairwise.nil fun _ h s _ => distinct_offer h s

/-! ### The laws of a table -/

/-- What becomes of a symbol that is offered after some others. -/
structure Answered (earlier : List Symbol) (s : Symbol) : Prop where
  /-- It is refused exactly if an earlier one had its name. -/
  refused : (∃ existing, (after earlier).add s = .error existing) ↔
    ∃ e ∈ earlier, e.IsNamed s.kind.space s.name
  /-- The refusal shows the first one that had it. -/
  shown : ∀ existing, (after earlier).add s = .error existing ↔
    IsFirst earlier s.kind.space s.name existing
  /-- A refusal changes nothing. -/
  kept : ∀ existing, (after earlier).add s = .error existing →
    after (earlier ++ [s]) = after earlier
  /-- Otherwise it is put at the end of the table, and only its own name gets a meaning. -/
  added : ∀ next, (after earlier).add s = .ok next →
    after (earlier ++ [s]) = next ∧ next.symbols = (after earlier).symbols ++ [s] ∧
      next.find? s.kind.space s.name = some s ∧
      ∀ space name, ¬ s.IsNamed space name →
        next.find? space name = (after earlier).find? space name

theorem answered_after (earlier : List Symbol) (s : Symbol) : Answered earlier s where
  refused := by
    simp only [add_eq_error_iff]
    rw [← Option.isSome_iff_exists, ← Option.ne_none_iff_isSome, ne_eq, find?_after_eq_none_iff]
    simp only [not_forall, not_not, exists_prop]
  shown existing := by rw [add_eq_error_iff, find?_after_eq_some_iff]
  kept existing h := by rw [after_concat, offer, h]
  added next h := by
    refine ⟨by rw [after_concat, offer, h], ?_, ?_, fun space name hname => ?_⟩
    · rw [((add_eq_ok_iff _ _ _).mp h).2]
    · rw [find?_of_add h, if_pos ((s.answers_iff _ _).mpr ⟨rfl, rfl⟩)]
    · rw [find?_of_add h, if_neg (mt (s.answers_iff _ _).mp hname)]

/-- Whatever symbols are offered to an empty table: it holds no name twice, a name means the
    first symbol that was offered under it, and each offer was answered accordingly. -/
theorem first_definition_stands (offers : List Symbol) :
    (after offers).Distinct ∧
    (∀ space name s, (after offers).find? space name = some s ↔ IsFirst offers space name s) ∧
    (∀ space name, (after offers).find? space name = none ↔
      ∀ s ∈ offers, ¬ s.IsNamed space name) ∧
    ∀ earlier s later, offers = earlier ++ s :: later → Answered earlier s :=
  ⟨distinct_after offers, find?_after_eq_some_iff offers, find?_after_eq_none_iff offers,
    fun earlier s _ _ => answered_after earlier s⟩

/-- A label and a block of data of one name, each defined twice. -/
example : (after [⟨['a'], .label, 2, 1⟩, ⟨['a'], .data 7 1, 9, 2⟩, ⟨['a'], .label, 5, 3⟩,
      ⟨['a'], .data 8 1, 6, 4⟩]).symbols =
    [⟨['a'], .label, 2, 1⟩, ⟨['a'], .data 7 1, 9, 2⟩] := by decide

end SymbolTable

end WordMachine
