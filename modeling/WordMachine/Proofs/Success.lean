import Mathlib.Data.List.Forall2

/-!
# Steps That Succeed or Fail

When a computation that can fail gives a result, and where an error comes from.

Everything that can fail here is an `Except`, put together by binding. A result of the
whole is taken apart into results of its parts, one part at a time, and never by
unfolding the whole: from `x >>= f` comes what `x` gave and what `f` made of it. For a
list of steps the parts are related place by place, which is `List.Forall₂`.

An error of the whole is an error of one of its parts. Which part it is matters less
than that there is one, so for a list of steps only that much is said.

## Theorems

* `bind_eq_ok_iff`, `map_eq_ok_iff`, `mapError_eq_ok_iff`: When composed steps
  succeed.
* `mapM_eq_ok_iff`, `exists_foldlM_cons_iff`: When a list of steps succeeds.
* `bind_eq_error_iff`, `map_eq_error_iff`, `mapError_eq_error_iff`: When composed
  steps fail.
* `exists_of_mapM_eq_error`, `exists_of_foldlM_eq_error`: The step at which a list of
  steps fails.
* `exists_forall₂_iff`: Two lists of steps, one after the other.
* `exists_of_forall₂_append`: A list of steps in two parts.
* `map_eq_map_iff_forall₂`, `forall₂_congr_of_mem`: Two ways to say what each step does.
-/

namespace WordMachine

section Success

variable {ε ε' α β : Type}

theorem bind_eq_ok_iff (x : Except ε α) (f : α → Except ε β) (b : β) :
    (x >>= f) = .ok b ↔ ∃ a, x = .ok a ∧ f a = .ok b := by
  cases x with
  | error e => simp [bind, Except.bind]
  | ok a => simp [bind, Except.bind]

theorem map_eq_ok_iff (x : Except ε α) (f : α → β) (b : β) :
    x.map f = .ok b ↔ ∃ a, x = .ok a ∧ f a = b := by
  cases x with
  | error e => simp [Except.map]
  | ok a => simp [Except.map]

theorem mapError_eq_ok_iff (x : Except ε α) (f : ε → ε') (a : α) :
    x.mapError f = .ok a ↔ x = .ok a := by
  cases x with
  | error e => simp [Except.mapError]
  | ok b => simp [Except.mapError]

/-- A list of steps succeeds exactly when each of them does. -/
theorem mapM_eq_ok_iff (f : α → Except ε β) (xs : List α) (ys : List β) :
    xs.mapM f = .ok ys ↔ List.Forall₂ (fun x y => f x = .ok y) xs ys := by
  induction xs generalizing ys with
  | nil =>
      rw [List.mapM_nil, List.forall₂_nil_left_iff]
      constructor
      · intro h
        cases h
        rfl
      · rintro rfl
        rfl
  | cons x rest ih =>
      rw [List.mapM_cons, bind_eq_ok_iff, List.forall₂_cons_left_iff]
      constructor
      · rintro ⟨y, hy, h⟩
        rcases (bind_eq_ok_iff _ _ _).mp h with ⟨ys', hys', hpure⟩
        cases hpure
        exact ⟨y, ys', hy, (ih ys').mp hys', rfl⟩
      · rintro ⟨y, ys', hy, hys', rfl⟩
        exact ⟨y, hy, (bind_eq_ok_iff _ _ _).mpr ⟨ys', (ih ys').mpr hys', rfl⟩⟩

/-- A fold succeeds exactly when its first step does and the others do after it. -/
theorem exists_foldlM_cons_iff (f : β → α → Except ε β) (b : β) (x : α) (rest : List α) :
    (∃ final, (x :: rest).foldlM f b = .ok final) ↔
      ∃ next, f b x = .ok next ∧ ∃ final, rest.foldlM f next = .ok final := by
  simp only [List.foldlM_cons, bind_eq_ok_iff]
  constructor
  · rintro ⟨final, next, hx, hrest⟩
    exact ⟨next, hx, final, hrest⟩
  · rintro ⟨next, hx, final, hrest⟩
    exact ⟨final, next, hx, hrest⟩

end Success

section Failure

variable {ε ε' α β σ : Type}

theorem bind_eq_error_iff (x : Except ε α) (f : α → Except ε β) (e : ε) :
    (x >>= f) = .error e ↔ x = .error e ∨ ∃ a, x = .ok a ∧ f a = .error e := by
  cases x with
  | error e' => simp [bind, Except.bind]
  | ok a => simp [bind, Except.bind]

theorem map_eq_error_iff (x : Except ε α) (f : α → β) (e : ε) :
    x.map f = .error e ↔ x = .error e := by
  cases x with
  | error e' => simp [Except.map]
  | ok a => simp [Except.map]

theorem mapError_eq_error_iff (x : Except ε α) (f : ε → ε') (e : ε') :
    x.mapError f = .error e ↔ ∃ e', x = .error e' ∧ f e' = e := by
  cases x with
  | error e' => simp [Except.mapError]
  | ok a => simp [Except.mapError]

/-- A list of steps fails at one of them. -/
theorem exists_of_mapM_eq_error {f : α → Except ε β} {xs : List α} {e : ε}
    (h : xs.mapM f = .error e) : ∃ x ∈ xs, f x = .error e := by
  induction xs with
  | nil => cases h
  | cons x rest ih =>
      rw [List.mapM_cons] at h
      rcases (bind_eq_error_iff _ _ _).mp h with hx | ⟨y, _, h⟩
      · exact ⟨x, List.mem_cons_self, hx⟩
      · rcases (bind_eq_error_iff _ _ _).mp h with hrest | ⟨ys, _, hpure⟩
        · rcases ih hrest with ⟨z, hz, hfz⟩
          exact ⟨z, List.mem_cons_of_mem _ hz, hfz⟩
        · cases hpure

/-- A fold fails at one of its steps, in whatever state the ones before have left. -/
theorem exists_of_foldlM_eq_error {f : σ → α → Except ε σ} {xs : List α} {s : σ} {e : ε}
    (h : xs.foldlM f s = .error e) : ∃ x ∈ xs, ∃ s', f s' x = .error e := by
  induction xs generalizing s with
  | nil => cases h
  | cons x rest ih =>
      rw [List.foldlM_cons] at h
      rcases (bind_eq_error_iff _ _ _).mp h with hx | ⟨s', _, hrest⟩
      · exact ⟨x, List.mem_cons_self, s, hx⟩
      · rcases ih hrest with ⟨y, hy, hfy⟩
        exact ⟨y, List.mem_cons_of_mem _ hy, hfy⟩

end Failure

section Places

variable {α β γ : Type}

/-- Two relations place by place are their composition place by place. -/
theorem exists_forall₂_iff {R : α → β → Prop} {S : β → γ → Prop} (xs : List α) (zs : List γ) :
    (∃ ys, List.Forall₂ R xs ys ∧ List.Forall₂ S ys zs) ↔
      List.Forall₂ (fun x z => ∃ y, R x y ∧ S y z) xs zs := by
  constructor
  · rintro ⟨ys, hxs, hzs⟩
    -- The list in the middle carries the induction.
    induction hxs generalizing zs with
    | nil =>
        rw [List.forall₂_nil_left_iff] at hzs
        rw [hzs]
        exact List.Forall₂.nil
    | cons hx _ ih =>
        rcases List.forall₂_cons_left_iff.mp hzs with ⟨z, rest, hz, hrest, rfl⟩
        exact List.Forall₂.cons ⟨_, hx, hz⟩ (ih rest hrest)
  · intro h
    induction h with
    | nil => exact ⟨[], List.Forall₂.nil, List.Forall₂.nil⟩
    | cons hx _ ih =>
        rcases hx with ⟨y, hxy, hyz⟩
        rcases ih with ⟨ys, hxs, hzs⟩
        exact ⟨y :: ys, List.Forall₂.cons hxy hxs, List.Forall₂.cons hyz hzs⟩

/-- What is related to a list in two parts is in two parts too. -/
theorem exists_of_forall₂_append {R : α → β → Prop} {xs xs' : List α} {zs : List β}
    (h : List.Forall₂ R (xs ++ xs') zs) :
    ∃ ys ys', zs = ys ++ ys' ∧ List.Forall₂ R xs ys ∧ List.Forall₂ R xs' ys' := by
  have htake := List.forall₂_take xs.length h
  have hdrop := List.forall₂_drop xs.length h
  rw [List.take_left] at htake
  rw [List.drop_left] at hdrop
  exact ⟨_, _, (List.take_append_drop xs.length zs).symm, htake, hdrop⟩

/-- There is something at each place exactly if there is a list of it. -/
theorem exists_forall₂_iff_forall_mem {R : α → β → Prop} (xs : List α) :
    (∃ ys, List.Forall₂ R xs ys) ↔ ∀ x ∈ xs, ∃ y, R x y := by
  induction xs with
  | nil => simp
  | cons x rest ih =>
      rw [List.forall_mem_cons, ← ih]
      constructor
      · rintro ⟨ys, h⟩
        rcases List.forall₂_cons_left_iff.mp h with ⟨y, ys', hy, hys', rfl⟩
        exact ⟨⟨y, hy⟩, ys', hys'⟩
      · rintro ⟨⟨y, hy⟩, ys, hys⟩
        exact ⟨y :: ys, List.Forall₂.cons hy hys⟩

/-- Two lists are mapped to the same list exactly if their items are, place by place. -/
theorem map_eq_map_iff_forall₂ (f : α → γ) (g : β → γ) (xs : List α) (ys : List β) :
    xs.map f = ys.map g ↔ List.Forall₂ (fun x y => f x = g y) xs ys := by
  rw [← List.forall₂_eq_eq_eq, List.forall₂_map_left_iff, List.forall₂_map_right_iff]

/-- Relations that agree on the items of a list agree place by place. -/
theorem forall₂_congr_of_mem {R S : α → β → Prop} {xs : List α}
    (h : ∀ x ∈ xs, ∀ y, R x y ↔ S x y) (ys : List β) :
    List.Forall₂ R xs ys ↔ List.Forall₂ S xs ys := by
  induction xs generalizing ys with
  | nil => rw [List.forall₂_nil_left_iff, List.forall₂_nil_left_iff]
  | cons x rest ih =>
      rw [List.forall_mem_cons] at h
      simp only [List.forall₂_cons_left_iff, h.1, ih h.2]

end Places

end WordMachine
