import Mathlib.Data.List.Forall2

/-!
# Computations that may fail

Problems are validated and texts are read in stages, each of which may end with an error.
What follows is the little that is needed to take such a computation apart: it succeeds if
and only if its stages do, and fails as the first of them that does.

Some computations are written down once more with a third outcome, that there is no result:
for a position that is out of range, or for a case that is left out. That they have a result
all the same is put together in the same way (`TensorContraction.Yields`).
-/

namespace TensorContraction

variable {ε α β : Type}

/-- A computation in two stages succeeds if and only if both stages do. -/
theorem bind_eq_ok_iff {x : Except ε α} {f : α → Except ε β} {z : β} :
    x >>= f = .ok z ↔ ∃ y, x = .ok y ∧ f y = .ok z := by
  constructor
  · intro h
    cases x with
    | error e => cases h
    | ok y => exact ⟨y, rfl, h⟩
  · rintro ⟨y, rfl, h⟩
    exact h

/-- **A check before a stage**: both have to succeed. -/
theorem check_bind_eq_ok_iff {x : Except ε Unit} {f : Unit → Except ε β} {z : β} :
    x >>= f = .ok z ↔ x = .ok () ∧ f () = .ok z := by
  rw [bind_eq_ok_iff]
  constructor
  · rintro ⟨⟨⟩, hx, h⟩
    exact ⟨hx, h⟩
  · rintro ⟨hx, h⟩
    exact ⟨(), hx, h⟩

/-- A computation in two stages fails as the first of them that does. -/
theorem bind_eq_error_iff {x : Except ε α} {f : α → Except ε β} {e : ε} :
    x >>= f = .error e ↔ x = .error e ∨ ∃ y, x = .ok y ∧ f y = .error e := by
  cases x with
  | error e' =>
    constructor
    · rintro ⟨⟩
      exact .inl rfl
    · rintro (⟨⟨⟩⟩ | ⟨y, ⟨⟩, -⟩)
      rfl
  | ok y =>
    constructor
    · intro h
      exact .inr ⟨y, rfl, h⟩
    · rintro (⟨⟨⟩⟩ | ⟨y', ⟨⟩, h⟩)
      exact h

/-- **A check before a stage** fails if it fails itself, or if it succeeds and the stage
fails. -/
theorem check_bind_eq_error_iff {x : Except ε Unit} {f : Unit → Except ε β} {e : ε} :
    x >>= f = .error e ↔ x = .error e ∨ x = .ok () ∧ f () = .error e := by
  rw [bind_eq_error_iff]
  refine or_congr_right ⟨?_, fun h => ⟨(), h⟩⟩
  rintro ⟨⟨⟩, h⟩
  exact h

/-- **A computation in many stages** fails at the first one that does: those before it
succeed, and those after it do not matter. -/
theorem foldlM_eq_error_iff {f : β → α → Except ε β} {l : List α} {y : β} {e : ε} :
    l.foldlM f y = .error e ↔ ∃ before x after y', l = before ++ x :: after ∧
      before.foldlM f y = .ok y' ∧ f y' x = .error e := by
  constructor
  · intro h
    induction l generalizing y with
    | nil => cases h
    | cons x l ih =>
      rw [List.foldlM_cons] at h
      obtain hx | ⟨y', hx, hl⟩ := bind_eq_error_iff.1 h
      · exact ⟨[], x, l, y, rfl, rfl, hx⟩
      · obtain ⟨before, x', after, final, rfl, hbefore, hx'⟩ := ih hl
        refine ⟨x :: before, x', after, final, rfl, ?_, hx'⟩
        rw [List.foldlM_cons]
        exact bind_eq_ok_iff.2 ⟨y', hx, hbefore⟩
  · rintro ⟨before, x, after, y', rfl, hbefore, hx⟩
    rw [List.foldlM_append]
    refine bind_eq_error_iff.2 (.inr ⟨y', hbefore, ?_⟩)
    rw [List.foldlM_cons]
    exact bind_eq_error_iff.2 (.inl hx)

/-- A guard that lets a computation go on succeeds if and only if it does. -/
theorem guard_eq_ok_iff {P : Prop} [Decidable P] {e : ε} {x : Except ε α} {z : α} :
    (if P then .error e else x) = .ok z ↔ ¬P ∧ x = .ok z := by
  by_cases h : P
  · rw [if_pos h]
    constructor
    · intro herror
      cases herror
    · rintro ⟨hnot, -⟩
      exact absurd h hnot
  · rw [if_neg h]
    exact (and_iff_right h).symm

/-- A partial function has a list of values if it has them entry by entry. -/
theorem mapM_eq_some {f : α → Option β} {l : List α} {values : List β}
    (h : List.Forall₂ (fun value x => f x = some value) values l) : l.mapM f = some values := by
  induction h with
  | nil => rfl
  | cons hx _ ih =>
    rw [List.mapM_cons, hx, ih]
    rfl

/-- Partial functions that agree on a list have the same values on it. -/
theorem mapM_congr {f g : α → Option β} {l : List α} (h : ∀ x ∈ l, f x = g x) :
    l.mapM f = l.mapM g := by
  induction l with
  | nil => rfl
  | cons x l ih =>
    obtain ⟨hx, hl⟩ := List.forall_mem_cons.1 h
    rw [List.mapM_cons, List.mapM_cons, hx, ih hl]

/-- A partial function that is defined on a whole list is defined entry by entry. -/
theorem mapM_eq_some_map {f : α → Option β} {g : α → β} {l : List α}
    (h : ∀ x ∈ l, f x = some (g x)) : l.mapM f = some (l.map g) := by
  refine mapM_eq_some ?_
  rw [List.forall₂_map_left_iff, List.forall₂_same]
  exact h

/-- A partial function is not defined on a list with an entry on which it is not defined. -/
theorem mapM_eq_none {f : α → Option β} {l : List α} {x : α} (hx : x ∈ l) (h : f x = none) :
    l.mapM f = none := by
  induction l with
  | nil => cases hx
  | cons y l ih =>
    rw [List.mapM_cons]
    rcases List.mem_cons.1 hx with rfl | hx
    · rw [h]
      rfl
    · rw [ih hx]
      cases f y <;> rfl

/-! ### Computations that may have no result -/

/-- **A computation has a result**, whether it succeeds or fails. -/
def Yields (x : ExceptT ε Option α) (y : Except ε α) : Prop :=
  x.run = some y

namespace Yields

variable {x : ExceptT ε Option α} {y : Except ε α}

theorem pure (a : α) : Yields (Pure.pure a : ExceptT ε Option α) (.ok a) := rfl

theorem throw (e : ε) : Yields (MonadExcept.throw e : ExceptT ε Option α) (.error e) := rfl

/-- **Two stages have a result** if the first one does, and the second one does after it. -/
theorem bind {f : α → ExceptT ε Option β} {g : α → Except ε β} (hx : Yields x y)
    (hf : ∀ a, y = .ok a → Yields (f a) (g a)) : Yields (x >>= f) (y >>= g) := by
  rw [Yields, ExceptT.run_bind, hx]
  cases y with
  | error e => rfl
  | ok a => exact hf a rfl

/-- A stage that fails ends the computation. -/
theorem bind_error {e : ε} {f : α → ExceptT ε Option β} (hx : Yields x (.error e)) :
    Yields (x >>= f) (.error e) := by
  rw [Yields, ExceptT.run_bind, hx]
  rfl

/-- A result may be passed on in another form. -/
theorem map (hx : Yields x y) (f : α → β) : Yields (x >>= fun a => Pure.pure (f a)) (y.map f) := by
  rw [Yields, ExceptT.run_bind, hx]
  cases y <;> rfl

/-- A stage that succeeds is passed. -/
theorem bind_ok {a : α} {f : α → ExceptT ε Option β} {z : Except ε β} (hx : Yields x (.ok a))
    (hf : Yields (f a) z) : Yields (x >>= f) z := by
  rw [Yields, ExceptT.run_bind, hx]
  exact hf

theorem ite {P : Prop} [Decidable P] {x' : ExceptT ε Option α} {y' : Except ε α}
    (hx : P → Yields x y) (hx' : ¬P → Yields x' y') :
    Yields (if P then x else x') (if P then y else y') := by
  split
  · next h => exact hx h
  · next h => exact hx' h

end Yields

end TensorContraction
