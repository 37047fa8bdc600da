import Mathlib.Data.List.Forall2
import RelEngine.Error

/-!
# Computations that can fail

Statements are lowered and run by computations in `Except Error`. This module opens such
computations once: what it means that a sequence of two steps, or a step for each element of a
list, ends with a result or with an error. A step list is always left at the *first* element that
fails.

`FailsOnly P x` bounds the errors of a computation without saying whether it fails. The bound is
carried through sequences, so that the errors of a long computation are read off its steps.

* `mapM_eq_ok_iff`, `mapM_eq_error_iff` — how a step for each element ends;
* `FailsOnly.bind`, `FailsOnly.mapM` — the bound of a sequence.
-/

namespace RelEngine

variable {ε α β γ : Type}

/-! ### Two steps -/

@[simp] theorem ok_bind (a : α) (f : α → Except ε β) : (Except.ok a >>= f) = f a := rfl

@[simp] theorem error_bind (e : ε) (f : α → Except ε β) :
    ((Except.error e : Except ε α) >>= f) = .error e := rfl

/-- A sequence has a result iff its steps have, one after the other. -/
theorem bind_eq_ok_iff {x : Except ε α} {f : α → Except ε β} {b : β} :
    (x >>= f) = .ok b ↔ ∃ a, x = .ok a ∧ f a = .ok b := by
  cases x <;> simp

/-! ### Related lists -/

/-- An element of the second list has one of the first at its place. -/
theorem exists_of_mem_right {R : α → β → Prop} {xs : List α} {ys : List β}
    (h : List.Forall₂ R xs ys) {y : β} (hy : y ∈ ys) : ∃ x ∈ xs, R x y := by
  induction h with
  | nil => cases hy
  | @cons x y' xs ys related _ ih =>
    rcases List.mem_cons.1 hy with rfl | hy
    · exact ⟨x, by simp, related⟩
    · obtain ⟨x', hx', related'⟩ := ih hy
      exact ⟨x', List.mem_cons_of_mem _ hx', related'⟩

/-- An element of the first list is related to the one at its place in the second. -/
theorem exists_getElem?_of_forall₂ {R : α → β → Prop} {xs : List α} {ys : List β}
    (h : List.Forall₂ R xs ys) : ∀ {i : Nat} {x : α}, xs[i]? = some x →
      ∃ y, ys[i]? = some y ∧ R x y := by
  induction h with
  | nil => intro i x hx; cases hx
  | @cons x₀ y₀ xs ys related _ ih =>
    intro i x hx
    cases i with
    | zero =>
      obtain rfl : x₀ = x := Option.some.inj hx
      exact ⟨y₀, rfl, related⟩
    | succ i => exact ih hx

/-- Elements are related through a third one each iff their lists are through a third list. -/
theorem forall₂_exists_iff {P : α → γ → Prop} {Q : γ → β → Prop} {xs : List α} {ys : List β} :
    List.Forall₂ (fun x y => ∃ z, P x z ∧ Q z y) xs ys ↔
      ∃ zs, List.Forall₂ P xs zs ∧ List.Forall₂ Q zs ys := by
  constructor
  · intro h
    -- the third list grows with the two
    induction h with
    | nil => exact ⟨[], .nil, .nil⟩
    | cons here _ ih =>
      obtain ⟨z, left, right⟩ := here
      obtain ⟨zs, lefts, rights⟩ := ih
      exact ⟨z :: zs, .cons left lefts, .cons right rights⟩
  · rintro ⟨zs, lefts, rights⟩
    -- here the three lists are taken apart together
    induction lefts generalizing ys with
    | nil =>
      cases rights
      exact .nil
    | @cons x z _ _ left _ ih =>
      cases rights with
      | cons right rights => exact .cons ⟨z, left, right⟩ (ih rights)

/-- A list of images has the image of each element in its place. -/
theorem eq_map_iff_forall₂ {f : α → β} {xs : List α} {ys : List β} :
    ys = xs.map f ↔ List.Forall₂ (fun x y => y = f x) xs ys := by
  rw [← List.forall₂_eq_eq_eq, List.forall₂_map_right_iff]
  exact ⟨List.Forall₂.flip, List.Forall₂.flip⟩

/-- What is left behind after the last of some elements. -/
theorem getD_getLast?_cons (f : α → β) (first : α) (rest : List α) (otherwise : β) :
    ((first :: rest).getLast?.map f).getD otherwise
      = (rest.getLast?.map f).getD (f first) := by
  rw [List.getLast?_cons, Option.map_some, Option.getD_some, Option.getD_map]

/-! ### A step for each element -/

/-- A step for each element has a result iff every single step has. -/
theorem mapM_eq_ok_iff {f : α → Except ε β} {xs : List α} {ys : List β} :
    xs.mapM f = .ok ys ↔ List.Forall₂ (fun x y => f x = .ok y) xs ys := by
  induction xs generalizing ys with
  | nil =>
    rw [List.mapM_nil, List.forall₂_nil_left_iff]
    exact ⟨fun h => (Except.ok.inj h).symm, fun h => h ▸ rfl⟩
  | cons x xs ih =>
    rw [List.mapM_cons, List.forall₂_cons_left_iff, bind_eq_ok_iff]
    constructor
    · rintro ⟨y, hy, h⟩
      obtain ⟨rest, hrest, h⟩ := bind_eq_ok_iff.1 h
      exact ⟨y, rest, hy, ih.1 hrest, (Except.ok.inj h).symm⟩
    · rintro ⟨y, rest, hy, hrest, rfl⟩
      exact ⟨y, hy, bind_eq_ok_iff.2 ⟨rest, ih.2 hrest, rfl⟩⟩

/-- When every single step has a result of some kind, there is a list of such results. -/
theorem exists_mapM_forall₂ {f : α → Except ε β} {R : α → β → Prop} {xs : List α}
    (h : ∀ x ∈ xs, ∃ y, f x = .ok y ∧ R x y) : ∃ ys, xs.mapM f = .ok ys ∧ List.Forall₂ R xs ys := by
  induction xs with
  | nil => exact ⟨[], rfl, .nil⟩
  | cons x xs ih =>
    obtain ⟨y, hy, related⟩ := h x (by simp)
    obtain ⟨ys, hys, rest⟩ := ih fun z hz => h z (by simp [hz])
    exact ⟨y :: ys, by rw [List.mapM_cons, hy, hys]; rfl, .cons related rest⟩

/-- Steps that agree on the elements. -/
theorem mapM_congr {f g : α → Except ε β} {xs : List α} (h : ∀ x ∈ xs, f x = g x) :
    xs.mapM f = xs.mapM g := by
  induction xs with
  | nil => rfl
  | cons x xs ih =>
    rw [List.forall_mem_cons] at h
    rw [List.mapM_cons, List.mapM_cons, h.1, ih h.2]

/-- A step for each element fails with the error of the first element that fails. -/
theorem mapM_eq_error_iff {f : α → Except ε β} {xs : List α} {e : ε} :
    xs.mapM f = .error e ↔
      ∃ before x after, xs = before ++ x :: after ∧ (∀ y ∈ before, ∃ b, f y = .ok b) ∧
        f x = .error e := by
  constructor
  · intro h
    induction xs with
    | nil => cases h
    | cons x xs ih =>
      rw [List.mapM_cons] at h
      cases hx : f x with
      | error e' =>
        -- the list is left right here
        rw [hx, error_bind] at h
        cases h
        exact ⟨[], x, xs, rfl, by simp, hx⟩
      | ok b =>
        rw [hx, ok_bind] at h
        cases hxs : xs.mapM f with
        | ok ys => rw [hxs] at h; cases h
        | error e' =>
          -- it is left further behind, and `x` has passed
          rw [hxs, error_bind] at h
          cases h
          obtain ⟨before, y, after, rfl, hbefore, hy⟩ := ih hxs
          refine ⟨x :: before, y, after, rfl, ?_, hy⟩
          rintro z hz
          rcases List.mem_cons.1 hz with rfl | hz
          · exact ⟨b, hx⟩
          · exact hbefore z hz
  · rintro ⟨before, x, after, rfl, hbefore, hx⟩
    obtain ⟨ys, hys, -⟩ := exists_mapM_forall₂ (R := fun _ _ => True) fun y hy =>
      (hbefore y hy).imp fun b hb => ⟨hb, trivial⟩
    rw [List.mapM_append, hys, ok_bind, List.mapM_cons, hx]
    rfl

/-! ### Bounds on errors -/

/-- **The errors of a computation**: it fails, if at all, with an error that satisfies `P`. -/
def FailsOnly (P : ε → Prop) (x : Except ε α) : Prop := ∀ e, x = .error e → P e

section FailsOnly

variable {P : ε → Prop}

@[simp] theorem failsOnly_ok (a : α) : FailsOnly P (.ok a) := fun _ h => nomatch h

@[simp] theorem failsOnly_error {e : ε} : FailsOnly P (.error e : Except ε α) ↔ P e :=
  ⟨fun h => h e rfl, fun h _ he => Except.error.inj he ▸ h⟩

/-- A bound can be weakened. -/
theorem FailsOnly.mono {Q : ε → Prop} {x : Except ε α} (hx : FailsOnly P x)
    (weaker : ∀ e, P e → Q e) : FailsOnly Q x :=
  fun e h => weaker e (hx e h)

/-- A sequence fails as one of its two steps. -/
theorem FailsOnly.bind {x : Except ε α} {f : α → Except ε β} (hx : FailsOnly P x)
    (hf : ∀ a, FailsOnly P (f a)) : FailsOnly P (x >>= f) := by
  cases x with
  | error e => exact failsOnly_error.2 (failsOnly_error.1 hx)
  | ok a => exact hf a

theorem FailsOnly.map {x : Except ε α} (hx : FailsOnly P x) (f : α → β) :
    FailsOnly P (x.map f) := by
  cases x with
  | error e => exact failsOnly_error.2 (failsOnly_error.1 hx)
  | ok a => exact failsOnly_ok _

/-- A step for each element fails as it does on one of them. -/
theorem FailsOnly.mapM {f : α → Except ε β} {xs : List α} (hf : ∀ x ∈ xs, FailsOnly P (f x)) :
    FailsOnly P (xs.mapM f) := by
  intro e h
  -- the list is left at one element, with its error
  obtain ⟨before, x, after, rfl, -, hx⟩ := mapM_eq_error_iff.1 h
  exact hf x (by simp) e hx

end FailsOnly

end RelEngine
