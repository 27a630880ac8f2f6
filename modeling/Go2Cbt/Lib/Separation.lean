import Mathlib.Data.List.Basic

/-!
# Lib — machines with many users

Every action of a machine is on behalf of one user, and `view u s` is what user `u` has of a state.
If an action leaves the view of every other user alone, and what it makes of the view of its own
user depends on that view only, a user who starts with the same view ends with the same view as if
it had been alone.
-/

variable {σ α υ ο : Type*}

/-- The users of a machine have nothing to do with each other. -/
structure Separates (step : σ → α → σ) (user : α → υ) (view : υ → σ → ο) : Prop where
  other : ∀ u s a, user a ≠ u → view u (step s a) = view u s
  own : ∀ s t a, view (user a) s = view (user a) t → view (user a) (step s a) = view (user a) (step t a)

namespace Separates

variable {step : σ → α → σ} {user : α → υ} {view : υ → σ → ο} [DecidableEq υ]

/-- **A user has what it would have alone.** -/
theorem view_foldl (h : Separates step user view) (u : υ) (as : List α) {s t : σ}
    (hview : view u s = view u t) :
    view u (as.foldl step s) = view u ((as.filter fun a => user a = u).foldl step t) := by
  induction as generalizing s t with
  | nil => exact hview
  | cons a as ih =>
      rw [List.foldl_cons]
      by_cases ha : user a = u
      · rw [List.filter_cons_of_pos (by simpa using ha), List.foldl_cons]
        subst ha
        exact ih (h.own s t a hview)
      · rw [List.filter_cons_of_neg (by simpa using ha)]
        exact ih ((h.other u s a ha).trans hview)

end Separates
