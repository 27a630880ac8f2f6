import Go2Cbt.Lib.Transition
import Mathlib.Algebra.BigOperators.Group.Finset.Piecewise
import Mathlib.Algebra.Order.BigOperators.Group.Finset
import Mathlib.Data.Set.Basic

/-!
# Lib — machines on one store

Machines with a state each work on a store that they share, in any order (`Interleaved`).  If each
of them keeps to places of its own, and what it does depends on nothing of the store but those
places (`Confined`), then every machine does what it could do alone, on a store that agrees on its
places (`run_alone`), and a place that no machine owns stays as it is (`view_run`).
-/

namespace Transition

variable {ι σ η α υ ο : Type}

/-- One step of one of the machines. -/
def Interleaved (step : ι → σ × η → α → σ × η → Prop) (s : (ι → σ) × η) (a : ι × α)
    (t : (ι → σ) × η) : Prop :=
  step a.1 (s.1 a.1, s.2) a.2 (t.1 a.1, t.2) ∧ ∀ i, i ≠ a.1 → t.1 i = s.1 i

/-- The stores agree on these places. -/
def Agree (view : υ → η → ο) (places : Set υ) (h k : η) : Prop := ∀ u ∈ places, view u h = view u k

/-- Machines that keep to their places, in states that are `ok`. -/
structure Confined (step : ι → σ × η → α → σ × η → Prop) (own : ι → Set υ) (view : υ → η → ο)
    (ok : ι → σ → Prop) : Prop where
  apart : ∀ i j, i ≠ j → ∀ u ∈ own i, u ∉ own j
  keeps : ∀ i s a t, ok i s.1 → step i s a t → ok i t.1
  frame : ∀ i s a t, ok i s.1 → step i s a t → ∀ u ∉ own i, view u t.2 = view u s.2
  replay : ∀ i s a t, ok i s.1 → step i s a t → ∀ h, Agree view (own i) h s.2 →
    ∃ h', step i (s.1, h) a (t.1, h') ∧ Agree view (own i) h' t.2

/-- While the others wait, a machine goes on as it could alone. -/
theorem run_of_machine [DecidableEq ι] {step : ι → σ × η → α → σ × η → Prop} {i : ι}
    {s : (ι → σ) × η} {t : σ × η} {as : List α} (r : Run (step i) (s.1 i, s.2) as t) :
    Run (Interleaved step) s (as.map fun a => (i, a)) (Function.update s.1 i t.1, t.2) := by
  generalize hu : (s.1 i, s.2) = u at r
  induction r generalizing s with
  | nil =>
      subst hu
      rw [Function.update_eq_self]
      exact .nil s
  | @cons u v t a as hst _ ih =>
      subst hu
      have hafter := ih (s := (Function.update s.1 i v.1, v.2))
        (Prod.ext (Function.update_self ..) rfl)
      rw [Function.update_idem] at hafter
      refine .cons ⟨?_, fun j hj => Function.update_of_ne hj _ _⟩ hafter
      dsimp only
      rw [Function.update_self]
      exact hst

namespace Confined

variable {step : ι → σ × η → α → σ × η → Prop} {own : ι → Set υ} {view : υ → η → ο}
  {ok : ι → σ → Prop} (hc : Confined step own view ok)
include hc

theorem ok_step {s t : (ι → σ) × η} {a : ι × α} (hok : ∀ i, ok i (s.1 i))
    (hst : Interleaved step s a t) (i : ι) : ok i (t.1 i) := by
  by_cases hi : i = a.1
  · subst hi
    exact hc.keeps _ _ _ _ (hok _) hst.1
  · rw [hst.2 i hi]
    exact hok i

theorem ok_run {s t : (ι → σ) × η} {as : List (ι × α)} (r : Run (Interleaved step) s as t)
    (hok : ∀ i, ok i (s.1 i)) : ∀ i, ok i (t.1 i) :=
  r.preserves (P := fun s => ∀ i, ok i (s.1 i)) (fun _ _ _ h hst => hc.ok_step h hst) hok

/-- What nobody owns, nobody changes. -/
theorem view_run {s t : (ι → σ) × η} {as : List (ι × α)} (r : Run (Interleaved step) s as t)
    (hok : ∀ i, ok i (s.1 i)) {u : υ} (hu : ∀ i, u ∉ own i) : view u t.2 = view u s.2 := by
  induction r with
  | nil => rfl
  | cons hst _ ih =>
      exact (ih (hc.ok_step hok hst)).trans (hc.frame _ _ _ _ (hok _) hst.1 u (hu _))

/-- **Each machine does what it could do alone.** -/
theorem run_alone [DecidableEq ι] {s t : (ι → σ) × η} {as : List (ι × α)}
    (r : Run (Interleaved step) s as t) (hok : ∀ i, ok i (s.1 i)) (i : ι) {h : η}
    (hview : Agree view (own i) h s.2) :
    ∃ h', Run (step i) (s.1 i, h) ((as.filter fun a => a.1 = i).map Prod.snd) (t.1 i, h') ∧
      Agree view (own i) h' t.2 := by
  induction r generalizing h with
  | nil => exact ⟨h, .nil _, hview⟩
  | @cons s s' t a as hst _ ih =>
      by_cases hi : a.1 = i
      · subst hi
        obtain ⟨h', hst', hview'⟩ := hc.replay _ _ _ _ (hok _) hst.1 h hview
        obtain ⟨h'', r', hview''⟩ := ih (hc.ok_step hok hst) hview'
        rw [List.filter_cons_of_pos (by simp), List.map_cons]
        exact ⟨h'', .cons hst' r', hview''⟩
      · -- the step of another machine, that leaves the places of this one alone
        have hkept : Agree view (own i) h s'.2 := fun u hu =>
          (hview u hu).trans (hc.frame _ _ _ _ (hok _) hst.1 u
            (hc.apart _ _ (Ne.symm hi) u hu)).symm
        obtain ⟨h', r', hview'⟩ := ih (hc.ok_step hok hst) hkept
        rw [List.filter_cons_of_neg (by simpa using hi), ← hst.2 i (Ne.symm hi)]
        exact ⟨h', r', hview'⟩

theorem reachable_alone [DecidableEq ι] {start : ι → σ} {h₀ : η} (hok : ∀ i, ok i (start i))
    {t : (ι → σ) × η} (h : Reachable (Interleaved step) (· = (start, h₀)) t) (i : ι) :
    ∃ h', Reachable (step i) (· = (start i, h₀)) (t.1 i, h') ∧ Agree view (own i) h' t.2 := by
  obtain ⟨_, as, rfl, r⟩ := h
  obtain ⟨h', r', hview⟩ := hc.run_alone r hok i (h := h₀) fun _ _ => rfl
  exact ⟨h', ⟨_, _, rfl, r'⟩, hview⟩

/-- What a machine could do alone, it can do. -/
theorem step_of_alone [DecidableEq ι] {s : (ι → σ) × η} {i : ι} (hok : ok i (s.1 i)) {h : η}
    (hview : Agree view (own i) h s.2) {a : α} {t : σ × η} (hst : step i (s.1 i, h) a t) :
    ∃ t', Interleaved step s (i, a) t' := by
  obtain ⟨h', hst', -⟩ := hc.replay _ _ _ _ hok hst s.2 fun u hu => (hview u hu).symm
  refine ⟨(Function.update s.1 i t.1, h'), ?_, fun j hj => Function.update_of_ne hj _ _⟩
  dsimp only
  rw [Function.update_self]
  exact hst'

end Confined

/-! ### Runs that are bounded -/

/-- The steps of an interleaving are those of its machines. -/
theorem length_eq_sum_filter [Fintype ι] [DecidableEq ι] (as : List (ι × α)) :
    as.length = ∑ i, (as.filter fun a => a.1 = i).length := by
  induction as with
  | nil => simp
  | cons a as ih =>
      have hcons : ∀ i, ((a :: as).filter fun a => a.1 = i).length
          = (as.filter fun a => a.1 = i).length + if a.1 = i then 1 else 0 := by
        intro i
        by_cases hi : a.1 = i <;> simp [hi]
      rw [List.length_cons, ih, Finset.sum_congr rfl fun i _ => hcons i, Finset.sum_add_distrib,
        Finset.sum_ite_eq, if_pos (Finset.mem_univ _)]

theorem length_le_sum [Fintype ι] [DecidableEq ι] (as : List (ι × α)) {bound : ι → Nat}
    (h : ∀ i, (as.filter fun a => a.1 = i).length ≤ bound i) : as.length ≤ ∑ i, bound i := by
  rw [length_eq_sum_filter]
  exact Finset.sum_le_sum fun i _ => h i

/-- **Where runs are bounded, one of them ends where nothing can be done.** -/
theorem exists_run_stuck {τ β : Type} {step : τ → β → τ → Prop} {s : τ} {n : Nat}
    (hbound : ∀ as t, Run step s as t → as.length ≤ n) :
    ∃ as t, Run step s as t ∧ ∀ a u, ¬ step t a u := by
  induction n generalizing s with
  | zero =>
      refine ⟨[], s, .nil s, fun a u hst => ?_⟩
      have hone := hbound [a] u (.cons hst (.nil u))
      exact absurd hone (by simp)
  | succ n ih =>
      by_cases hgoes : ∃ a u, step s a u
      · obtain ⟨a, u, hst⟩ := hgoes
        obtain ⟨as, t, r, hstuck⟩ := ih (s := u) fun as t r =>
          Nat.succ_le_succ_iff.mp (hbound (a :: as) t (.cons hst r))
        exact ⟨a :: as, t, .cons hst r, hstuck⟩
      · exact ⟨[], s, .nil s, fun a u hst => hgoes ⟨a, u, hst⟩⟩

end Transition
