import Mathlib.Data.List.Nodup
import Mathlib.Data.Set.Insert
import Mathlib.Logic.Function.Basic

/-!
# Lib — the descriptors of a process

The kernel's table: which descriptors are open, and which were closed without being open, as when
one is closed twice.  `Holds t S`: open are those of `S`, and every close was of an open one.
-/

/-- The table of descriptors. -/
structure Descriptors where
  isOpen : Nat → Bool
  badCloses : List Nat

namespace Descriptors

/-- The kernel gives out a descriptor. -/
def opened (fd : Nat) (t : Descriptors) : Descriptors :=
  { t with isOpen := Function.update t.isOpen fd true }

/-- `close`. -/
def closed (fd : Nat) (t : Descriptors) : Descriptors :=
  if t.isOpen fd then { t with isOpen := Function.update t.isOpen fd false }
  else { t with badCloses := t.badCloses ++ [fd] }

section Closes

variable {t : Descriptors} {fd : Nat}

theorem isOpen_closed_of_ne {n : Nat} (hne : n ≠ fd) : (t.closed n).isOpen fd = t.isOpen fd := by
  rw [closed]
  split
  · exact Function.update_of_ne hne.symm _ _
  · rfl

/-- Closing other descriptors leaves one as it is. -/
theorem isOpen_foldl_closed {fds : List Nat} (hfd : fd ∉ fds) :
    (fds.foldl (fun t fd => t.closed fd) t).isOpen fd = t.isOpen fd := by
  induction fds generalizing t with
  | nil => rfl
  | cons n fds ih =>
      obtain ⟨hne, hfds⟩ := List.ne_and_not_mem_of_not_mem_cons hfd
      rw [List.foldl_cons, ih hfds, isOpen_closed_of_ne hne.symm]

theorem badCloses_closed_subset (n : Nat) : t.badCloses ⊆ (t.closed n).badCloses := by
  rw [closed]
  split
  · exact List.Subset.refl _
  · exact List.subset_append_left _ _

/-- **A descriptor that is not open is among those that are closed**: that is noted. -/
theorem mem_badCloses_foldl {fds : List Nat} (hopen : t.isOpen fd = false) (hfd : fd ∈ fds) :
    fd ∈ (fds.foldl (fun t fd => t.closed fd) t).badCloses := by
  have hkeeps : ∀ (fds : List Nat) (t : Descriptors), fd ∈ t.badCloses →
      fd ∈ (fds.foldl (fun t fd => t.closed fd) t).badCloses := by
    intro fds
    induction fds with
    | nil => exact fun _ h => h
    | cons n fds ih => exact fun t h => ih (t.closed n) (badCloses_closed_subset n h)
  induction fds generalizing t with
  | nil => exact absurd hfd List.not_mem_nil
  | cons n fds ih =>
      rw [List.foldl_cons]
      by_cases hn : n = fd
      · subst hn
        refine hkeeps fds _ ?_
        rw [closed, hopen]
        exact List.mem_append_right _ (List.mem_singleton_self _)
      · exact ih ((isOpen_closed_of_ne hn).trans hopen)
          (List.mem_of_ne_of_mem (Ne.symm hn) hfd)

end Closes

/-- Open are those of `S`, and nothing was closed that was not open. -/
structure Holds (t : Descriptors) (S : Set Nat) : Prop where
  isOpen_iff : ∀ fd, t.isOpen fd = true ↔ fd ∈ S
  badCloses_eq : t.badCloses = []

namespace Holds

variable {t : Descriptors} {S S' : Set Nat} {fd : Nat}

theorem congr (h : t.Holds S) (hS : ∀ fd, fd ∈ S' ↔ fd ∈ S) : t.Holds S' :=
  ⟨fun fd => (h.isOpen_iff fd).trans (hS fd).symm, h.badCloses_eq⟩

theorem notMem_iff (h : t.Holds S) : t.isOpen fd = false ↔ fd ∉ S := by
  rw [← h.isOpen_iff, Bool.not_eq_true]

theorem opened (h : t.Holds S) (fd : Nat) : (t.opened fd).Holds (insert fd S) where
  isOpen_iff n := by
    rw [Descriptors.opened]
    dsimp only
    by_cases hn : n = fd
    · subst hn
      rw [Function.update_self]
      exact iff_of_true rfl (Set.mem_insert _ _)
    · rw [Function.update_of_ne hn, h.isOpen_iff]
      exact (or_iff_right hn).symm
  badCloses_eq := h.badCloses_eq

theorem closed (h : t.Holds S) (hfd : fd ∈ S) : (t.closed fd).Holds (S \ {fd}) := by
  rw [Descriptors.closed, if_pos ((h.isOpen_iff fd).mpr hfd)]
  refine ⟨fun n => ?_, h.badCloses_eq⟩
  dsimp only
  by_cases hn : n = fd
  · subst hn
    rw [Function.update_self]
    exact iff_of_false Bool.false_ne_true fun hmem => hmem.2 rfl
  · rw [Function.update_of_ne hn, h.isOpen_iff]
    exact (and_iff_left hn).symm

/-- Different open descriptors can be closed one after the other. -/
theorem foldl_closed (h : t.Holds S) {fds : List Nat} (hnodup : fds.Nodup)
    (hopen : ∀ fd ∈ fds, fd ∈ S) :
    (fds.foldl (fun t fd => t.closed fd) t).Holds (S \ { fd | fd ∈ fds }) := by
  induction fds generalizing t S with
  | nil => exact h.congr fun fd => and_iff_left List.not_mem_nil
  | cons fd fds ih =>
      obtain ⟨hfd, hnodup⟩ := List.nodup_cons.mp hnodup
      have hrest := ih (h.closed (hopen fd List.mem_cons_self)) hnodup fun n hn =>
        ⟨hopen n (List.mem_cons_of_mem _ hn), fun heq => hfd (heq ▸ hn)⟩
      refine hrest.congr fun n => ?_
      simp only [Set.mem_sdiff, Set.mem_ofPred_eq, Set.mem_singleton_iff, List.mem_cons, not_or]
      tauto

end Holds

end Descriptors
