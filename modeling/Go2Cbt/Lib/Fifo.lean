import Mathlib.Data.List.Basic

/-!
# Lib — queues with their history

A queue as what arrived since it was last cleared and how much of that has been taken from the
front.  What it holds is the rest, in the order of arrival.
-/

/-- A first-in first-out queue. -/
structure Fifo (α : Type*) where
  arrived : List α
  taken : Nat
  taken_le : taken ≤ arrived.length

namespace Fifo

variable {α : Type*}

/-- What the queue holds, the front first. -/
def contents (q : Fifo α) : List α := q.arrived.drop q.taken

/-- How much it holds. -/
def available (q : Fifo α) : Nat := q.arrived.length - q.taken

/-- Nothing has arrived. -/
def empty : Fifo α := ⟨[], 0, Nat.zero_le _⟩

/-- `xs` arrives. -/
def push (q : Fifo α) (xs : List α) : Fifo α where
  arrived := q.arrived ++ xs
  taken := q.taken
  taken_le := by
    rw [List.length_append]
    exact Nat.le_trans q.taken_le (Nat.le_add_right _ _)

/-- `n` elements are taken from the front, or all there are. -/
def pop (q : Fifo α) (n : Nat) : Fifo α where
  arrived := q.arrived
  taken := q.taken + min n q.available
  taken_le := by
    have h := q.taken_le
    rw [available]
    omega

@[simp] theorem length_contents (q : Fifo α) : q.contents.length = q.available := by
  rw [contents, List.length_drop, available]

@[simp] theorem contents_empty : (empty : Fifo α).contents = [] := rfl

@[simp] theorem contents_push (q : Fifo α) (xs : List α) :
    (q.push xs).contents = q.contents ++ xs :=
  List.drop_append_of_le_length q.taken_le

@[simp] theorem contents_pop (q : Fifo α) (n : Nat) : (q.pop n).contents = q.contents.drop n := by
  change q.arrived.drop (q.taken + min n q.available) = (q.arrived.drop q.taken).drop n
  rw [List.drop_drop]
  rcases Nat.le_total n q.available with h | h
  · rw [Nat.min_eq_left h]
  · -- more is asked for than there is
    have hle := q.taken_le
    rw [Nat.min_eq_right h, available]
    rw [available] at h
    rw [List.drop_eq_nil_of_le (by omega), List.drop_eq_nil_of_le (by omega)]

end Fifo
