import Mathlib.Algebra.BigOperators.Group.List.Basic
import Mathlib.Data.List.SplitBy
import Mathlib.Data.List.Range

/-!
# Lib — runs of numbers

The numbers below a bound that have a property, in ascending order, and the runs of consecutive
numbers among them.  What a pass from the left knows when it has reached `n` is the runs that have
ended and where the one that is still open began (`runs_below`).
-/

namespace Runs

/-- The numbers below `n` with the property. -/
def below (p : Nat → Bool) (n : Nat) : List Nat := (List.range n).filter p

/-- The maximal runs of consecutive numbers of a list. -/
def runs (l : List Nat) : List (List Nat) := l.splitBy fun a b => b == a + 1

/-- The length of the longest of them. -/
def longest (rs : List (List Nat)) : Nat := rs.foldl (fun m r => max m r.length) 0

variable {p : Nat → Bool} {c n : Nat}

theorem below_succ_of_true (h : p n = true) : below p (n + 1) = below p n ++ [n] := by
  rw [below, List.range_succ, List.filter_append, List.filter_cons_of_pos h]
  rfl

theorem below_succ_of_false (h : p n = false) : below p (n + 1) = below p n := by
  rw [below, List.range_succ, List.filter_append, List.filter_cons_of_neg (by simp [h])]
  exact List.append_nil _

theorem length_below_le (p : Nat → Bool) (n : Nat) : (below p n).length ≤ n := by
  have h := List.length_filter_le p (List.range n)
  rwa [List.length_range] at h

/-- Every run holds at least one number. -/
theorem length_runs_le (l : List Nat) : (runs l).length ≤ l.length := by
  have hpos : ∀ n ∈ (runs l).map List.length, 1 ≤ n := by
    intro n hn
    obtain ⟨r, hr, rfl⟩ := List.mem_map.mp hn
    exact List.length_pos_of_ne_nil (List.ne_nil_of_mem_splitBy hr)
  have hsum : ((runs l).map List.length).sum = l.length := by
    rw [← List.length_flatten, runs, List.flatten_splitBy]
  have hcount : ((runs l).map List.length).length = (runs l).length := List.length_map _
  rw [← hsum, ← hcount]
  exact List.length_le_sum_of_one_le _ hpos

theorem longest_append (rs : List (List Nat)) (r : List Nat) :
    longest (rs ++ [r]) = max (longest rs) r.length := by
  rw [longest, List.foldl_append]
  rfl

/-- Numbers in a row are one run. -/
theorem runs_range' {len : Nat} (h : 0 < len) : runs (List.range' c len) = [List.range' c len] := by
  refine List.splitBy_of_isChain ?_ ?_
  · intro hnil
    rw [List.range'_eq_nil_iff] at hnil
    omega
  · have hchain := List.isChain_range' c len 1
    refine hchain.imp ?_
    rintro a b rfl
    exact beq_self_eq_true _

/-- Where every number from `c` on has the property, the list goes on with these numbers. -/
theorem below_of_all (hle : c ≤ n) (hall : ∀ j, c ≤ j → j < n → p j = true) :
    below p n = below p c ++ List.range' c (n - c) := by
  have hsplit : List.range n = List.range c ++ List.range' c (n - c) := by
    obtain ⟨k, rfl⟩ := Nat.exists_eq_add_of_le hle
    rw [Nat.add_sub_cancel_left, List.range_eq_range', List.range_eq_range', ← List.range'_append]
    simp
  rw [below, hsplit, List.filter_append]
  congr 1
  rw [List.filter_eq_self]
  intro j hj
  have hbounds := List.mem_range'_1.mp hj
  exact hall j hbounds.1 (by omega)

/-- **The runs below `n`**: those that ended before `c`, and the one from `c` to `n`. -/
theorem runs_below (hlt : c < n) (hall : ∀ j, c ≤ j → j < n → p j = true)
    (hgap : ∀ j, j + 1 = c → p j = false) :
    runs (below p n) = runs (below p c) ++ [List.range' c (n - c)] := by
  rw [below_of_all hlt.le hall, ← runs_range' (Nat.sub_pos_of_lt hlt)]
  refine List.splitBy_append ?_
  -- the last number in front is not the one before `c`
  intro x hx y hy
  have hmem : x ∈ below p c := List.mem_of_getLast? hx
  have hc : y = c := by
    rw [List.head?_range', if_neg (by omega)] at hy
    exact (Option.some.inj hy).symm
  subst hc
  rw [beq_eq_false_iff_ne]
  intro heq
  have hx := List.of_mem_filter hmem
  rw [hgap x heq.symm] at hx
  exact Bool.false_ne_true hx

end Runs
