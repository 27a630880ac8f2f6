import Mathlib.Data.List.Basic
import Mathlib.Data.List.Range

/-!
# Lib — a list cut into chunks

Chunk `i` of a list has the `n` elements from `i * n` on, and the last chunk what is left.  The
chunks concatenate to the list (`flatMap_chunk`), so that a list is known by its length and its
chunks, and a list can be turned into another one by putting in the chunks that differ
(`patch_eq`).  `Tiles` says that ranges lie one behind the other.
-/

namespace Chunks

/-- How many chunks of `n` there are in `total`. -/
def count (n total : Nat) : Nat := (total + n - 1) / n

/-- The length of chunk `i`. -/
def length (n total i : Nat) : Nat := min n (total - i * n)

/-- The ranges, given by start and length, cover what is from `lo` to `hi`, in order and without
gap, overlap or empty range. -/
def Tiles (lo : Nat) : List (Nat × Nat) → (hi : Nat) → Prop
  | [], hi => lo = hi
  | r :: rs, hi => r.1 = lo ∧ 0 < r.2 ∧ Tiles (lo + r.2) rs hi

/-- What remains after chunk `i`. -/
theorem sub_length (n total i : Nat) :
    total - i * n - length n total i = total - (i + 1) * n := by
  rw [length, Nat.succ_mul]
  omega

section

variable {n total i : Nat} (hn : 0 < n)
include hn

theorem lt_count_iff : i < count n total ↔ i * n < total := by
  rw [count, Nat.lt_div_iff_mul_lt hn]
  omega

/-- A chunk ends where the next one starts. -/
theorem mul_add_length (hi : i < count n total) :
    i * n + length n total i = min ((i + 1) * n) total := by
  have hstart := (lt_count_iff hn).mp hi
  rw [length, Nat.succ_mul]
  omega

/-- The length of a chunk by the remainder: the last one may be short. -/
theorem length_eq_mod (hi : i < count n total) :
    length n total i = if i + 1 = count n total ∧ 0 < total % n then total % n else n := by
  have hstart := (lt_count_iff hn).mp hi
  have hnext : i + 1 < count n total ↔ (i + 1) * n < total := lt_count_iff hn
  rw [Nat.add_mul, Nat.one_mul] at hnext
  rw [length]
  by_cases hlast : i + 1 = count n total
  · -- what remains is the remainder, or a whole chunk
    have hend : ¬ i * n + n < total := fun h => absurd (hnext.mpr h) (by omega)
    have hrest : total % n = (total - i * n) % n := by
      rw [← Nat.mul_add_mod' i n (total - i * n), Nat.add_sub_cancel' hstart.le]
    rcases Nat.lt_or_ge (total - i * n) n with hshort | hwhole
    · rw [Nat.mod_eq_of_lt hshort] at hrest
      rw [if_pos ⟨hlast, by omega⟩, hrest]
      omega
    · have hexact : total - i * n = n := by omega
      rw [hexact, Nat.mod_self] at hrest
      rw [if_neg (by omega)]
      omega
  · have hend : i * n + n < total := hnext.mp (by omega)
    rw [if_neg (fun h => hlast h.1)]
    omega

theorem length_pos (hi : i < count n total) : 0 < length n total i := by
  have hstart := (lt_count_iff hn).mp hi
  rw [length]
  omega

/-- A chunk is whole, unless it is a short last one. -/
theorem whole_iff (hi : i < count n total) :
    i * n + n ≤ total ↔ n ∣ total ∨ i + 1 < count n total := by
  have hstart := (lt_count_iff hn).mp hi
  rw [lt_count_iff hn, Nat.add_mul, Nat.one_mul]
  constructor
  · intro hfits
    rcases hfits.eq_or_lt with hlast | hlt
    · exact .inl ⟨i + 1, by rw [← hlast, Nat.mul_comm n, Nat.add_mul, Nat.one_mul]⟩
    · exact .inr hlt
  · rintro (⟨k, rfl⟩ | hlt)
    · rw [Nat.mul_comm n k] at hstart ⊢
      have hle := Nat.mul_le_mul_right n (Nat.lt_of_mul_lt_mul_right hstart)
      rwa [Nat.succ_mul] at hle
    · exact hlt.le

/-- The chunks from `i` on tile the rest. -/
theorem tiles_map_range' (lo : Nat) {left : Nat} (hleft : i + left = count n total) :
    Tiles (lo + min (i * n) total) ((List.range' i left).map fun k => (lo + k * n, length n total k))
      (lo + total) := by
  induction left generalizing i with
  | zero =>
      have hend : ¬ i * n < total := fun h => by
        have := (lt_count_iff hn).mpr h
        omega
      exact congrArg (lo + ·) (Nat.min_eq_right (not_lt.mp hend))
  | succ left ih =>
      have hlt : i < count n total := by omega
      have hstart := (lt_count_iff hn).mp hlt
      have hnext := ih (i := i + 1) (by omega)
      rw [← mul_add_length hn hlt] at hnext
      rw [List.range'_succ, List.map_cons, Nat.min_eq_left hstart.le]
      exact ⟨rfl, length_pos hn hlt, Nat.add_assoc lo _ _ ▸ hnext⟩

/-- **The chunks tile.** -/
theorem tiles_map_range (lo : Nat) :
    Tiles lo ((List.range (count n total)).map fun k => (lo + k * n, length n total k))
      (lo + total) := by
  have h := tiles_map_range' hn lo (i := 0) (Nat.zero_add (count n total))
  rwa [Nat.zero_mul, Nat.zero_min, Nat.add_zero, ← List.range_eq_range'] at h

end

variable {α : Type}

/-- Chunk `i` of a list. -/
def chunk (n : Nat) (xs : List α) (i : Nat) : List α := (xs.drop (i * n)).take n

@[simp] theorem length_chunk (n : Nat) (xs : List α) (i : Nat) :
    (chunk n xs i).length = length n xs.length i := by
  rw [chunk, List.length_take, List.length_drop, length]

/-- The chunks of a list, in order. -/
def chunks (n : Nat) (xs : List α) : List (List α) :=
  (List.range (count n xs.length)).map (chunk n xs)

@[simp] theorem length_chunks (n : Nat) (xs : List α) :
    (chunks n xs).length = count n xs.length := by
  rw [chunks, List.length_map, List.length_range]

theorem getElem?_chunks {n : Nat} {xs : List α} {i : Nat} (hi : i < count n xs.length) :
    (chunks n xs)[i]? = some (chunk n xs i) := by
  rw [chunks, List.getElem?_map, List.getElem?_range hi, Option.map_some]

theorem chunk_mem_chunks {n : Nat} {xs : List α} {i : Nat} (hi : i < count n xs.length) :
    chunk n xs i ∈ chunks n xs :=
  List.mem_map.mpr ⟨i, List.mem_range.mpr hi, rfl⟩

/-- A short list is one chunk. -/
theorem chunks_of_length_le {n : Nat} {xs : List α} (hpos : 0 < xs.length) (hle : xs.length ≤ n) :
    chunks n xs = [xs] := by
  have hone : count n xs.length = 1 := by
    rw [count]
    exact Nat.div_eq_of_lt_le (by omega) (by omega)
  rw [chunks, hone, List.range_one, List.map_singleton, chunk, Nat.zero_mul, List.drop_zero,
    List.take_of_length_le hle]

/-- A chunk past the end is empty. -/
theorem chunk_eq_nil {n : Nat} (hn : 0 < n) {xs : List α} {i : Nat} (hi : count n xs.length ≤ i) :
    chunk n xs i = [] := by
  have hend : xs.length ≤ i * n := not_lt.mp ((lt_count_iff hn).not.mp (not_lt.mpr hi))
  rw [chunk, List.drop_eq_nil_of_le hend, List.take_nil]

/-- The first `k` chunks. -/
theorem flatMap_chunk_range (n : Nat) (xs : List α) (k : Nat) :
    (List.range k).flatMap (chunk n xs) = xs.take (k * n) := by
  induction k with
  | zero => rw [Nat.zero_mul, List.take_zero]; rfl
  | succ k ih =>
      rw [List.range_succ, List.flatMap_append, ih, List.flatMap_singleton, chunk, Nat.succ_mul,
        List.take_add]

/-- **The chunks make up the list.** -/
theorem flatMap_chunk {n : Nat} (hn : 0 < n) (xs : List α) :
    (List.range (count n xs.length)).flatMap (chunk n xs) = xs := by
  have hend : ¬ count n xs.length * n < xs.length := fun h =>
    absurd ((lt_count_iff hn).mpr h) (lt_irrefl _)
  rw [flatMap_chunk_range, List.take_of_length_le (not_lt.mp hend)]

/-- A chunk of a part of a list, as a part of the list. -/
theorem chunk_take_drop {n : Nat} (xs : List α) (start total i : Nat) :
    chunk n ((xs.drop start).take total) i
      = (xs.drop (start + i * n)).take (length n total i) := by
  rw [chunk, List.drop_take, List.take_take, List.drop_drop, length]

/-- Put the chunks `changed` of `ys` into `xs` and cut it to the length of `ys`. -/
def patch (n : Nat) (xs ys : List α) (changed : List Nat) : List α :=
  ((List.range (max (count n xs.length) (count n ys.length))).flatMap fun i =>
    if i ∈ changed then chunk n ys i else chunk n xs i).take ys.length

/-- **A patch with every chunk that differs** gives the other list. -/
theorem patch_eq {n : Nat} (hn : 0 < n) {xs ys : List α} {changed : List Nat}
    (h : ∀ i, i ∉ changed → chunk n xs i = chunk n ys i) : patch n xs ys changed = ys := by
  have hchunk : (fun i => if i ∈ changed then chunk n ys i else chunk n xs i) = chunk n ys := by
    funext i
    split
    · rfl
    · next hi => exact h i hi
  have hend : ys.length ≤ count n ys.length * n :=
    not_lt.mp fun hlt => absurd ((lt_count_iff hn).mpr hlt) (lt_irrefl _)
  have hmax := Nat.mul_le_mul_right n (Nat.le_max_right (count n xs.length) (count n ys.length))
  rw [patch, hchunk, flatMap_chunk_range, List.take_of_length_le (hend.trans hmax), List.take_length]

end Chunks
