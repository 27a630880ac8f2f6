import Go2Cbt.Lib.Image

/-!
# Lib — an image with some blocks of another

`CopiesBlocks n src m m' P` says that `m'` is `m`, but for the blocks of `n` bytes that `P` names:
these are those of `src`.  Copies one after the other add up, and the result is `src` where every
block that differed was copied (`CopiesBlocks.eq_src_iff`).
-/

namespace Image

/-- The blocks that `P` names are those of `src`, the others those of `m`. -/
def CopiesBlocks (n : Nat) (src m m' : Image) (P : Nat → Prop) : Prop :=
  ∀ x, (P (x / n) → m' x = src x) ∧ (¬ P (x / n) → m' x = m x)

variable {n : Nat} {src m m' m'' : Image} {P Q : Nat → Prop}

theorem copiesBlocks_of_none (h : ∀ i, ¬ P i) : CopiesBlocks n src m m P :=
  fun _ => ⟨fun hp => absurd hp (h _), fun _ => rfl⟩

/-- Copies one after the other. -/
theorem CopiesBlocks.trans (h : CopiesBlocks n src m m' P) (h' : CopiesBlocks n src m' m'' Q) :
    CopiesBlocks n src m m'' fun i => P i ∨ Q i := by
  intro x
  by_cases hq : Q (x / n)
  · exact ⟨fun _ => (h' x).1 hq, fun hnot => absurd (.inr hq) hnot⟩
  · rw [(h' x).2 hq]
    exact ⟨fun hor => (h x).1 (hor.resolve_right hq), fun hnot => (h x).2 fun hp => hnot (.inl hp)⟩

theorem CopiesBlocks.congr (h : CopiesBlocks n src m m' P) (hiff : ∀ i, P i ↔ Q i) :
    CopiesBlocks n src m m' Q := by
  intro x
  rw [← hiff]
  exact h x

/-- Writing one block of `src`. -/
theorem copiesBlocks_write (hn : 0 < n) (src m : Image) (i : Nat) :
    CopiesBlocks n src m (write m (i * n) (slice src (i * n) n)) (· = i) := by
  intro x
  have hblock : x / n = i ↔ i * n ≤ x ∧ x < i * n + n := by
    rw [Nat.div_eq_iff hn, Nat.mul_comm]
    omega
  constructor
  · intro hin
    obtain ⟨hlo, hhi⟩ := hblock.mp hin
    obtain ⟨k, rfl⟩ := Nat.exists_eq_add_of_le hlo
    have hk : k < n := by omega
    rw [write_of_inside (by rw [length_slice]; exact hk), getD_slice hk]
  · intro hout
    refine write_of_outside ?_
    have hnot := mt hblock.mpr hout
    rw [length_slice]
    omega

/-- **When the copy is complete**: every block that differed was copied. -/
theorem CopiesBlocks.eq_src_iff (h : CopiesBlocks n src m m' P) (size : Nat) :
    (∀ x < size, m' x = src x) ↔ ∀ x < size, m x ≠ src x → P (x / n) := by
  refine forall₂_congr fun x _ => ?_
  by_cases hp : P (x / n)
  · exact iff_of_true ((h x).1 hp) fun _ => hp
  · rw [(h x).2 hp, iff_false_intro hp, imp_false, not_not]

end Image
