import Mathlib.Data.Set.Insert
import Mathlib.Logic.Function.Basic

/-!
# Lib — names held in places

A table gives each place the name it holds, if any.  `Held f S`: the names in the table are those
of `S`, each in one place.
-/

variable {ι β : Type}

/-- Each name of `S` is held in exactly one place, and no other name is held. -/
structure Held (f : ι → Option β) (S : Set β) : Prop where
  mem : ∀ {k b}, f k = some b → b ∈ S
  holds : ∀ {b}, b ∈ S → ∃ k, f k = some b
  inj : ∀ {k k' b}, f k = some b → f k' = some b → k = k'

namespace Held

variable {f : ι → Option β} {S : Set β}

theorem of_none (h : ∀ k, f k = none) : Held f ∅ where
  mem {k b} hk := by rw [h k] at hk; cases hk
  holds hb := absurd hb (Set.notMem_empty _)
  inj {k k' b} hk _ := by rw [h k] at hk; cases hk

theorem eq_none (h : Held f ∅) (k : ι) : f k = none := by
  cases hk : f k with
  | none => rfl
  | some b => exact absurd (h.mem hk) (Set.notMem_empty b)

/-- Each name is in exactly one place. -/
theorem existsUnique (h : Held f S) {b : β} (hb : b ∈ S) : ∃! k, f k = some b := by
  obtain ⟨k, hk⟩ := h.holds hb
  exact ⟨k, hk, fun k' hk' => h.inj hk' hk⟩

variable [DecidableEq ι]

/-- A free place takes a new name. -/
theorem take (h : Held f S) {k : ι} {b : β} (hk : f k = none) (hb : b ∉ S) :
    Held (Function.update f k (some b)) (insert b S) where
  mem {k' c} hc := by
    by_cases hkk : k' = k
    · rw [hkk, Function.update_self] at hc
      cases hc
      exact Set.mem_insert _ _
    · rw [Function.update_of_ne hkk] at hc
      exact Set.mem_insert_of_mem _ (h.mem hc)
  holds {c} hc := by
    rcases hc with rfl | hc
    · exact ⟨k, Function.update_self _ _ _⟩
    · obtain ⟨k', hk'⟩ := h.holds hc
      refine ⟨k', ?_⟩
      rw [Function.update_of_ne, hk']
      rintro rfl
      rw [hk] at hk'
      cases hk'
  inj {k₁ k₂ c} h₁ h₂ := by
    by_cases h₁k : k₁ = k <;> by_cases h₂k : k₂ = k
    · rw [h₁k, h₂k]
    · rw [h₁k, Function.update_self] at h₁
      rw [Function.update_of_ne h₂k] at h₂
      cases h₁
      exact absurd (h.mem h₂) hb
    · rw [Function.update_of_ne h₁k] at h₁
      rw [h₂k, Function.update_self] at h₂
      cases h₂
      exact absurd (h.mem h₁) hb
    · rw [Function.update_of_ne h₁k] at h₁
      rw [Function.update_of_ne h₂k] at h₂
      exact h.inj h₁ h₂

/-- A place gives its name back. -/
theorem give (h : Held f S) {k : ι} {b : β} (hk : f k = some b) :
    Held (Function.update f k none) (S \ {b}) where
  mem {k' c} hc := by
    by_cases hkk : k' = k
    · rw [hkk, Function.update_self] at hc
      cases hc
    · rw [Function.update_of_ne hkk] at hc
      refine ⟨h.mem hc, ?_⟩
      rintro rfl
      exact hkk (h.inj hc hk)
  holds {c} hc := by
    obtain ⟨k', hk'⟩ := h.holds hc.1
    refine ⟨k', ?_⟩
    rw [Function.update_of_ne, hk']
    rintro rfl
    rw [hk] at hk'
    cases hk'
    exact hc.2 rfl
  inj {k₁ k₂ c} h₁ h₂ := by
    by_cases h₁k : k₁ = k
    · rw [h₁k, Function.update_self] at h₁
      cases h₁
    · by_cases h₂k : k₂ = k
      · rw [h₂k, Function.update_self] at h₂
        cases h₂
      · rw [Function.update_of_ne h₁k] at h₁
        rw [Function.update_of_ne h₂k] at h₂
        exact h.inj h₁ h₂

end Held
