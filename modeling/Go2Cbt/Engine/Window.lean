import Go2Cbt.Engine.Pipeline
import Go2Cbt.Lib.Held

/-!
# Engine — the window of the pipeline

Which block owns which slot.  Between `AcquireSlot` and `slot.BlockIndex = i` a slot in use still
bears the number of an earlier block, or 0 if it has never been used, and `ReleaseSlot` looks for
the first slot in use with the number it is given.  It finds the right one: a slot that bears the
number of a block in the window without being that block's own lies behind it (`first`).
-/

namespace Go2Cbt.Engine

/-- The block that owns slot `k`: the one that the sending loop is about to write there, or the
one it has written. -/
def ownerIn (window : List Slot) (binding : Option (Nat × UInt64)) (k : Nat) : Option UInt64 :=
  window[k]?.bind fun slot =>
    if slot.inUse then
      match binding with
      | some (k', b) => if k = k' then some b else some slot.blockIndex
      | none => some slot.blockIndex
    else none

/-- The blocks of `S` own the slots in use, one each, and `bound` bounds the numbers written. -/
structure WindowInv (window : List Slot) (binding : Option (Nat × UInt64)) (S : Set UInt64)
    (bound : Nat) : Prop where
  held : Held (ownerIn window binding) S
  first : ∀ (k : Nat) (slot : Slot), window[k]? = some slot → slot.blockIndex ∈ S →
    ∃ k' ≤ k, ownerIn window binding k' = some slot.blockIndex
  written : ∀ (k : Nat) (slot : Slot), window[k]? = some slot →
    slot.blockIndex = 0 ∨ slot.blockIndex.toNat < bound

/-! ### The functions of the window -/

theorem acquireSlot_spec {window : List Slot} {k : Nat} (h : acquireSlot window = some k) :
    ∃ slot, window[k]? = some slot ∧ slot.inUse = false ∧
      ∀ (j : Nat) (other : Slot), j < k → window[j]? = some other → other.inUse = true := by
  obtain ⟨hk, hfree, hbefore⟩ := List.findIdx?_eq_some_iff_getElem.mp h
  refine ⟨window[k], List.getElem?_eq_getElem hk, by simpa using hfree, fun j other hj hother => ?_⟩
  obtain ⟨hlt, rfl⟩ := List.getElem?_eq_some_iff.mp hother
  simpa using hbefore j hj

theorem releaseSlot_spec {window : List Slot} {k : Nat} {slot : Slot} {b : UInt64}
    (hk : window[k]? = some slot) (huse : slot.inUse = true) (hb : slot.blockIndex = b)
    (hfirst : ∀ (j : Nat) (other : Slot), j < k → window[j]? = some other →
      other.inUse = true → other.blockIndex ≠ b) :
    releaseSlot window b = (true, freeSlot window k) := by
  have hfind : (window.findIdx? fun s => s.inUse && s.blockIndex = b) = some k := by
    obtain ⟨hlt, rfl⟩ := List.getElem?_eq_some_iff.mp hk
    refine List.findIdx?_eq_some_iff_getElem.mpr ⟨hlt, by simp [huse, hb], fun j hj => ?_⟩
    have hother := hfirst j _ hj (List.getElem?_eq_getElem (hj.trans hlt))
    simpa using hother
  rw [releaseSlot, hfind]
  rfl

section Owners

variable {window : List Slot} {k : Nat} {slot : Slot}

theorem ownerIn_free (window : List Slot) (binding : Option (Nat × UInt64)) (k : Nat) :
    ownerIn (freeSlot window k) binding = Function.update (ownerIn window binding) k none := by
  funext j
  by_cases hj : j = k
  · rw [hj, Function.update_self, ownerIn, freeSlot, List.getElem?_modify_eq]
    cases window[k]? with
    | none => rfl
    | some slot => rfl
  · rw [Function.update_of_ne hj, ownerIn, ownerIn, freeSlot,
      List.getElem?_modify_ne _ _ (Ne.symm hj)]

/-- Taking a free slot for a block. -/
theorem ownerIn_acquire (b : UInt64) (hk : window[k]? = some slot) :
    ownerIn (window.modify k fun s => { s with inUse := true }) (some (k, b))
      = Function.update (ownerIn window none) k (some b) := by
  funext j
  by_cases hj : j = k
  · rw [hj, Function.update_self, ownerIn, List.getElem?_modify_eq, hk]
    simp only [Option.map_eq_map, Option.map_some, Option.bind_some, if_true]
  · rw [Function.update_of_ne hj, ownerIn, ownerIn, List.getElem?_modify_ne _ _ (Ne.symm hj)]
    simp only [hj, if_false]

variable (window k) in
/-- Writing the number changes no owner. -/
theorem ownerIn_bind (b : UInt64) :
    ownerIn (window.modify k fun s => { s with blockIndex := b }) none
      = ownerIn window (some (k, b)) := by
  funext j
  by_cases hj : j = k
  · rw [hj, ownerIn, ownerIn, List.getElem?_modify_eq]
    cases window[k]? with
    | none => rfl
    | some slot =>
        simp only [Option.map_eq_map, Option.map_some, Option.bind_some, if_true]
  · rw [ownerIn, ownerIn, List.getElem?_modify_ne _ _ (Ne.symm hj)]
    simp only [hj, if_false]

end Owners

/-! ### What the invariant survives -/

namespace WindowInv

variable {window : List Slot} {binding : Option (Nat × UInt64)} {S : Set UInt64} {bound : Nat}

theorem reset (windowSize : Nat) : WindowInv (resetPipelineWindow windowSize) none ∅ 0 where
  held := .of_none fun k => by
    rw [ownerIn, resetPipelineWindow, List.getElem?_replicate]
    split <;> rfl
  first _ _ _ h := absurd h (Set.notMem_empty _)
  written k slot hk := by
    rw [resetPipelineWindow, List.getElem?_replicate] at hk
    split at hk
    · cases hk
      exact .inl rfl
    · cases hk

theorem mono (h : WindowInv window binding S bound) {bound' : Nat} (hle : bound ≤ bound') :
    WindowInv window binding S bound' where
  held := h.held
  first := h.first
  written k slot hk := (h.written k slot hk).imp_right fun hlt => hlt.trans_le hle

/-- Turn `i` takes the first free slot. -/
theorem acquire {i k : Nat} (h : WindowInv window none S i) (hk : acquireSlot window = some k)
    {b : UInt64} (hb : b.toNat = i) (hS : ∀ c ∈ S, c.toNat < i) :
    WindowInv (window.modify k fun s => { s with inUse := true }) (some (k, b)) (insert b S)
      i := by
  obtain ⟨free, hfree, huse, hbefore⟩ := acquireSlot_spec hk
  have hnone : ownerIn window none k = none := by
    rw [ownerIn, hfree, Option.bind_some, huse]
    rfl
  have hnew : b ∉ S := fun hmem => (hb ▸ hS b hmem).false
  have howners := ownerIn_acquire b hfree
  -- The numbers in the window are those of before.
  have hnumbers : ∀ (j : Nat) (slot : Slot),
      (window.modify k fun s => { s with inUse := true })[j]? = some slot →
        ∃ old, window[j]? = some old ∧ old.blockIndex = slot.blockIndex := by
    intro j slot hj
    rw [List.getElem?_modify] at hj
    obtain ⟨old, hold, rfl⟩ := Option.map_eq_some_iff.mp hj
    refine ⟨old, hold, ?_⟩
    split <;> rfl
  refine ⟨howners ▸ h.held.take hnone hnew, fun j slot hj hmem => ?_, fun j slot hj => ?_⟩
  · obtain ⟨old, hold, hsame⟩ := hnumbers j slot hj
    rw [howners]
    rcases hmem with hmem | hmem
    · -- A slot that bears the number of the new block has never been used, and this is block 0.
      refine ⟨k, ?_, by rw [hmem, Function.update_self]⟩
      rcases h.written j old hold with hzero | hlt
      · have hi : i = 0 := by rw [← hb, ← hmem, ← hsame, hzero]; rfl
        have hempty : S = ∅ := Set.eq_empty_of_forall_notMem fun c hc =>
          absurd (hS c hc) (by rw [hi]; exact Nat.not_lt_zero _)
        by_contra hlt
        have hused := hbefore j old (not_le.mp hlt) hold
        have hfreed := (hempty ▸ h.held).eq_none j
        rw [ownerIn, hold, Option.bind_some, hused] at hfreed
        cases hfreed
      · rw [hsame, hmem, hb] at hlt
        exact absurd hlt (Nat.lt_irrefl i)
    · obtain ⟨k', hle, howner⟩ := h.first j old hold (hsame ▸ hmem)
      refine ⟨k', hle, ?_⟩
      rw [Function.update_of_ne, howner, hsame]
      rintro rfl
      rw [hnone] at howner
      cases howner
  · obtain ⟨old, hold, hsame⟩ := hnumbers j slot hj
    rw [← hsame]
    exact h.written j old hold

/-- The number is written. -/
theorem bind {i k : Nat} {b : UInt64} (h : WindowInv window (some (k, b)) S i)
    (hb : b.toNat = i) (howner : ownerIn window (some (k, b)) k = some b) :
    WindowInv (window.modify k fun s => { s with blockIndex := b }) none S (i + 1) := by
  have howners := ownerIn_bind window k b
  refine ⟨howners ▸ h.held, fun j slot hj hmem => ?_, fun j slot hj => ?_⟩
  · rw [howners]
    by_cases hjk : j = k
    · subst hjk
      rw [List.getElem?_modify_eq] at hj
      obtain ⟨old, -, rfl⟩ := Option.map_eq_some_iff.mp hj
      exact ⟨j, le_rfl, howner⟩
    · rw [List.getElem?_modify_ne _ _ (Ne.symm hjk)] at hj
      exact h.first j slot hj hmem
  · by_cases hjk : j = k
    · subst hjk
      rw [List.getElem?_modify_eq] at hj
      obtain ⟨old, -, rfl⟩ := Option.map_eq_some_iff.mp hj
      exact .inr (hb ▸ Nat.lt_succ_self _)
    · rw [List.getElem?_modify_ne _ _ (Ne.symm hjk)] at hj
      exact (h.written j slot hj).imp_right fun hlt => hlt.trans (Nat.lt_succ_self i)

/-- A slot is freed. -/
theorem free {k : Nat} {b : UInt64} (h : WindowInv window binding S bound)
    (howner : ownerIn window binding k = some b) :
    WindowInv (freeSlot window k) binding (S \ {b}) bound := by
  have howners := ownerIn_free window binding k
  have hnumbers : ∀ (j : Nat) (slot : Slot), (freeSlot window k)[j]? = some slot →
      ∃ old, window[j]? = some old ∧ old.blockIndex = slot.blockIndex := by
    intro j slot hj
    rw [freeSlot, List.getElem?_modify] at hj
    obtain ⟨old, hold, rfl⟩ := Option.map_eq_some_iff.mp hj
    refine ⟨old, hold, ?_⟩
    split <;> rfl
  refine ⟨howners ▸ h.held.give howner, fun j slot hj hmem => ?_, fun j slot hj => ?_⟩
  · obtain ⟨old, hold, hsame⟩ := hnumbers j slot hj
    obtain ⟨k', hle, howner'⟩ := h.first j old hold (hsame ▸ hmem.1)
    refine ⟨k', hle, ?_⟩
    rw [howners, Function.update_of_ne, howner', hsame]
    rintro rfl
    rw [howner, hsame] at howner'
    exact hmem.2 (Option.some.inj howner').symm
  · obtain ⟨old, hold, hsame⟩ := hnumbers j slot hj
    rw [← hsame]
    exact h.written j old hold

/-- **`ReleaseSlot` frees the slot of its block**, if the sending loop is not about to write the
number of that block. -/
theorem release {b : UInt64} (h : WindowInv window binding S bound) (hb : b ∈ S)
    (hbinding : ∀ k c, binding = some (k, c) → c ≠ b) :
    ∃ k, ownerIn window binding k = some b ∧
      releaseSlot window b = (true, freeSlot window k) := by
  -- A slot in use that is owned by `b` bears its number.
  have hnumber : ∀ (j : Nat) (slot : Slot), window[j]? = some slot → slot.inUse = true →
      ownerIn window binding j = some b → slot.blockIndex = b := by
    intro j slot hj huse howner
    rw [ownerIn, hj, Option.bind_some, huse, if_pos rfl] at howner
    cases hbind : binding with
    | none =>
        rw [hbind] at howner
        exact Option.some.inj howner
    | some p =>
        rw [hbind] at howner
        dsimp only at howner
        split at howner
        · exact absurd (Option.some.inj howner) (hbinding p.1 p.2 hbind)
        · exact Option.some.inj howner
  obtain ⟨k, howner⟩ := h.held.holds hb
  refine ⟨k, howner, ?_⟩
  cases hk : window[k]? with
  | none =>
      rw [ownerIn, hk] at howner
      cases howner
  | some slot =>
      cases huse : slot.inUse with
      | false =>
          rw [ownerIn, hk, Option.bind_some, huse] at howner
          cases howner
      | true =>
          refine releaseSlot_spec hk huse (hnumber k slot hk huse howner) ?_
          intro j other hj hother _ heq
          obtain ⟨k', hle, howner'⟩ := h.first j other hother (heq ▸ hb)
          have hsame := h.held.inj (heq ▸ howner') howner
          omega

end WindowInv

end Go2Cbt.Engine
