import Go2Cbt.Client.Operations
import Mathlib.Data.List.Basic

/-!
# Client — where a transfer resumes

`GetLastAcknowledgedBlock` counts the blocks at the front that are `Acknowledged` or `Skipped`;
`GetPendingBlocks` lists those that are changed and not `Acknowledged`.  A changed block that was
set to `Skipped`, or an unchanged one in another status, is settled for one and open for the
other.  `resumeAgrees_iff` says for which states the two still name the same block.
-/

namespace Go2Cbt.Client

open Transition

namespace BlockStateManager

/-- The loop of `GetLastAcknowledgedBlock` from block `i` on. -/
def lastAckedFrom : List BlockState → (i lastAcked : Nat) → Nat
  | [], _, lastAcked => lastAcked
  | bs :: rest, i, lastAcked =>
      if bs.ack = .acknowledged ∨ bs.ack = .skipped then lastAckedFrom rest (i + 1) (i + 1)
      else lastAcked

/-- `GetLastAcknowledgedBlock`. -/
def getLastAcknowledgedBlock (m : BlockStateManager) : Nat := lastAckedFrom m.blocks 0 0

/-- The resume point is the least block number that is pending, or the number of blocks when
none is. -/
def ResumeAgrees (m : BlockStateManager) : Prop :=
  m.getLastAcknowledgedBlock
    = ((m.getPendingBlocks.map fun b => b.blockIndex.toNat).min?).getD m.blocks.length

end BlockStateManager

/-- Changed, and neither `Acknowledged` nor `Skipped`. -/
def BlockState.Open (b : BlockState) : Prop :=
  b.changed = true ∧ b.ack ≠ .acknowledged ∧ b.ack ≠ .skipped

/-- Settled for one of the two queries only: changed and `Skipped`, or unchanged and neither
`Acknowledged` nor `Skipped`. -/
def BlockState.Mixed (b : BlockState) : Prop :=
  b.changed = true ∧ b.ack = .skipped ∨
    b.changed = false ∧ b.ack ≠ .acknowledged ∧ b.ack ≠ .skipped

namespace BlockStateManager

/-- Every mixed block comes after an open one. -/
def MixedAfterOpen (m : BlockStateManager) : Prop :=
  ∀ (i : Nat) (b : BlockState), m.blocks[i]? = some b → b.Mixed →
    ∃ j < i, ∃ c : BlockState, m.blocks[j]? = some c ∧ c.Open

/-! ### The two queries as first positions -/

/-- Neither `Acknowledged` nor `Skipped`. -/
def unsettled (b : BlockState) : Bool := decide (b.ack ≠ .acknowledged ∧ b.ack ≠ .skipped)

theorem lastAckedFrom_eq (blocks : List BlockState) (i : Nat) :
    lastAckedFrom blocks i i = i + blocks.findIdx unsettled := by
  induction blocks generalizing i with
  | nil => rfl
  | cons b rest ih =>
      rw [lastAckedFrom, List.findIdx_cons]
      by_cases hsettled : b.ack = .acknowledged ∨ b.ack = .skipped
      · have hb : unsettled b = false :=
          decide_eq_false fun h => hsettled.elim h.1 h.2
        rw [if_pos hsettled, ih, hb, cond_false]
        omega
      · have hb : unsettled b = true := decide_eq_true (not_or.mp hsettled)
        rw [if_neg hsettled, hb, cond_true]
        rfl

/-- The block numbers are the positions. -/
def Numbered (blocks : List BlockState) : Prop :=
  ∀ (i : Nat) (b : BlockState), blocks[i]? = some b → b.blockIndex.toNat = i

/-- In a numbered array the least pending number is the first pending position. -/
theorem min_pending_eq {blocks : List BlockState} (h : Numbered blocks) :
    (((blocks.filter BlockState.needsUpload).map fun b => b.blockIndex.toNat).min?).getD
        blocks.length = blocks.findIdx BlockState.needsUpload := by
  by_cases hsome : ∃ b ∈ blocks, b.needsUpload = true
  · have hlt := List.findIdx_lt_length.mpr hsome
    have hget := List.getElem?_eq_getElem hlt
    have hmin : (((blocks.filter BlockState.needsUpload).map fun b => b.blockIndex.toNat).min?)
        = some (blocks.findIdx BlockState.needsUpload) := by
      rw [List.min?_eq_some_iff]
      constructor
      · refine List.mem_map.mpr ⟨_, List.mem_filter.mpr ⟨List.getElem_mem hlt, ?_⟩, h _ _ hget⟩
        exact List.findIdx_getElem
      · intro n hn
        obtain ⟨b, hb, rfl⟩ := List.mem_map.mp hn
        obtain ⟨hmem, hneeds⟩ := List.mem_filter.mp hb
        obtain ⟨k, hk, rfl⟩ := List.mem_iff_getElem.mp hmem
        rw [h k _ (List.getElem?_eq_getElem hk)]
        by_contra hbefore
        have := List.not_of_lt_findIdx (not_le.mp hbefore)
        rw [hneeds] at this
        cases this
    rw [hmin, Option.getD_some]
  · have hnone : ∀ b ∈ blocks, b.needsUpload = false := fun b hb =>
      Bool.eq_false_iff.mpr fun hneeds => hsome ⟨b, hb, hneeds⟩
    rw [List.findIdx_eq_length.mpr hnone, List.filter_eq_nil_iff.mpr fun b hb => ?_]
    · rfl
    · rw [hnone b hb]
      exact Bool.false_ne_true

theorem needsUpload_iff (b : BlockState) :
    b.needsUpload = true ↔ b.changed = true ∧ b.ack ≠ .acknowledged := by
  rw [BlockState.needsUpload, Bool.and_eq_true, decide_eq_true_iff]

theorem unsettled_iff (b : BlockState) :
    unsettled b = true ↔ b.ack ≠ .acknowledged ∧ b.ack ≠ .skipped := decide_eq_true_iff

/-- An open block is where both queries stop. -/
theorem stops_of_open {b : BlockState} (h : b.Open) :
    unsettled b = true ∧ b.needsUpload = true :=
  ⟨(unsettled_iff b).mpr h.2, (needsUpload_iff b).mpr ⟨h.1, h.2.1⟩⟩

/-- **The two first positions.** -/
theorem findIdx_eq_iff (blocks : List BlockState) :
    blocks.findIdx unsettled = blocks.findIdx BlockState.needsUpload ↔
      ∀ (i : Nat) (b : BlockState), blocks[i]? = some b → b.Mixed →
        ∃ j < i, ∃ c : BlockState, blocks[j]? = some c ∧ c.Open := by
  constructor
  · intro heq i b hb hmixed
    obtain ⟨hi, rfl⟩ := List.getElem?_eq_some_iff.mp hb
    -- the position where both stop is before `i`, and the block there is open
    have hbefore : blocks.findIdx unsettled < i := by
      by_contra hle
      rcases hmixed with ⟨hchanged, hskipped⟩ | ⟨hchanged, hack⟩
      · have hneeds : blocks[i].needsUpload = true := by
          rw [needsUpload_iff, hskipped]
          exact ⟨hchanged, by decide⟩
        rcases Nat.lt_or_ge i (blocks.findIdx BlockState.needsUpload) with hlt | hge
        · rw [List.not_of_lt_findIdx hlt] at hneeds
          cases hneeds
        · have hat : blocks.findIdx unsettled = i := by omega
          have hstop : unsettled blocks[blocks.findIdx unsettled] = true := List.findIdx_getElem
          simp only [hat] at hstop
          exact ((unsettled_iff _).mp hstop).2 hskipped
      · have hunsettled : unsettled blocks[i] = true := (unsettled_iff _).mpr hack
        rcases Nat.lt_or_ge i (blocks.findIdx unsettled) with hlt | hge
        · rw [List.not_of_lt_findIdx hlt] at hunsettled
          cases hunsettled
        · have hat : blocks.findIdx BlockState.needsUpload = i := by omega
          have hstop : (blocks[blocks.findIdx BlockState.needsUpload]).needsUpload = true :=
            List.findIdx_getElem
          simp only [hat] at hstop
          rw [((needsUpload_iff _).mp hstop).1] at hchanged
          cases hchanged
    have hlt : blocks.findIdx unsettled < blocks.length := hbefore.trans hi
    have hone : unsettled blocks[blocks.findIdx unsettled] = true := List.findIdx_getElem
    have hlt' : blocks.findIdx BlockState.needsUpload < blocks.length := heq ▸ hlt
    have htwo : (blocks[blocks.findIdx BlockState.needsUpload]).needsUpload = true :=
      List.findIdx_getElem
    simp only [← heq] at htwo
    exact ⟨_, hbefore, _, List.getElem?_eq_getElem hlt,
      ((needsUpload_iff _).mp htwo).1, (unsettled_iff _).mp hone⟩
  · intro hafter
    rcases Nat.lt_trichotomy (blocks.findIdx unsettled) (blocks.findIdx BlockState.needsUpload)
      with hlt | heq | hgt
    · -- the resume point is an unchanged block that no query settles
      have hin : blocks.findIdx unsettled < blocks.length := hlt.trans_le List.findIdx_le_length
      have hone : unsettled blocks[blocks.findIdx unsettled] = true := List.findIdx_getElem
      have hnot := List.not_of_lt_findIdx hlt
      have hack := (unsettled_iff _).mp hone
      have hunchanged : (blocks[blocks.findIdx unsettled]).changed = false := by
        refine Bool.eq_false_iff.mpr fun hchanged => ?_
        rw [(needsUpload_iff _).mpr ⟨hchanged, hack.1⟩] at hnot
        cases hnot
      obtain ⟨j, hj, c, hc, hopen⟩ :=
        hafter _ _ (List.getElem?_eq_getElem hin) (.inr ⟨hunchanged, hack⟩)
      obtain ⟨hjlt, rfl⟩ := List.getElem?_eq_some_iff.mp hc
      have hstop := (stops_of_open hopen).1
      rw [List.not_of_lt_findIdx hj] at hstop
      cases hstop
    · exact heq
    · -- the first pending block is changed and skipped
      have hin : blocks.findIdx BlockState.needsUpload < blocks.length :=
        hgt.trans_le List.findIdx_le_length
      have htwo : (blocks[blocks.findIdx BlockState.needsUpload]).needsUpload = true :=
        List.findIdx_getElem
      have hnot := List.not_of_lt_findIdx hgt
      obtain ⟨hchanged, hack⟩ := (needsUpload_iff _).mp htwo
      have hskipped : (blocks[blocks.findIdx BlockState.needsUpload]).ack = .skipped := by
        by_contra hne
        rw [(unsettled_iff _).mpr ⟨hack, hne⟩] at hnot
        cases hnot
      obtain ⟨j, hj, c, hc, hopen⟩ :=
        hafter _ _ (List.getElem?_eq_getElem hin) (.inl ⟨hchanged, hskipped⟩)
      obtain ⟨hjlt, rfl⟩ := List.getElem?_eq_some_iff.mp hc
      have hstop := (stops_of_open hopen).2
      rw [List.not_of_lt_findIdx hj] at hstop
      cases hstop

/-! ### The states that operations reach -/

theorem numbered_apply {m : BlockStateManager} (h : Numbered m.blocks) (op : Operation) :
    Numbered (m.apply op).blocks := by
  rcases blocks_apply m op with ⟨versionId, totalBlocks, hash, hblocks, -⟩ | ⟨-, f, hget, hf⟩
  · rw [hblocks]
    intro i b hb
    rw [getElem?_fullBlocks, Option.ite_none_right_eq_some, Option.some.injEq] at hb
    obtain ⟨hi, rfl⟩ := hb
    rw [fullBlock, UInt64.toNat_ofNat']
    exact Nat.mod_eq_of_lt (hi.trans totalBlocks.toNat_lt)
  · intro i b' hb'
    rw [hget, Option.map_eq_some_iff] at hb'
    obtain ⟨b, hb, rfl⟩ := hb'
    have hplace := (hf i b).1
    rw [BlockState.place, BlockState.place, Prod.mk.injEq] at hplace
    rw [hplace.1]
    exact h i b hb

/-- A call that sets statuses names no changed block to skip it, and no unchanged block to reopen
it. -/
def Careful (m : BlockStateManager) : Operation → Prop
  | .setAck call status =>
      ∀ i b, call.Sets m.blocks.length i → m.blocks[i]? = some b →
        (b.changed = true → status.1 ≠ .skipped) ∧
          (b.changed = false → status.1 = .acknowledged ∨ status.1 = .skipped)
  | _ => True

/-- No block is mixed. -/
def NoneMixed (m : BlockStateManager) : Prop :=
  ∀ (i : Nat) (b : BlockState), m.blocks[i]? = some b → ¬ b.Mixed

theorem not_mixed_fullBlock (versionId : UInt64) (hash : Hash) (i : Nat) :
    ¬ (fullBlock versionId hash i).Mixed := by
  rintro (⟨-, hack⟩ | ⟨hchanged, -⟩)
  · cases hack
  · cases hchanged

theorem not_mixed_updatedBlock (versionId : UInt64) (pairs : List (Nat × BlockHashEntry)) (i : Nat)
    (b : BlockState) : ¬ (updatedBlock versionId pairs i b.unchanged).Mixed := by
  rw [updatedBlock]
  split
  · rintro (⟨hchanged, -⟩ | ⟨-, -, hack⟩)
    · cases hchanged
    · exact hack rfl
  · rintro (⟨-, hack⟩ | ⟨hchanged, -⟩)
    · cases hack
    · cases hchanged

/-- A careful operation leaves no block mixed. -/
theorem noneMixed_apply {m : BlockStateManager} (h : NoneMixed m) {op : Operation}
    (hop : Careful m op) : NoneMixed (m.apply op) := by
  have hfull : ∀ (versionId totalBlocks : UInt64) (hash : Nat → Hash) (i : Nat) (b : BlockState),
      (fullBlocks versionId totalBlocks hash)[i]? = some b → ¬ b.Mixed := by
    intro versionId totalBlocks hash i b hb
    rw [getElem?_fullBlocks, Option.ite_none_right_eq_some, Option.some.injEq] at hb
    rw [← hb.2]
    exact not_mixed_fullBlock _ _ _
  cases op with
  | createVersion => exact h
  | initFullBlocks versionId totalBlocks entries =>
      rw [apply, initFullBlocks]
      split
      · exact h
      · exact hfull versionId totalBlocks _
  | initFullBlocksEmpty versionId totalBlocks =>
      rw [apply, initFullBlocksEmpty]
      split
      · exact h
      · exact hfull versionId totalBlocks fun _ => .zero
  | setBlockHash blockIndex hash =>
      intro i b' hb'
      rw [apply, blocks_setBlockHash, List.getElem?_modify] at hb'
      obtain ⟨b, hb, rfl⟩ := Option.map_eq_some_iff.mp hb'
      split
      · exact h i b hb
      · exact h i b hb
  | updateIncrementalBlocks versionId changedIndexes hashes =>
      by_cases hacc : m.UpdateAccepted versionId changedIndexes hashes
      · intro i b' hb'
        rw [apply, getElem?_updateIncrementalBlocks hacc] at hb'
        obtain ⟨b, -, rfl⟩ := Option.map_eq_some_iff.mp hb'
        exact not_mixed_updatedBlock _ _ i b
      · rw [apply, updateIncrementalBlocks_of_not_accepted hacc]
        exact h
  | setAck call status =>
      intro i b' hb'
      rw [apply, getElem?_ackCall] at hb'
      obtain ⟨b, hb, rfl⟩ := Option.map_eq_some_iff.mp hb'
      split
      · next hsets =>
        obtain ⟨hskip, hreopen⟩ := hop i b hsets hb
        rintro (⟨hchanged, hack⟩ | ⟨hchanged, hne, hne'⟩)
        · exact hskip hchanged hack
        · exact (hreopen hchanged).elim hne hne'
      · exact h i b hb

/-- **Where the two queries agree**, in every state that operations reach from a fresh directory;
and along a run of careful operations they agree throughout. -/
theorem resumeAgrees_iff (slack : Nat → Vector UInt8 4) (devNo : UInt32) (ops : List Operation) :
    let fresh := (initializeFrom slack none devNo).2
    (ResumeAgrees (ops.foldl apply fresh) ↔ MixedAfterOpen (ops.foldl apply fresh)) ∧
      ((∀ os op, os ++ [op] <+: ops → Careful (os.foldl apply fresh) op) →
        ∀ os, os <+: ops → ResumeAgrees (os.foldl apply fresh)) := by
  intro fresh
  have hagrees : ∀ os : List Operation, ResumeAgrees (os.foldl apply fresh) ↔
      MixedAfterOpen (os.foldl apply fresh) := fun os => by
    have hnumbered : Numbered (os.foldl apply fresh).blocks :=
      foldl_preserves (P := fun m : BlockStateManager => Numbered m.blocks)
        (fun m op hm => numbered_apply hm op) (fun i b hb => by cases hb) os
    rw [ResumeAgrees, getLastAcknowledgedBlock, getPendingBlocks, lastAckedFrom_eq, Nat.zero_add,
      min_pending_eq hnumbered]
    exact findIdx_eq_iff _
  refine ⟨hagrees ops, fun hcareful os hos => (hagrees os).mpr ?_⟩
  have hnone : NoneMixed (os.foldl apply fresh) := by
    clear hagrees
    induction os using List.reverseRecOn with
    | nil => exact fun i b hb => by cases hb
    | append_singleton os op ih =>
        rw [List.foldl_append]
        exact noneMixed_apply (ih ((List.prefix_append os [op]).trans hos)) (hcareful os op hos)
  exact fun i b hb hmixed => absurd hmixed (hnone i b hb)

/-- The first of two blocks is acknowledged. -/
theorem resumeAgrees_iff_acknowledged :
    ResumeAgrees (([.createVersion [] 0 0 2 2097152, .initFullBlocksEmpty 0 2,
      .setAck (.one 0) ⟨.acknowledged, trivial⟩] : List Operation).foldl apply
        (initializeFrom (fun _ => .replicate 4 0) none 0).2) := by
  refine (resumeAgrees_iff (fun _ => .replicate 4 0) 0 _).2 (fun os op hprefix => ?_) _ List.prefix_rfl
  have hmem := hprefix.subset (List.mem_append_right os (List.mem_singleton_self op))
  rw [List.mem_cons, List.mem_cons, List.mem_singleton] at hmem
  rcases hmem with rfl | rfl | rfl
  · trivial
  · trivial
  · exact fun i b _ _ => ⟨fun _ => by decide, fun _ => .inl rfl⟩

/-- **A pending block before the resume point**: of two blocks one is acknowledged and one
skipped. -/
theorem resume_point_skips_pending :
    let ops : List Operation :=
      [.createVersion [] 0 0 2 2097152, .initFullBlocksEmpty 0 2,
        .setAck (.one 0) ⟨.acknowledged, trivial⟩, .setAck (.one 1) ⟨.skipped, trivial⟩]
    let m := ops.foldl apply (initializeFrom (fun _ => .replicate 4 0) none 0).2
    m.getLastAcknowledgedBlock = 2 ∧ m.getPendingBlocks.map BlockState.blockIndex = [1] ∧
      ¬ ResumeAgrees m := by
  refine ⟨by decide +kernel, by decide +kernel, ?_⟩
  unfold ResumeAgrees
  decide +kernel

end BlockStateManager

end Go2Cbt.Client
