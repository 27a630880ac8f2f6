import Go2Cbt.Client.StateRoundTrip
import Go2Cbt.Engine.Geometry

/-!
# Engine — what a full backup leaves to the next run

A transfer does no more to the block state than record hashes and acknowledgements
(`sameLayout_reached`).  When every block is acknowledged, a new process that loads what was saved
has nothing to send: it has an entry for each block, or none at all (`atRest_loaded`).
-/

namespace Go2Cbt.Engine

open Go2Cbt.Client Go2Cbt.Protocol Transition

/-! ### What a transfer does to the block state -/

/-- The total is the same, and the entries are changed in place. -/
structure SameLayout (m m' : BlockStateManager) : Prop where
  initialized : m'.initialized = m.initialized
  totalBlocks : m'.totalBlocks = m.totalBlocks
  blocks : BlockStateManager.ChangesInPlace m.blocks m'.blocks

namespace SameLayout

variable {m m' m'' : BlockStateManager}

theorem refl (m : BlockStateManager) : SameLayout m m := ⟨rfl, rfl, .refl _⟩

theorem trans (h : SameLayout m m') (h' : SameLayout m' m'') : SameLayout m m'' where
  initialized := h'.initialized.trans h.initialized
  totalBlocks := h'.totalBlocks.trans h.totalBlocks
  blocks := h.blocks.trans h'.blocks

end SameLayout

theorem sameLayout_setBlockHash (m : BlockStateManager) (blockIndex : UInt64) (hash : Hash) :
    SameLayout m (m.setBlockHash blockIndex hash).2 := by
  have hblocks := BlockStateManager.changesInPlace_setBlockHash m blockIndex hash
  rw [BlockStateManager.setBlockHash] at hblocks ⊢
  by_cases hout : blockIndex.toNat ≥ m.blocks.length
  · rw [if_pos hout]
    exact .refl m
  · rw [if_neg hout] at hblocks ⊢
    exact ⟨rfl, rfl, hblocks⟩

theorem sameLayout_setBlockAck (m : BlockStateManager) (blockIndex : UInt64)
    (status : NamedStatus) : SameLayout m (m.setBlockAck blockIndex status.1).2 := by
  have hblocks := BlockStateManager.changesInPlace_setBlockAck m blockIndex status
  rw [BlockStateManager.setBlockAck] at hblocks ⊢
  cases hold : m.blocks[blockIndex.toNat]? with
  | none => exact .refl m
  | some old =>
      rw [hold] at hblocks
      exact ⟨rfl, rfl, hblocks⟩

theorem named_ackStatusOf (ack : AckBody) : (ackStatusOf ack).Named := by
  rw [ackStatusOf]
  split <;> trivial

section

variable {σ : Type} {job : Job} {out : Outside σ}

/-- **A step leaves the block state alone, or records a hash or an acknowledgement.** -/
theorem Step.manager {s t : Pipeline σ} {p : Party} (h : Step job out s p t) :
    t.manager = s.manager ∨
      (∃ blockIndex hash, t.manager = (s.manager.setBlockHash blockIndex hash).2) ∨
      ∃ ack : AckBody, t.manager = (s.manager.setBlockAck ack.blockIndex (ackStatusOf ack)).2 := by
  cases h with
  | compressFails => exact .inr (.inl ⟨_, _, rfl⟩)
  | compress => exact .inr (.inl ⟨_, _, rfl⟩)
  | setAck => exact .inr (.inr ⟨_, rfl⟩)
  | _ => exact .inl rfl

/-- **A transfer only records.** -/
theorem sameLayout_reached {init s : Pipeline σ} (h : Reached job out init s) :
    SameLayout init.manager s.manager := by
  refine Reachable.invariant (P := fun s : Pipeline σ => SameLayout init.manager s.manager)
    (fun s hs => ?_) (fun s p t hs hst => hs.trans ?_) h
  · rw [hs]
    exact .refl _
  · rcases hst.manager with hsame | ⟨blockIndex, hash, hset⟩ | ⟨ack, hset⟩
    · rw [hsame]
      exact .refl _
    · rw [hset]
      exact sameLayout_setBlockHash _ _ _
    · rw [hset]
      exact sameLayout_setBlockAck _ _ ⟨_, named_ackStatusOf ack⟩

end

/-- A transfer saves what a full backup of the disk saves. -/
theorem SameLayout.savedFrom {m saved : BlockStateManager} {snapshotTime now totalSize : UInt64}
    (h : SameLayout
      (prepare m snapshotTime now (Job.full 0 0 totalSize).totalBlocks totalSize).2 saved) :
    SavedFrom m snapshotTime now totalSize saved where
  totalBlocks := by
    rw [h.totalBlocks, prepare, BlockStateManager.initFullBlocksEmpty]
    dsimp only
    rw [show (m.createVersion [70, 85, 76, 76] snapshotTime now
        (Job.full 0 0 totalSize).totalBlocks totalSize).1.versionId = m.nextVersionId from rfl,
      find?_createVersion]
  blocks := h.blocks

/-! ### The next process -/

/-- A block state for a disk of this size with nothing to be sent: an entry for each block, in
place, or no entry at all. -/
structure AtRest (totalSize : UInt64) (m : BlockStateManager) : Prop where
  totalBlocks : m.totalBlocks = (Job.full 0 0 totalSize).totalBlocks
  complete : m.blocks = [] ∨ m.blocks.length = m.totalBlocks.toNat
  entry : ∀ i b, m.blocks[i]? = some b →
    b.place = (UInt64.ofNat i, UInt64.ofNat i * UInt64.ofNat blockSize) ∧ b.needsUpload = false

/-- Nothing is pending. -/
theorem AtRest.getPendingBlocks {totalSize : UInt64} {m : BlockStateManager}
    (h : AtRest totalSize m) : m.getPendingBlocks = [] := by
  refine List.filter_eq_nil_iff.mpr fun b hb => ?_
  obtain ⟨i, hi⟩ := List.getElem?_of_mem hb
  rw [(h.entry i b hi).2]
  exact Bool.false_ne_true

/-- An acknowledged block is not sent again. -/
theorem needsUpload_of_acknowledged {b : BlockState} (h : b.ack = .acknowledged) :
    b.needsUpload = false := by
  rw [BlockState.needsUpload, h, decide_eq_false (not_not.mpr rfl), Bool.and_false]

section

variable {m saved : BlockStateManager} {snapshotTime now totalSize : UInt64}
  (hsaved : SavedFrom m snapshotTime now totalSize saved)
include hsaved

theorem SavedFrom.length : saved.blocks.length = saved.totalBlocks.toNat := by
  rw [hsaved.blocks.length_eq, blocks_prepare, List.length_map, List.length_range,
    hsaved.totalBlocks]

/-- **A new process has nothing to send**, and it knows the blocks if the checksum agrees. -/
theorem atRest_loaded (hacked : ∀ b ∈ saved.blocks, b.ack = .acknowledged)
    (slack : Nat → Vector UInt8 4) (devNo : UInt32) :
    let loaded := (BlockStateManager.initializeFrom slack (some saved.stateFile) devNo).2
    AtRest totalSize loaded ∧
      (loaded.blocks ≠ [] ↔ saved.ChecksumAgrees ∧ saved.blocks ≠ []) := by
  have hnamed : ∀ b ∈ saved.blocks, b.ack.Named := fun b hb => by
    rw [hacked b hb]
    trivial
  obtain ⟨hloads, hrefuses⟩ := BlockStateManager.load_stateFile slack hsaved.length hnamed
    { BlockStateManager.new with devNo := devNo, initialized := true }
  rw [BlockStateManager.initializeFrom]
  by_cases hsum : saved.ChecksumAgrees
  · rw [hloads hsum]
    have hlength : (saved.blocks.zipIdx.map fun p => p.1.reread (slack p.2)).length
        = saved.blocks.length := by
      rw [List.length_map, List.length_zipIdx]
    refine ⟨⟨hsaved.totalBlocks, .inr (hlength.trans hsaved.length), fun i b hb => ?_⟩, ?_⟩
    · dsimp only at hb
      rw [List.getElem?_map, List.getElem?_zipIdx, Option.map_map, Nat.zero_add,
        Option.map_eq_some_iff] at hb
      obtain ⟨old, hold, rfl⟩ := hb
      have hi : i < (Job.full 0 0 totalSize).totalBlocks.toNat := by
        rw [← hsaved.totalBlocks, ← hsaved.length]
        exact (List.getElem?_eq_some_iff.mp hold).1
      obtain ⟨old', hold', hplace⟩ := hsaved.place hi
      obtain rfl : old = old' := Option.some.inj (hold.symm.trans hold')
      have hindex : old.blockIndex = UInt64.ofNat i := (Prod.mk.inj hplace).1
      have hack := (old.ack_reread (slack i)).trans (hacked old (List.mem_of_getElem? hold))
      refine ⟨?_, needsUpload_of_acknowledged hack⟩
      exact (old.place_reread (slack i)).trans
        (congrArg (fun number => (number, number * UInt64.ofNat blockSize)) hindex)
    · rw [and_iff_right hsum, ← List.length_pos_iff, ← List.length_pos_iff, hlength]
  · rw [hrefuses hsum]
    refine ⟨⟨hsaved.totalBlocks, .inl rfl, fun i b hb => ?_⟩, ?_⟩
    · cases hb
    · exact iff_of_false (not_not.mpr rfl) fun hagrees => hsum hagrees.1

end

end Go2Cbt.Engine
