import Go2Cbt.Client.StateFile
import Go2Cbt.Lib.Transition

/-!
# Client — sequences of operations on the block states

The operations of `BlockStateManager.h` as actions of one machine.  The three calls that set
statuses differ in how they name blocks: `AckCall.indexes` lists what a call names, and each is
then `SetBlockAckList` of that list.
-/

namespace Go2Cbt.Client

/-- A status as a caller passes it. -/
abbrev NamedStatus := { status : AckStatus // status.Named }

/-- A call that sets statuses. -/
inductive AckCall where
  | one (blockIndex : UInt64)
  | range (startBlock count : UInt64)
  | list (blockIndexes : List UInt64)

namespace AckCall

/-- The call with a status. -/
def apply (status : AckStatus) (m : BlockStateManager) : AckCall → BlockStateManager
  | .one blockIndex => (m.setBlockAck blockIndex status).2
  | .range startBlock count => m.setBlockAckRange startBlock count status
  | .list blockIndexes => m.setBlockAckList blockIndexes status

/-- The blocks that the call names, of an array of `blocks` entries. -/
def indexes (blocks : Nat) : AckCall → List UInt64
  | .one blockIndex => [blockIndex]
  | .range startBlock count =>
      (List.range' startBlock.toNat (min (startBlock + count).toNat blocks - startBlock.toNat)).map
        UInt64.ofNat
  | .list blockIndexes => blockIndexes

/-- The call names block `i`. -/
def Sets (call : AckCall) (blocks i : Nat) : Prop :=
  ∃ idx ∈ call.indexes blocks, idx.toNat = i

instance (call : AckCall) (blocks i : Nat) : Decidable (call.Sets blocks i) := by
  unfold Sets; infer_instance

end AckCall

/-- An operation that changes the block states or the versions. -/
inductive Operation where
  | createVersion (type : List UInt16) (snapshotTime now totalBlocks totalSize : UInt64)
  | initFullBlocks (versionId totalBlocks : UInt64) (entries : List BlockHashEntry)
  | initFullBlocksEmpty (versionId totalBlocks : UInt64)
  | setBlockHash (blockIndex : UInt64) (hash : Hash)
  | updateIncrementalBlocks (versionId : UInt64) (changedIndexes : List Nat)
      (hashes : List BlockHashEntry)
  | setAck (call : AckCall) (status : NamedStatus)

namespace BlockStateManager

open Transition

/-- The manager after an operation. -/
def apply (m : BlockStateManager) : Operation → BlockStateManager
  | .createVersion type snapshotTime now totalBlocks totalSize =>
      (m.createVersion type snapshotTime now totalBlocks totalSize).2
  | .initFullBlocks versionId totalBlocks entries =>
      (m.initFullBlocks versionId totalBlocks entries).2
  | .initFullBlocksEmpty versionId totalBlocks => (m.initFullBlocksEmpty versionId totalBlocks).2
  | .setBlockHash blockIndex hash => (m.setBlockHash blockIndex hash).2
  | .updateIncrementalBlocks versionId changedIndexes hashes =>
      (m.updateIncrementalBlocks versionId changedIndexes hashes).2
  | .setAck call status => call.apply status.1 m

/-- **The three calls are one**, up to the flag. -/
theorem apply_ackCall (call : AckCall) (status : AckStatus) (m : BlockStateManager) :
    ∃ dirty, call.apply status m
      = { m.setBlockAckList (call.indexes m.blocks.length) status with dirty } := by
  cases call with
  | one blockIndex => exact ⟨_, rfl⟩
  | list blockIndexes => exact ⟨_, rfl⟩
  | range startBlock count => exact ⟨true, setBlockAckRange_eq m startBlock count status⟩

theorem blocks_setBlockAckList (m : BlockStateManager) (idxs : List UInt64) (status : AckStatus)
    (i : Nat) :
    (m.setBlockAckList idxs status).blocks[i]?
      = m.blocks[i]?.map fun b =>
          if ∃ idx ∈ idxs, idx.toNat = i then { b with ack := status } else b := by
  induction idxs generalizing m with
  | nil =>
      simp only [List.not_mem_nil, false_and, exists_false, if_false]
      exact (Option.map_id_apply).symm
  | cons idx idxs ih =>
      have htail : m.setBlockAckList (idx :: idxs) status
          = (m.setBlockAck idx status).2.setBlockAckList idxs status := rfl
      rw [htail, ih]
      by_cases hidx : idx.toNat = i
      · subst hidx
        rw [getElem?_setBlockAck_self, Option.map_map]
        congr 1
        funext b
        rw [if_pos ⟨idx, List.mem_cons_self, rfl⟩, Function.comp]
        split <;> rfl
      · rw [getElem?_setBlockAck_ne _ _ hidx]
        have hiff : (∃ j ∈ idx :: idxs, j.toNat = i) ↔ ∃ j ∈ idxs, j.toNat = i := by
          rw [List.exists_mem_cons_iff, or_iff_right hidx]
        simp only [hiff]

/-- **What a call does to one block.** -/
theorem getElem?_ackCall (call : AckCall) (status : AckStatus) (m : BlockStateManager) (i : Nat) :
    (call.apply status m).blocks[i]?
      = m.blocks[i]?.map fun b =>
          if call.Sets m.blocks.length i then { b with ack := status } else b := by
  obtain ⟨dirty, heq⟩ := apply_ackCall call status m
  rw [heq]
  exact blocks_setBlockAckList m _ status i

/-! ### What an operation does to the array -/

/-- Each entry is changed by itself, in place, and keeps its status or gets one of the
enumeration. -/
def ChangesInPlace (blocks blocks' : List BlockState) : Prop :=
  ∃ f : Nat → BlockState → BlockState, (∀ i : Nat, blocks'[i]? = blocks[i]?.map (f i)) ∧
    ∀ i b, (f i b).place = b.place ∧ ((f i b).ack = b.ack ∨ (f i b).ack.Named)

theorem ChangesInPlace.refl (blocks : List BlockState) : ChangesInPlace blocks blocks :=
  ⟨fun _ => id, fun i => by rw [Option.map_id, id], fun _ _ => ⟨rfl, .inl rfl⟩⟩

/-- One change after the other. -/
theorem ChangesInPlace.trans {blocks blocks' blocks'' : List BlockState}
    (h : ChangesInPlace blocks blocks') (h' : ChangesInPlace blocks' blocks'') :
    ChangesInPlace blocks blocks'' := by
  obtain ⟨f, hget, hf⟩ := h
  obtain ⟨g, hget', hg⟩ := h'
  refine ⟨fun i => g i ∘ f i, fun i => ?_, fun i b => ⟨?_, ?_⟩⟩
  · rw [hget', hget, Option.map_map]
  · exact (hg i (f i b)).1.trans (hf i b).1
  · dsimp only [Function.comp]
    rcases (hg i (f i b)).2 with hsame | hnamed
    · rw [hsame]
      exact (hf i b).2
    · exact .inr hnamed

/-- Such a change keeps the number of entries. -/
theorem ChangesInPlace.length_eq {blocks blocks' : List BlockState}
    (h : ChangesInPlace blocks blocks') : blocks'.length = blocks.length := by
  obtain ⟨f, hget, -⟩ := h
  have hle : ∀ i, blocks'.length ≤ i ↔ blocks.length ≤ i := fun i => by
    rw [← List.getElem?_eq_none_iff, ← List.getElem?_eq_none_iff, hget, Option.map_eq_none_iff]
  exact le_antisymm ((hle _).mpr le_rfl) ((hle _).mp le_rfl)

/-- The blocks of a new full backup. -/
def fullBlocks (versionId totalBlocks : UInt64) (hash : Nat → Hash) : List BlockState :=
  (List.range totalBlocks.toNat).map fun i => fullBlock versionId (hash i) i

theorem getElem?_fullBlocks (versionId totalBlocks : UInt64) (hash : Nat → Hash) (i : Nat) :
    (fullBlocks versionId totalBlocks hash)[i]?
      = if i < totalBlocks.toNat then some (fullBlock versionId (hash i) i) else none := by
  rw [fullBlocks, List.getElem?_map]
  split
  · next hi => rw [List.getElem?_range hi, Option.map_some]
  · next hi =>
    rw [List.getElem?_eq_none (by rw [List.length_range]; exact not_lt.mp hi), Option.map_none]

theorem updatedBlock_changes (versionId : UInt64) (pairs : List (Nat × BlockHashEntry)) (i : Nat)
    (b : BlockState) :
    (updatedBlock versionId pairs i b.unchanged).place = b.place ∧
      (updatedBlock versionId pairs i b.unchanged).ack.Named := by
  rw [updatedBlock]
  split <;> exact ⟨rfl, trivial⟩

theorem changesInPlace_setBlockHash (m : BlockStateManager) (blockIndex : UInt64) (hash : Hash) :
    ChangesInPlace m.blocks (m.setBlockHash blockIndex hash).2.blocks := by
  refine ⟨fun i b => if blockIndex.toNat = i then { b with hash := hash } else b,
    fun i => ?_, fun i b => ?_⟩
  · rw [blocks_setBlockHash, List.getElem?_modify]
    rfl
  · dsimp only
    split <;> exact ⟨rfl, .inl rfl⟩

theorem changesInPlace_updateIncrementalBlocks (m : BlockStateManager) (versionId : UInt64)
    (changedIndexes : List Nat) (hashes : List BlockHashEntry) :
    ChangesInPlace m.blocks (m.updateIncrementalBlocks versionId changedIndexes hashes).2.blocks := by
  by_cases hacc : m.UpdateAccepted versionId changedIndexes hashes
  · refine ⟨_, getElem?_updateIncrementalBlocks hacc, fun i b => ?_⟩
    have hchanges := updatedBlock_changes versionId (changedIndexes.zip hashes).reverse i b
    exact ⟨hchanges.1, .inr hchanges.2⟩
  · rw [updateIncrementalBlocks_of_not_accepted hacc]
    exact .refl _

theorem changesInPlace_setBlockAck (m : BlockStateManager) (blockIndex : UInt64)
    (status : NamedStatus) :
    ChangesInPlace m.blocks (m.setBlockAck blockIndex status.1).2.blocks := by
  refine ⟨fun i b => if blockIndex.toNat = i then { b with ack := status.1 } else b,
    fun i => ?_, fun i b => ?_⟩
  · rw [blocks_setBlockAck, List.getElem?_modify]
    rfl
  · dsimp only
    split
    · exact ⟨rfl, .inr status.2⟩
    · exact ⟨rfl, .inl rfl⟩

theorem changesInPlace_ackCall (m : BlockStateManager) (call : AckCall) (status : NamedStatus) :
    ChangesInPlace m.blocks (call.apply status.1 m).blocks := by
  refine ⟨_, getElem?_ackCall call status.1 m, fun i b => ?_⟩
  split
  · exact ⟨rfl, .inr status.2⟩
  · exact ⟨rfl, .inl rfl⟩

/-- **What an operation can do to the array**: it starts a full backup of a known version, or
changes the entries in place. -/
theorem blocks_apply (m : BlockStateManager) (op : Operation) :
    (∃ versionId totalBlocks hash,
        (m.apply op).blocks = fullBlocks versionId totalBlocks hash ∧
          (m.apply op).totalBlocks = totalBlocks) ∨
      (m.apply op).totalBlocks = m.totalBlocks ∧ ChangesInPlace m.blocks (m.apply op).blocks := by
  cases op with
  | createVersion => exact .inr ⟨rfl, .refl _⟩
  | initFullBlocks versionId totalBlocks entries =>
      rw [apply, initFullBlocks]
      split
      · exact .inr ⟨rfl, .refl _⟩
      · exact .inl ⟨versionId, totalBlocks, _, rfl, rfl⟩
  | initFullBlocksEmpty versionId totalBlocks =>
      rw [apply, initFullBlocksEmpty]
      split
      · exact .inr ⟨rfl, .refl _⟩
      · exact .inl ⟨versionId, totalBlocks, fun _ => .zero, rfl, rfl⟩
  | setBlockHash blockIndex hash =>
      refine .inr ⟨?_, changesInPlace_setBlockHash m blockIndex hash⟩
      rw [apply, setBlockHash]
      split <;> rfl
  | updateIncrementalBlocks versionId changedIndexes hashes =>
      refine .inr ⟨?_, changesInPlace_updateIncrementalBlocks m versionId changedIndexes hashes⟩
      rw [apply, updateIncrementalBlocks]
      split
      · rfl
      · split
        · rfl
        · split <;> rfl
  | setAck call status =>
      refine .inr ⟨?_, changesInPlace_ackCall m call status⟩
      obtain ⟨dirty, heq⟩ := apply_ackCall call status.1 m
      rw [apply, heq]
      refine foldl_preserves (P := fun s : BlockStateManager => s.totalBlocks = m.totalBlocks)
        (fun s idx hs => ?_) rfl _
      rw [setBlockAck]
      split <;> exact hs

end BlockStateManager

end Go2Cbt.Client
