import Go2Cbt.Basic
import Go2Cbt.Lib.SortedMap
import Mathlib.Data.List.Induction

/-!
# Client — block states and versions

`client/BlockStateManager.h` and the operations of `BlockStateManager.cpp` that do not touch
the state file: an array of block states, a table of versions, and how the backup flows change
them.  The mutex makes each operation one step.  Clock readings are arguments.
-/

namespace Go2Cbt.Client

/-- `AckStatus`.  A state file can hold codes that the enumeration does not name. -/
inductive AckStatus where
  | pending
  | sent
  | acknowledged
  | failed
  | skipped
  | unnamed (code : UInt32)
  deriving DecidableEq, Repr

/-- `BlockState`. -/
structure BlockState where
  blockIndex : UInt64
  offset : UInt64
  hash : Hash
  versionId : UInt64
  ack : AckStatus
  changed : Bool
  deriving DecidableEq

/-- `BlockState::NeedsUpload`. -/
def BlockState.needsUpload (bs : BlockState) : Bool := bs.changed && bs.ack ≠ .acknowledged

/-- Where a block goes and where it is read: its number and its offset. -/
def BlockState.place (bs : BlockState) : UInt64 × UInt64 := (bs.blockIndex, bs.offset)

/-- An entry as `UpdateIncrementalBlocks` marks it before it looks at its list. -/
def BlockState.unchanged (bs : BlockState) : BlockState :=
  { bs with changed := false, ack := .skipped }

/-- `VersionRecord`.  Texts are their UTF-16 units, times their 64-bit file times. -/
structure VersionRecord where
  versionId : UInt64
  devNo : UInt32
  versionType : List UInt16
  snapshotTime : UInt64
  totalBlocks : UInt64
  changedBlocks : UInt64
  totalSize : UInt64
  ackedBlocks : UInt64
  createTimestamp : UInt64
  deriving DecidableEq

/-- `BlockHashEntry`. -/
structure BlockHashEntry where
  blockIndex : UInt64
  offset : UInt64
  hash : Hash
  deriving DecidableEq

/-- `BlockStateManager`.  `m_versions` is keyed by version id. -/
structure BlockStateManager where
  initialized : Bool
  dirty : Bool
  devNo : UInt32
  totalBlocks : UInt64
  blocks : List BlockState
  versions : SortedMap Nat VersionRecord
  nextVersionId : UInt64
  deriving DecidableEq

namespace BlockStateManager

/-- The constructor. -/
def new : BlockStateManager :=
  { initialized := false
    dirty := false
    devNo := 0xFFFFFFFF
    totalBlocks := 0
    blocks := []
    versions := .empty
    nextVersionId := 0 }

/-- `CreateVersion`. -/
def createVersion (m : BlockStateManager) (type : List UInt16) (snapshotTime now : UInt64)
    (totalBlocks totalSize : UInt64) : VersionRecord × BlockStateManager :=
  let ver : VersionRecord :=
    { versionId := m.nextVersionId
      devNo := m.devNo
      versionType := type
      snapshotTime := snapshotTime
      totalBlocks := totalBlocks
      changedBlocks := 0
      totalSize := totalSize
      ackedBlocks := 0
      createTimestamp := now }
  (ver,
    { m with
      nextVersionId := m.nextVersionId + 1
      versions := m.versions.insert ver.versionId.toNat ver
      dirty := true })

/-- The entry of block `i` in a full backup. -/
def fullBlock (versionId : UInt64) (hash : Hash) (i : Nat) : BlockState :=
  { blockIndex := UInt64.ofNat i
    offset := UInt64.ofNat i * UInt64.ofNat blockSize
    hash := hash
    versionId := versionId
    ack := .pending
    changed := true }

/-- `InitFullBlocks`, on the total and the entries of the manifest. -/
def initFullBlocks (m : BlockStateManager) (versionId totalBlocks : UInt64)
    (entries : List BlockHashEntry) : Bool × BlockStateManager :=
  match m.versions.find? versionId.toNat with
  | none => (false, m)
  | some _ =>
      (true,
        { m with
          totalBlocks := totalBlocks
          blocks := (List.range totalBlocks.toNat).map fun i =>
            fullBlock versionId ((entries[i]?.map BlockHashEntry.hash).getD .zero) i
          versions := m.versions.modify versionId.toNat fun ver =>
            { ver with changedBlocks := totalBlocks }
          dirty := true })

/-- `InitFullBlocksEmpty`. -/
def initFullBlocksEmpty (m : BlockStateManager) (versionId totalBlocks : UInt64) :
    Bool × BlockStateManager :=
  match m.versions.find? versionId.toNat with
  | none => (false, m)
  | some _ =>
      (true,
        { m with
          totalBlocks := totalBlocks
          blocks := (List.range totalBlocks.toNat).map (fullBlock versionId .zero)
          versions := m.versions.modify versionId.toNat fun ver =>
            { ver with changedBlocks := totalBlocks }
          dirty := true })

/-- `SetBlockHash`. -/
def setBlockHash (m : BlockStateManager) (blockIndex : UInt64) (hash : Hash) :
    Bool × BlockStateManager :=
  if blockIndex.toNat ≥ m.blocks.length then (false, m)
  else
    (true,
      { m with
        blocks := m.blocks.modify blockIndex.toNat fun bs => { bs with hash := hash }
        dirty := true })

/-- One turn of the loop of `UpdateIncrementalBlocks`: the entries, and how many were listed. -/
def updateIncrementalBlock (versionId : UInt64) (st : List BlockState × Nat)
    (p : Nat × BlockHashEntry) : List BlockState × Nat :=
  if p.1 ≥ st.1.length then st
  else
    (st.1.modify p.1 fun bs =>
      { bs with versionId := versionId, hash := p.2.hash, ack := .pending, changed := true },
     st.2 + 1)

/-- `UpdateIncrementalBlocks`. -/
def updateIncrementalBlocks (m : BlockStateManager) (versionId : UInt64)
    (changedIndexes : List Nat) (hashes : List BlockHashEntry) : Bool × BlockStateManager :=
  if changedIndexes.length ≠ hashes.length then (false, m)
  else if m.blocks = [] then (false, m)
  else
    match m.versions.find? versionId.toNat with
    | none => (false, m)
    | some _ =>
        let unchanged := m.blocks.map BlockState.unchanged
        let updated := (changedIndexes.zip hashes).foldl (updateIncrementalBlock versionId)
          (unchanged, 0)
        (true,
          { m with
            blocks := updated.1
            versions := m.versions.modify versionId.toNat fun ver =>
              { ver with changedBlocks := UInt64.ofNat updated.2, ackedBlocks := 0 }
            dirty := true })

/-- `SetBlockAck`. -/
def setBlockAck (m : BlockStateManager) (blockIndex : UInt64) (status : AckStatus) :
    Bool × BlockStateManager :=
  match m.blocks[blockIndex.toNat]? with
  | none => (false, m)
  | some old =>
      (true,
        { m with
          blocks := m.blocks.set blockIndex.toNat { old with ack := status }
          versions :=
            if old.ack ≠ .acknowledged ∧ status = .acknowledged then
              m.versions.modify old.versionId.toNat fun ver =>
                { ver with ackedBlocks := ver.ackedBlocks + 1 }
            else m.versions
          dirty := true })

/-- `SetBlockAckList`. -/
def setBlockAckList (m : BlockStateManager) (blockIndexes : List UInt64) (status : AckStatus) :
    BlockStateManager :=
  blockIndexes.foldl (fun m idx => (m.setBlockAck idx status).2) m

/-- The loop of `SetBlockAckRange`, with `left` blocks to go from `i`. -/
def setBlockAckRangeFrom (status : AckStatus) : (left i : Nat) → BlockStateManager →
    BlockStateManager
  | 0, _, m => m
  | left + 1, i, m =>
      match m.blocks[i]? with
      | none => m
      | some old =>
          setBlockAckRangeFrom status left (i + 1)
            { m with
              blocks := m.blocks.set i { old with ack := status }
              versions :=
                if old.ack ≠ .acknowledged ∧ status = .acknowledged then
                  m.versions.modify old.versionId.toNat fun ver =>
                    { ver with ackedBlocks := ver.ackedBlocks + 1 }
                else m.versions }

/-- `SetBlockAckRange`; the sum wraps, and the flag is set even for an empty range. -/
def setBlockAckRange (m : BlockStateManager) (startBlock count : UInt64) (status : AckStatus) :
    BlockStateManager :=
  let last := min (startBlock + count).toNat m.blocks.length
  { setBlockAckRangeFrom status (last - startBlock.toNat) startBlock.toNat m with dirty := true }

/-- `GetPendingBlocks`. -/
def getPendingBlocks (m : BlockStateManager) : List BlockState :=
  m.blocks.filter BlockState.needsUpload

/-! ### One block at a time -/

theorem blocks_setBlockHash (m : BlockStateManager) (blockIndex : UInt64) (hash : Hash) :
    (m.setBlockHash blockIndex hash).2.blocks
      = m.blocks.modify blockIndex.toNat fun bs => { bs with hash := hash } := by
  rw [setBlockHash]
  split
  · next hout => exact (List.modify_eq_self hout).symm
  · rfl

theorem blocks_setBlockAck (m : BlockStateManager) (blockIndex : UInt64) (status : AckStatus) :
    (m.setBlockAck blockIndex status).2.blocks
      = m.blocks.modify blockIndex.toNat fun bs => { bs with ack := status } := by
  rw [setBlockAck]
  split
  · next hout => exact (List.modify_eq_self (List.getElem?_eq_none_iff.mp hout)).symm
  · next old hold =>
    obtain ⟨hlt, rfl⟩ := List.getElem?_eq_some_iff.mp hold
    exact (List.modify_eq_set_get (fun bs : BlockState => { bs with ack := status }) hlt).symm

/-- Setting a hash leaves every status. -/
theorem ack_setBlockHash (m : BlockStateManager) (blockIndex : UInt64) (hash : Hash) (i : Nat) :
    ((m.setBlockHash blockIndex hash).2.blocks[i]?).map BlockState.ack
      = m.blocks[i]?.map BlockState.ack := by
  rw [blocks_setBlockHash, List.getElem?_modify]
  cases m.blocks[i]? with
  | none => rfl
  | some bs =>
      simp only [Option.map_eq_map, Option.map_some]
      split <;> rfl

/-- Setting a status leaves the other blocks. -/
theorem getElem?_setBlockAck_ne (m : BlockStateManager) {blockIndex : UInt64}
    (status : AckStatus) {i : Nat} (h : blockIndex.toNat ≠ i) :
    (m.setBlockAck blockIndex status).2.blocks[i]? = m.blocks[i]? := by
  rw [blocks_setBlockAck, List.getElem?_modify_ne _ _ h]

theorem getElem?_setBlockAck_self (m : BlockStateManager) (blockIndex : UInt64)
    (status : AckStatus) :
    (m.setBlockAck blockIndex status).2.blocks[blockIndex.toNat]?
      = m.blocks[blockIndex.toNat]?.map fun bs => { bs with ack := status } := by
  rw [blocks_setBlockAck, List.getElem?_modify_eq, Option.map_eq_map]

/-- How many blocks are acknowledged. -/
def acknowledgedCount (m : BlockStateManager) : Nat :=
  m.blocks.countP fun bs => bs.ack = .acknowledged

theorem countP_map_ack (p : AckStatus → Bool) (blocks : List BlockState) :
    (blocks.map BlockState.ack).countP p = blocks.countP fun bs => p bs.ack := by
  rw [List.countP_map]
  rfl

theorem acknowledgedCount_setBlockHash (m : BlockStateManager) (blockIndex : UInt64)
    (hash : Hash) :
    (m.setBlockHash blockIndex hash).2.acknowledgedCount = m.acknowledgedCount := by
  have hacks : (m.setBlockHash blockIndex hash).2.blocks.map BlockState.ack
      = m.blocks.map BlockState.ack := by
    refine List.ext_getElem? fun i => ?_
    rw [List.getElem?_map, List.getElem?_map, ack_setBlockHash]
  have hcount := congrArg (List.countP fun ack => decide (ack = AckStatus.acknowledged)) hacks
  rw [countP_map_ack, countP_map_ack] at hcount
  exact hcount

/-- Setting the status of a block that is not acknowledged. -/
theorem acknowledgedCount_setBlockAck {m : BlockStateManager} {blockIndex : UInt64}
    {old : BlockState} (hold : m.blocks[blockIndex.toNat]? = some old)
    (hack : old.ack ≠ .acknowledged) (status : AckStatus) :
    (m.setBlockAck blockIndex status).2.acknowledgedCount
      = m.acknowledgedCount + if status = .acknowledged then 1 else 0 := by
  obtain ⟨hlt, rfl⟩ := List.getElem?_eq_some_iff.mp hold
  rw [setBlockAck, hold]
  simp only [acknowledgedCount, List.countP_set hlt, hack, decide_false, Bool.false_eq_true,
    if_false, Nat.sub_zero, decide_eq_true_eq]

/-- Its version counts it. -/
theorem versions_setBlockAck {m : BlockStateManager} {blockIndex : UInt64} {old : BlockState}
    (hold : m.blocks[blockIndex.toNat]? = some old) (hack : old.ack ≠ .acknowledged)
    (status : AckStatus) :
    (m.setBlockAck blockIndex status).2.versions.find? old.versionId.toNat
      = (m.versions.find? old.versionId.toNat).map fun ver =>
          { ver with
            ackedBlocks := ver.ackedBlocks + if status = .acknowledged then 1 else 0 } := by
  rw [setBlockAck, hold]
  by_cases hstatus : status = .acknowledged
  · simp only [hack, hstatus, ne_eq, not_false_eq_true, and_self, if_true,
      SortedMap.find?_modify]
  · simp only [hstatus, and_false, if_false, UInt64.add_zero]
    cases m.versions.find? old.versionId.toNat <;> rfl

theorem versions_setBlockHash (m : BlockStateManager) (blockIndex : UInt64) (hash : Hash) :
    (m.setBlockHash blockIndex hash).2.versions = m.versions := by
  rw [setBlockHash]
  split <;> rfl

/-! ### A range of blocks -/

/-- Setting statuses reads no flag. -/
theorem setBlockAckList_dirty (m : BlockStateManager) (idxs : List UInt64) (status : AckStatus)
    (a b : Bool) :
    { ({ m with dirty := a }).setBlockAckList idxs status with dirty := b }
      = { m.setBlockAckList idxs status with dirty := b } := by
  induction idxs generalizing m a with
  | nil => rfl
  | cons idx idxs ih =>
      have htail : ∀ s : BlockStateManager, s.setBlockAckList (idx :: idxs) status
          = (s.setBlockAck idx status).2.setBlockAckList idxs status := fun _ => rfl
      rw [htail, htail, setBlockAck, setBlockAck]
      dsimp only
      cases m.blocks[idx.toNat]? with
      | none => exact ih m a
      | some old => rfl

/-- The loop of `SetBlockAckRange` sets the blocks of a list, up to the flag. -/
theorem setBlockAckRangeFrom_eq (status : AckStatus) {left i : Nat} {m : BlockStateManager}
    (hlen : i + left ≤ m.blocks.length) (hindex : i + left ≤ 2 ^ 64) (dirty : Bool) :
    { setBlockAckRangeFrom status left i m with dirty := dirty }
      = { m.setBlockAckList ((List.range' i left).map UInt64.ofNat) status with
          dirty := dirty } := by
  induction left generalizing i m with
  | zero => rfl
  | succ left ih =>
      have hlt : i < m.blocks.length := by omega
      have hold : m.blocks[i]? = some m.blocks[i] := List.getElem?_eq_getElem hlt
      have hi : (UInt64.ofNat i).toNat = i := UInt64.toNat_ofNat_of_lt (by rw [UInt64.size]; omega)
      have htail : m.setBlockAckList ((List.range' i (left + 1)).map UInt64.ofNat) status
          = (m.setBlockAck (UInt64.ofNat i) status).2.setBlockAckList
              ((List.range' (i + 1) left).map UInt64.ofNat) status := rfl
      rw [htail, setBlockAck, hi, setBlockAckRangeFrom, hold]
      dsimp only
      rw [ih (by rw [List.length_set]; omega) (by omega)]
      exact (setBlockAckList_dirty _ _ _ _ _).symm

/-- **`SetBlockAckRange` is a `SetBlockAckList`**, up to the flag. -/
theorem setBlockAckRange_eq (m : BlockStateManager) (startBlock count : UInt64)
    (status : AckStatus) :
    m.setBlockAckRange startBlock count status
      = { m.setBlockAckList ((List.range' startBlock.toNat
            (min (startBlock + count).toNat m.blocks.length - startBlock.toNat)).map UInt64.ofNat)
            status with
          dirty := true } := by
  have hsum := (startBlock + count).toNat_lt
  rw [setBlockAckRange]
  rcases Nat.le_total (min (startBlock + count).toNat m.blocks.length) startBlock.toNat
    with hempty | hsome
  · rw [Nat.sub_eq_zero_of_le hempty]
    rfl
  · exact setBlockAckRangeFrom_eq status (by omega) (by omega) true

/-! ### What an incremental update leaves -/

/-- The entry at position `i` after the listed updates. -/
def updatedBlock (versionId : UInt64) (pairs : List (Nat × BlockHashEntry)) (i : Nat)
    (bs : BlockState) : BlockState :=
  match pairs.find? fun p => p.1 = i with
  | none => bs
  | some p => { bs with versionId := versionId, hash := p.2.hash, ack := .pending, changed := true }

/-- The loop updates each listed position, and no other; the last update of a position stands. -/
theorem getElem?_foldl_update (versionId : UInt64) (pairs : List (Nat × BlockHashEntry))
    (blocks : List BlockState) (n i : Nat) :
    (pairs.foldl (updateIncrementalBlock versionId) (blocks, n)).1[i]?
      = blocks[i]?.map (updatedBlock versionId pairs.reverse i) := by
  induction pairs using List.reverseRecOn with
  | nil =>
      have hid : updatedBlock versionId [] i = id := rfl
      rw [List.foldl_nil, List.reverse_nil, hid, Option.map_id, id]
  | append_singleton pairs p ih =>
      rw [List.foldl_append, List.reverse_append, List.reverse_singleton, List.singleton_append,
        List.foldl_cons, List.foldl_nil, updateIncrementalBlock]
      by_cases hi : p.1 = i
      · subst hi
        split
        · next hout =>
          have hnone : blocks[p.1]? = none := by
            rw [List.getElem?_eq_none hout] at ih
            exact Option.map_eq_none_iff.mp ih.symm
          rw [List.getElem?_eq_none hout, hnone, Option.map_none]
        · rw [List.getElem?_modify_eq, ih, Option.map_eq_map, Option.map_map]
          congr 1
          funext bs
          rw [Function.comp, updatedBlock, updatedBlock, List.find?_cons, decide_eq_true rfl]
          split <;> rfl
      · have hfind : updatedBlock versionId (p :: pairs.reverse) i
            = updatedBlock versionId pairs.reverse i := by
          funext bs
          rw [updatedBlock, updatedBlock, List.find?_cons, decide_eq_false hi]
        rw [hfind]
        split
        · exact ih
        · rw [List.getElem?_modify_ne _ _ hi]
          exact ih

theorem find?_zip_isSome_iff {idxs : List Nat} {hashes : List BlockHashEntry}
    (hlen : idxs.length = hashes.length) (i : Nat) :
    ((idxs.zip hashes).reverse.find? fun p => p.1 = i).isSome ↔ i ∈ idxs := by
  rw [List.find?_isSome]
  refine ⟨fun ⟨p, hp, h⟩ => ?_, fun h => ?_⟩
  · exact of_decide_eq_true h ▸ (List.of_mem_zip (List.mem_reverse.mp hp)).1
  · rw [← List.map_fst_zip hlen.le] at h
    obtain ⟨p, hp, rfl⟩ := List.mem_map.mp h
    exact ⟨p, List.mem_reverse.mpr hp, decide_eq_true rfl⟩

theorem place_updatedBlock (versionId : UInt64) (pairs : List (Nat × BlockHashEntry))
    (i : Nat) (bs : BlockState) :
    (updatedBlock versionId pairs i bs).place = bs.place := by
  rw [updatedBlock]
  split <;> rfl

theorem needsUpload_updatedBlock (versionId : UInt64) (pairs : List (Nat × BlockHashEntry))
    (i : Nat) (bs : BlockState) :
    (updatedBlock versionId pairs i bs.unchanged).needsUpload
      = (pairs.find? fun p => p.1 = i).isSome := by
  rw [updatedBlock]
  split
  · next h => rw [h]; rfl
  · next h => rw [h]; rfl

/-- An update is accepted when each listed block comes with a hash, there are blocks, and the
version is known. -/
def UpdateAccepted (m : BlockStateManager) (versionId : UInt64) (changedIndexes : List Nat)
    (hashes : List BlockHashEntry) : Prop :=
  changedIndexes.length = hashes.length ∧ m.blocks ≠ [] ∧
    (m.versions.find? versionId.toNat).isSome = true

/-- **What an update does to one block.** -/
theorem getElem?_updateIncrementalBlocks {m : BlockStateManager} {versionId : UInt64}
    {idxs : List Nat} {hashes : List BlockHashEntry} (h : m.UpdateAccepted versionId idxs hashes)
    (i : Nat) :
    (m.updateIncrementalBlocks versionId idxs hashes).2.blocks[i]?
      = m.blocks[i]?.map fun b =>
          updatedBlock versionId (idxs.zip hashes).reverse i b.unchanged := by
  obtain ⟨hlen, hblocks, hver⟩ := h
  obtain ⟨ver, hver⟩ := Option.isSome_iff_exists.mp hver
  rw [updateIncrementalBlocks, if_neg (not_not.mpr hlen), if_neg hblocks, hver]
  refine (getElem?_foldl_update versionId _ _ _ i).trans ?_
  rw [List.getElem?_map, Option.map_map]
  rfl

/-- A refused update changes nothing. -/
theorem updateIncrementalBlocks_of_not_accepted {m : BlockStateManager} {versionId : UInt64}
    {idxs : List Nat} {hashes : List BlockHashEntry}
    (h : ¬ m.UpdateAccepted versionId idxs hashes) :
    m.updateIncrementalBlocks versionId idxs hashes = (false, m) := by
  rw [updateIncrementalBlocks]
  split
  · rfl
  · next hlen =>
    split
    · rfl
    · next hblocks =>
      split
      · rfl
      · next ver hver =>
        exact absurd ⟨not_not.mp hlen, hblocks, by rw [hver]; rfl⟩ h

/-- **Which blocks an accepted update leaves to be sent**: those at the listed positions. -/
theorem getPendingBlocks_updateIncrementalBlocks {m : BlockStateManager} {versionId : UInt64}
    {idxs : List Nat} {hashes : List BlockHashEntry}
    (h : m.UpdateAccepted versionId idxs hashes) :
    (m.updateIncrementalBlocks versionId idxs hashes).2.getPendingBlocks.map BlockState.place
      = (m.blocks.zipIdx.filter fun p => p.2 ∈ idxs).map fun p => p.1.place := by
  have hupdate : (m.updateIncrementalBlocks versionId idxs hashes).2.blocks
      = m.blocks.zipIdx.map fun p =>
          updatedBlock versionId (idxs.zip hashes).reverse p.2 p.1.unchanged := by
    refine List.ext_getElem? fun i => ?_
    rw [getElem?_updateIncrementalBlocks h, List.getElem?_map, List.getElem?_zipIdx,
      Option.map_map, Nat.zero_add]
    rfl
  rw [getPendingBlocks, hupdate, List.filter_map, List.map_map]
  have hfilter : (m.blocks.zipIdx.filter (BlockState.needsUpload ∘ fun p =>
      updatedBlock versionId (idxs.zip hashes).reverse p.2 p.1.unchanged))
        = m.blocks.zipIdx.filter fun p => p.2 ∈ idxs := by
    refine List.filter_congr fun p _ => ?_
    rw [Function.comp, needsUpload_updatedBlock, Bool.eq_iff_iff, find?_zip_isSome_iff h.1,
      decide_eq_true_iff]
  rw [hfilter]
  exact List.map_congr_left fun p _ => place_updatedBlock _ _ _ _

/-- The entries themselves: each has a new hash. -/
theorem mem_getPendingBlocks_updateIncrementalBlocks {m : BlockStateManager} {versionId : UInt64}
    {idxs : List Nat} {hashes : List BlockHashEntry}
    (h : m.UpdateAccepted versionId idxs hashes) {block : BlockState} :
    block ∈ (m.updateIncrementalBlocks versionId idxs hashes).2.getPendingBlocks ↔
      ∃ i b p, m.blocks[i]? = some b ∧
        (idxs.zip hashes).reverse.find? (fun p => p.1 = i) = some p ∧
        block = { b with
          versionId := versionId, hash := p.2.hash, ack := .pending, changed := true } := by
  constructor
  · intro hmem
    obtain ⟨hin, hneeds⟩ := List.mem_filter.mp hmem
    obtain ⟨i, hi⟩ := List.getElem?_of_mem hin
    rw [getElem?_updateIncrementalBlocks h, Option.map_eq_some_iff] at hi
    obtain ⟨b, hb, rfl⟩ := hi
    rw [needsUpload_updatedBlock] at hneeds
    obtain ⟨p, hp⟩ := Option.isSome_iff_exists.mp hneeds
    refine ⟨i, b, p, hb, hp, ?_⟩
    rw [updatedBlock, hp]
    rfl
  · rintro ⟨i, b, p, hb, hp, rfl⟩
    refine List.mem_filter.mpr ⟨List.mem_of_getElem? (?_ : _[i]? = _), rfl⟩
    rw [getElem?_updateIncrementalBlocks h, hb, Option.map_some, updatedBlock, hp]
    rfl

end BlockStateManager

end Go2Cbt.Client
