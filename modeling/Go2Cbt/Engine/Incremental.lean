import Go2Cbt.Client.BlockHasher
import Go2Cbt.Client.CbtClient
import Go2Cbt.Client.VolumeMapper
import Go2Cbt.Driver.Write
import Go2Cbt.Engine.Transfer

/-!
# Engine — an incremental backup

`BackupEngine::IncrementalBackup` from the query to the reset.  Everything that can fail is part
of `IncrementalEnv`; what the run does with a failure is the code's.

The run ends with a reset of the bitmap whatever became of the blocks.
`reset_only_after_acks_iff` gives the exact patterns of failures, and the exact contents of the
block state, for which every reported block has been acknowledged by then; otherwise there is one
that is neither acknowledged nor reported any more.

Saving the block state and closing the connection change nothing the run looks at again, so
they are left out.
-/

namespace Go2Cbt.Engine

open Go2Cbt.Client Go2Cbt.Driver

/-- A `HELLO` message. -/
structure HelloMessage where
  versionId : UInt32
  devNo : UInt32
  totalBlocks : UInt64
  totalSize : UInt64
  versionType : List UInt16
  deriving DecidableEq, Repr

/-- The UTF-16 units of an ASCII text. -/
def utf16 (text : String) : List UInt16 := text.toList.map fun c => UInt16.ofNat c.toNat

/-- The outside of an incremental run. -/
structure IncrementalEnv (σ : Type) where
  cbtConnects : Bool
  vss : Vss
  mapped : List MappedPartition
  snapshotTime : UInt64
  now : UInt64
  connects : Bool
  hello : HelloMessage → σ → Bool × σ
  hash : HashOps
  transfer : DataSource → TransferOps σ

/-- What a run leaves behind. -/
structure IncrementalResult (σ : Type) where
  success : Bool
  driver : DiskMap
  resetCalled : Bool
  flagged : List Nat
  manager : BlockStateManager
  net : σ
  acknowledged : List UInt64

/-- The manifest the run hashes with: as many entries as blocks, all zeroed. -/
def dummyManifest (totalBlocks : UInt64) : HashManifest :=
  { totalBlocks := totalBlocks
    totalSize := totalBlocks * UInt64.ofNat blockSize
    entries := List.replicate totalBlocks.toNat { blockIndex := 0, offset := 0, hash := .zero } }

/-- Connecting and greeting, before the hashes are computed. -/
def greet {σ : Type} (config : TransferConfig) (env : IncrementalEnv σ) (hello : HelloMessage)
    (net : σ) : Bool × σ :=
  if config.dryRun then (true, net)
  else if env.connects then env.hello hello net
  else (false, net)

/-- The second half of the run, for a version that has been created and greeted: hashes, block
state, transfer, reset. -/
def transferAndReset {σ : Type} (config : TransferConfig) (devNo : UInt32)
    (env : IncrementalEnv σ) (cbtChanged : List Nat) (ver : VersionRecord)
    (manager : BlockStateManager) (driver : DiskMap) (net : σ) : IncrementalResult σ :=
  let totalBlocks := manager.totalBlocks
  let changedHashes := (computeBlockHashes env.hash (dummyManifest totalBlocks) cbtChanged).2
  let updated := manager.updateIncrementalBlocks ver.versionId cbtChanged changedHashes
  let sent := transferBlocks config (env.transfer (dataSource env.vss env.mapped devNo)) devNo
    ver.versionId.toUInt32 totalBlocks
    { manager := updated.2
      connected := !config.dryRun
      net
      sentCount := 0
      ackedBlocks := 0
      acknowledged := []
      visited := []
      tries := [] }
  { success := true
    driver := (CbtClient.reset env.cbtConnects driver devNo).2
    resetCalled := true
    flagged := cbtChanged
    manager := sent.manager
    net := sent.net
    acknowledged := sent.acknowledged }

/-- `IncrementalBackup`; `manager` is the block state that `Initialize` loaded. -/
def incrementalBackup {σ : Type} (config : TransferConfig) (devNo : UInt32)
    (env : IncrementalEnv σ) (manager : BlockStateManager) (driver : DiskMap) (net : σ) :
    IncrementalResult σ :=
  let stop (success : Bool) (flagged : List Nat) (manager : BlockStateManager) (net : σ) :
      IncrementalResult σ :=
    { success, driver, resetCalled := false, flagged, manager, net, acknowledged := [] }
  match CbtClient.query env.cbtConnects driver driver devNo with
  | none => stop false [] manager net
  | some (bitmap, totalBits) =>
      let cbtChanged := CbtClient.parseChangedBlocks bitmap totalBits
      if cbtChanged = [] then stop true [] manager net
      else if env.vss.takeSnapshots env.mapped = false then stop false cbtChanged manager net
      else
        let totalBlocks := manager.totalBlocks
        let totalSize := totalBlocks * UInt64.ofNat blockSize
        let created := manager.createVersion (utf16 "INCREMENTAL") env.snapshotTime env.now
          totalBlocks totalSize
        let greeted := greet config env
          { versionId := created.1.versionId.toUInt32
            devNo := devNo
            totalBlocks := totalBlocks
            totalSize := totalSize
            versionType := utf16 "INCREMENTAL" } net
        if greeted.1 = false then stop false cbtChanged created.2 greeted.2
        else
          transferAndReset config devNo env cbtChanged created.1 created.2 driver greeted.2

/-- The blocks the driver reports as changed. -/
def reportedBlocks (cbtConnects : Bool) (driver : DiskMap) (devNo : UInt32) : List Nat :=
  match CbtClient.query cbtConnects driver driver devNo with
  | none => []
  | some (bitmap, totalBits) => CbtClient.parseChangedBlocks bitmap totalBits

/-- The version that a run creates, with the block state. -/
def incrementalVersion {σ : Type} (env : IncrementalEnv σ) (manager : BlockStateManager) :
    VersionRecord × BlockStateManager :=
  manager.createVersion (utf16 "INCREMENTAL") env.snapshotTime env.now manager.totalBlocks
    (manager.totalBlocks * UInt64.ofNat blockSize)

/-- The greeting of a run. -/
def incrementalHello {σ : Type} (devNo : UInt32) (env : IncrementalEnv σ)
    (manager : BlockStateManager) : HelloMessage :=
  { versionId := (incrementalVersion env manager).1.versionId.toUInt32
    devNo
    totalBlocks := manager.totalBlocks
    totalSize := manager.totalBlocks * UInt64.ofNat blockSize
    versionType := utf16 "INCREMENTAL" }

/-- **What a run does to the network**: nothing, or a greeting, or a greeting and the transfer. -/
theorem net_incrementalBackup {σ : Type} (config : TransferConfig) (devNo : UInt32)
    (env : IncrementalEnv σ) (manager : BlockStateManager) (driver : DiskMap) (net : σ) :
    let reported := reportedBlocks env.cbtConnects driver devNo
    let created := incrementalVersion env manager
    let greeted := greet config env (incrementalHello devNo env manager) net
    (incrementalBackup config devNo env manager driver net).net
      = if reported = [] ∨ env.vss.takeSnapshots env.mapped = false then net
        else if greeted.1 = false then greeted.2
        else
          (transferAndReset config devNo env reported created.1 created.2 driver greeted.2).net := by
  intro reported created greeted
  have hreported : reported = reportedBlocks env.cbtConnects driver devNo := rfl
  rw [reportedBlocks] at hreported
  rw [incrementalBackup]
  cases hquery : CbtClient.query env.cbtConnects driver driver devNo with
  | none =>
      rw [hquery] at hreported
      exact (if_pos (.inl hreported)).symm
  | some r =>
      rw [hquery] at hreported
      dsimp only at hreported ⊢
      rw [← hreported]
      by_cases hnone : reported = []
      · rw [if_pos hnone, if_pos (.inl hnone)]
      · rw [if_neg hnone]
        by_cases hsnap : env.vss.takeSnapshots env.mapped = false
        · rw [if_pos hsnap, if_pos (.inr hsnap)]
        · rw [if_neg hsnap, if_neg (not_or.mpr ⟨hnone, hsnap⟩), apply_ite IncrementalResult.net]
          rfl

/-- A pattern of failures of an incremental run. -/
structure IncrementalFaults where
  cbtConnects : Bool
  vss : Vss
  mapped : List MappedPartition
  snapshotTime : UInt64
  now : UInt64
  connects : Bool
  greets : Bool
  hash : HashOps
  transfer : DataSource → Faults

/-- The outside that fails in that pattern. -/
def IncrementalFaults.env (f : IncrementalFaults) : IncrementalEnv Unit where
  cbtConnects := f.cbtConnects
  vss := f.vss
  mapped := f.mapped
  snapshotTime := f.snapshotTime
  now := f.now
  connects := f.connects
  hello := fun _ _ => (f.greets, ())
  hash := f.hash
  transfer := fun source => (f.transfer source).ops

/-- The run gets past its checks: the driver reports a changed block, the snapshots succeed,
and the server accepts the greeting if it is asked. -/
def IncrementalFaults.GetsThrough (f : IncrementalFaults) (config : TransferConfig)
    (devNo : UInt32) (driver : DiskMap) : Prop :=
  reportedBlocks f.cbtConnects driver devNo ≠ [] ∧ f.vss.takeSnapshots f.mapped = true ∧
    (config.dryRun = true ∨ (f.connects = true ∧ f.greets = true))

/-- Every reported block is one the block state counts, and can be read and hashed. -/
def IncrementalFaults.HashesAll (f : IncrementalFaults) (manager : BlockStateManager)
    (flagged : List Nat) : Prop :=
  f.hash.ready = true ∧ ∀ k idx, flagged[k]? = some idx →
    Rehashes f.hash (dummyManifest manager.totalBlocks) k idx

open Classical in
/-- The blocks that will be sent, by number and offset: the block array at the reported
positions, or, when the update of the block state is refused, what was pending before. -/
noncomputable def IncrementalFaults.toSend (f : IncrementalFaults) (manager : BlockStateManager)
    (flagged : List Nat) : List (UInt64 × UInt64) :=
  if f.HashesAll manager flagged ∧ manager.blocks ≠ [] then
    (manager.blocks.zipIdx.filter fun p => p.2 ∈ flagged).map fun p => p.1.place
  else manager.getPendingBlocks.map BlockState.place

/-- Every reported block is among those sent, and comes out acknowledged. -/
def IncrementalFaults.DeliversAll (f : IncrementalFaults) (config : TransferConfig)
    (devNo : UInt32) (manager : BlockStateManager) (flagged : List Nat) : Prop :=
  config.dryRun = false ∧ ∀ b ∈ flagged, ∃ i : UInt64, i.toNat = b ∧
    (f.transfer (dataSource f.vss f.mapped devNo)).Delivers config manager.totalBlocks 0
      (f.toSend manager flagged) i

/-! ### The run, case by case -/

section Run

variable (config : TransferConfig) (devNo : UInt32) (f : IncrementalFaults)
  (manager : BlockStateManager) (driver : DiskMap)

/-- A run that gets through transfers, and resets. -/
theorem incrementalBackup_of_getsThrough (h : f.GetsThrough config devNo driver) :
    incrementalBackup config devNo f.env manager driver ()
      = transferAndReset config devNo f.env (reportedBlocks f.cbtConnects driver devNo)
          (manager.createVersion (utf16 "INCREMENTAL") f.snapshotTime f.now manager.totalBlocks
            (manager.totalBlocks * UInt64.ofNat blockSize)).1
          (manager.createVersion (utf16 "INCREMENTAL") f.snapshotTime f.now manager.totalBlocks
            (manager.totalBlocks * UInt64.ofNat blockSize)).2 driver () := by
  obtain ⟨hreported, hsnap, hgreeted⟩ := h
  rw [reportedBlocks] at hreported ⊢
  rw [incrementalBackup]
  cases hquery : CbtClient.query f.cbtConnects driver driver devNo with
  | none => rw [hquery] at hreported; exact absurd rfl hreported
  | some r =>
      rw [hquery] at hreported
      have hquery' : CbtClient.query f.env.cbtConnects driver driver devNo = some r := hquery
      have hsnap' : f.env.vss.takeSnapshots f.env.mapped = true := hsnap
      have hgo : ∀ hello, greet config f.env hello () = (true, ()) := fun hello => by
        rw [greet]
        rcases hgreeted with hdry | ⟨hconn, hgreet⟩
        · rw [if_pos hdry]
        · split
          · rfl
          · exact (if_pos hconn).trans (congrArg (·, ()) hgreet)
      simp only [hquery', hreported, if_false, hsnap', hgo, Bool.true_eq_false]
      rfl

/-- The greeting of a run, when it is due. -/
theorem greet_eq_true_iff (hello : HelloMessage) :
    (greet config f.env hello ()).1 = true ↔
      config.dryRun = true ∨ (f.connects = true ∧ f.greets = true) := by
  rw [greet]
  cases config.dryRun <;> cases hconnects : f.connects <;> simp [IncrementalFaults.env, hconnects]

/-- A run that does not get through stops before the transfer, and succeeds only if there is
nothing to do. -/
theorem incrementalBackup_of_not_getsThrough (h : ¬ f.GetsThrough config devNo driver) :
    ∃ success flagged stopped,
      incrementalBackup config devNo f.env manager driver ()
        = { success, driver, resetCalled := false, flagged, manager := stopped, net := ()
            acknowledged := [] } ∧
      (success = true ↔ CbtClient.query f.cbtConnects driver driver devNo ≠ none ∧
        reportedBlocks f.cbtConnects driver devNo = []) := by
  rw [IncrementalFaults.GetsThrough, reportedBlocks] at h
  rw [reportedBlocks, incrementalBackup]
  have hsame : CbtClient.query f.env.cbtConnects driver driver devNo
      = CbtClient.query f.cbtConnects driver driver devNo := rfl
  rw [hsame]
  cases hquery : CbtClient.query f.cbtConnects driver driver devNo with
  | none => exact ⟨_, _, _, rfl, by simp⟩
  | some r =>
      rw [hquery] at h
      dsimp only at h ⊢
      by_cases hnone : CbtClient.parseChangedBlocks r.1 r.2 = []
      · rw [if_pos hnone]
        exact ⟨_, _, _, rfl, by simp [hnone]⟩
      · rw [if_neg hnone]
        split
        · exact ⟨_, _, _, rfl, by simp [hnone]⟩
        · next hsnap =>
          split
          · exact ⟨_, _, _, rfl, by simp [hnone]⟩
          · next hgreet =>
            have hgreeted := (greet_eq_true_iff config f _).mp (eq_true_of_ne_false hgreet)
            exact absurd ⟨hnone, eq_true_of_ne_false hsnap, hgreeted⟩ h

/-- A run that does not get through leaves the bitmap alone. -/
theorem resetCalled_iff :
    (incrementalBackup config devNo f.env manager driver ()).resetCalled = true ↔
      f.GetsThrough config devNo driver := by
  by_cases hthrough : f.GetsThrough config devNo driver
  · rw [incrementalBackup_of_getsThrough config devNo f manager driver hthrough]
    exact iff_of_true rfl hthrough
  · obtain ⟨success, flagged, stopped, hstop, -⟩ :=
      incrementalBackup_of_not_getsThrough config devNo f manager driver hthrough
    rw [hstop]
    exact iff_of_false Bool.false_ne_true hthrough

/-- **What is pending when the transfer starts.** -/
theorem place_pending_eq_toSend {flagged : List Nat} (hne : flagged ≠ [])
    (type : List UInt16) (snapshotTime now totalSize : UInt64) :
    let created := manager.createVersion type snapshotTime now manager.totalBlocks totalSize
    (created.2.updateIncrementalBlocks created.1.versionId flagged
        (computeBlockHashes f.hash (dummyManifest manager.totalBlocks) flagged).2).2.getPendingBlocks.map
          BlockState.place
      = f.toSend manager flagged := by
  intro created
  have hlen : flagged.length
        = (computeBlockHashes f.hash (dummyManifest manager.totalBlocks) flagged).2.length ↔
      f.HashesAll manager flagged := eq_comm.trans (computeBlockHashes_length_eq_iff hne)
  have hver : (created.2.versions.find? created.1.versionId.toNat).isSome := by
    rw [show created.2.versions = manager.versions.insert created.1.versionId.toNat created.1
      from rfl, SortedMap.find?_insert_self]
    rfl
  rw [IncrementalFaults.toSend]
  split
  · next h =>
    exact BlockStateManager.getPendingBlocks_updateIncrementalBlocks ⟨hlen.mpr h.1, h.2, hver⟩
  · next h =>
    have hrefused : created.2.updateIncrementalBlocks created.1.versionId flagged
        (computeBlockHashes f.hash (dummyManifest manager.totalBlocks) flagged).2
          = (false, created.2) :=
      BlockStateManager.updateIncrementalBlocks_of_not_accepted fun hacc =>
        h ⟨hlen.mp hacc.1, hacc.2.1⟩
    rw [hrefused]
    rfl

/-- **Which blocks a run that gets through has acknowledged.** -/
theorem mem_acknowledged_of_getsThrough (hdry : config.dryRun = false)
    (h : f.GetsThrough config devNo driver) (i : UInt64) :
    i ∈ (incrementalBackup config devNo f.env manager driver ()).acknowledged ↔
      (f.transfer (dataSource f.vss f.mapped devNo)).Delivers config manager.totalBlocks 0
        (f.toSend manager (reportedBlocks f.cbtConnects driver devNo)) i := by
  rw [incrementalBackup_of_getsThrough config devNo f manager driver h,
    ← place_pending_eq_toSend f manager h.1 (utf16 "INCREMENTAL") f.snapshotTime f.now
      (manager.totalBlocks * UInt64.ofNat blockSize)]
  refine (mem_acknowledged_transferFrom hdry _ _ _ _ _ _ (by rw [hdry]; rfl) i).trans ?_
  exact or_iff_right List.not_mem_nil

/-- Nothing is acknowledged before a reset is due. -/
theorem acknowledged_of_not_getsThrough (h : ¬ f.GetsThrough config devNo driver) :
    (incrementalBackup config devNo f.env manager driver ()).acknowledged = [] := by
  obtain ⟨success, flagged, stopped, hstop, -⟩ :=
    incrementalBackup_of_not_getsThrough config devNo f manager driver h
  rw [hstop]

/-- **When a run succeeds**: the query does, and either it reports no block or the run gets
through. -/
theorem success_iff :
    (incrementalBackup config devNo f.env manager driver ()).success = true ↔
      CbtClient.query f.cbtConnects driver driver devNo ≠ none ∧
        (reportedBlocks f.cbtConnects driver devNo = [] ∨ f.GetsThrough config devNo driver) := by
  by_cases hthrough : f.GetsThrough config devNo driver
  · have hquery : CbtClient.query f.cbtConnects driver driver devNo ≠ none := by
      intro hnone
      refine hthrough.1 ?_
      rw [reportedBlocks, hnone]
    rw [incrementalBackup_of_getsThrough config devNo f manager driver hthrough]
    exact iff_of_true rfl ⟨hquery, .inr hthrough⟩
  · obtain ⟨success, flagged, stopped, hstop, hsuccess⟩ :=
      incrementalBackup_of_not_getsThrough config devNo f manager driver hthrough
    rw [hstop]
    exact hsuccess.trans (and_congr_right fun _ => (or_iff_left hthrough).symm)

/-- The bitmap is reset or left as it was. -/
theorem driver_incrementalBackup :
    (incrementalBackup config devNo f.env manager driver ()).driver
      = if (incrementalBackup config devNo f.env manager driver ()).resetCalled then
          (CbtClient.reset f.cbtConnects driver devNo).2 else driver := by
  by_cases hthrough : f.GetsThrough config devNo driver
  · rw [incrementalBackup_of_getsThrough config devNo f manager driver hthrough]
    rfl
  · obtain ⟨success, flagged, stopped, hstop, -⟩ :=
      incrementalBackup_of_not_getsThrough config devNo f manager driver hthrough
    rw [hstop]
    rfl

/-- The driver reports nothing after a reset. -/
theorem reportedBlocks_reset {d : TrackedDisk} (h : Tracks driver devNo d) :
    reportedBlocks f.cbtConnects (CbtClient.reset f.cbtConnects driver devNo).2 devNo = [] := by
  cases hconn : f.cbtConnects with
  | false => rfl
  | true =>
      rw [CbtClient.reset_snd, reportedBlocks, query_spec h.reset h.reset rfl]
      dsimp only
      rw [parseChangedBlocks_bytes, List.filter_eq_nil_iff]
      intro i _
      rw [TrackedDisk.marked_reset]
      exact Bool.false_ne_true

/-- Read off the bitmap: a reported block is acknowledged or still reported when the run ends. -/
theorem acked_or_still_reported_iff {d : TrackedDisk} (h : Tracks driver devNo d) :
    let r := incrementalBackup config devNo f.env manager driver ()
    (∀ b ∈ reportedBlocks f.cbtConnects driver devNo,
        (∃ i ∈ r.acknowledged, i.toNat = b) ∨ b ∈ reportedBlocks f.cbtConnects r.driver devNo) ↔
      (r.resetCalled = true → ∀ b ∈ reportedBlocks f.cbtConnects driver devNo,
        ∃ i ∈ r.acknowledged, i.toNat = b) := by
  intro r
  have hdriver : r.driver = if r.resetCalled then
      (CbtClient.reset f.cbtConnects driver devNo).2 else driver :=
    driver_incrementalBackup config devNo f manager driver
  cases hreset : r.resetCalled with
  | true =>
      rw [hreset, if_pos rfl] at hdriver
      rw [hdriver, reportedBlocks_reset devNo f driver h]
      simp only [List.not_mem_nil, or_false, forall_const]
  | false =>
      rw [hreset, if_neg Bool.false_ne_true] at hdriver
      rw [hdriver]
      exact ⟨fun _ hr => absurd hr Bool.false_ne_true, fun _ b hb => .inr hb⟩

/-- What a reset means, in terms of what failed. -/
theorem acked_of_reset_iff :
    ((incrementalBackup config devNo f.env manager driver ()).resetCalled = true →
        ∀ b ∈ reportedBlocks f.cbtConnects driver devNo,
          ∃ i ∈ (incrementalBackup config devNo f.env manager driver ()).acknowledged,
            i.toNat = b) ↔
      ¬ f.GetsThrough config devNo driver ∨
        f.DeliversAll config devNo manager (reportedBlocks f.cbtConnects driver devNo) := by
  rw [resetCalled_iff]
  by_cases hthrough : f.GetsThrough config devNo driver
  · simp only [hthrough, forall_const, not_true_eq_false, false_or]
    cases hdry : config.dryRun with
    | true =>
        obtain ⟨b, hb⟩ := List.exists_mem_of_ne_nil _ hthrough.1
        refine ⟨fun h => ?_, fun h => absurd (hdry.symm.trans h.1) Bool.noConfusion⟩
        obtain ⟨i, hi, -⟩ := h b hb
        rw [incrementalBackup_of_getsThrough config devNo f manager driver hthrough,
          transferAndReset, (transferBlocks_of_dryRun hdry _ _ _ _ _).1] at hi
        exact absurd hi List.not_mem_nil
    | false =>
        have hmem := mem_acknowledged_of_getsThrough config devNo f manager driver hdry hthrough
        simp only [hmem, IncrementalFaults.DeliversAll, hdry, true_and]
        exact forall₂_congr fun b _ => exists_congr fun i => and_comm
  · simp [hthrough]

/-- **A reset means every reported block was acknowledged, exactly when** the run never gets as
far as the reset, or it is no dry run and every reported block is sent and comes out
acknowledged.  Exactly then is each reported block acknowledged or still reported when the run
ends. -/
theorem reset_only_after_acks_iff :
    (((incrementalBackup config devNo f.env manager driver ()).resetCalled = true →
        ∀ b ∈ reportedBlocks f.cbtConnects driver devNo,
          ∃ i ∈ (incrementalBackup config devNo f.env manager driver ()).acknowledged,
            i.toNat = b) ↔
      ¬ f.GetsThrough config devNo driver ∨
        f.DeliversAll config devNo manager (reportedBlocks f.cbtConnects driver devNo)) ∧
    ∀ d, Tracks driver devNo d →
      ((∀ b ∈ reportedBlocks f.cbtConnects driver devNo,
        (∃ i ∈ (incrementalBackup config devNo f.env manager driver ()).acknowledged,
          i.toNat = b) ∨
        b ∈ reportedBlocks f.cbtConnects
          (incrementalBackup config devNo f.env manager driver ()).driver devNo) ↔
      ¬ f.GetsThrough config devNo driver ∨
        f.DeliversAll config devNo manager (reportedBlocks f.cbtConnects driver devNo)) := by
  have hreset := acked_of_reset_iff config devNo f manager driver
  exact ⟨hreset, fun d hd =>
    (acked_or_still_reported_iff config devNo f manager driver hd).trans hreset⟩

end Run

/-! ### A run that loses its changes -/

/-- A disk of eight blocks, freshly set up. -/
def eightBlockDisk : TrackedDisk :=
  ⟨(initCbtState true .zero (8 * cbtBlockSize)).2,
    (dimensioned_of_zeroed (k := 1) rfl (by decide) (by decide) (by decide) (by decide)).1⟩

/-- The block state after an acknowledged full backup of eight blocks. -/
def eightBlockState : BlockStateManager :=
  let created := BlockStateManager.new.createVersion (utf16 "FULL") 0 0 8 (8 * cbtBlockSize)
  (created.2.initFullBlocksEmpty created.1.versionId 8).2.setBlockAckRange 0 8 .acknowledged

/-- Everything succeeds, except that the disk cannot be read for hashing. -/
def unreadable : IncrementalFaults where
  cbtConnects := true
  vss :=
    { initialized := true
      startSnapshotSet := true
      addVolumeToSnapshotSet := fun _ => true
      doSnapshotSet := true
      getSnapshotDevicePath := fun _ => none }
  mapped := []
  snapshotTime := 0
  now := 0
  connects := true
  greets := true
  hash :=
    { ready := true
      readAt := fun _ _ _ => none
      computeBlockHash := fun _ _ => some .zero }
  transfer := fun _ =>
    { readSource := fun _ _ _ => some []
      compress := fun _ data => some data
      answer := fun _ _ => .acked }

/-- The disk can be read for hashing too. -/
def readable : IncrementalFaults :=
  { unreadable with hash := { unreadable.hash with readAt := fun _ _ _ => some [] } }

/-- The disk of eight blocks after a write over all of it. -/
def overwritten : DiskMap := soleDisk (eightBlockDisk.mark 0 (8 * cbtBlockSize).toUInt32).state

theorem reset_only_after_acks_eightBlocks :
    reportedBlocks true overwritten 0 = List.range 8 ∧
      let r := incrementalBackup { dryRun := false, retryCount := 3 } 0 readable.env
        eightBlockState overwritten ()
      r.resetCalled = true ∧ ∀ b ∈ List.range 8,
        (∃ i ∈ r.acknowledged, i.toNat = b) ∨ b ∈ reportedBlocks true r.driver 0 := by
  obtain ⟨hreported, hreset, hacked⟩ :
      reportedBlocks true overwritten 0 = List.range 8 ∧
        (incrementalBackup { dryRun := false, retryCount := 3 } 0 readable.env eightBlockState
          overwritten ()).resetCalled = true ∧
        ∀ b ∈ List.range 8, ∃ i ∈ (incrementalBackup { dryRun := false, retryCount := 3 } 0
          readable.env eightBlockState overwritten ()).acknowledged, i.toNat = b := by
    decide +kernel
  obtain ⟨hiff, hstill⟩ := reset_only_after_acks_iff { dryRun := false, retryCount := 3 } 0
    readable eightBlockState overwritten
  refine ⟨hreported, hreset, hreported ▸ (hstill _ (tracks_soleDisk _)).mpr (hiff.mp fun _ => ?_)⟩
  exact hreported ▸ hacked

/-- **A reset without an acknowledgement.**  The read for the hash fails, the block state refuses
the update, nothing is sent, and the bitmap is cleared. -/
theorem reset_without_ack :
    reportedBlocks true (soleDisk (eightBlockDisk.mark (7 * cbtBlockSize) 512).state) 0 = [0] ∧
      let r := incrementalBackup { dryRun := false, retryCount := 3 } 0 unreadable.env
        eightBlockState (soleDisk (eightBlockDisk.mark (7 * cbtBlockSize) 512).state) ()
      r.resetCalled = true ∧ r.acknowledged = [] ∧ reportedBlocks true r.driver 0 = [] := by
  decide +kernel

end Go2Cbt.Engine
