import Go2Cbt.Engine.Cycle
import Go2Cbt.Engine.SavedState
import Go2Cbt.Link.Delivery
import Go2Cbt.Link.Written

/-!
# Link — an incremental backup from end to end

A full backup has copied a disk and saved its block state; the bitmap is clear; the disk is
written, and a new process runs `IncrementalBackup`.  Nothing fails outside.

The run sends the blocks that it finds in the bitmap and in the saved state, as far as the disk has
them whole, with the hash of block 0 (`incremental_copies`).  `converges_iff` says when these are
all the blocks that have changed.
-/

namespace Go2Cbt.Link

open Go2Cbt.Protocol Go2Cbt.Client Go2Cbt.Driver Go2Cbt.Engine Go2Cbt.Server
open Chunks (chunk)

/-- The outside of an incremental run of a disk without mapped volumes, when nothing fails. -/
def faultlessRun (libs : Libs) (compress : Bytes → Bytes) (disk : Image) (totalSize : UInt64)
    (vss : Vss) (snapshotTime now : UInt64) : IncrementalEnv Peer where
  cbtConnects := true
  vss
  mapped := []
  snapshotTime
  now
  connects := true
  hello := sendHello libs
  hash := openDisk libs disk totalSize
  transfer _ := deliveryOps libs compress disk totalSize

/-! ### The greeting -/

theorem greet_faultlessRun {config : TransferConfig} (hdry : config.dryRun = false) (libs : Libs)
    (compress : Bytes → Bytes) (disk : Image) (totalSize : UInt64) (vss : Vss)
    (snapshotTime now : UInt64) (hello : HelloMessage) (p : Peer) :
    greet config (faultlessRun libs compress disk totalSize vss snapshotTime now) hello p
      = sendHello libs hello p := by
  rw [greet, hdry, if_neg Bool.false_ne_true]
  exact if_pos rfl

section Greeting

variable {libs : Libs} (hello : HelloMessage) {bf : BackingFile}
  (hdevice : libs.diskMap.get hello.devNo = some bf) (files : Files)
include hdevice

theorem sendHello_accepted (hsize : hello.totalSize ≤ bf.sizeBytes) :
    ∃ p, sendHello libs hello (Peer.accept files) = (true, p) ∧ p.Greeted ∧
      p.serving.files = files := by
  obtain ⟨hgreeted, hfiles, ack, hanswer, hstatus⟩ := greeted_of_hello libs files hdevice hsize
    hello.versionId hello.totalBlocks hello.versionType
  refine ⟨_, ?_, hgreeted, hfiles⟩
  rw [sendHello, hanswer, resultOf_ackMessage, if_pos hstatus, decide_eq_true rfl]

theorem sendHello_refused (hsize : ¬ hello.totalSize ≤ bf.sizeBytes) :
    ∃ p, sendHello libs hello (Peer.accept files) = (false, p) ∧ p.serving.files = files := by
  obtain ⟨hfiles, ack, hanswer, hstatus⟩ := refused_of_hello libs files hdevice hsize
    hello.versionId hello.totalBlocks hello.versionType
  refine ⟨_, ?_, hfiles⟩
  rw [sendHello, hanswer, resultOf_ackMessage, if_neg hstatus, decide_eq_false nofun]

end Greeting

/-! ### What is pending -/

section Pending

variable {libs : Libs} {disk : Image} {totalSize : UInt64} {manager : BlockStateManager}
  {reported : List Nat}

/-- The hash of block 0 of the disk. -/
def firstHash (libs : Libs) (disk : Image) : Hash := libs.sha256 (disk.slice 0 blockSize)

variable (libs disk) in
/-- The hashes of the run, of a disk of a block at least. -/
theorem hashes_openDisk (hlarge : blockSize ≤ totalSize.toNat)
    (hlisted : ∀ idx ∈ reported, idx < manager.totalBlocks.toNat) :
    (computeBlockHashes (openDisk libs disk totalSize) (dummyManifest manager.totalBlocks)
        reported).2.map BlockHashEntry.hash
      = reported.map fun _ => firstHash libs disk := by
  have hlength : blockSize ≤ (disk.slice 0 totalSize.toNat).length := by
    rwa [Image.length_slice]
  have hfirst : chunk blockSize (disk.slice 0 totalSize.toNat) 0 = disk.slice 0 blockSize := by
    have hfield : LittleEndian.field (disk.slice 0 totalSize.toNat) 0 blockSize
        = disk.slice (0 + 0) blockSize := Image.field_slice (by rwa [Nat.zero_add])
    rw [chunk, Nat.zero_mul]
    exact hfield
  have hhashes : (listedHashes (contentSource (disk.slice 0 totalSize.toNat) libs.sha256)
      manager.totalBlocks reported).2 = _ := congrArg Prod.snd (listedHashes_eq hlength hlisted)
  rw [hfirst] at hhashes
  exact hhashes

/-- A shorter disk gives none. -/
theorem not_hashed_of_short (hshort : ¬ blockSize ≤ totalSize.toNat) (hne : reported ≠ [])
    (hlisted : ∀ idx ∈ reported, idx < manager.totalBlocks.toNat) :
    (computeBlockHashes (openDisk libs disk totalSize) (dummyManifest manager.totalBlocks)
      reported).2.length ≠ reported.length := by
  intro hlength
  obtain ⟨idx, rest, rfl⟩ := List.exists_cons_of_ne_nil hne
  obtain ⟨entry, data, hentry, hread, -⟩ :=
    ((computeBlockHashes_length_eq_iff hne).mp hlength).2 0 idx rfl
  rw [getElem?_dummyManifest (hlisted idx List.mem_cons_self)] at hentry
  obtain rfl := Option.some.inj hentry
  rw [openDisk, readAt_dummyManifest, Image.length_slice, if_neg hshort] at hread
  cases hread

/-- The block state that a run transfers from. -/
def updatedState {σ : Type} (env : IncrementalEnv σ) (manager : BlockStateManager)
    (reported : List Nat) : BlockStateManager :=
  ((incrementalVersion env manager).2.updateIncrementalBlocks
    (incrementalVersion env manager).1.versionId reported
    (computeBlockHashes env.hash (dummyManifest manager.totalBlocks) reported).2).2

/-- **What a run sends**: the reported blocks that it has an entry for, each with the hash of
block 0; and nothing of a disk that is shorter than a block. -/
theorem mem_pending_iff {σ : Type} {env : IncrementalEnv σ}
    (henv : env.hash = openDisk libs disk totalSize) (hrest : AtRest totalSize manager)
    (hne : reported ≠ []) (hlisted : ∀ idx ∈ reported, idx < manager.totalBlocks.toNat)
    {block : BlockState} :
    block ∈ (updatedState env manager reported).getPendingBlocks ↔
      blockSize ≤ totalSize.toNat ∧ ∃ i ∈ reported, ∃ b, manager.blocks[i]? = some b ∧
        block = { b with
          versionId := manager.nextVersionId
          hash := firstHash libs disk
          ack := .pending
          changed := true } := by
  rw [updatedState, henv]
  by_cases hacc : (incrementalVersion env manager).2.UpdateAccepted
      (incrementalVersion env manager).1.versionId reported
      (computeBlockHashes (openDisk libs disk totalSize) (dummyManifest manager.totalBlocks)
        reported).2
  · -- the update was accepted: every reported block was hashed, so the disk has a whole one
    have hlarge : blockSize ≤ totalSize.toNat := by
      by_contra hshort
      exact not_hashed_of_short hshort hne hlisted hacc.1.symm
    have hnew : ∀ p ∈ (reported.zip (computeBlockHashes (openDisk libs disk totalSize)
        (dummyManifest manager.totalBlocks) reported).2).reverse,
        p.1 ∈ reported ∧ p.2.hash = firstHash libs disk := by
      intro p hp
      obtain ⟨hidx, hentry⟩ := List.of_mem_zip (List.mem_reverse.mp hp)
      have hhash := List.mem_map_of_mem (f := BlockHashEntry.hash) hentry
      rw [hashes_openDisk libs disk hlarge hlisted, List.mem_map] at hhash
      obtain ⟨_, -, hhash⟩ := hhash
      exact ⟨hidx, hhash.symm⟩
    refine (BlockStateManager.mem_getPendingBlocks_updateIncrementalBlocks hacc).trans ?_
    rw [and_iff_right hlarge]
    constructor
    · rintro ⟨i, b, p, hb, hp, rfl⟩
      obtain ⟨hidx, hhash⟩ := hnew p (List.mem_of_find?_eq_some hp)
      have hfound := List.find?_some hp
      have hi : p.1 = i := of_decide_eq_true hfound
      exact ⟨i, hi ▸ hidx, b, hb, hhash ▸ rfl⟩
    · rintro ⟨i, hi, b, hb, rfl⟩
      obtain ⟨p, hp⟩ := Option.isSome_iff_exists.mp
        ((BlockStateManager.find?_zip_isSome_iff hacc.1 i).mpr hi)
      have hhash := (hnew p (List.mem_of_find?_eq_some hp)).2
      exact ⟨i, b, p, hb, hp, hhash ▸ rfl⟩
  · -- the update was refused, and nothing was pending before it
    rw [BlockStateManager.updateIncrementalBlocks_of_not_accepted hacc]
    have hnone : (incrementalVersion env manager).2.getPendingBlocks = [] :=
      hrest.getPendingBlocks
    rw [hnone]
    refine iff_of_false List.not_mem_nil ?_
    rintro ⟨hlarge, i, -, b, hb, -⟩
    have hhashes := congrArg List.length (hashes_openDisk libs disk hlarge hlisted)
    rw [List.length_map, List.length_map] at hhashes
    refine hacc ⟨hhashes.symm, List.ne_nil_of_mem (List.mem_of_getElem? hb), ?_⟩
    rw [incrementalVersion, BlockStateManager.createVersion]
    dsimp only
    rw [SortedMap.find?_insert_self]
    rfl

end Pending

/-! ### The run -/

section Run

variable {libs : Libs} {compress : Bytes → Bytes} {devNo : UInt32} {totalSize : UInt64}
  {bf : BackingFile} (hu : Unhindered libs compress devNo totalSize bf) {disk : Image}
  {manager : BlockStateManager} (hrest : AtRest totalSize manager) {reported : List Nat}
  (hlisted : ∀ idx ∈ reported, idx < manager.totalBlocks.toNat)

section
include hrest hlisted

/-- The blocks that the transfer copies. -/
theorem arrives_pending_iff {σ : Type} {env : IncrementalEnv σ}
    (henv : env.hash = openDisk libs disk totalSize) (hne : reported ≠ [])
    (config : TransferConfig) (j : Nat) :
    (∃ block ∈ (updatedState env manager reported).getPendingBlocks,
        block.blockIndex.toNat = j ∧ Arrives config libs disk totalSize block.hash j) ↔
      j ∈ reported ∧ manager.blocks ≠ [] ∧
        Arrives config libs disk totalSize (firstHash libs disk) j := by
  have hnumber : ∀ i ∈ reported, ∀ b, manager.blocks[i]? = some b → b.blockIndex.toNat = i := by
    intro i hi b hb
    have hin := hlisted i hi
    rw [hrest.totalBlocks] at hin
    rw [(Prod.mk.inj (hrest.entry i b hb).1).1]
    exact Accounts.toNat_ofNat hin
  constructor
  · rintro ⟨block, hblock, rfl, harrives⟩
    obtain ⟨-, i, hi, b, hb, rfl⟩ := (mem_pending_iff henv hrest hne hlisted).mp hblock
    rw [hnumber i hi b hb] at harrives ⊢
    exact ⟨hi, List.ne_nil_of_mem (List.mem_of_getElem? hb), harrives⟩
  · rintro ⟨hj, hblocks, harrives⟩
    have hin : j < manager.blocks.length :=
      (hlisted j hj).trans_eq (hrest.complete.resolve_left hblocks).symm
    have hlarge : blockSize ≤ totalSize.toNat :=
      (Nat.le_mul_of_pos_left _ (Nat.succ_pos j)).trans harrives.whole
    refine ⟨_, (mem_pending_iff henv hrest hne hlisted).mpr
      ⟨hlarge, j, hj, _, List.getElem?_eq_getElem hin, rfl⟩, ?_, harrives⟩
    exact hnumber j hj manager.blocks[j] (List.getElem?_eq_getElem hin)

end

/-- What a block of the disk needs to get to the server: the run reports it and gets through the
greeting, the process has loaded the block state, and the block arrives with the hash of block 0. -/
structure GetsAcross (config : TransferConfig) (libs : Libs) (bf : BackingFile) (disk : Image)
    (totalSize : UInt64) (manager : BlockStateManager) (reported : List Nat) (j : Nat) : Prop where
  reported : j ∈ reported
  loaded : manager.blocks ≠ []
  greeted : manager.totalBlocks * UInt64.ofNat blockSize ≤ bf.sizeBytes
  noDryRun : config.dryRun = false
  arrives : Arrives config libs disk totalSize (firstHash libs disk) j

include hu hrest hlisted

/-- A run that transfers copies the blocks that arrive. -/
theorem transfer_copies {env : IncrementalEnv Peer} (henv : env.hash = openDisk libs disk totalSize)
    (hops : ∀ source, env.transfer source = deliveryOps libs compress disk totalSize)
    (hne : reported ≠ []) {config : TransferConfig} (hdry : config.dryRun = false)
    (driver : Driver.DiskMap) {p : Peer} (hp : p.Greeted) :
    Image.CopiesBlocks blockSize disk (p.serving.files.image (libs.fileOf bf.fd))
      ((transferAndReset config devNo env reported (incrementalVersion env manager).1
        (incrementalVersion env manager).2 driver p).net.serving.files.image (libs.fileOf bf.fd))
      (fun j => j ∈ reported ∧ manager.blocks ≠ [] ∧
        Arrives config libs disk totalSize (firstHash libs disk) j) := by
  have hplaces : ∀ block ∈ (updatedState env manager reported).getPendingBlocks,
      ∃ i < (Job.full devNo (incrementalVersion env manager).1.versionId.toUInt32
          totalSize).totalBlocks.toNat,
        block.place = (UInt64.ofNat i, UInt64.ofNat i * UInt64.ofNat blockSize) := by
    intro block hblock
    obtain ⟨-, i, hi, b, hb, rfl⟩ := (mem_pending_iff henv hrest hne hlisted).mp hblock
    have hin := hlisted i hi
    rw [hrest.totalBlocks] at hin
    exact ⟨i, hin, (hrest.entry i b hb).1⟩
  have hcopied := (transferFrom_delivers hu disk hdry
    (incrementalVersion env manager).1.versionId.toUInt32 hplaces 0
    (s :=
      { manager := updatedState env manager reported
        connected := !config.dryRun
        net := p
        sentCount := 0
        ackedBlocks := 0
        acknowledged := []
        visited := []
        tries := [] })
    (by rw [hdry]; rfl) hp).copied
  refine Image.CopiesBlocks.congr ?_ (arrives_pending_iff hrest hlisted henv hne config)
  have htotal : (incrementalVersion env manager).2.totalBlocks
      = (Job.full devNo (incrementalVersion env manager).1.versionId.toUInt32
          totalSize).totalBlocks := hrest.totalBlocks
  rw [← htotal] at hcopied
  rw [transferAndReset]
  dsimp only
  rw [hops, transferBlocks]
  exact hcopied

/-- **What an incremental run copies.** -/
theorem incremental_copies {driver : Driver.DiskMap}
    (hreported : reportedBlocks true driver devNo = reported) {vss : Vss}
    (hvss : vss.takeSnapshots [] = true) (snapshotTime now : UInt64) (config : TransferConfig)
    (files : Files) :
    Image.CopiesBlocks blockSize disk (files.image (libs.fileOf bf.fd))
      ((incrementalBackup config devNo
        (faultlessRun libs compress disk totalSize vss snapshotTime now) manager driver
        (Peer.accept files)).net.serving.files.image (libs.fileOf bf.fd))
      (GetsAcross config libs bf disk totalSize manager reported) := by
  have hgreet := fun hdry : config.dryRun = false =>
    greet_faultlessRun hdry libs compress disk totalSize vss snapshotTime now
  have hnet := net_incrementalBackup config devNo
    (faultlessRun libs compress disk totalSize vss snapshotTime now) manager driver
    (Peer.accept files)
  have hhash : (faultlessRun libs compress disk totalSize vss snapshotTime now).hash
      = openDisk libs disk totalSize := rfl
  have hops : ∀ source, (faultlessRun libs compress disk totalSize vss snapshotTime now).transfer
      source = deliveryOps libs compress disk totalSize := fun _ => rfl
  have hcbt : (faultlessRun libs compress disk totalSize vss snapshotTime now).cbtConnects = true :=
    rfl
  have hsnap : ¬ (faultlessRun libs compress disk totalSize vss snapshotTime now).vss.takeSnapshots
      (faultlessRun libs compress disk totalSize vss snapshotTime now).mapped = false :=
    fun hfalse => Bool.noConfusion (hvss.symm.trans hfalse)
  -- from here on only these facts about the environment are used
  generalize faultlessRun libs compress disk totalSize vss snapshotTime now = env at *
  rw [hcbt, hreported] at hnet
  dsimp only at hnet
  by_cases hne : reported = []
  · -- nothing is reported
    rw [hnet, if_pos (.inl hne)]
    refine Image.copiesBlocks_of_none fun j hj => ?_
    have hmem := hj.reported
    rw [hne] at hmem
    exact absurd hmem List.not_mem_nil
  rw [if_neg (not_or.mpr ⟨hne, hsnap⟩)] at hnet
  cases hdry : config.dryRun with
  | true =>
      -- a dry run greets nobody and sends nothing
      have hquiet : greet config env (incrementalHello devNo env manager) (Peer.accept files)
          = (true, Peer.accept files) := by rw [greet, if_pos hdry]
      rw [hquiet, if_neg Bool.true_eq_false.mp] at hnet
      rw [hnet, transferAndReset]
      dsimp only
      rw [(transferBlocks_of_dryRun hdry _ _ _ _ _).2]
      exact Image.copiesBlocks_of_none fun j hj => Bool.noConfusion (hdry.symm.trans hj.noDryRun)
  | false =>
      rw [hgreet hdry] at hnet
      by_cases hsize : manager.totalBlocks * UInt64.ofNat blockSize ≤ bf.sizeBytes
      · obtain ⟨p, hhello, hp, hfiles⟩ := sendHello_accepted
          (incrementalHello devNo env manager) hu.device files hsize
        rw [hhello, if_neg Bool.true_eq_false.mp] at hnet
        rw [hnet, ← hfiles]
        refine (transfer_copies hu hrest hlisted hhash hops hne hdry driver hp).congr fun j => ?_
        exact ⟨fun hj => ⟨hj.1, hj.2.1, hsize, hdry, hj.2.2⟩,
          fun hj => ⟨hj.reported, hj.loaded, hj.arrives⟩⟩
      · -- the backing file is too small for the greeting
        obtain ⟨p, hhello, hfiles⟩ := sendHello_refused
          (incrementalHello devNo env manager) hu.device files hsize
        rw [hhello, if_pos rfl] at hnet
        rw [hnet, hfiles]
        exact Image.copiesBlocks_of_none fun j hj => hsize hj.greeted

end Run

/-! ### The writes -/

/-- A write request inside the disk: not empty, and its length a 32-bit number. -/
structure Fits (irp : WriteIrp) (site : DiskSite) (totalSize : UInt64) : Prop where
  pos : 0 < irp.data.length
  len : irp.data.length < 2 ^ 32
  inside : irp.start site + irp.data.length ≤ totalSize.toNat

section Writes

variable (hookList : List HookEntry) (majorFunction : Nat → UInt8 → Nat) (site : DiskSite)
  (driverObject : Nat)

/-- The disk after the writes. -/
def written (disk : Image) (writes : List WriteIrp) : Image :=
  writes.foldl (fun m irp => m.write (irp.start site) irp.data) disk

/-- The driver after the writes. -/
def afterWrites (diskMap : Driver.DiskMap) (writes : List WriteIrp) : Driver.DiskMap :=
  writes.foldl (fun m irp => (hwReadWrite hookList majorFunction m
    ⟨site.deviceObject, driverObject⟩ irp.stackLocation).2) diskMap

variable {site}

/-- **The marks after the writes** are those of the blocks they touch. -/
theorem serves_afterWrites {diskMap : Driver.DiskMap} {d : TrackedDisk}
    (h : Serves diskMap site d) {writes : List WriteIrp}
    (hvalid : ∀ irp ∈ writes, irp.Valid site d.totalBlocks) :
    ∃ d', Serves (afterWrites hookList majorFunction site driverObject diskMap writes) site d' ∧
      d'.totalBlocks = d.totalBlocks ∧
      ∀ b, d'.marked b = true ↔ d.marked b = true ∨ ∃ irp ∈ writes, irp.Touches site b := by
  induction writes generalizing diskMap d with
  | nil =>
      refine ⟨d, h, rfl, fun b => (or_iff_left ?_).symm⟩
      rintro ⟨irp, hmem, -⟩
      exact absurd hmem List.not_mem_nil
  | cons irp rest ih =>
      obtain ⟨hirp, hrest⟩ := List.forall_mem_cons.mp hvalid
      have hmark : Serves (hwReadWrite hookList majorFunction diskMap
          ⟨site.deviceObject, driverObject⟩ irp.stackLocation).2 site
          (d.mark (irp.byteOffset + site.partitionStartingOffset) irp.stackLocation.length) :=
        h.write rfl rfl
      obtain ⟨d', hd', htotal, hmarked⟩ := ih hmark fun irp' hmem => by
        rw [TrackedDisk.totalBlocks_mark]
        exact hrest irp' hmem
      refine ⟨d', hd', htotal.trans (TrackedDisk.totalBlocks_mark ..), fun b => ?_⟩
      rw [hmarked, TrackedDisk.marked_mark, Bool.or_eq_true, decide_eq_true_iff, or_assoc,
        List.exists_mem_cons_iff]
      exact or_congr_right
        (or_congr_left (WriteIrp.reaches_iff_touches hirp d.totalBlocks_lt b))

end Writes

/-- The blocks that a run finds in the bitmap: it looks at the mirrored bit. -/
theorem reportedBlocks_of_serves {diskMap : Driver.DiskMap} {site : DiskSite} {d : TrackedDisk}
    (h : Serves diskMap site d) :
    reportedBlocks true diskMap site.diskNumber
      = (List.range d.totalBlocks).filter fun i => d.marked (mirror i) := by
  rw [reportedBlocks, query_spec h.tracks h.tracks rfl]
  exact parseChangedBlocks_bytes d

/-! ### From one backup to the next -/

/-- `Initialize` makes a manager that saves. -/
theorem initialized_initializeFrom (slack : Nat → Vector UInt8 4) (file : Option Bytes)
    (devNo : UInt32) : (BlockStateManager.initializeFrom slack file devNo).2.initialized = true := by
  cases file with
  | none => rfl
  | some content =>
      rw [BlockStateManager.initializeFrom, BlockStateManager.load]
      dsimp only
      split
      · rfl
      · split
        · rfl
        · split <;> rfl

/-- So does a new version of it. -/
theorem initialized_prepare (m : BlockStateManager)
    (snapshotTime now totalBlocks totalSize : UInt64) :
    (prepare m snapshotTime now totalBlocks totalSize).2.initialized = m.initialized := by
  rw [prepare, BlockStateManager.initFullBlocksEmpty]
  dsimp only
  split <;> rfl

/-- What a changed block needs to get to the server: a write touches the block whose bit the run
looks at, the checksum of the saved block state agrees, the file is large enough for all blocks,
and the block arrives with the hash of block 0. -/
structure Follows (config : TransferConfig) (libs : Libs) (bf : BackingFile) (disk : Image)
    (totalSize : UInt64) (saved : BlockStateManager) (site : DiskSite) (writes : List WriteIrp)
    (b : Nat) : Prop where
  reported : ∃ irp ∈ writes, irp.Touches site (mirror b)
  loaded : saved.ChecksumAgrees
  greeted : saved.totalBlocks * UInt64.ofNat blockSize ≤ bf.sizeBytes
  noDryRun : config.dryRun = false
  arrives : Arrives config libs disk totalSize (firstHash libs disk) b

/-- `IncrementalBackup` in a new process and over a new connection. -/
def nextIncremental (libs : Libs) (compress : Bytes → Bytes) (config : TransferConfig)
    (devNo : UInt32) (disk : Image) (totalSize : UInt64) (vss : Vss) (snapshotTime now : UInt64)
    (slack : Nat → Vector UInt8 4) (saved : Option Bytes) (driver : Driver.DiskMap)
    (files : Files) : IncrementalResult Peer :=
  incrementalBackup config devNo (faultlessRun libs compress disk totalSize vss snapshotTime now)
    (BlockStateManager.initializeFrom slack saved devNo).2 driver (Peer.accept files)

section Next

variable {libs : Libs} {compress : Bytes → Bytes} {devNo : UInt32} {totalSize : UInt64}
  {bf : BackingFile} (hu : Unhindered libs compress devNo totalSize bf)
  -- the full backup
  {disk : Image} {files : Files} {versionId : UInt32} {windowSize : Nat}
  {slack : Nat → Vector UInt8 4} {before : Option Bytes} {snapshotTime now : UInt64}
  {s : Pipeline Peer}
  (h : Reached (Job.full devNo versionId totalSize) (faultless libs disk compress)
    (fullBackupStart libs devNo totalSize files versionId windowSize
      (BlockStateManager.initializeFrom slack before devNo).2 snapshotTime now) s)
  {i : Nat} {awaited : Bool} (hdone : s.sender = .done i awaited)
  -- the bitmap, and the writes
  (hookList : List HookEntry) (majorFunction : Nat → UInt8 → Nat) (driverObject : Nat)
  {site : DiskSite} (hsite : site.diskNumber = devNo) {diskMap : Driver.DiskMap} {d : TrackedDisk}
  (hserves : Serves diskMap site d)
  (hcount : d.totalBlocks = (Job.full devNo versionId totalSize).totalBlocks.toNat)
  (hclear : ∀ b, d.marked b = false) {writes : List WriteIrp}
  (hwrites : ∀ irp ∈ writes, Fits irp site totalSize)
  -- the next process
  (config : TransferConfig) {vss : Vss} (hvss : vss.takeSnapshots [] = true)
  (snapshotTime' now' : UInt64) (slack' : Nat → Vector UInt8 4)
include hu h hdone hsite hserves hcount hclear hwrites hvss

/-- **What the next incremental backup copies.** -/
theorem next_copies :
    Image.CopiesBlocks blockSize (written site disk writes)
      (s.server.serving.files.image (libs.fileOf bf.fd))
      ((nextIncremental libs compress config devNo (written site disk writes) totalSize vss
        snapshotTime' now' slack' s.manager.save.2.1
        (afterWrites hookList majorFunction site driverObject diskMap writes)
        s.server.serving.files).net.serving.files.image (libs.fileOf bf.fd))
      (fun b => b < (Job.full devNo versionId totalSize).totalBlocks.toNat ∧
        Follows config libs bf (written site disk writes) totalSize s.manager site writes b) := by
  have hlayout := sameLayout_reached h
  have hsaved : SavedFrom (BlockStateManager.initializeFrom slack before devNo).2 snapshotTime now
      totalSize s.manager := SameLayout.savedFrom hlayout
  have hsave : s.manager.save.2.1 = some s.manager.stateFile := by
    rw [BlockStateManager.save, if_pos]
    exact hlayout.initialized.trans
      ((initialized_prepare ..).trans (initialized_initializeFrom slack before devNo))
  obtain ⟨hrest, hloaded⟩ := atRest_loaded hsaved (all_acknowledged hu h hdone) slack' devNo
  rw [nextIncremental, hsave]
  generalize (BlockStateManager.initializeFrom slack' (some s.manager.stateFile) devNo).2 = loaded
    at hrest hloaded ⊢
  have htotals : loaded.totalBlocks = s.manager.totalBlocks :=
    hrest.totalBlocks.trans hsaved.totalBlocks.symm
  have hvalid : ∀ irp ∈ writes, irp.Valid site d.totalBlocks := fun irp hmem =>
    { pos := (hwrites irp hmem).pos
      len := (hwrites irp hmem).len
      inside := (hwrites irp hmem).inside.trans (hcount ▸ totalSize_le_mul hu.size_lt) }
  obtain ⟨d', hd', htotal, hmarked⟩ :=
    serves_afterWrites hookList majorFunction driverObject hserves hvalid
  have hreported := reportedBlocks_of_serves hd'
  rw [hsite] at hreported
  -- the driver reports the mirrors of the blocks that the writes touch
  have hmem : ∀ b, b ∈ (List.range d'.totalBlocks).filter (fun i => d'.marked (mirror i)) ↔
      b < (Job.full devNo versionId totalSize).totalBlocks.toNat ∧
        ∃ irp ∈ writes, irp.Touches site (mirror b) := fun b => by
    rw [List.mem_filter, List.mem_range, htotal, hcount, hmarked, hclear]
    exact and_congr_right fun _ => or_iff_right Bool.false_ne_true
  have hlisted : ∀ idx ∈ (List.range d'.totalBlocks).filter (fun i => d'.marked (mirror i)),
      idx < loaded.totalBlocks.toNat := by
    intro idx hidx
    rw [hrest.totalBlocks]
    exact ((hmem idx).mp hidx).1
  have hblocks : s.manager.blocks ≠ [] := by
    rw [← List.length_pos_iff, hsaved.length, hsaved.totalBlocks]
    exact hcount ▸ d.dimensioned.pos
  rw [and_iff_left hblocks] at hloaded
  refine (incremental_copies hu hrest hlisted hreported hvss snapshotTime' now' config
    s.server.serving.files).congr fun b => ?_
  constructor
  · rintro ⟨hrep, hld, hgreeted, hdry, harrives⟩
    obtain ⟨hin, htouches⟩ := (hmem b).mp hrep
    exact ⟨hin, htouches, hloaded.mp hld, htotals ▸ hgreeted, hdry, harrives⟩
  · rintro ⟨hin, htouches, hsum, hgreeted, hdry, harrives⟩
    exact ⟨(hmem b).mpr ⟨hin, htouches⟩, hloaded.mpr hsum, htotals ▸ hgreeted, hdry, harrives⟩

/-- **When the next incremental backup brings the server's image to the disk**: exactly when every
byte that has changed is in a block that gets there. -/
theorem converges_iff :
    (∀ k < totalSize.toNat,
      (nextIncremental libs compress config devNo (written site disk writes) totalSize vss
        snapshotTime' now' slack' s.manager.save.2.1
        (afterWrites hookList majorFunction site driverObject diskMap writes)
        s.server.serving.files).net.serving.files.image (libs.fileOf bf.fd) k
        = written site disk writes k) ↔
      ∀ k < totalSize.toNat, disk k ≠ written site disk writes k →
        Follows config libs bf (written site disk writes) totalSize s.manager site writes
          (k / blockSize) := by
  have hcopies := next_copies hu h hdone hookList majorFunction driverObject hsite hserves hcount
    hclear hwrites config hvss snapshotTime' now' slack'
  refine (hcopies.eq_src_iff totalSize.toNat).trans (forall₂_congr fun k hk => ?_)
  have himage : s.server.serving.files.image (libs.fileOf bf.fd) k = disk k := by
    rw [image_copied hu h hdone]
    exact if_pos hk
  have hin : k / blockSize < (Job.full devNo versionId totalSize).totalBlocks.toNat := by
    rw [toNat_totalBlocks_full hu.size_lt, blockSize_lit]
    omega
  rw [himage, and_iff_right hin]

end Next

/-! ### A disk of one block -/

/-- The stored stream of no bytes. -/
def storedNothing : Bytes := [0x78, 0x01, 0x01, 0, 0, 0xff, 0xff, 0, 0, 0, 1]

/-- zlib without compression. -/
def storedZlib (data : Bytes) : Bytes :=
  if data = [] then storedNothing else (createStoredZlib data).getD []

theorem storedZlib_decodes {data : Bytes} (hlen : data.length ≤ blockSize) :
    (storedZlib data).length ≤ 2 * blockSize ∧
      Zlib.decodeStoredStream (storedZlib data) = some data := by
  rw [blockSize_lit] at hlen ⊢
  rcases eq_or_ne data [] with rfl | hne
  · rw [storedZlib, if_pos rfl]
    decide
  · have hsmall : data.length < 2 ^ 32 - 65534 := by omega
    obtain ⟨out, hout, hsize, hdecodes, -⟩ := createStoredZlib_decodes hne hsmall
    rw [storedZlib, if_neg hne, hout, Option.getD_some, hsize, storedSize_eq hsmall, storedLength]
    exact ⟨by omega, hdecodes⟩

theorem unhindered_stored : Unhindered storedLibs storedZlib 0 1048576 backingFile where
  size_lt := by decide
  device := by decide
  large := by decide
  writes _ _ := rfl
  shrinks _ hdata := (storedZlib_decodes hdata).1
  inflates _ hdata := (storedZlib_decodes hdata).2

/-- A disk of zeros. -/
def zeroDisk : Image := fun _ => 0

/-- The manager of a new directory. -/
def freshManager : BlockStateManager :=
  (BlockStateManager.initializeFrom (fun _ => .replicate 4 0) none 0).2

/-- A full backup of 1 MB of zeros. -/
theorem zeroDisk_reached :
    ∃ s, Reached (Job.full 0 0 1048576) (faultless storedLibs zeroDisk storedZlib)
        (fullBackupStart storedLibs 0 1048576 blankFiles 0 1 freshManager 0 0) s ∧
      s.sender = .done 1 true := by
  have htotal : (Job.full 0 0 1048576).totalBlocks.toNat = 1 := by decide
  obtain ⟨hgreeted, -⟩ := greeted_of_hello storedLibs blankFiles unhindered_stored.device
    unhindered_stored.large 0 (Job.full 0 0 1048576).totalBlocks [70, 85, 76, 76]
  obtain ⟨s, hs, hdone⟩ := exists_copied unhindered_stored
    (fun _ hi => copiesBlock_faultless storedLibs storedZlib zeroDisk hi) hgreeted freshManager 0 0
  exact ⟨s, hs, htotal ▸ hdone⟩

theorem clear_oneBlockDisk (b : Nat) : oneBlockDisk.marked b = false :=
  (dimensioned_of_zeroed (k := 1) rfl (by decide) (by decide) (by decide) (by decide)).2 b

theorem fits_firstByte (v : UInt8) : ∀ irp ∈ [firstByte v], Fits irp soleSite 1048576 := by
  intro irp hirp
  rw [List.mem_singleton.mp hirp]
  have hvalid := valid_firstByte v Nat.one_pos
  exact ⟨hvalid.pos, hvalid.len, hvalid.inside.trans_eq (by decide)⟩

/-- A snapshot set of no volumes. -/
def noVolumes : Vss where
  initialized := true
  startSnapshotSet := true
  addVolumeToSnapshotSet _ := true
  doSnapshotSet := true
  getSnapshotDevicePath _ := none

/-- The next run of that disk, after the first byte was written. -/
def firstByteRun (v : UInt8) (s : Pipeline Peer) : IncrementalResult Peer :=
  nextIncremental storedLibs storedZlib { dryRun := false, retryCount := 3 } 0
    (written soleSite zeroDisk [firstByte v]) 1048576 noVolumes 0 0 (fun _ => .replicate 4 0)
    s.manager.save.2.1
    (afterWrites [] (fun _ _ => 0) soleSite 0 (soleDisk oneBlockDisk.state) [firstByte v])
    s.server.serving.files

theorem converges_iff_firstByte :
    ∃ s : Pipeline Peer, s.sender = .done 1 true ∧
      ((∀ k < (1048576 : UInt64).toNat,
          (firstByteRun 1 s).net.serving.files.image 3 k
            = written soleSite zeroDisk [firstByte 1] k) ↔
        ∀ k < (1048576 : UInt64).toNat, zeroDisk k ≠ written soleSite zeroDisk [firstByte 1] k →
          Follows { dryRun := false, retryCount := 3 } storedLibs backingFile
            (written soleSite zeroDisk [firstByte 1]) 1048576 s.manager soleSite [firstByte 1]
            (k / blockSize)) := by
  obtain ⟨s, hs, hdone⟩ := zeroDisk_reached
  exact ⟨s, hdone, converges_iff unhindered_stored hs hdone [] (fun _ _ => 0) 0 rfl
    (serves_soleDisk oneBlockDisk) (by decide) clear_oneBlockDisk (fits_firstByte 1)
    { dryRun := false, retryCount := 3 } rfl 0 0 (fun _ => .replicate 4 0)⟩

/-- **A change that is lost.**  A disk of 1 MB of zeros is backed up, and its first byte is written:
the next run looks at another bit of the bitmap and finds nothing to do. -/
theorem first_byte_lost :
    ∃ s, Reached (Job.full 0 0 1048576) (faultless storedLibs zeroDisk storedZlib)
        (fullBackupStart storedLibs 0 1048576 blankFiles 0 1 freshManager 0 0) s ∧
      s.sender = .done 1 true ∧
      (∀ k < (1048576 : UInt64).toNat, s.server.serving.files.image 3 k = zeroDisk k) ∧
      ¬ ∀ k < (1048576 : UInt64).toNat,
        (firstByteRun 1 s).net.serving.files.image 3 k
          = written soleSite zeroDisk [firstByte 1] k := by
  obtain ⟨s, hs, hdone⟩ := zeroDisk_reached
  have himage : ∀ k < (1048576 : UInt64).toNat, s.server.serving.files.image 3 k = zeroDisk k := by
    intro k hk
    have hcopied := congrFun (image_copied unhindered_stored hs hdone) k
    exact hcopied.trans (if_pos hk)
  refine ⟨s, hs, hdone, himage, fun hall => ?_⟩
  have hsite : soleSite.diskNumber = 0 := rfl
  have hvss : noVolumes.takeSnapshots [] = true := rfl
  have hcopies := next_copies unhindered_stored hs hdone [] (fun _ _ => 0) 0 hsite
    (serves_soleDisk oneBlockDisk) (by decide) clear_oneBlockDisk (fits_firstByte 1)
    { dryRun := false, retryCount := 3 } hvss 0 0 (fun _ => .replicate 4 0)
  have hfirst : s.server.serving.files.image 3 0 ≠ written soleSite zeroDisk [firstByte 1] 0 := by
    rw [himage 0 (by decide)]
    decide
  obtain ⟨-, hfollows⟩ := (hcopies.eq_src_iff _).mp hall 0 (by decide) hfirst
  obtain ⟨irp, hirp, k, hk, htouches⟩ := hfollows.reported
  rw [List.mem_singleton.mp hirp] at hk htouches
  obtain rfl : k = 0 := Nat.lt_one_iff.mp hk
  exact absurd htouches (by decide)

end Go2Cbt.Link
