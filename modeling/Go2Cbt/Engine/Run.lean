import Go2Cbt.Engine.CleanTransfer
import Go2Cbt.Engine.Incremental
import Go2Cbt.Engine.Tiling
import Mathlib.Data.List.Forall2

/-!
# Engine — what it means that a backup succeeded

`BackupEngine::Run` backs up one disk after the other and returns whether all of them succeeded.  A
disk fails before its transfer or not at all: neither `FullBackup` nor `IncrementalBackup` looks at
what became of the blocks.

`succeeds_means_acked_iff` says for which runs the result can be relied upon.
-/

namespace Go2Cbt.Engine

open Go2Cbt.Client Go2Cbt.Driver Go2Cbt.Protocol

/-! ### The run -/

/-- The parts of `BackupConfig` that a backup reads. -/
structure BackupConfig extends TransferConfig where
  useCbt : Bool
  pipelineWindowSize : Nat
  deriving DecidableEq, Repr

/-- What the backup of a disk meets: what parsing the disk gives, the block state that was saved,
and the answers of the outside.  What an incremental backup meets besides comes last. -/
structure DiskEnv (σ : Type) where
  layout : Option DiskLayout
  volumes : List VolumeInfo
  manager : BlockStateManager
  vss : Vss
  snapshotTime : UInt64
  now : UInt64
  connects : Bool
  greets : Bool
  opens : DataSource → Bool
  outside : DataSource → Outside σ
  server : σ
  cbtConnects : Bool
  driver : DiskMap
  hash : HashOps
  transfer : DataSource → Faults

/-- How a full backup ends. -/
inductive FullOutcome (σ : Type) where
  | refused
  | unopened
  | transferred (s : Pipeline σ)

/-- How the backup of a disk ends. -/
inductive DiskOutcome (σ : Type) where
  | unparsed
  | full (outcome : FullOutcome σ)
  | incremental (result : IncrementalResult Unit)

variable {σ : Type}

namespace DiskEnv

variable (env : DiskEnv σ)

/-- The version that a full backup creates. -/
def version (layout : DiskLayout) : VersionRecord × BlockStateManager :=
  let totalBlocks := (Job.full 0 0 layout.size).totalBlocks
  prepare env.manager env.snapshotTime env.now totalBlocks layout.size

/-- Its transfer. -/
def job (devNo : UInt32) (layout : DiskLayout) : Job :=
  .full devNo (env.version layout).1.versionId.toUInt32 layout.size

/-- What the transfer reads from. -/
def source (devNo : UInt32) (layout : DiskLayout) : DataSource :=
  dataSource env.vss (mapVolumes env.volumes layout) devNo

/-- The state in which the transfer starts. -/
def start (config : BackupConfig) (layout : DiskLayout) : Pipeline σ :=
  .start config.pipelineWindowSize (env.version layout).2 env.server

/-- What an incremental backup meets. -/
def faults (layout : DiskLayout) : IncrementalFaults where
  cbtConnects := env.cbtConnects
  vss := env.vss
  mapped := mapVolumes env.volumes layout
  snapshotTime := env.snapshotTime
  now := env.now
  connects := env.connects
  greets := env.greets
  hash := env.hash
  transfer := env.transfer

end DiskEnv

/-- The checks of a full backup before its transfer. -/
def passesChecks (env : DiskEnv σ) (layout : DiskLayout) : Bool :=
  env.vss.takeSnapshots (mapVolumes env.volumes layout) && env.connects && env.greets

/-- `FullBackup`, outside a dry run. -/
inductive FullBackup (config : BackupConfig) (devNo : UInt32) (env : DiskEnv σ)
    (layout : DiskLayout) : FullOutcome σ → Prop where
  | refused (h : passesChecks env layout = false) : FullBackup config devNo env layout .refused
  -- `PipelineTransferBlocks` sends nothing
  | unopened (h : passesChecks env layout = true)
      (hopen : env.opens (env.source devNo layout) = false) :
      FullBackup config devNo env layout .unopened
  | transferred {s : Pipeline σ} {i : Nat} {awaited : Bool} (h : passesChecks env layout = true)
      (hopen : env.opens (env.source devNo layout) = true)
      (hs : Reached (env.job devNo layout) (env.outside (env.source devNo layout))
        (env.start config layout) s)
      (hdone : s.sender = .done i awaited) :
      FullBackup config devNo env layout (.transferred s)

/-- `BackupDisk`. -/
inductive BackupDisk (config : BackupConfig) :
    UInt32 × DiskEnv σ → DiskOutcome σ → Prop where
  | unparsed {devNo : UInt32} {env : DiskEnv σ} (h : env.layout = none) :
      BackupDisk config (devNo, env) .unparsed
  | full {devNo : UInt32} {env : DiskEnv σ} {layout : DiskLayout} {outcome : FullOutcome σ}
      (h : env.layout = some layout) (hcbt : config.useCbt = false)
      (hfull : FullBackup config devNo env layout outcome) :
      BackupDisk config (devNo, env) (.full outcome)
  | incremental {devNo : UInt32} {env : DiskEnv σ} {layout : DiskLayout}
      (h : env.layout = some layout) (hcbt : config.useCbt = true) :
      BackupDisk config (devNo, env)
        (.incremental (incrementalBackup config.toTransferConfig devNo (env.faults layout).env
          env.manager env.driver ()))

/-- What `BackupDisk` returns. -/
def DiskOutcome.success : DiskOutcome σ → Bool
  | .unparsed | .full .refused => false
  | .full .unopened | .full (.transferred _) => true
  | .incremental result => result.success

/-- What `Run` returns, for disks that end like this. -/
def allOk (outcomes : List (DiskOutcome σ)) : Bool :=
  outcomes.foldl (fun allOk outcome => if outcome.success then allOk else false) true

/-- A run over a list of disks. -/
def BackupRun (config : BackupConfig) (disks : List (UInt32 × DiskEnv σ))
    (outcomes : List (DiskOutcome σ)) : Prop :=
  List.Forall₂ (BackupDisk config) disks outcomes

/-! ### What a success says -/

/-- The blocks whose bit is set in the driver's bitmap. -/
def flaggedBlocks (cbtConnects : Bool) (driver : DiskMap) (devNo : UInt32) : List Nat :=
  match CbtClient.query cbtConnects driver driver devNo with
  | none => []
  | some (bitmap, totalBits) =>
      (List.range totalBits.toNat).filter fun i =>
        (bitmap.getD (i / 8) 0).toNat.testBit (i % 8)

/-- A block that the backup of a disk has to transfer: any that starts on the disk, or, if it is
incremental, any that is flagged. -/
def Requires (config : BackupConfig) (disk : UInt32 × DiskEnv σ) (b : Nat) : Prop :=
  ∃ layout, disk.2.layout = some layout ∧
    if config.useCbt then b ∈ flaggedBlocks disk.2.cbtConnects disk.2.driver disk.1
    else b * blockSize < layout.size.toNat

/-- The server acknowledged a block with status 0. -/
def DiskOutcome.Acked (b : Nat) : DiskOutcome σ → Prop
  | .full (.transferred s) => ∃ ack ∈ s.received, ack.blockIndex.toNat = b ∧ ack.status = 0
  | .incremental result => ∃ i ∈ result.acknowledged, i.toNat = b
  | _ => False

/-- **If the run succeeds, every block of every disk that had to be transferred is
acknowledged.** -/
def SucceedsMeansAcked (config : BackupConfig) (disks : List (UInt32 × DiskEnv σ))
    (outcomes : List (DiskOutcome σ)) : Prop :=
  allOk outcomes = true →
    ∀ p ∈ disks.zip outcomes, ∀ b, Requires config p.1 b → p.2.Acked b

/-! ### When it can be relied upon -/

/-- The backup of the disk is given up before the transfer: the disk cannot be parsed or the
driver not be queried, or there is something to do and the snapshots, connecting or the greeting
fails. -/
def GivesUp (config : BackupConfig) (disk : UInt32 × DiskEnv σ) : Prop :=
  match disk.2.layout with
  | none => True
  | some layout =>
      if config.useCbt then
        CbtClient.query disk.2.cbtConnects disk.2.driver disk.2.driver disk.1 = none ∨
          (reportedBlocks disk.2.cbtConnects disk.2.driver disk.1 ≠ [] ∧
            passesChecks disk.2 layout = false)
      else passesChecks disk.2 layout = false

/-- The size of the disk can be rounded up to blocks. -/
def RoundsUp (totalSize : UInt64) : Prop := totalSize.toNat + blockSize ≤ 2 ^ 64

/-- Every flagged block is reported to the client as changed, or was pending, is read, compressed
and sent, and comes out acknowledged. -/
def DeliversFlagged (config : BackupConfig) (devNo : UInt32) (env : DiskEnv σ)
    (layout : DiskLayout) : Prop :=
  ∀ b ∈ flaggedBlocks env.cbtConnects env.driver devNo,
    reportedBlocks env.cbtConnects env.driver devNo ≠ [] ∧
      ∃ i : UInt64, i.toNat = b ∧
        (env.transfer (env.source devNo layout)).Delivers config.toTransferConfig
          env.manager.totalBlocks 0
          ((env.faults layout).toSend env.manager
            (reportedBlocks env.cbtConnects env.driver devNo)) i

/-- No block of the disk is lost: a full backup opens its source and comes to its end without a
step that loses a block; an incremental one delivers what is flagged. -/
def LosesNothing (config : BackupConfig) (disk : UInt32 × DiskEnv σ)
    (outcome : DiskOutcome σ) : Prop :=
  ∀ layout, disk.2.layout = some layout →
    match outcome with
    | .full (.transferred s) =>
        RoundsUp layout.size ∧
          ReachedCleanly (disk.2.job disk.1 layout)
            (disk.2.outside (disk.2.source disk.1 layout)) (disk.2.start config layout) s
    | .incremental _ => DeliversFlagged config disk.1 disk.2 layout
    | .full .unopened => layout.size = 0
    | .full .refused | .unparsed => True

/-- The server answers the messages one by one while a full backup of the disk runs. -/
def Answers (config : BackupConfig) (disk : UInt32 × DiskEnv σ) : Prop :=
  ∀ layout, disk.2.layout = some layout →
    (disk.2.outside (disk.2.source disk.1 layout)).AnswersAlong (disk.2.job disk.1 layout)
      (disk.2.start config layout)

/-! ### The blocks of a disk -/

section Size

variable {devNo versionId : UInt32} {totalSize : UInt64}

theorem toNat_totalBlocks_full_mod :
    (Job.full devNo versionId totalSize).totalBlocks.toNat
      = ((totalSize.toNat + 2 ^ 20) % 2 ^ 64 + (2 ^ 64 - 1)) % 2 ^ 64 / 2 ^ 20 := by
  have hone : (1 : UInt64).toNat = 1 := rfl
  rw [Job.full, UInt64.toNat_div, UInt64.toNat_sub, UInt64.toNat_add, toNat_ofNat_blockSize, hone,
    blockSize_eq, Nat.add_comm (2 ^ 64 - 1)]

/-- A block starts on the disk if it is one of those that are counted. -/
theorem start_lt_iff (hfits : RoundsUp totalSize) (b : Nat) :
    b * blockSize < totalSize.toNat ↔
      b < (Job.full devNo versionId totalSize).totalBlocks.toNat := by
  rw [RoundsUp, blockSize_lit] at hfits
  rw [toNat_totalBlocks_full_mod, blockSize_lit]
  omega

/-- A disk too large to be rounded up has no blocks. -/
theorem totalBlocks_of_not_roundsUp (hfits : ¬ RoundsUp totalSize) :
    (Job.full devNo versionId totalSize).totalBlocks.toNat = 0 := by
  have hlt := totalSize.toNat_lt
  rw [RoundsUp, blockSize_lit] at hfits
  rw [toNat_totalBlocks_full_mod]
  omega

end Size

/-! ### One disk -/

section Disk

variable {config : BackupConfig} {devNo : UInt32} {env : DiskEnv σ} {layout : DiskLayout}

theorem requires_full (hcbt : config.useCbt = false) (hlayout : env.layout = some layout)
    (b : Nat) :
    Requires config (devNo, env) b ↔ b * blockSize < layout.size.toNat := by
  simp [Requires, hcbt, hlayout]

theorem requires_incremental (hcbt : config.useCbt = true) (hlayout : env.layout = some layout)
    (b : Nat) :
    Requires config (devNo, env) b ↔ b ∈ flaggedBlocks env.cbtConnects env.driver devNo := by
  simp [Requires, hcbt, hlayout]

/-- An incremental backup gets through if something is reported and the checks pass. -/
theorem getsThrough_iff (hdry : config.dryRun = false) :
    (env.faults layout).GetsThrough config.toTransferConfig devNo env.driver ↔
      reportedBlocks env.cbtConnects env.driver devNo ≠ [] ∧ passesChecks env layout = true := by
  simp [IncrementalFaults.GetsThrough, passesChecks, DiskEnv.faults, hdry, and_assoc]

/-- **The backup of a disk fails exactly if it is given up before its transfer.** -/
theorem success_eq_false_iff {disk : UInt32 × DiskEnv σ} {outcome : DiskOutcome σ}
    (hdry : config.dryRun = false) (h : BackupDisk config disk outcome) :
    outcome.success = false ↔ GivesUp config disk := by
  cases h with
  | unparsed hlayout => simp [DiskOutcome.success, GivesUp, hlayout]
  | full hlayout hcbt hfull =>
      cases hfull with
      | refused hchecks => simp [DiskOutcome.success, GivesUp, hlayout, hcbt, hchecks]
      | unopened hchecks _ => simp [DiskOutcome.success, GivesUp, hlayout, hcbt, hchecks]
      | transferred hchecks _ _ _ => simp [DiskOutcome.success, GivesUp, hlayout, hcbt, hchecks]
  | @incremental devNo env layout hlayout hcbt =>
      have hsuccess := success_iff config.toTransferConfig devNo (env.faults layout) env.manager
        env.driver
      rw [getsThrough_iff hdry] at hsuccess
      rw [DiskOutcome.success, ← Bool.not_eq_true, hsuccess, GivesUp, hlayout]
      simp only [hcbt, if_true, DiskEnv.faults]
      cases passesChecks env layout <;> tauto

/-- A full backup whose transfer has returned. -/
theorem acked_transferred_iff {s : Pipeline σ} {i : Nat} {awaited : Bool}
    (hanswers : (env.outside (env.source devNo layout)).AnswersAlong (env.job devNo layout)
      (env.start config layout))
    (hs : Reached (env.job devNo layout) (env.outside (env.source devNo layout))
      (env.start config layout) s) (hdone : s.sender = .done i awaited) :
    (∀ b, b * blockSize < layout.size.toNat →
        ∃ ack ∈ s.received, ack.blockIndex.toNat = b ∧ ack.status = 0) ↔
      RoundsUp layout.size ∧ ReachedCleanly (env.job devNo layout)
        (env.outside (env.source devNo layout)) (env.start config layout) s := by
  by_cases hfits : RoundsUp layout.size
  · have hiff := allAcked_iff_reachedCleanly hanswers hs hdone
    rw [and_iff_right hfits]
    refine Iff.trans ?_ hiff
    exact forall_congr' fun b => imp_congr_left (start_lt_iff hfits b)
  · refine iff_of_false (fun hall => ?_) (fun h => hfits h.1)
    have hzero : 0 * blockSize < layout.size.toNat := by
      have hlarge := not_le.mp hfits
      have hsize := blockSize_lit
      omega
    obtain ⟨ack, hack, -, -⟩ := hall 0 hzero
    have hlt := blockIndex_lt_of_received hanswers hs ack hack
    rw [DiskEnv.job, totalBlocks_of_not_roundsUp hfits] at hlt
    exact absurd hlt (Nat.not_lt_zero _)

/-- **A backup that did not fail has got everything acknowledged exactly if it loses nothing.** -/
theorem acked_iff_losesNothing {disk : UInt32 × DiskEnv σ} {outcome : DiskOutcome σ}
    (hdry : config.dryRun = false) (hanswers : Answers config disk)
    (h : BackupDisk config disk outcome) (hsuccess : outcome.success = true) :
    (∀ b, Requires config disk b → outcome.Acked b) ↔ LosesNothing config disk outcome := by
  cases h with
  | unparsed _ => cases hsuccess
  | @full devNo env layout outcome hlayout hcbt hfull =>
      simp only [requires_full hcbt hlayout, LosesNothing, hlayout, Option.some.injEq,
        forall_eq']
      cases hfull with
      | refused _ => cases hsuccess
      | unopened _ _ =>
          refine ⟨fun hall => ?_, fun hzero b hb => ?_⟩
          · by_contra hne
            have hpos : 0 * blockSize < layout.size.toNat := by
              rw [Nat.zero_mul]
              exact Nat.pos_of_ne_zero fun hzero => hne (UInt64.toNat_inj.mp hzero)
            exact hall 0 hpos
          · rw [hzero] at hb
            exact absurd hb (Nat.not_lt_zero _)
      | transferred _ _ hs hdone => exact acked_transferred_iff (hanswers layout hlayout) hs hdone
  | @incremental devNo env layout hlayout hcbt =>
      simp only [requires_incremental hcbt hlayout, LosesNothing, hlayout, Option.some.injEq,
        forall_eq', DeliversFlagged, DiskOutcome.Acked]
      refine forall₂_congr fun b _ => ?_
      by_cases hnone : reportedBlocks env.cbtConnects env.driver devNo = []
      · refine iff_of_false ?_ fun h => h.1 hnone
        rw [acknowledged_of_not_getsThrough _ _ _ _ _ fun h => h.1 hnone]
        rintro ⟨i, hi, -⟩
        exact absurd hi List.not_mem_nil
      · have hthrough : (env.faults layout).GetsThrough config.toTransferConfig devNo env.driver :=
          ((success_iff _ _ _ _ _).mp hsuccess).2.resolve_left hnone
        simp only [mem_acknowledged_of_getsThrough _ _ _ env.manager _ hdry hthrough]
        rw [and_iff_right hnone]
        exact exists_congr fun i => and_comm

end Disk

/-! ### The run -/

/-- The loop returns whether all disks succeeded. -/
theorem allOk_eq_all (outcomes : List (DiskOutcome σ)) :
    allOk outcomes = outcomes.all DiskOutcome.success := by
  have hloop : ∀ (outcomes : List (DiskOutcome σ)) (ok : Bool),
      outcomes.foldl (fun allOk outcome => if outcome.success then allOk else false) ok
        = (ok && outcomes.all DiskOutcome.success) := by
    intro outcomes
    induction outcomes with
    | nil => exact fun ok => (Bool.and_true ok).symm
    | cons outcome rest ih =>
        intro ok
        rw [List.foldl_cons, ih, List.all_cons]
        cases outcome.success <;> cases ok <;> rfl
  exact (hloop outcomes true).trans (Bool.true_and _)

section Run

variable {config : BackupConfig} {disks : List (UInt32 × DiskEnv σ)}
  {outcomes : List (DiskOutcome σ)}

/-- **The run succeeds exactly if no disk is given up before its transfer.** -/
theorem allOk_iff (hdry : config.dryRun = false) (h : BackupRun config disks outcomes) :
    allOk outcomes = true ↔ ∀ disk ∈ disks, ¬ GivesUp config disk := by
  rw [allOk_eq_all, List.all_eq_true]
  induction h with
  | nil => simp
  | cons hdisk _ ih =>
      rw [List.forall_mem_cons, List.forall_mem_cons, ih, ← success_eq_false_iff hdry hdisk,
        Bool.not_eq_false]

/-- **When the success of a run can be relied upon**: a disk was given up, so that there is none,
or no block of any disk is lost. -/
theorem succeeds_means_acked_iff (hdry : config.dryRun = false)
    (hanswers : ∀ disk ∈ disks, Answers config disk) (h : BackupRun config disks outcomes) :
    SucceedsMeansAcked config disks outcomes ↔
      (∃ disk ∈ disks, GivesUp config disk) ∨
        ∀ p ∈ disks.zip outcomes, LosesNothing config p.1 p.2 := by
  rw [SucceedsMeansAcked, allOk_iff hdry h]
  by_cases hgives : ∃ disk ∈ disks, GivesUp config disk
  · refine iff_of_true (fun hnone => ?_) (.inl hgives)
    obtain ⟨disk, hdisk, hgive⟩ := hgives
    exact absurd hgive (hnone disk hdisk)
  · have hnone : ∀ disk ∈ disks, ¬ GivesUp config disk :=
      fun disk hdisk hgive => hgives ⟨disk, hdisk, hgive⟩
    rw [or_iff_right hgives]
    refine (forall_prop_of_true hnone).trans (forall₂_congr fun p hp => ?_)
    obtain ⟨hdisk, -⟩ := List.of_mem_zip (a := p.1) (b := p.2) hp
    have hbackup : BackupDisk config p.1 p.2 := (List.forall₂_iff_zip.mp h).2 hp
    have hsuccess : p.2.success = true := by
      rw [← Bool.not_eq_false, success_eq_false_iff hdry hbackup]
      exact hnone p.1 hdisk
    exact acked_iff_losesNothing hdry (hanswers p.1 hdisk) hbackup hsuccess

end Run

/-- A disk of one byte that nothing is wrong with, except perhaps its data source. -/
def oneByteEnv (opens : Bool) : DiskEnv Unit where
  layout := some { deviceNumber := 0, size := 1, partitions := [] }
  volumes := []
  manager := .new
  vss := unreadable.vss
  snapshotTime := 0
  now := 0
  connects := true
  greets := true
  opens := fun _ => opens
  outside := fun _ => noFaults
  server := ()
  cbtConnects := true
  driver := []
  hash := unreadable.hash
  transfer := unreadable.transfer

/-- A full backup, with a window of one slot. -/
def fullConfig : BackupConfig :=
  { dryRun := false, retryCount := 3, useCbt := false, pipelineWindowSize := 1 }

/-- The same with a disk of two blocks. -/
def twoBlockEnv : DiskEnv Unit :=
  { oneByteEnv true with layout := some { deviceNumber := 0, size := 1048577, partitions := [] } }

/-- A run with every block acknowledged. -/
theorem succeeds_means_acked_twoBlocks :
    ∃ s, BackupRun fullConfig [(0, twoBlockEnv)] [.full (.transferred s)] ∧
      SucceedsMeansAcked fullConfig [(0, twoBlockEnv)] [.full (.transferred s)] := by
  let layout : DiskLayout := { deviceNumber := 0, size := 1048577, partitions := [] }
  let job := twoBlockEnv.job 0 layout
  have htotal : job.totalBlocks.toNat = 2 := by decide
  obtain ⟨s, hs, hdone, hskipped, hreceived⟩ := allBlocks_reached .new 0 0 fun i _ =>
    exchanges_noFaults job i
  rw [htotal] at hdone hreceived
  have hbackup : BackupRun fullConfig [(0, twoBlockEnv)] [.full (.transferred s)] :=
    .cons (.full rfl rfl (.transferred rfl rfl hs hdone)) .nil
  have halong : ∀ disk ∈ [((0 : UInt32), twoBlockEnv)], Answers fullConfig disk := by
    intro disk hdisk
    rw [List.mem_singleton.mp hdisk]
    exact fun _ _ => answersEach_noFaults.along _
  have hstopped : s.receiver = .stopped := by
    obtain ⟨⟨acks, -, hanswered⟩, -⟩ := answered_of_reached (answersEach_noFaults.along _) hs
    exact hanswered.ended 2 true hdone
  have hclean : ReachedCleanly job noFaults (twoBlockEnv.start fullConfig layout) s := by
    refine (answered_of_reached (answersEach_noFaults.along _) hs).2 ?_
    simp [NoneLost, SendLost, AnswerLost, Sender.EndsBefore, hdone, hskipped, hreceived, hstopped,
      htotal]
  refine ⟨s, hbackup, (succeeds_means_acked_iff rfl halong hbackup).mpr (.inr ?_)⟩
  intro p hp
  obtain rfl := List.mem_singleton.mp hp
  rintro _ hlayout
  cases hlayout
  exact ⟨by rw [RoundsUp]; decide, hclean⟩

/-- **A full backup that cannot open its data source succeeds**, with nothing acknowledged. -/
theorem unopened_succeeds :
    BackupRun fullConfig [(0, oneByteEnv false)] [.full .unopened] ∧
      ¬ SucceedsMeansAcked fullConfig [(0, oneByteEnv false)] [.full .unopened] := by
  refine ⟨.cons (.full rfl rfl (.unopened rfl rfl)) .nil, fun h => ?_⟩
  exact h rfl ((0, oneByteEnv false), .full .unopened) List.mem_cons_self 0 ⟨_, rfl, Nat.one_pos⟩

/-! ### The flags -/

/-- The flags of a tracked disk are the marks of its bitmap. -/
theorem flaggedBlocks_eq {driver : DiskMap} {devNo : UInt32} {d : TrackedDisk}
    (h : Tracks driver devNo d) : flaggedBlocks true driver devNo = markedBlocks d := by
  rw [flaggedBlocks, query_spec h h rfl]
  refine List.filter_congr fun i _ => ?_
  rw [BitWords.testBit_bytes _ (Nat.mod_lt _ (by omega)), Nat.div_add_mod]
  rfl

end Go2Cbt.Engine
