import Go2Cbt.Engine.Run
import Go2Cbt.Link.Completion

/-!
# Link — one disk after the other

A full backup of several disks that nothing hinders, to one server: `Run` opens a connection for
each disk, and a connection starts with the files that the one before has left.  Each backup writes
its disk over the file of the device and touches no other file, so that in the end a file holds the
disks that were written over it, one after the other (`run_copies_all`).
-/

namespace Go2Cbt.Link

open Go2Cbt.Protocol Go2Cbt.Client Go2Cbt.Engine Go2Cbt.Server

/-! ### The other files -/

/-- **A block touches no file but that of its device**, whatever becomes of it. -/
theorem image_process_of_ne (libs : Libs) {r : BlockRequest} (files : Files) {file : Nat}
    (hfile : ∀ bf, libs.diskMap.get r.devno = some bf → libs.fileOf bf.fd ≠ file) :
    (processRequest libs r files).2.2.image file = files.image file := by
  cases hcheck : r.check libs with
  | error status => rw [(process_of_refused hcheck files).2.2]
  | ok found =>
      have haccepts := check_eq_ok_iff.mp hcheck
      cases hwrote : r.wrote libs found.2 files with
      | none => rw [(process_of_write_failed haccepts hwrote).2.1]
      | some n =>
          rw [(process_of_write haccepts hwrote).2.1, Patch.apply]
          exact Function.update_of_ne (hfile found.1 haccepts.device).symm _ _

section Others

variable {libs : Libs} {compress : Bytes → Bytes} {disk : Image} {devNo versionId : UInt32}
  {totalSize : UInt64} {bf : BackingFile} {file : Nat}

theorem image_handle_copy (hu : Unhindered libs compress devNo totalSize bf) {i : Nat}
    (hi : i < (Job.full devNo versionId totalSize).totalBlocks.toNat) {p : Peer} (hp : p.Greeted)
    (hfile : libs.fileOf bf.fd ≠ file) :
    (p.handle libs (copyOf libs compress disk devNo versionId totalSize i)).serving.files.image file
      = p.serving.files.image file := by
  obtain ⟨-, hle, -⟩ := blockSize_full_bounds hu.size_lt hi
  have hlength : (blockData disk devNo versionId totalSize i).length ≤ blockSize :=
    (Image.length_slice ..).trans_le hle
  obtain ⟨-, hfiles, -⟩ := handle_block libs hp devNo (UInt64.ofNat i)
    ((Job.full devNo versionId totalSize).blockSize i) (hu.shrinks _ hlength)
    (libs.sha256 (blockData disk devNo versionId totalSize i)) versionId
  refine (congrArg (fun f : Files => f.image file) hfiles).trans ?_
  refine image_process_of_ne libs _ fun bf' hdevice => ?_
  rw [Option.some.inj (hdevice.symm.trans hu.device)]
  exact hfile

/-- **A full backup touches no file but that of its device.** -/
theorem image_kept (hu : Unhindered libs compress devNo totalSize bf) {files : Files}
    {windowSize : Nat} {m : BlockStateManager} {snapshotTime now : UInt64} {s : Pipeline Peer}
    (hfile : libs.fileOf bf.fd ≠ file)
    (h : Reached (Job.full devNo versionId totalSize) (faultless libs disk compress)
      (fullBackupStart libs devNo totalSize files versionId windowSize m snapshotTime now) s) :
    s.server.serving.files.image file = files.image file := by
  obtain ⟨hgreeted, hfiles, -⟩ := greeted_of_hello libs files hu.device hu.large versionId
    (Job.full devNo versionId totalSize).totalBlocks [70, 85, 76, 76]
  have hkept : Reached (Job.full devNo versionId totalSize) (faultless libs disk compress)
      (fullBackupStart libs devNo totalSize files versionId windowSize m snapshotTime now) s ∧
        s.server.serving.files.image file = files.image file := by
    refine Transition.Reachable.invariant (P := fun s => Reached _ _ _ s ∧
      s.server.serving.files.image file = files.image file) ?_ ?_ h
    · rintro s rfl
      exact ⟨⟨_, [], rfl, .nil _⟩, congrArg (fun f : Files => f.image file) hfiles⟩
    · rintro s p t ⟨hs, himage⟩ hst
      refine ⟨hs.next hst, ?_⟩
      obtain ⟨acks, ha, -, hcopies⟩ := copies_reached hu hs
      cases hst with
      | serve hserve =>
          obtain ⟨-, m, hqueue, rfl, rfl⟩ := hserve
          obtain ⟨n, hn, -, rfl, -, -⟩ := hcopies.next_handled ha hqueue
          exact (image_handle_copy hu hn hcopies.greeted hfile).trans himage
      | _ => exact himage
  exact hkept.2

end Others

/-! ### The run -/

/-- The files after a `BYE`. -/
theorem files_bye (libs : Libs) (p : Peer) (devNo : UInt32) :
    (p.handle libs (.bye devNo)).serving.files = p.serving.files := by
  rw [Peer.handle, respond, react]
  rfl

/-- A disk without mounted volumes, and the rest of what its backup meets. -/
structure PlainDisk where
  devNo : UInt32
  layout : DiskLayout
  disk : Image
  meets : DiskEnv Peer

namespace PlainDisk

variable (libs : Libs) (compress : Bytes → Bytes)

/-- The backup when nothing hinders it, on a new connection to a server with these files. -/
def env (d : PlainDisk) (files : Files) : DiskEnv Peer :=
  { d.meets with
    layout := some d.layout
    volumes := []
    connects := true
    greets := true
    opens := fun _ => true
    outside := fun _ => faultless libs d.disk compress
    server := (Peer.accept files).handle libs
      (.hello d.meets.manager.nextVersionId.toUInt32 d.devNo
        (Job.full 0 0 d.layout.size).totalBlocks d.layout.size [70, 85, 76, 76]) }

/-- The file of the device. -/
def file (d : PlainDisk) : Option Nat :=
  (libs.diskMap.get d.devNo).map fun bf => libs.fileOf bf.fd

/-- The disk over what is in a file. -/
def putOn (d : PlainDisk) (file : Nat) (m : Image) : Image :=
  if d.file libs = some file then m.splice d.disk d.layout.size.toNat else m

/-- Nothing hinders the backup of the disk. -/
structure Ready (d : PlainDisk) : Prop where
  unhindered : ∃ bf, Unhindered libs compress d.devNo d.layout.size bf
  snapshots : d.meets.vss.takeSnapshots [] = true

end PlainDisk

/-- The files when the connection of a disk has been closed with a `BYE`. -/
def filesAfter (libs : Libs) (devNo : UInt32) (files : Files) : DiskOutcome Peer → Files
  | .full (.transferred s) => (s.server.handle libs (.bye devNo)).serving.files
  | _ => files

/-- The disks backed up one after the other. -/
inductive BacksUp (libs : Libs) (compress : Bytes → Bytes) (config : BackupConfig) :
    Files → List PlainDisk → List (DiskOutcome Peer) → Files → Prop where
  | nil (files : Files) : BacksUp libs compress config files [] [] files
  | cons {files files' : Files} {d : PlainDisk} {ds : List PlainDisk} {outcome : DiskOutcome Peer}
      {outcomes : List (DiskOutcome Peer)}
      (h : BackupDisk config (d.devNo, d.env libs compress files) outcome)
      (hrest : BacksUp libs compress config (filesAfter libs d.devNo files outcome) ds outcomes
        files') :
      BacksUp libs compress config files (d :: ds) (outcome :: outcomes) files'

/-- The transfer returned with every block acknowledged. -/
def AllAcked : DiskOutcome Peer → Prop
  | .full (.transferred s) => ∀ bs ∈ s.manager.blocks, bs.ack = .acknowledged
  | _ => False

section Run

variable {libs : Libs} {compress : Bytes → Bytes} {config : BackupConfig} {d : PlainDisk}
  {files : Files}

theorem passesChecks_of_ready (hd : d.Ready libs compress) :
    passesChecks (d.env libs compress files) d.layout = true := by
  rw [passesChecks, Bool.and_eq_true, Bool.and_eq_true]
  exact ⟨⟨hd.snapshots, rfl⟩, rfl⟩

/-- **One disk**: it is in its file, and nothing else has changed. -/
theorem backupDisk_copies (hcbt : config.useCbt = false) (hd : d.Ready libs compress)
    {outcome : DiskOutcome Peer}
    (h : BackupDisk config (d.devNo, d.env libs compress files) outcome) :
    outcome.success = true ∧ AllAcked outcome ∧
      ∀ file, (filesAfter libs d.devNo files outcome).image file
        = d.putOn libs file (files.image file) := by
  obtain ⟨bf, hu⟩ := hd.unhindered
  cases h with
  | unparsed hlayout => cases hlayout
  | incremental hlayout hcbt' => exact absurd (hcbt.symm.trans hcbt') Bool.noConfusion
  | full hlayout _ hfull =>
      obtain rfl := Option.some.inj hlayout
      cases hfull with
      | refused hchecks =>
          exact absurd ((passesChecks_of_ready hd).symm.trans hchecks) Bool.noConfusion
      | unopened _ hopen => exact Bool.noConfusion hopen
      | transferred _ _ hs hdone =>
          refine ⟨rfl, all_acknowledged hu hs hdone, fun file => ?_⟩
          rw [filesAfter, files_bye, PlainDisk.putOn, PlainDisk.file, hu.device, Option.map_some]
          by_cases hfile : libs.fileOf bf.fd = file
          · rw [if_pos (congrArg some hfile), ← hfile]
            exact image_copied hu hs hdone
          · rw [if_neg fun heq => hfile (Option.some.inj heq)]
            exact image_kept hu hfile hs

/-- There is such a backup. -/
theorem exists_backupDisk (hcbt : config.useCbt = false) (hwindow : 0 < config.pipelineWindowSize)
    (hd : d.Ready libs compress) (files : Files) :
    ∃ outcome, BackupDisk config (d.devNo, d.env libs compress files) outcome := by
  obtain ⟨bf, hu⟩ := hd.unhindered
  have hstart : Reached ((d.env libs compress files).job d.devNo d.layout)
      (faultless libs d.disk compress) _ ((d.env libs compress files).start config d.layout) :=
    ⟨_, [], rfl, .nil _⟩
  obtain ⟨as, t, hrun, i, awaited, hdone⟩ := exists_run_returned (answersAlong_faultless hu)
    (respondsAlong_faultless hu) (.inl hwindow) hstart
  exact ⟨_, .full rfl hcbt (.transferred (passesChecks_of_ready hd) rfl ⟨_, as, rfl, hrun⟩ hdone)⟩

/-- **A full backup of all disks leaves every disk in its file.**  When nothing hinders it, for any
list of disks, in which a disk may come twice or two share a file: there is a run, and every run
succeeds with every block of every disk acknowledged, and then each file of the server holds what
was in it with the disks of its devices put over it in their order; a file of no device of the list
is as it was. -/
theorem run_copies_all (hcbt : config.useCbt = false) (hwindow : 0 < config.pipelineWindowSize)
    {ds : List PlainDisk} (hds : ∀ d ∈ ds, d.Ready libs compress) (files : Files) :
    (∃ outcomes files', BacksUp libs compress config files ds outcomes files') ∧
    ∀ outcomes files', BacksUp libs compress config files ds outcomes files' →
      allOk outcomes = true ∧ (∀ outcome ∈ outcomes, AllAcked outcome) ∧
        ∀ file, files'.image file
          = ds.foldl (fun m d => d.putOn libs file m) (files.image file) := by
  constructor
  · induction ds generalizing files with
    | nil => exact ⟨[], files, .nil files⟩
    | cons d ds ih =>
        obtain ⟨hd, hrest⟩ := List.forall_mem_cons.mp hds
        obtain ⟨outcome, h⟩ := exists_backupDisk hcbt hwindow hd files
        obtain ⟨outcomes, files', hbacks⟩ := ih hrest (filesAfter libs d.devNo files outcome)
        exact ⟨_, files', .cons h hbacks⟩
  · intro outcomes files' h
    rw [allOk_eq_all]
    induction h with
    | nil files => exact ⟨rfl, fun _ hmem => absurd hmem List.not_mem_nil, fun _ => rfl⟩
    | cons h _ ih =>
        obtain ⟨hd, hrest⟩ := List.forall_mem_cons.mp hds
        obtain ⟨hsuccess, hacked, himage⟩ := backupDisk_copies hcbt hd h
        obtain ⟨hok, hall, himages⟩ := ih hrest
        refine ⟨?_, List.forall_mem_cons.mpr ⟨hacked, hall⟩, fun file => ?_⟩
        · rw [List.all_cons, hsuccess, hok]
          rfl
        · rw [himages, himage, List.foldl_cons]

end Run

/-! ### Two disks -/

/-- The disk of the bytes `1 2`, under a number. -/
def oneTwoOn (devNo : UInt32) : PlainDisk where
  devNo := devNo
  layout := { deviceNumber := devNo, size := 1048578, partitions := [] }
  disk := oneTwoDisk
  meets :=
    { layout := none
      volumes := []
      manager := .new
      vss := (oneByteEnv true).vss
      snapshotTime := 0
      now := 0
      connects := true
      greets := true
      opens := fun _ => true
      outside := fun _ => faultless oneTwoLibs oneTwoDisk deflateOneTwo
      server := .accept blankFiles
      cbtConnects := true
      driver := []
      hash := (oneByteEnv true).hash
      transfer := (oneByteEnv true).transfer }

theorem ready_oneTwoOn {devNo : UInt32} (hdevice : ∃ bf, oneTwoLibs.diskMap.get devNo = some bf ∧
    bf.sizeBytes = 2097152) : (oneTwoOn devNo).Ready oneTwoLibs deflateOneTwo where
  unhindered := by
    obtain ⟨bf, hdevice, hsize⟩ := hdevice
    have hlarge : (1048578 : UInt64) ≤ bf.sizeBytes := by
      rw [hsize]
      decide
    exact ⟨bf, { unhindered_oneTwo with device := hdevice, large := hlarge }⟩
  snapshots := rfl

theorem putOn_oneTwo {devNo : UInt32} {bf : BackingFile}
    (hdevice : oneTwoLibs.diskMap.get devNo = some bf) (file : Nat) (m : Image) :
    (oneTwoOn devNo).putOn oneTwoLibs file m
      = if bf.fd = file then m.splice oneTwoDisk 1048578 else m := by
  have hfile : (oneTwoOn devNo).file oneTwoLibs = some bf.fd := congrArg (Option.map _) hdevice
  rw [PlainDisk.putOn, hfile]
  simp only [Option.some.injEq]
  rfl

theorem run_copies_all_oneTwo :
    ∃ outcomes files', BacksUp oneTwoLibs deflateOneTwo fullConfig blankFiles
        [oneTwoOn 0, oneTwoOn 1] outcomes files' ∧
      files'.image 3 = (blankFiles.image 3).splice oneTwoDisk 1048578 ∧
      files'.image 4 = (blankFiles.image 4).splice oneTwoDisk 1048578 ∧
      files'.image 5 = blankFiles.image 5 := by
  have hdisk0 := unhindered_oneTwo.device
  have hdisk1 : oneTwoLibs.diskMap.get 1
      = some { fd := 4, sizeBytes := 2097152, path := "disk1.img" } := by decide
  have hds : ∀ d ∈ [oneTwoOn 0, oneTwoOn 1], d.Ready oneTwoLibs deflateOneTwo :=
    List.forall_mem_cons.mpr ⟨ready_oneTwoOn ⟨_, hdisk0, rfl⟩,
      List.forall_mem_singleton.mpr (ready_oneTwoOn ⟨_, hdisk1, rfl⟩)⟩
  have hwindow : 0 < fullConfig.pipelineWindowSize := Nat.one_pos
  obtain ⟨⟨outcomes, files', h⟩, hcopied⟩ := run_copies_all rfl hwindow hds blankFiles
  obtain ⟨-, -, himage⟩ := hcopied outcomes files' h
  have hput := fun file => himage file
  simp only [List.foldl_cons, List.foldl_nil, putOn_oneTwo hdisk0, putOn_oneTwo hdisk1] at hput
  exact ⟨outcomes, files', h, hput 3, hput 4, hput 5⟩

end Go2Cbt.Link
