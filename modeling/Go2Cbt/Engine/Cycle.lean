import Go2Cbt.Basic
import Go2Cbt.Client.CbtClient
import Go2Cbt.Driver.Write
import Go2Cbt.Lib.Image
import Go2Cbt.Lib.Transition

/-!
# Engine — incremental cycles against concurrent writes

Write requests and `IncrementalBackup` share one disk and one bitmap.  A write marks its blocks
when it enters `HwReadWrite` and reaches the media later; the backup asks for the marked
blocks, reads and sends each, and clears the whole bitmap.

Every flagged block is read, sent and acknowledged here, and the query reports the marked
blocks; the module is about the order of the steps only.  What the run reads is the disk itself
or, after a snapshot, the disk as the snapshot froze it.

`Covered` is what an idle state must satisfy for no change to be lost: every block that differs
from the server's image is marked.  The reset step breaks it for a block that was written after
it was read (`reset_loses_write`); `covered_of_run` gives the runs that keep it.
-/

namespace Go2Cbt.Engine

open Go2Cbt.Driver Go2Cbt.Client Transition

/-- A write request for the disk: its offset in the device, and the bytes. -/
structure WriteIrp where
  byteOffset : UInt64
  data : Bytes
  deriving DecidableEq, Repr

/-- Where an `IncrementalBackup` stands: not running; running, with the flagged blocks still to
be read and the snapshot if one was taken; or with a block read and not yet sent. -/
inductive Backup where
  | idle
  | transferring (left : List Nat) (snapshot : Option Image)
  | holding (block : Nat) (content : Bytes) (left : List Nat) (snapshot : Option Image)

/-- The disk and its driver, the server's image, the writes between mark and media, and the
backup. -/
structure CycleState where
  diskMap : DiskMap
  disk : Image
  image : Image
  inFlight : List WriteIrp
  backup : Backup

/-- A step of the driver, of the disk or of the backup. -/
inductive CycleAction where
  | mark (irp : WriteIrp)
  | otherIo (device : DeviceObject) (irpSp : IoStackLocation)
  | media (irp : WriteIrp)
  | query
  | snapshot
  | read
  | send
  | reset

variable (hookList : List HookEntry) (majorFunction : Nat → UInt8 → Nat) (site : DiskSite)

/-- The request as the hook sees it. -/
def WriteIrp.stackLocation (irp : WriteIrp) : IoStackLocation :=
  { majorFunction := irpMjWrite
    byteOffset := irp.byteOffset
    length := UInt32.ofNat irp.data.length }

/-- The disk-absolute offset of a write. -/
def WriteIrp.start (irp : WriteIrp) (site : DiskSite) : Nat :=
  irp.byteOffset.toNat + site.partitionStartingOffset.toNat

/-- A write request the disk accepts: not empty, its length a 32-bit number, and inside the
`total` blocks of the disk. -/
structure WriteIrp.Valid (irp : WriteIrp) (site : DiskSite) (total : Nat) : Prop where
  pos : 0 < irp.data.length
  len : irp.data.length < 2 ^ 32
  inside : irp.start site + irp.data.length ≤ total * blockSize

/-- The steps. -/
inductive CycleStep : CycleState → CycleAction → CycleState → Prop where
  | mark {s : CycleState} {irp : WriteIrp} {d : TrackedDisk} (driverObject : Nat)
      (hd : Serves s.diskMap site d) (hirp : irp.Valid site d.totalBlocks) :
      CycleStep s (.mark irp)
        { s with
          diskMap := (hwReadWrite hookList majorFunction s.diskMap
            ⟨site.deviceObject, driverObject⟩ irp.stackLocation).2
          inFlight := s.inFlight ++ [irp] }
  | otherIo {s : CycleState} {device : DeviceObject} {irpSp : IoStackLocation}
      (hother : irpSp.majorFunction ≠ irpMjWrite ∨ device.address ≠ site.deviceObject) :
      CycleStep s (.otherIo device irpSp)
        { s with diskMap := (hwReadWrite hookList majorFunction s.diskMap device irpSp).2 }
  | media {s : CycleState} {irp : WriteIrp} (hirp : irp ∈ s.inFlight) :
      CycleStep s (.media irp)
        { s with
          disk := s.disk.write (irp.start site) irp.data
          inFlight := s.inFlight.erase irp }
  | query {s : CycleState} {d : TrackedDisk} (hidle : s.backup = .idle)
      (hd : Serves s.diskMap site d) :
      CycleStep s .query
        { s with
          backup := if markedBlocks d = [] then .idle else .transferring (markedBlocks d) none }
  | snapshot {s : CycleState} {left : List Nat} (h : s.backup = .transferring left none) :
      CycleStep s .snapshot { s with backup := .transferring left (some s.disk) }
  | read {s : CycleState} {b : Nat} {left : List Nat} {snapshot : Option Image}
      (h : s.backup = .transferring (b :: left) snapshot) :
      CycleStep s .read
        { s with
          backup := .holding b
            (Image.slice (snapshot.getD s.disk) (b * blockSize) blockSize) left snapshot }
  | send {s : CycleState} {b : Nat} {content : Bytes} {left : List Nat}
      {snapshot : Option Image} (h : s.backup = .holding b content left snapshot) :
      CycleStep s .send
        { s with
          image := s.image.write (b * blockSize) content
          backup := .transferring left snapshot }
  | reset {s : CycleState} {snapshot : Option Image}
      (h : s.backup = .transferring [] snapshot) :
      CycleStep s .reset
        { s with
          diskMap := (CbtClient.reset true s.diskMap site.diskNumber).2
          backup := .idle }

/-- Block `b` of the disk differs from block `b` of the server's image. -/
def CycleState.Stale (s : CycleState) (b : Nat) : Prop :=
  ¬ Image.Agree s.disk s.image (b * blockSize) blockSize

/-- A write has bytes in block `b`. -/
def WriteIrp.Touches (irp : WriteIrp) (site : DiskSite) (b : Nat) : Prop :=
  ∃ k < irp.data.length, (irp.start site + k) / blockSize = b

/-- No change is lost: every block that differs from the server's image is marked. -/
def CycleState.Covered (s : CycleState) : Prop :=
  ∀ d, Serves s.diskMap site d → ∀ b < d.totalBlocks, s.Stale b → d.marked b = true

/-- A state from which a cycle starts: the driver has the disk, no backup is running, every
block that differs is marked, and so is every block that a write under way will reach. -/
structure CycleState.Start (s : CycleState) : Prop where
  serves : ∃ d, Serves s.diskMap site d
  idle : s.backup = .idle
  covered : s.Covered site
  inFlight : ∀ irp ∈ s.inFlight, ∀ d, Serves s.diskMap site d →
    irp.Valid site d.totalBlocks ∧ ∀ b, irp.Touches site b → d.marked b = true

/-- The blocks a running backup will still read from the disk as it then is. -/
def Backup.toRead : Backup → List Nat
  | .transferring left none => left
  | .holding _ _ left none => left
  | _ => []

/-- The order a cycle needs.  While a backup runs, a write that reaches the media changes only
blocks that are flagged and still to be read; and no write is between its mark and the media
when the bitmap is cleared. -/
def InOrder (s : CycleState) : CycleAction → Prop
  | .media irp => s.backup = .idle ∨
      ∀ b, ¬ Image.Agree (s.disk.write (irp.start site) irp.data) s.disk (b * blockSize) blockSize →
        b ∈ s.backup.toRead
  | .reset => s.inFlight = []
  | _ => True

/-! ### Blocks of images -/

theorem not_agree_trans {a b c : Image} {off len : Nat} (h : ¬ Image.Agree a c off len) :
    ¬ Image.Agree a b off len ∨ ¬ Image.Agree b c off len := by
  by_contra hcon
  rw [not_or, not_not, not_not] at hcon
  exact h (hcon.1.trans hcon.2)

/-- Writing one block leaves another alone. -/
theorem agree_write_block (m : Image) {b b' : Nat} {content : Bytes} (hne : b' ≠ b)
    (hlen : content.length = blockSize) :
    Image.Agree m (m.write (b * blockSize) content) (b' * blockSize) blockSize := by
  intro k hk
  refine (Image.write_of_outside ?_).symm
  rw [hlen]
  rcases Nat.lt_or_gt_of_ne hne with h | h
  · have := Nat.mul_le_mul_right blockSize (Nat.succ_le_of_lt h)
    rw [Nat.succ_mul] at this
    exact .inl (by omega)
  · have := Nat.mul_le_mul_right blockSize (Nat.succ_le_of_lt h)
    rw [Nat.succ_mul] at this
    exact .inr (by omega)

/-- A write changes only the blocks it touches. -/
theorem WriteIrp.touches_of_changed {irp : WriteIrp} {site : DiskSite} {m : Image} {b : Nat}
    (h : ¬ Image.Agree (m.write (irp.start site) irp.data) m (b * blockSize) blockSize) :
    irp.Touches site b := by
  rw [Image.Agree] at h
  push Not at h
  obtain ⟨k, hk, hne⟩ := h
  have hin : irp.start site ≤ b * blockSize + k ∧
      b * blockSize + k < irp.start site + irp.data.length := by
    by_contra hout
    exact hne (Image.write_of_outside (by omega))
  refine ⟨b * blockSize + k - irp.start site, by omega, ?_⟩
  rw [Nat.add_sub_cancel' hin.1, Nat.add_comm, Nat.add_mul_div_right _ _ (by decide),
    Nat.div_eq_of_lt hk, Nat.zero_add]

/-- The mark step reaches the blocks the write touches, and no other. -/
theorem WriteIrp.reaches_iff_touches {irp : WriteIrp} {site : DiskSite} {total : Nat}
    (hirp : irp.Valid site total) (hsmall : total < 2 ^ 32) (b : Nat) :
    Reaches (irp.byteOffset + site.partitionStartingOffset) irp.stackLocation.length total b ↔
      irp.Touches site b := by
  have hpos := hirp.pos
  have hinside := hirp.inside
  rw [blockSize_eq] at hinside
  have hlen : irp.stackLocation.length.toNat = irp.data.length := by
    rw [WriteIrp.stackLocation, UInt32.toNat_ofNat', Nat.mod_eq_of_lt hirp.len]
  have hstart : (irp.byteOffset + site.partitionStartingOffset).toNat = irp.start site := by
    rw [UInt64.toNat_add, WriteIrp.start] at *
    omega
  rw [Reaches, lastByte, hlen, hstart, WriteIrp.Touches, blockSize_eq]
  generalize irp.start site = start at hinside
  constructor
  · rintro ⟨hlo, hhi, hb⟩
    exact ⟨max start (b * 2 ^ 20) - start, by omega, by omega⟩
  · rintro ⟨k, hk, rfl⟩
    refine ⟨by omega, by omega, ?_⟩
    rw [Nat.div_lt_iff_lt_mul (by decide)]
    omega

/-- **The mark step marks every block the write touches.** -/
theorem WriteIrp.marked_of_touches {irp : WriteIrp} {site : DiskSite} {d : TrackedDisk}
    (hirp : irp.Valid site d.totalBlocks) {b : Nat} (hb : irp.Touches site b) :
    (d.mark (irp.byteOffset + site.partitionStartingOffset)
      irp.stackLocation.length).marked b = true := by
  rw [TrackedDisk.marked_mark,
    decide_eq_true ((WriteIrp.reaches_iff_touches hirp d.totalBlocks_lt b).mpr hb), Bool.or_true]

/-! ### The invariant of a cycle in order -/

/-- What the backup still owes: a block that differs is marked, or it is still to be sent. -/
def Backup.Owes (s : CycleState) (d : TrackedDisk) : Backup → Prop
  | .idle => ∀ b < d.totalBlocks, s.Stale b → d.marked b = true
  | .transferring left snapshot =>
      left.Nodup ∧ (∀ b < d.totalBlocks, s.Stale b → b ∈ left) ∧
        ∀ frozen ∈ snapshot, ∀ b, Image.Agree frozen s.disk (b * blockSize) blockSize
  | .holding b content left snapshot =>
      (b :: left).Nodup ∧ (∀ b' < d.totalBlocks, s.Stale b' → b' ∈ b :: left) ∧
        (∀ frozen ∈ snapshot, ∀ b, Image.Agree frozen s.disk (b * blockSize) blockSize) ∧
        content = Image.slice s.disk (b * blockSize) blockSize

/-- The writes under way fit the disk, and their blocks are marked. -/
def InFlightMarked (inFlight : List WriteIrp) (d : TrackedDisk) : Prop :=
  ∀ irp ∈ inFlight, irp.Valid site d.totalBlocks ∧ ∀ b, irp.Touches site b → d.marked b = true

/-- The invariant. -/
def InCycle (s : CycleState) : Prop :=
  ∃ d, Serves s.diskMap site d ∧ InFlightMarked site s.inFlight d ∧ s.backup.Owes s d

variable {hookList majorFunction site}

/-- More marks and the same bytes owe no more. -/
theorem Backup.Owes.mono {s t : CycleState} {d e : TrackedDisk} {backup : Backup}
    (h : backup.Owes s d) (hdisk : t.disk = s.disk) (himage : t.image = s.image)
    (htotal : e.totalBlocks = d.totalBlocks)
    (hmarked : ∀ b, d.marked b = true → e.marked b = true) : backup.Owes t e := by
  have hstale : ∀ b, t.Stale b → s.Stale b := fun b hb => by
    rwa [CycleState.Stale, hdisk, himage] at hb
  cases backup with
  | idle => exact fun b hb hst => hmarked b (h b (htotal ▸ hb) (hstale b hst))
  | transferring left snapshot =>
      obtain ⟨hnodup, hleft, hfrozen⟩ := h
      exact ⟨hnodup, fun b hb hst => hleft b (htotal ▸ hb) (hstale b hst), hdisk ▸ hfrozen⟩
  | holding b content left snapshot =>
      obtain ⟨hnodup, hleft, hfrozen, hcontent⟩ := h
      exact ⟨hnodup, fun b hb hst => hleft b (htotal ▸ hb) (hstale b hst), hdisk ▸ hfrozen,
        hdisk ▸ hcontent⟩

/-- A write that reaches the media in order leaves the backup owing what it will still send. -/
theorem Backup.Owes.media {s : CycleState} {d : TrackedDisk} {irp : WriteIrp}
    (howes : s.backup.Owes s d) (hmarked : ∀ b, irp.Touches site b → d.marked b = true)
    (hok : InOrder site s (.media irp)) (inFlight : List WriteIrp) :
    s.backup.Owes { s with disk := s.disk.write (irp.start site) irp.data, inFlight := inFlight }
      d := by
  -- a block that differs afterwards differed before, or the write changed it
  have hstale : ∀ b, CycleState.Stale
      { s with disk := s.disk.write (irp.start site) irp.data, inFlight := inFlight } b →
        ¬ Image.Agree (s.disk.write (irp.start site) irp.data) s.disk (b * blockSize) blockSize
          ∨ s.Stale b := fun b hb => not_agree_trans hb
  rcases hback : s.backup with _ | ⟨left, snapshot⟩ | ⟨b, content, left, snapshot⟩
  · rw [hback] at howes
    intro b hb hst
    rcases hstale b hst with h | h
    · exact hmarked b (WriteIrp.touches_of_changed h)
    · exact howes b hb h
  · rw [hback] at howes
    obtain ⟨hnodup, hleft, hfrozen⟩ := howes
    have hchanged := hok.resolve_left (by rw [hback]; exact Backup.noConfusion)
    rw [hback] at hchanged
    cases snapshot with
    | none =>
        refine ⟨hnodup, fun b hb hst => ?_, fun f hf => absurd hf (Option.not_mem_none f)⟩
        rcases hstale b hst with h | h
        · exact hchanged b h
        · exact hleft b hb h
    | some frozen =>
        have hsame : ∀ b, Image.Agree (s.disk.write (irp.start site) irp.data) s.disk
            (b * blockSize) blockSize := fun b => by
          by_contra h
          exact absurd (hchanged b h) List.not_mem_nil
        refine ⟨hnodup, fun b hb hst => ?_, fun f hf b => (hfrozen f hf b).trans (hsame b).symm⟩
        exact hleft b hb ((hstale b hst).resolve_left (not_not.mpr (hsame b)))
  · rw [hback] at howes
    obtain ⟨hnodup, hleft, hfrozen, hcontent⟩ := howes
    have hchanged := hok.resolve_left (by rw [hback]; exact Backup.noConfusion)
    rw [hback] at hchanged
    cases snapshot with
    | none =>
        have hheld : Image.Agree (s.disk.write (irp.start site) irp.data) s.disk
            (b * blockSize) blockSize := by
          by_contra h
          exact (List.nodup_cons.mp hnodup).1 (hchanged b h)
        refine ⟨hnodup, fun b' hb hst => ?_, fun f hf => absurd hf (Option.not_mem_none f),
          hcontent.trans (Image.slice_eq_iff_agree.mpr hheld.symm)⟩
        rcases hstale b' hst with h | h
        · exact List.mem_cons_of_mem _ (hchanged b' h)
        · exact hleft b' hb h
    | some frozen =>
        have hsame : ∀ b, Image.Agree (s.disk.write (irp.start site) irp.data) s.disk
            (b * blockSize) blockSize := fun b => by
          by_contra h
          exact absurd (hchanged b h) List.not_mem_nil
        refine ⟨hnodup, fun b' hb hst => ?_, fun f hf b => (hfrozen f hf b).trans (hsame b).symm,
          hcontent.trans (Image.slice_eq_iff_agree.mpr (hsame b).symm)⟩
        exact hleft b' hb ((hstale b' hst).resolve_left (not_not.mpr (hsame b')))

/-- A block sent as the disk has it is owed no more. -/
theorem Backup.Owes.send {s : CycleState} {d : TrackedDisk} {b : Nat} {content : Bytes}
    {left : List Nat} {snapshot : Option Image}
    (howes : (Backup.holding b content left snapshot).Owes s d) (backup : Backup) :
    (Backup.transferring left snapshot).Owes
      { s with image := s.image.write (b * blockSize) content, backup := backup } d := by
  obtain ⟨hnodup, hleft, hfrozen, hcontent⟩ := howes
  have hlen : content.length = blockSize := by rw [hcontent, Image.length_slice]
  refine ⟨(List.nodup_cons.mp hnodup).2, fun b' hb hst => ?_, hfrozen⟩
  have hdiff : ¬ Image.Agree s.disk (s.image.write (b * blockSize) content) (b' * blockSize)
      blockSize := hst
  have hne : b' ≠ b := by
    rintro rfl
    rw [hcontent] at hdiff
    exact hdiff (Image.agree_write_slice s.image s.disk (b' * blockSize) blockSize)
  have hold : s.Stale b' := fun h => hdiff (h.trans (agree_write_block s.image hne hlen))
  exact List.mem_of_ne_of_mem hne (hleft b' hb hold)

/-- Every step in order keeps the invariant. -/
theorem InCycle.step {s t : CycleState} {a : CycleAction} (hs : InCycle site s)
    (hstep : Guarded (CycleStep hookList majorFunction site) (InOrder site) s a t) :
    InCycle site t := by
  obtain ⟨hstep, hok⟩ := hstep
  obtain ⟨d, hd, hflight, howes⟩ := hs
  cases hstep with
  | @mark irp d' _ hd' hirp =>
      -- the routine finds the disk of the state, so that marking adds to its marks
      have htotal : d'.totalBlocks = d.totalBlocks := by
        rw [TrackedDisk.totalBlocks, hd.state_eq hd', TrackedDisk.totalBlocks]
      have hgrow : ∀ b, d.marked b = true →
          (d.mark (irp.byteOffset + site.partitionStartingOffset)
            irp.stackLocation.length).marked b = true := fun b hb => by
        rw [TrackedDisk.marked_mark, hb, Bool.true_or]
      refine ⟨_, hd.write rfl rfl, ?_, howes.mono rfl rfl (d.totalBlocks_mark _ _) hgrow⟩
      intro w hw
      rcases List.mem_append.mp hw with hw | hw
      · obtain ⟨hvalid, hmarked⟩ := hflight w hw
        exact ⟨by rwa [TrackedDisk.totalBlocks_mark], fun b hb => hgrow b (hmarked b hb)⟩
      · rw [List.mem_singleton.mp hw]
        rw [htotal] at hirp
        exact ⟨by rwa [TrackedDisk.totalBlocks_mark],
          fun b hb => WriteIrp.marked_of_touches hirp hb⟩
  | otherIo hother =>
      exact ⟨d, hd.write_of_ne hother, hflight, howes.mono rfl rfl rfl fun _ h => h⟩
  | @media irp hirp =>
      refine ⟨d, hd, fun w hw => hflight w (List.mem_of_mem_erase hw), ?_⟩
      -- the write was marked when it went down
      exact howes.media (hflight irp hirp).2 hok _
  | @query d' hidle hd' =>
      refine ⟨d, hd, hflight, ?_⟩
      rw [hidle] at howes
      have hmarked : ∀ b, d'.marked b = d.marked b := fun b => by
        rw [TrackedDisk.marked, hd.state_eq hd', TrackedDisk.marked]
      have htotal : d'.totalBlocks = d.totalBlocks := by
        rw [TrackedDisk.totalBlocks, hd.state_eq hd', TrackedDisk.totalBlocks]
      have hlist : ∀ b < d.totalBlocks, s.Stale b → b ∈ markedBlocks d' := fun b hb hst => by
        rw [markedBlocks, List.mem_filter, List.mem_range, htotal, hmarked]
        exact ⟨hb, howes b hb hst⟩
      -- with nothing marked no backup starts
      by_cases hnil : markedBlocks d' = []
      · simp only [hnil, if_true]
        exact howes
      · simp only [hnil, if_false]
        exact ⟨List.nodup_range.filter _, hlist, fun f hf => absurd hf (Option.not_mem_none f)⟩
  | @snapshot left hback =>
      rw [hback] at howes
      obtain ⟨hnodup, hleft, -⟩ := howes
      refine ⟨d, hd, hflight, hnodup, hleft, fun frozen hf b => ?_⟩
      cases hf
      exact Image.Agree.refl _ _ _
  | @read b left snapshot hback =>
      rw [hback] at howes
      obtain ⟨hnodup, hleft, hfrozen⟩ := howes
      refine ⟨d, hd, hflight, hnodup, hleft, hfrozen, ?_⟩
      cases snapshot with
      | none => rfl
      | some frozen => exact Image.slice_eq_iff_agree.mpr (hfrozen frozen rfl b)
  | @send b content left snapshot hback =>
      rw [hback] at howes
      exact ⟨d, hd, hflight, howes.send _⟩
  | @reset snapshot hback =>
      rw [hback] at howes
      obtain ⟨-, hleft, -⟩ := howes
      -- every block is sent, so that clearing the marks forgets none
      have hreset : Serves (CbtClient.reset true s.diskMap site.diskNumber).2 site d.reset := by
        rw [CbtClient.reset_snd]
        exact hd.reset
      refine ⟨d.reset, hreset, ?_, fun b hb hst => absurd (hleft b hb hst) List.not_mem_nil⟩
      intro w hw
      rw [show s.inFlight = [] from hok] at hw
      exact absurd hw List.not_mem_nil

/-- **Cycles in order lose no change.**  From a state where every block that differs is marked,
along every run whose media steps and resets come in order, whenever no backup is running every
block that differs is marked. -/
theorem covered_of_run {s t : CycleState} {as : List CycleAction} (hs : s.Start site)
    (hrun : Run (Guarded (CycleStep hookList majorFunction site) (InOrder site)) s as t)
    (hidle : t.backup = .idle) : t.Covered site := by
  obtain ⟨d, hd⟩ := hs.serves
  have hinit : InCycle site s := by
    refine ⟨d, hd, fun irp hirp => hs.inFlight irp hirp d hd, ?_⟩
    rw [hs.idle]
    exact hs.covered d hd
  obtain ⟨e, he, -, howes⟩ := hrun.preserves (fun _ _ _ hs h => hs.step h) hinit
  rw [hidle] at howes
  intro e' he' b hb hst
  have hstate := he.state_eq he'
  rw [TrackedDisk.marked, hstate]
  rw [TrackedDisk.totalBlocks, hstate] at hb
  exact howes b hb hst

/-! ### One cycle of a one-block disk -/

/-- Disk 0, under device object 1, from offset 0 on. -/
def soleSite : DiskSite := { diskNumber := 0, deviceObject := 1, partitionStartingOffset := 0 }

theorem serves_soleDisk (d : TrackedDisk) : Serves (soleDisk d.state) soleSite d :=
  ⟨List.pairwise_singleton .., List.pairwise_singleton .., _, List.mem_singleton_self _, rfl, rfl,
    rfl, rfl⟩

/-- A disk and an image of zeros, and no mark. -/
def blankCycle : CycleState :=
  { diskMap := soleDisk oneBlockDisk.state
    disk := fun _ => 0
    image := fun _ => 0
    inFlight := []
    backup := .idle }

theorem start_blankCycle : blankCycle.Start soleSite where
  serves := ⟨_, serves_soleDisk oneBlockDisk⟩
  idle := rfl
  covered := fun _ _ _ _ hst => absurd (fun _ _ => rfl) hst
  inFlight := fun _ h => absurd h List.not_mem_nil

/-- The one byte `v` at offset 0. -/
def firstByte (v : UInt8) : WriteIrp := { byteOffset := 0, data := [v] }

theorem valid_firstByte (v : UInt8) {total : Nat} (h : 0 < total) :
    (firstByte v).Valid soleSite total where
  pos := Nat.one_pos
  len := by rw [firstByte, List.length_singleton]; norm_num
  inside := by
    have := Nat.mul_le_mul_right blockSize h
    rw [blockSize_eq] at *
    simp only [firstByte, WriteIrp.start, soleSite, List.length_singleton, UInt64.toNat_zero]
    omega

/-- The disk once the first byte is 1. -/
def firstDisk : Image := Image.write (fun _ => 0) ((firstByte 1).start soleSite) [1]

/-- Block 0 of that disk. -/
def firstContent : Bytes := Image.slice firstDisk (0 * blockSize) blockSize

/-- The cycle with the write of a 1 done and block 0 read. -/
def readCycle : CycleState :=
  { diskMap := (hwReadWrite [] (fun _ _ => 0) blankCycle.diskMap ⟨1, 0⟩
      (firstByte 1).stackLocation).2
    disk := firstDisk
    image := fun _ => 0
    inFlight := []
    backup := .holding 0 firstContent [] none }

theorem markedBlocks_firstByte :
    markedBlocks (oneBlockDisk.mark (0 + 0) (firstByte 1).stackLocation.length) = [0] := by
  decide +kernel

theorem serves_readCycle : Serves readCycle.diskMap soleSite
    (oneBlockDisk.mark (0 + 0) (firstByte 1).stackLocation.length) :=
  (serves_soleDisk oneBlockDisk).write rfl rfl

/-- A write, and a backup up to the first read. -/
theorem run_readCycle :
    Run (Guarded (CycleStep [] (fun _ _ => 0) soleSite) (InOrder soleSite)) blankCycle
      [.mark (firstByte 1), .media (firstByte 1), .query, .read] readCycle := by
  have hpos : 0 < oneBlockDisk.totalBlocks := by decide
  have hquery : CycleStep [] (fun _ _ => 0) soleSite { readCycle with backup := .idle } .query
      { readCycle with backup := .transferring [0] none } := by
    have h : CycleStep [] (fun _ _ => 0) soleSite { readCycle with backup := .idle } .query _ :=
      .query rfl serves_readCycle
    rwa [markedBlocks_firstByte, if_neg (List.cons_ne_nil _ _)] at h
  refine .cons ⟨.mark 0 (serves_soleDisk oneBlockDisk) (valid_firstByte 1 hpos), trivial⟩ ?_
  refine .cons ⟨.media List.mem_cons_self, .inl rfl⟩ ?_
  exact .cons ⟨hquery, trivial⟩ (.cons ⟨.read rfl, trivial⟩ (.nil _))

theorem covered_of_run_blankCycle :
    ∃ t, Run (Guarded (CycleStep [] (fun _ _ => 0) soleSite) (InOrder soleSite)) blankCycle
        [.mark (firstByte 1), .media (firstByte 1), .query, .read, .send, .reset] t ∧
      t.Covered soleSite := by
  have hrun : ∃ t, Run (Guarded (CycleStep [] (fun _ _ => 0) soleSite) (InOrder soleSite))
      blankCycle [.mark (firstByte 1), .media (firstByte 1), .query, .read, .send, .reset] t ∧
        t.backup = .idle :=
    ⟨_, run_readCycle.append
      (.cons ⟨.send rfl, trivial⟩ (.cons ⟨.reset rfl, rfl⟩ (.nil _))), rfl⟩
  obtain ⟨t, hrun, hidle⟩ := hrun
  exact ⟨t, hrun, covered_of_run start_blankCycle hrun hidle⟩

/-- **A reset loses a write.**  A block is written again after the backup has read it; the reset
clears the mark of that write too, and when all is done the image keeps the old byte and the
bitmap is empty. -/
theorem reset_loses_write :
    ∃ t, Run (CycleStep [] (fun _ _ => 0) soleSite) blankCycle
        [.mark (firstByte 1), .media (firstByte 1), .query, .read, .mark (firstByte 2),
          .media (firstByte 2), .send, .reset] t ∧
      t.backup = .idle ∧ t.inFlight = [] ∧ ¬ t.Covered soleSite := by
  have hpos : 0 < (oneBlockDisk.mark (0 + 0) (firstByte 1).stackLocation.length).totalBlocks := by
    rw [TrackedDisk.totalBlocks_mark]; decide
  have hread : Run (CycleStep [] (fun _ _ => 0) soleSite) blankCycle _ readCycle :=
    run_readCycle.mono fun _ _ _ h => h.1
  have hmark : Serves (hwReadWrite [] (fun _ _ => 0) readCycle.diskMap ⟨1, 0⟩
      (firstByte 2).stackLocation).2 soleSite _ := serves_readCycle.write rfl rfl
  refine ⟨_, hread.append (.cons (.mark 0 serves_readCycle (valid_firstByte 2 hpos))
    (.cons (.media List.mem_cons_self) (.cons (.send rfl) (.cons (.reset rfl) (.nil _))))),
    rfl, rfl, fun hcov => ?_⟩
  have hbit := hcov _ (by rw [CbtClient.reset_snd]; exact hmark.reset) 0
    (by rw [TrackedDisk.totalBlocks_reset, TrackedDisk.totalBlocks_mark]; exact hpos) ?_
  · rw [TrackedDisk.marked_reset] at hbit
    cases hbit
  · intro hagree
    dsimp only at hagree
    have hsent : Image.Agree firstDisk (Image.write readCycle.image (0 * blockSize) firstContent)
        (0 * blockSize) blockSize := Image.agree_write_slice _ _ _ _
    have hsame : Image.Agree (Image.write firstDisk ((firstByte 2).start soleSite) [2])
        firstDisk (0 * blockSize) blockSize := Image.Agree.trans hagree hsent.symm
    exact absurd (hsame 0 (by decide)) (by decide +kernel)

end Go2Cbt.Engine
