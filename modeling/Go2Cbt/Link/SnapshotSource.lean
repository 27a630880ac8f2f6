import Go2Cbt.Client.VolumeMapper
import Go2Cbt.Link.FullBackup

/-!
# Link — a full backup from a snapshot

`FullBackup` takes the number of the blocks from the disk, and their bytes from the snapshot of one
volume.  The offset of a block on the disk is used as an offset in the volume, so what goes to the
server's image is what lies one partition offset further on.

`putsInPlace_iff` says for which disks this makes no difference.
-/

namespace Go2Cbt.Link

open Go2Cbt.Protocol Go2Cbt.Client Go2Cbt.Engine Go2Cbt.Server

/-! ### The snapshots of a backup -/

/-- A device that blocks are read from. -/
structure SourceDevice where
  length : Nat
  bytes : Image

/-- What a read may give: nothing, or all of it if the device has it. -/
def SourceDevice.Reads (d : SourceDevice) (offset : UInt64) (size : UInt32)
    (r : Option Bytes) : Prop :=
  r = none ∨ (offset.toNat + size.toNat ≤ d.length ∧
    r = some (d.bytes.slice offset.toNat size.toNat))

/-- The path of the snapshot of a mapped partition, if it has one. -/
def snapshotPath (vss : Vss) (mp : MappedPartition) : Option String :=
  (vss.getSnapshotDevicePath mp.volumeGuid).filter (· ≠ "")

/-- A disk, frozen, with snapshots of some of its volumes.  A snapshot holds what the disk held
from the offset of the volume's partition on.  The length of a disk is a signed word. -/
structure SnapshotSet where
  layout : DiskLayout
  volumes : List VolumeInfo
  vss : Vss
  devices : String → SourceDevice
  frozen : Image
  size_lt : layout.size.toNat < 2 ^ 63
  inside : ∀ p ∈ layout.partitions, p.offset.toNat + p.size.toNat ≤ layout.size.toNat
  apart : layout.partitions.Pairwise fun p q =>
    p.offset.toNat + p.size.toNat ≤ q.offset.toNat ∨ q.offset.toNat + q.size.toNat ≤ p.offset.toNat
  taken : vss.takeSnapshots (mapVolumes volumes layout) = true
  nonempty : ∃ mp ∈ mapVolumes volumes layout,
    mp.partition.content.isFilesystem = true ∧ (snapshotPath vss mp).isSome
  holds : ∀ mp ∈ mapVolumes volumes layout, ∀ path, snapshotPath vss mp = some path →
    ∀ x < (devices path).length, (devices path).bytes x = frozen (mp.partition.offset.toNat + x)

namespace SnapshotSet

variable (d : SnapshotSet)

/-- `GetMappedPartitions`. -/
def mapped : List MappedPartition := mapVolumes d.volumes d.layout

/-- The device that the backup opens. -/
def opened : DataSource → SourceDevice
  | .snapshot path => d.devices path
  | .physicalDrive _ => { length := d.layout.size.toNat, bytes := d.frozen }

/-- Where the backup reads its blocks. -/
def source : SourceDevice := d.opened (dataSource d.vss d.mapped d.layout.deviceNumber)

/-- The transfer of the disk. -/
def job (versionId : UInt32) : Job := .full d.layout.deviceNumber versionId d.layout.size

/-- Anything may fail, and the server takes the messages in order. -/
def outside (libs : Libs) (compress : Bytes → Bytes) : Outside Peer where
  readFile := d.source.Reads
  computeBlockHash data r := r = none ∨ r = some (libs.sha256 data)
  compress data r := r = none ∨ r = some (compress data)
  sendBlockNoWait _ _ := True
  timesOut := True
  receiveFails := True
  serve := serves libs

end SnapshotSet

/-- What was compressed inflates to what it was, and fits a message. -/
structure Inflates (libs : Libs) (compress : Bytes → Bytes) : Prop where
  shrinks : ∀ data : Bytes, data.length ≤ blockSize → (compress data).length ≤ 2 * blockSize
  inflates : ∀ data : Bytes, data.length ≤ blockSize →
    libs.uncompress2 rawBufSize (compress data) = some data

/-- The server is about to handle a block, and will acknowledge it as written. -/
structure Acknowledges (libs : Libs) (s : Pipeline Peer) (i : UInt64) (size : UInt32)
    (file : Nat) (after : Peer) : Prop where
  live : s.server.live = true
  handled : ∃ devNo compressed hash versionId rest bf,
    s.outgoing = .block devNo i size compressed hash versionId :: rest ∧
      libs.diskMap.get devNo = some bf ∧ libs.fileOf bf.fd = file ∧
      after = s.server.handle libs (.block devNo i size compressed hash versionId) ∧
      ∃ ack, s.server.answer libs (.block devNo i size compressed hash versionId)
          = ackMessage ack ∧ ack.status = 0

/-- **What is acknowledged is in its place**, in every run of the backup: whatever fails, whatever
the libraries of the server do, and whatever it held before. -/
def PutsInPlace (d : SnapshotSet) : Prop :=
  ∀ (libs : Libs) (compress : Bytes → Bytes), Inflates libs compress →
    ∀ (versionId : UInt32) (windowSize : Nat) (m : BlockStateManager) (snapshotTime now : UInt64)
      (p : Peer), p.Greeted →
    ∀ s, Reached (d.job versionId) (d.outside libs compress)
        (.start windowSize
          (prepare m snapshotTime now (d.job versionId).totalBlocks d.layout.size).2 p) s →
    ∀ i size file after, Acknowledges libs s i size file after →
      ∀ k < size.toNat, after.serving.files.image file (i.toNat * blockSize + k)
        = d.frozen (i.toNat * blockSize + k)

/-- The first mapped partition with a snapshot. -/
def SnapshotSet.first (d : SnapshotSet) : Option MappedPartition :=
  d.mapped.find? fun mp => (snapshotPath d.vss mp).isSome

/-- The disk repeats itself at the offset of the partition, over every block that its volume has. -/
def Repeats (d : SnapshotSet) : Prop :=
  ∀ mp, d.first = some mp → ∀ i < (d.job 0).totalBlocks.toNat,
    i * blockSize + ((d.job 0).blockSize i).toNat ≤ d.source.length →
      ∀ k < ((d.job 0).blockSize i).toNat,
        d.frozen (mp.partition.offset.toNat + (i * blockSize + k)) = d.frozen (i * blockSize + k)

variable {d : SnapshotSet} {libs : Libs} {compress : Bytes → Bytes} {versionId : UInt32}

/-- The first value is the value of the first element that has one. -/
theorem findSome?_eq_bind_find? {α β : Type} (f : α → Option β) (l : List α) :
    l.findSome? f = (l.find? fun a => (f a).isSome).bind f := by
  induction l with
  | nil => rfl
  | cons a l ih =>
      cases ha : f a with
      | none => simp [ha, ih]
      | some b => simp [ha]

/-- The backup reads the snapshot of the first mapped partition that has one. -/
theorem source_eq (d : SnapshotSet) : ∃ mp path, d.first = some mp ∧ mp ∈ d.mapped ∧
    snapshotPath d.vss mp = some path ∧ d.source = d.devices path := by
  have hsome : (d.first).isSome := by
    obtain ⟨mp, hmp, -, hpath⟩ := d.nonempty
    exact List.find?_isSome.mpr ⟨mp, hmp, hpath⟩
  obtain ⟨mp, hfirst⟩ := Option.isSome_iff_exists.mp hsome
  obtain ⟨path, hpath⟩ := Option.isSome_iff_exists.mp
    (List.find?_some (p := fun mp => (snapshotPath d.vss mp).isSome) hfirst)
  refine ⟨mp, path, hfirst, List.mem_of_find?_eq_some hfirst, hpath, ?_⟩
  have hchosen : d.mapped.findSome? (fun mp =>
      (d.vss.getSnapshotDevicePath mp.volumeGuid).filter (· ≠ "")) = some path := by
    rw [show (fun mp : MappedPartition =>
        (d.vss.getSnapshotDevicePath mp.volumeGuid).filter (· ≠ "")) = snapshotPath d.vss from rfl,
      findSome?_eq_bind_find?, show d.mapped.find? _ = some mp from hfirst]
    exact hpath
  have hdata : dataSource d.vss d.mapped d.layout.deviceNumber = .snapshot path := by
    rw [dataSource, hchosen]
  rw [SnapshotSet.source, hdata]
  rfl

/-- **What a block of the backup holds**: what the disk held one partition offset further on. -/
theorem source_slice {d : SnapshotSet} {mp : MappedPartition} (hfirst : d.first = some mp)
    {offset size : Nat} (hend : offset + size ≤ d.source.length) {k : Nat} (hk : k < size) :
    (d.source.bytes.slice offset size).getD k 0
      = d.frozen (mp.partition.offset.toNat + (offset + k)) := by
  obtain ⟨mp', path, hfirst', hmem, hpath, hsource⟩ := source_eq d
  obtain rfl := Option.some.inj (hfirst.symm.trans hfirst')
  rw [hsource] at hend ⊢
  rw [Image.getD_slice hk]
  exact d.holds mp hmem path hpath (offset + k) (by omega)

/-! ### Every run -/

/-- A block of the source, read in full. -/
structure BlockOf (d : SnapshotSet) (i : Nat) (data : Bytes) : Prop where
  lt : i < (d.job 0).totalBlocks.toNat
  fits : i * blockSize + ((d.job 0).blockSize i).toNat ≤ d.source.length
  data : data = d.source.bytes.slice (i * blockSize) ((d.job 0).blockSize i).toNat

/-- The message of a block of the source. -/
def MessageOf (d : SnapshotSet) (libs : Libs) (compress : Bytes → Bytes) (versionId : UInt32)
    (message : ClientMessage) : Prop :=
  ∃ i data, BlockOf d i data ∧
    message = (d.job versionId).message i (compress data) (libs.sha256 data)

/-- What the sending loop has at hand is of the source. -/
def AtHand (d : SnapshotSet) (libs : Libs) (compress : Bytes → Bytes) (versionId : UInt32) :
    Sender → Prop
  | .bind i _ | .read i _ => i < (d.job versionId).totalBlocks.toNat
  | .record i _ data hash => BlockOf d i data ∧ hash = libs.sha256 data
  | .send _ _ message => MessageOf d libs compress versionId message
  | _ => True

/-- Whatever is on its way is of the source, and the server takes blocks. -/
structure Carries (d : SnapshotSet) (libs : Libs) (compress : Bytes → Bytes) (versionId : UInt32)
    (s : Pipeline Peer) : Prop where
  greeted : s.server.Greeted
  atHand : AtHand d libs compress versionId s.sender
  outgoing : ∀ message ∈ s.outgoing, MessageOf d libs compress versionId message

theorem BlockOf.length_eq {i : Nat} {data : Bytes} (h : BlockOf d i data) :
    data.length = ((d.job 0).blockSize i).toNat := by
  rw [h.data, Image.length_slice]

theorem BlockOf.length_le {i : Nat} {data : Bytes} (h : BlockOf d i data) :
    data.length ≤ blockSize :=
  h.length_eq.trans_le (blockSize_full_bounds d.size_lt h.lt).2.1

/-- What is read for a block is a block of the source. -/
theorem blockOf_of_reads {i : Nat} {data : Bytes} (hi : i < (d.job versionId).totalBlocks.toNat)
    (h : d.source.Reads (UInt64.ofNat i * UInt64.ofNat blockSize) ((d.job versionId).blockSize i)
      (some data)) : BlockOf d i data := by
  have hoffset : (UInt64.ofNat i * UInt64.ofNat blockSize).toNat = i * blockSize :=
    toNat_offset (hi.trans (totalBlocks_full_lt ..))
  rcases h with hnone | ⟨hend, hdata⟩
  · cases hnone
  · rw [hoffset] at hend hdata
    exact ⟨hi, hend, Option.some.inj hdata⟩

/-- The steps that leave the messages alone. -/
theorem Carries.keep {s t : Pipeline Peer} (h : Carries d libs compress versionId s)
    (hserver : t.server = s.server) (houtgoing : t.outgoing = s.outgoing)
    (hatHand : AtHand d libs compress versionId t.sender) :
    Carries d libs compress versionId t where
  greeted := hserver ▸ h.greeted
  atHand := hatHand
  outgoing := houtgoing ▸ h.outgoing

/-- **Every step keeps what is carried.** -/
theorem Carries.step (hcompress : Inflates libs compress) {s t : Pipeline Peer} {p : Party}
    (h : Carries d libs compress versionId s)
    (hst : Step (d.job versionId) (d.outside libs compress) s p t) :
    Carries d libs compress versionId t := by
  have hatHand := h.atHand
  cases hst with
  | acquire hs hi herror hk => exact h.keep rfl rfl hi
  | bind hs =>
      rw [hs] at hatHand
      exact h.keep rfl rfl hatHand
  | read hs hread hhash =>
      rw [hs] at hatHand
      rcases hhash with hnone | hhash
      · cases hnone
      · exact h.keep rfl rfl ⟨blockOf_of_reads hatHand hread, Option.some.inj hhash⟩
  | @compress i k data compressed hash hs hc =>
      rw [hs] at hatHand
      obtain ⟨hblock, rfl⟩ := hatHand
      rcases hc with hnone | hc
      · cases hnone
      · obtain rfl := Option.some.inj hc
        exact h.keep rfl rfl ⟨i, data, hblock, rfl⟩
  | send hs hsend =>
      rw [hs] at hatHand
      refine ⟨h.greeted, trivial, fun message hmem => ?_⟩
      rcases List.mem_append.mp hmem with hmem | hmem
      · exact h.outgoing message hmem
      · rw [List.mem_singleton.mp hmem]
        exact hatHand
  | serve hserve =>
      obtain ⟨-, m, hqueue, -, rfl⟩ := hserve
      obtain ⟨i, data, hblock, hm⟩ := h.outgoing m (hqueue ▸ List.mem_cons_self)
      refine ⟨?_, hatHand, fun message hmem => h.outgoing message ?_⟩
      · rw [hm]
        exact (handle_block libs h.greeted _ _ _ (hcompress.shrinks data hblock.length_le) _ _).1
      · rw [hqueue]
        exact List.mem_cons_of_mem m hmem
  | finish | abort | timeout | readFails | hashFails | compressFails | sendFails | count | skip
  | abandon | fail | awaited | interrupted | giveUp | join => exact h.keep rfl rfl trivial
  | receive | receiveError | receiveBad | receiveFails | setAck | countAck | release
  | decrement => exact h.keep rfl rfl hatHand

/-- **Whatever is on its way in a run is of the source.** -/
theorem carries_reached (hcompress : Inflates libs compress) {windowSize : Nat}
    {m : BlockStateManager} {p : Peer} (hp : p.Greeted) {s : Pipeline Peer}
    (h : Reached (d.job versionId) (d.outside libs compress) (.start windowSize m p) s) :
    Carries d libs compress versionId s := by
  refine Transition.Reachable.invariant (P := Carries d libs compress versionId) ?_
    (fun _ _ _ hc hst => hc.step hcompress hst) h
  rintro s rfl
  exact ⟨hp, trivial, fun message hmem => absurd hmem List.not_mem_nil⟩

/-- **A block that is acknowledged is written**, at its number. -/
theorem written_of_acknowledges (hcompress : Inflates libs compress) {s : Pipeline Peer}
    (h : Carries d libs compress versionId s) {i : UInt64} {size : UInt32} {file : Nat}
    {after : Peer} (hack : Acknowledges libs s i size file after) :
    ∃ data, BlockOf d i.toNat data ∧ size = (d.job 0).blockSize i.toNat ∧
      ∀ k < size.toNat, after.serving.files.image file (i.toNat * blockSize + k)
        = data.getD k 0 := by
  obtain ⟨-, devNo, compressed, hash, version, rest, bf, hqueue, hdevice, rfl, rfl, ack, hanswer,
    hstatus⟩ := hack
  obtain ⟨n, data, hblock, hmessage⟩ := h.outgoing _ (hqueue ▸ List.mem_cons_self)
  rw [Job.message, ClientMessage.block.injEq] at hmessage
  obtain ⟨rfl, rfl, rfl, rfl, rfl, rfl⟩ := hmessage
  have hlt := hblock.lt.trans (totalBlocks_full_lt d.layout.deviceNumber 0 d.layout.size)
  have hnumber : (UInt64.ofNat n).toNat = n := by
    rw [UInt64.toNat_ofNat', Nat.mod_eq_of_lt (by omega)]
  obtain ⟨-, hfiles, hreply⟩ := handle_block libs h.greeted d.layout.deviceNumber (UInt64.ofNat n)
    ((d.job 0).blockSize n) (hcompress.shrinks data hblock.length_le) (libs.sha256 data) version
  generalize hr : requestOf d.layout.deviceNumber (UInt64.ofNat n) ((d.job 0).blockSize n)
    (compress data) (libs.sha256 data) version = r at hfiles hreply
  have hindex : r.header.blockIndex.toNat = n := by
    rw [← hr]
    exact hnumber
  -- the answer says that the block was taken
  have hok : (processRequest libs r s.server.serving.files).1 = .ok := by
    have hsame := ackMessage_injective (hreply.symm.trans hanswer)
    rw [processRequest_ack] at hsame
    refine (AckStatus.code_eq_zero_iff _).mp ?_
    rw [← hstatus, ← hsame]
    rfl
  obtain ⟨bf', raw, hwritten⟩ := (process_exact_iff libs r _).mpr (fun hwraps => by
    have hle := hwraps.1
    omega) hok
  have hraw : raw = data := by
    have hinflates := hwritten.inflates
    rw [← hr] at hinflates
    exact Option.some.inj (hinflates.symm.trans (hcompress.inflates data hblock.length_le))
  have hfile : bf' = bf := by
    have hget := hwritten.device
    rw [← hr] at hget
    exact Option.some.inj (hget.symm.trans hdevice)
  rw [hnumber]
  refine ⟨data, hblock, rfl, fun k hk => ?_⟩
  have himage := hwritten.image
  rw [hraw, hfile, BlockRequest.address, hindex] at himage
  have hafter := congrFun ((congrArg Files.image hfiles).trans himage) (libs.fileOf bf.fd)
  rw [Function.update_self] at hafter
  exact (congrFun hafter (n * blockSize + k)).trans
    (Image.write_of_inside (hk.trans_eq hblock.length_eq.symm))

/-! ### A run that reaches a block -/

section Skipping

variable (d libs compress versionId) (m : BlockStateManager) (p : Peer)

/-- The loop can come to any block with nothing sent: every read before it may fail. -/
theorem turn_reached {i : Nat} (hi : i ≤ (d.job versionId).totalBlocks.toNat) :
    ∃ s b, Reached (d.job versionId) (d.outside libs compress) (.start 1 m p) s ∧
      s.sender = .turn i ∧ s.pipelineError = false ∧ s.window = [⟨false, b⟩] ∧
      s.outgoing = [] ∧ s.server = p := by
  induction i with
  | zero => exact ⟨_, 0, ⟨_, [], rfl, .nil _⟩, rfl, rfl, rfl, rfl, rfl⟩
  | succ i ih =>
      obtain ⟨s, b, hs, hturn, herror, hwindow, houtgoing, hserver⟩ := ih (Nat.le_of_succ_le hi)
      have hfree : acquireSlot s.window = some 0 := by rw [hwindow]; rfl
      have h₁ := (hs.next (.acquire hturn hi herror hfree)).next (.bind rfl)
      have h₂ := (h₁.next (.readFails rfl (.inl rfl))).next (.skip rfl)
      refine ⟨_, UInt64.ofNat i, h₂, rfl, herror, ?_, houtgoing, hserver⟩
      dsimp only
      rw [hwindow]
      rfl

/-- Any block that can be read can be the only one on its way. -/
theorem only_reached {i : Nat} {data : Bytes} (hblock : BlockOf d i data) :
    ∃ s, Reached (d.job versionId) (d.outside libs compress) (.start 1 m p) s ∧
      s.outgoing = [(d.job versionId).message i (compress data) (libs.sha256 data)] ∧
      s.server = p := by
  obtain ⟨s, b, hs, hturn, herror, hwindow, houtgoing, hserver⟩ :=
    turn_reached d libs compress versionId m p hblock.lt.le
  have hfree : acquireSlot s.window = some 0 := by rw [hwindow]; rfl
  have hoffset : (UInt64.ofNat i * UInt64.ofNat blockSize).toNat = i * blockSize :=
    toNat_offset (hblock.lt.trans (totalBlocks_full_lt ..))
  have hread : d.source.Reads (UInt64.ofNat i * UInt64.ofNat blockSize)
      ((d.job versionId).blockSize i) (some data) := by
    refine .inr ⟨?_, ?_⟩
    · rw [hoffset]
      exact hblock.fits
    · rw [hoffset, hblock.data]
      rfl
  have h₁ := (hs.next (.acquire hturn hblock.lt herror hfree)).next (.bind rfl)
  have h₂ := (h₁.next (.read rfl hread (.inr rfl))).next (.compress rfl (.inr rfl))
  refine ⟨_, h₂.next (.send rfl trivial), ?_, hserver⟩
  dsimp only
  rw [houtgoing]
  rfl

end Skipping

/-! ### The blocks that are in their place -/

/-- A file for the disk. -/
def SnapshotSet.backing (d : SnapshotSet) : BackingFile :=
  { fd := 3, sizeBytes := d.layout.size, path := "disk.img" }

/-- A server with a file for the disk, whose writes are whole; nothing is compressed. -/
def SnapshotSet.plainLibs (d : SnapshotSet) : Libs where
  diskMap := SortedMap.empty.insert d.layout.deviceNumber.toNat d.backing
  fileOf := id
  sha256 := fun _ => .zero
  uncompress2 := fun _ data => some data
  pwrite := fun _ len => some len

theorem inflates_plainLibs (d : SnapshotSet) : Inflates d.plainLibs id where
  shrinks data h := by
    have hpos := blockSize_pos
    simp only [id_eq]
    omega
  inflates _ _ := rfl

theorem unhindered_plainLibs (d : SnapshotSet) :
    Unhindered d.plainLibs id d.layout.deviceNumber d.layout.size d.backing where
  size_lt := d.size_lt
  device := SortedMap.find?_insert_self _ _ _
  large := UInt64.le_refl _
  writes _ _ := rfl
  shrinks := (inflates_plainLibs d).shrinks
  inflates := (inflates_plainLibs d).inflates

/-- A connection that has been greeted. -/
def greetedPeer : Peer where
  serving := { Serving.start blankFiles with session := { Session.new with helloDone := true } }
  live := true

/-- If everything is in its place, the disk repeats itself. -/
theorem repeats_of_putsInPlace (h : PutsInPlace d) : Repeats d := by
  intro mp hfirst i hi hfits k hk
  have hblock : BlockOf d i (d.source.bytes.slice (i * blockSize) ((d.job 0).blockSize i).toNat) :=
    ⟨hi, hfits, rfl⟩
  obtain ⟨s, hs, houtgoing, hserver⟩ := only_reached d d.plainLibs id 0
    (prepare .new 0 0 (d.job 0).totalBlocks d.layout.size).2 greetedPeer hblock
  obtain ⟨-, hwritten, ack, hanswer, -, hstatus⟩ :=
    @handle_copy _ _ d.source.bytes _ 0 _ _ (unhindered_plainLibs d) i hi greetedPeer ⟨rfl, rfl⟩
  have hnumber : (UInt64.ofNat i).toNat = i := Accounts.toNat_ofNat hi
  rw [← hserver] at hwritten hanswer
  have hack : Acknowledges d.plainLibs s (UInt64.ofNat i) ((d.job 0).blockSize i)
      (d.plainLibs.fileOf d.backing.fd) (s.server.handle d.plainLibs
        (copyOf d.plainLibs id d.source.bytes d.layout.deviceNumber 0 d.layout.size i)) :=
    ⟨by rw [hserver]; rfl, _, _, _, _, _, d.backing, houtgoing,
      (unhindered_plainLibs d).device, rfl, rfl, ack, hanswer, hstatus⟩
  have hplace := h d.plainLibs id (inflates_plainLibs d) 0 1 .new 0 0 greetedPeer ⟨rfl, rfl⟩ s hs
    _ _ _ _ hack k hk
  have hlen : k < (blockData d.source.bytes d.layout.deviceNumber 0 d.layout.size i).length :=
    hk.trans_eq (Image.length_slice ..).symm
  rw [hnumber, hwritten, Image.write_of_inside hlen] at hplace
  rw [← hplace]
  exact (source_slice hfirst hfits hk).symm

/-- **When the blocks are in their place**: when the disk repeats itself at the offset of the
partition. -/
theorem putsInPlace_iff (d : SnapshotSet) : PutsInPlace d ↔ Repeats d := by
  refine ⟨repeats_of_putsInPlace, fun hrepeats => ?_⟩
  intro libs compress hcompress versionId windowSize m snapshotTime now p hp s hs i size file after
    hack k hk
  obtain ⟨data, hblock, rfl, hafter⟩ :=
    written_of_acknowledges hcompress (carries_reached hcompress hp hs) hack
  obtain ⟨mp, -, hfirst, -⟩ := source_eq d
  rw [hafter k hk, hblock.data, source_slice hfirst hblock.fits hk]
  exact hrepeats mp hfirst i.toNat hblock.lt hblock.fits k hk

/-- A disk of 2 MB, ones and then twos, with a filesystem in its second half. -/
def secondHalf : SnapshotSet where
  layout :=
    { deviceNumber := 0
      size := 2097152
      partitions := [{ offset := 1048576, size := 1048576, content := .filesystemNTFS }] }
  volumes := [{ diskNumber := 0, diskOffset := 1048576, volumeGuid := "volume" }]
  vss :=
    { initialized := true
      startSnapshotSet := true
      addVolumeToSnapshotSet := fun _ => true
      doSnapshotSet := true
      getSnapshotDevicePath := fun _ => some "snapshot" }
  devices := fun _ => { length := 1048576, bytes := fun _ => 2 }
  frozen := fun x => if x < 1048576 then 1 else 2
  size_lt := by decide
  inside := by decide
  apart := List.pairwise_singleton _ _
  taken := by decide
  nonempty := ⟨_, List.mem_singleton_self _, rfl, rfl⟩
  holds := by
    intro mp hmp path hpath x hx
    obtain rfl := List.mem_singleton.mp hmp
    exact (if_neg (Nat.not_lt.mpr (Nat.le_add_right 1048576 x))).symm

/-- Block 0 of the image gets the twos of the second half. -/
theorem secondHalf_misplaced : ¬ PutsInPlace secondHalf := by
  intro h
  have hrepeats := repeats_of_putsInPlace h _ rfl 0 (by decide) (by decide) 0 (by decide)
  exact absurd hrepeats (by decide)

end Go2Cbt.Link
