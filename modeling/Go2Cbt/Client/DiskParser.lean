import Go2Cbt.Client.PartitionContent

/-!
# Client — parsing a disk

`DiskParser::Parse`: two queries, `ParseMBR`, and for a protective MBR `ParseGPT`.  The parser
collects the partitions, the metadata of the disk and, from the partitions alone, its unallocated
space.  Only a parse that returns true is given a layout here; a read or a write past the end of a
buffer has none either.

A backup takes a partition from a snapshot, always saves the metadata and leaves out what is
unallocated.  `dividesDisk_iff` says for which disks no byte is counted twice.
-/

namespace Go2Cbt.Disk

open LittleEndian (u32 u64 field decode)

/-! ### The MBR -/

/-- `MBRPartitionEntry`, the fields that are read. -/
structure MBRPartitionEntry where
  type : UInt8
  startLBA : UInt32
  sectorCount : UInt32
  deriving DecidableEq, Repr

/-- Entry `i` of the table in an MBR. -/
def mbrEntry (buffer : Bytes) (i : Nat) : MBRPartitionEntry where
  type := buffer.getD (446 + 16 * i + 4) 0
  startLBA := u32 buffer (446 + 16 * i + 8)
  sectorCount := u32 buffer (446 + 16 * i + 12)

/-- What `ParseMBR` makes of entry `i` of the table. -/
def mbrPartition (disk : PhysicalDisk) (sectorSize : UInt32) (i : Nat) (e : MBRPartitionEntry) :
    PartitionInfo :=
  detectPartitionContent disk sectorSize
    { PartitionInfo.blank with
      index := UInt32.ofNat i
      mbrType := e.type
      offset := e.startLBA.toUInt64 * sectorSize.toUInt64
      size := e.sectorCount.toUInt64 * sectorSize.toUInt64 }

/-- The partitions of an MBR; entries of type 0 are skipped. -/
def mbrPartitions (disk : PhysicalDisk) (sectorSize : UInt32) (buffer : Bytes) :
    List PartitionInfo :=
  (List.range 4).filterMap fun i =>
    if (mbrEntry buffer i).type = 0 then none
    else some (mbrPartition disk sectorSize i (mbrEntry buffer i))

/-- `ParseMBR`.  Its buffer holds 4096 bytes. -/
def parseMBR (disk : PhysicalDisk) (layout : DiskLayout) : Option DiskLayout := do
  let sectorSize := layout.disk.sectorSize
  guard (sectorSize ≤ 4096)
  let data ← disk.read 0 sectorSize
  let buffer := sectorBuffer data
  guard (buffer.getD 510 0 = 0x55 ∧ buffer.getD 511 0 = 0xAA)
  let metadataRanges := layout.metadataRanges ++ [⟨0, sectorSize.toUInt64⟩]
  if (mbrEntry buffer 0).type = 0xEE then
    some
      { layout with
        disk := { layout.disk with style := .gpt }
        metadataRanges := metadataRanges }
  else
    some
      { layout with
        disk := { layout.disk with style := .mbr }
        partitions := layout.partitions ++ mbrPartitions disk sectorSize buffer
        metadataRanges := metadataRanges }

/-! ### The GPT -/

/-- A `GUID` in a buffer. -/
def guid (bs : Bytes) (off : Nat) : Guid where
  data1 := u32 bs off
  data2 := UInt16.ofNat (decode (field bs (off + 4) 2))
  data3 := UInt16.ofNat (decode (field bs (off + 6) 2))
  data4 := field bs (off + 8) 8

/-- `GPTHeader`, the fields that are read. -/
structure GPTHeader where
  signature : Bytes
  backupLBA : UInt64
  diskGuid : Guid
  partitionEntryLBA : UInt64
  numberOfPartitionEntries : UInt32
  sizeOfPartitionEntry : UInt32
  deriving DecidableEq, Repr

/-- The header at the start of a sector. -/
def gptHeader (sector : Bytes) : GPTHeader where
  signature := field sector 0 8
  backupLBA := u64 sector 32
  diskGuid := guid sector 56
  partitionEntryLBA := u64 sector 72
  numberOfPartitionEntries := u32 sector 80
  sizeOfPartitionEntry := u32 sector 84

/-- The bytes of the table. -/
def GPTHeader.entryArrayBytes (header : GPTHeader) : UInt64 :=
  header.numberOfPartitionEntries.toUInt64 * header.sizeOfPartitionEntry.toUInt64

/-- `layout.Disk.GPT`. -/
def GPTHeader.info (header : GPTHeader) (sectorSize : UInt32) : GPTInfo where
  primaryHeaderOffset := sectorSize.toUInt64
  backupHeaderOffset := header.backupLBA * sectorSize.toUInt64
  primaryEntryOffset := header.partitionEntryLBA * sectorSize.toUInt64
  backupEntryOffset := header.backupLBA * sectorSize.toUInt64 - header.entryArrayBytes
  entryCount := header.numberOfPartitionEntries
  entrySize := header.sizeOfPartitionEntry
  diskGuid := header.diskGuid

/-- The five ranges that `ParseGPT` adds; the first is the one that `ParseMBR` has added. -/
def GPTHeader.metadataRanges (header : GPTHeader) (sectorSize : UInt32) : List DiskRange :=
  [⟨0, sectorSize.toUInt64⟩,
    ⟨sectorSize.toUInt64, sectorSize.toUInt64⟩,
    ⟨header.partitionEntryLBA * sectorSize.toUInt64, header.entryArrayBytes⟩,
    ⟨header.backupLBA * sectorSize.toUInt64 - header.entryArrayBytes, header.entryArrayBytes⟩,
    ⟨header.backupLBA * sectorSize.toUInt64, sectorSize.toUInt64⟩]

/-- A string of wide characters, as far as its zero. -/
def wideString : Bytes → Option (List UInt16)
  | lo :: hi :: rest =>
      let unit := UInt16.ofNat (decode [lo, hi])
      if unit = 0 then some [] else (wideString rest).map (unit :: ·)
  | _ => none

/-- The entry at `start` of the table, if the table holds it and the end of its name. -/
def gptEntry (entries : Bytes) (start : Nat) : Option GPTEntry :=
  if entries.length < start + 56 then none
  else
    (wideString (entries.drop (start + 56))).map fun name =>
      { typeGuid := guid entries start
        partitionGuid := guid entries (start + 16)
        firstLBA := u64 entries (start + 32)
        lastLBA := u64 entries (start + 40)
        attributes := u64 entries (start + 48)
        name := name }

/-- The loop over the entries; those of type zero are skipped.  The product that places an entry
has 32 bits. -/
def gptPartitions (disk : PhysicalDisk) (sectorSize entrySize : UInt32) (entries : Bytes) :
    List Nat → Option (List PartitionInfo)
  | [] => some []
  | i :: rest => do
      let start := (UInt32.ofNat i * entrySize).toNat
      guard (start + 16 ≤ entries.length)
      if guid entries start = .zero then gptPartitions disk sectorSize entrySize entries rest
      else do
        let e ← gptEntry entries start
        let partitions ← gptPartitions disk sectorSize entrySize entries rest
        some (gptPartition disk sectorSize (UInt32.ofNat i) e :: partitions)

variable (sort : List PartitionInfo → List PartitionInfo)

/-- `ParseGPT`.  The table is zeroed before it is read, and the size of that read has 32 bits. -/
def parseGPT (disk : PhysicalDisk) (layout : DiskLayout) : Option DiskLayout := do
  let sectorSize := layout.disk.sectorSize
  let data ← disk.read sectorSize.toUInt64 sectorSize
  let header := gptHeader (sectorBuffer data)
  guard (header.signature = ascii "EFI PART")
  let table ← disk.read (header.partitionEntryLBA * sectorSize.toUInt64)
    header.entryArrayBytes.toUInt32
  let entries := table ++ List.replicate (header.entryArrayBytes.toNat - table.length) 0
  let partitions ← gptPartitions disk sectorSize header.sizeOfPartitionEntry entries
    (List.range header.numberOfPartitionEntries.toNat)
  some (calculateFreeSpace sort
    { layout with
      disk := { layout.disk with gpt := header.info sectorSize }
      partitions := layout.partitions ++ partitions
      metadataRanges := layout.metadataRanges ++ header.metadataRanges sectorSize })

/-! ### The disk -/

/-- What `QueryDiskSize` leaves in `Size`. -/
def PhysicalDisk.querySize (disk : PhysicalDisk) : UInt64 :=
  if disk.lengthInfo then disk.length else 0

/-- What `QuerySectorSize` leaves in `SectorSize`. -/
def PhysicalDisk.querySectorSize (disk : PhysicalDisk) : UInt32 := disk.bytesPerSector.getD 512

/-- `Parse`. -/
def parse (disk : PhysicalDisk) (layout : DiskLayout) : Option DiskLayout := do
  let layout :=
    { layout with
      disk :=
        { DiskLayout.blank.disk with
          deviceNumber := disk.deviceNumber
          size := disk.querySize
          sectorSize := disk.querySectorSize } }
  let layout ← parseMBR disk layout
  if layout.disk.style = .gpt then parseGPT sort disk layout
  else some (calculateFreeSpace sort layout)

/-! ### Well-formed disks -/

/-- The MBR, as a read of it leaves the buffer. -/
def PhysicalDisk.mbr (disk : PhysicalDisk) : Bytes :=
  sectorBuffer (disk.bytes.slice 0 disk.querySectorSize.toNat)

/-- The header of the GPT. -/
def PhysicalDisk.header (disk : PhysicalDisk) : GPTHeader :=
  gptHeader (sectorBuffer
    (disk.bytes.slice disk.querySectorSize.toNat disk.querySectorSize.toNat))

/-- The bytes of the table, in full. -/
def GPTHeader.tableSize (header : GPTHeader) : Nat :=
  header.numberOfPartitionEntries.toNat * header.sizeOfPartitionEntry.toNat

/-- The headers and the tables of a GPT. -/
def GPTHeader.areas (header : GPTHeader) (sectorSize : Nat) : List (Span Nat) :=
  let primary := header.partitionEntryLBA.toNat * sectorSize
  let backup := header.backupLBA.toNat * sectorSize
  [⟨sectorSize, 2 * sectorSize⟩,
    ⟨primary, primary + header.tableSize⟩,
    ⟨backup - header.tableSize, backup⟩,
    ⟨backup, backup + sectorSize⟩]

/-- The header's places are on the disk, in their order, and the backup header is its last
sector. -/
structure GPTHeader.Consistent (header : GPTHeader) (sectorSize length : Nat) : Prop where
  primary : 2 ≤ header.partitionEntryLBA.toNat
  backup : header.partitionEntryLBA.toNat * sectorSize + 2 * header.tableSize
    ≤ header.backupLBA.toNat * sectorSize
  last : (header.backupLBA.toNat + 1) * sectorSize = length

/-- What the disk keeps for the MBR and, if it has one, for the GPT. -/
def PhysicalDisk.areas (disk : PhysicalDisk) (style : PartitionStyle) : List (Span Nat) :=
  ⟨0, disk.querySectorSize.toNat⟩ ::
    if style = .gpt then disk.header.areas disk.querySectorSize.toNat else []

/-- The partitions lie apart on the disk and outside of what it keeps for its tables. -/
structure WellFormed (disk : PhysicalDisk) (layout : DiskLayout) : Prop where
  apart : layout.partitions.Pairwise fun p q => p.span.Apart q.span
  inside : ∀ p ∈ layout.partitions, p.span.hi ≤ disk.length.toNat
  outside : ∀ p ∈ layout.partitions, ∀ s ∈ disk.areas layout.disk.style, p.span.Apart s
  consistent : layout.disk.style = .gpt →
    disk.header.Consistent disk.querySectorSize.toNat disk.length.toNat

/-- `x` lies in one of the spans. -/
def Covers (spans : List (Span Nat)) (x : Nat) : Prop := ∃ s ∈ spans, s.Contains x

/-- The metadata ranges lie apart, and no byte of the disk is in two of the classes. -/
structure DividesDisk (disk : PhysicalDisk) (layout : DiskLayout) : Prop where
  metadata : layout.metadataRanges.Pairwise fun r r' => r.span.Apart r'.span
  partition_metadata : ∀ x < disk.length.toNat, ¬ (Covers (layout.partitions.map (·.span)) x ∧
    Covers (layout.metadataRanges.map DiskRange.span) x)
  partition_free : ∀ x < disk.length.toNat, ¬ (Covers (layout.partitions.map (·.span)) x ∧
    Covers (layout.freeRanges.map DiskRange.span) x)
  metadata_free : ∀ x < disk.length.toNat, ¬ (Covers (layout.metadataRanges.map DiskRange.span) x ∧
    Covers (layout.freeRanges.map DiskRange.span) x)

/-- An MBR whose partitions all begin with it, on a disk that does not tell its length. -/
structure PhysicalDisk.AllAtStart (disk : PhysicalDisk) : Prop where
  mbr : (mbrEntry disk.mbr 0).type ≠ 0xEE
  unknown : disk.lengthInfo = false
  start : ∀ i < 4, (mbrEntry disk.mbr i).type ≠ 0 → (mbrEntry disk.mbr i).startLBA = 0

/-- A layout without partitions and ranges. -/
structure DiskLayout.Empty (layout : DiskLayout) : Prop where
  partitions : layout.partitions = []
  freeRanges : layout.freeRanges = []
  metadataRanges : layout.metadataRanges = []

variable {sort} {disk : PhysicalDisk} {layout layout' : DiskLayout}

/-! ### What a parse leaves -/

theorem read_eq_some {offset : UInt64} {size : UInt32} {data : Bytes}
    (h : disk.read offset size = some data) :
    data = disk.bytes.slice offset.toNat size.toNat ∧
      offset.toNat + size.toNat ≤ disk.length.toNat := by
  rw [PhysicalDisk.read] at h
  split at h
  · next hreads => exact ⟨(Option.some.inj h).symm, disk.inside offset size hreads⟩
  · cases h

/-- The two ways in which the MBR is accepted. -/
theorem parseMBR_cases (h : parseMBR disk layout = some layout') :
    ∃ data, disk.read 0 layout.disk.sectorSize = some data ∧ layout.disk.sectorSize ≤ 4096 ∧
      (sectorBuffer data).getD 510 0 = 0x55 ∧
      layout'.disk.size = layout.disk.size ∧ layout'.disk.sectorSize = layout.disk.sectorSize ∧
      layout'.metadataRanges
        = layout.metadataRanges ++ [⟨0, layout.disk.sectorSize.toUInt64⟩] ∧
      ((layout'.disk.style = .gpt ∧ (mbrEntry (sectorBuffer data) 0).type = 0xEE) ∨
        (layout'.disk.style = .mbr ∧ (mbrEntry (sectorBuffer data) 0).type ≠ 0xEE ∧
          layout'.partitions
            = layout.partitions ++ mbrPartitions disk layout.disk.sectorSize
                (sectorBuffer data))) := by
  simp only [parseMBR, Option.bind_eq_bind, Option.bind_eq_some_iff, Option.guard_eq_some'] at h
  obtain ⟨-, hsize, data, hread, -, hsignature, h⟩ := h
  refine ⟨data, hread, hsize, hsignature.1, ?_⟩
  split at h
  · next htype =>
      obtain rfl := Option.some.inj h
      exact ⟨rfl, rfl, rfl, .inl ⟨rfl, htype⟩⟩
  · next htype =>
      obtain rfl := Option.some.inj h
      exact ⟨rfl, rfl, rfl, .inr ⟨rfl, htype, rfl⟩⟩

/-- The metadata of a GPT. -/
theorem parseGPT_metadata (h : parseGPT sort disk layout = some layout') :
    layout'.disk.style = layout.disk.style ∧ ∃ header : GPTHeader, layout'.metadataRanges
      = layout.metadataRanges ++ header.metadataRanges layout.disk.sectorSize := by
  simp only [parseGPT, Option.bind_eq_bind, Option.bind_eq_some_iff, Option.guard_eq_some'] at h
  obtain ⟨data, -, -, -, table, -, partitions, -, h⟩ := h
  obtain rfl := Option.some.inj h
  exact ⟨rfl, gptHeader (sectorBuffer data), rfl⟩

/-- A sector that holds the signature of an MBR has at least 512 bytes. -/
theorem length_of_signature {data : Bytes} (h : (sectorBuffer data).getD 510 0 = 0x55) :
    510 < data.length := by
  by_contra hlt
  have hle : data.length ≤ 510 := not_lt.mp hlt
  have hin : 510 - data.length < 4096 - data.length := by omega
  rw [sectorBuffer, List.getD_append_right _ _ _ _ hle, List.getD_replicate _ hin] at h
  exact absurd h (by decide)

/-- The two kinds of disk that are accepted. -/
theorem parse_cases (hempty : layout.Empty) (h : parse sort disk layout = some layout') :
    510 < disk.querySectorSize.toNat ∧ disk.querySectorSize.toNat ≤ disk.length.toNat ∧
      (((mbrEntry disk.mbr 0).type = 0xEE ∧ layout'.disk.style = .gpt ∧
          ∃ header : GPTHeader, layout'.metadataRanges
            = ⟨0, disk.querySectorSize.toUInt64⟩
                :: header.metadataRanges disk.querySectorSize) ∨
        ((mbrEntry disk.mbr 0).type ≠ 0xEE ∧ layout'.disk.style = .mbr ∧
          layout'.disk.size = disk.querySize ∧
          layout'.partitions = mbrPartitions disk disk.querySectorSize disk.mbr ∧
          layout'.metadataRanges = [⟨0, disk.querySectorSize.toUInt64⟩] ∧
          layout'.freeRanges = (calculateFreeSpace sort layout').freeRanges)) := by
  simp only [parse, Option.bind_eq_bind, Option.bind_eq_some_iff] at h
  obtain ⟨middle, hmbr, h⟩ := h
  obtain ⟨data, hread, -, hsignature, hsize, hsector, hmetadata, hstyle⟩ := parseMBR_cases hmbr
  obtain ⟨rfl, hlength⟩ := read_eq_some hread
  have hlong := length_of_signature hsignature
  rw [Image.length_slice] at hlong
  rw [hempty.metadataRanges, List.nil_append] at hmetadata
  refine ⟨hlong, (Nat.zero_add _).symm.le.trans hlength, ?_⟩
  rcases hstyle with ⟨hgpt, htype⟩ | ⟨hstyle, htype, hpartitions⟩
  · rw [if_pos hgpt] at h
    obtain ⟨hkept, header, hranges⟩ := parseGPT_metadata h
    refine .inl ⟨htype, hkept.trans hgpt, header, ?_⟩
    rw [hranges, hmetadata, hsector]
    rfl
  · rw [if_neg (by rw [hstyle]; decide)] at h
    obtain rfl := Option.some.inj h
    rw [hempty.partitions, List.nil_append] at hpartitions
    exact .inr ⟨htype, hstyle, hsize, hpartitions, hmetadata, rfl⟩

/-! ### The first byte -/

/-- The first byte is in no range when nothing is known to lie behind it. -/
theorem freeSweep_eq_nil {sorted : List PartitionInfo}
    (h : ∀ p ∈ sorted, p.offset = 0 ∧ p.size = 0) : freeSweep 0 0 sorted = [] := by
  induction sorted with
  | nil => rfl
  | cons p sorted ih =>
      obtain ⟨⟨hoffset, hsize⟩, hsorted⟩ := List.forall_mem_cons.mp h
      rw [freeSweep, hoffset, hsize]
      exact ih hsorted

/-- The first byte is in a range when something is, and no partition holds it. -/
theorem exists_free_zero {size : UInt64} {sorted : List PartitionInfo}
    (hstart : ∀ p ∈ sorted, p.offset = 0 → p.size = 0)
    (h : size ≠ 0 ∨ ∃ p ∈ sorted, p.offset ≠ 0) :
    ∃ r ∈ freeSweep size 0 sorted, r.span.Contains 0 := by
  have hpos : ∀ w : UInt64, w ≠ 0 → w > 0 := fun w hw => UInt64.pos_iff_ne_zero.mpr hw
  have hrange : ∀ w : UInt64, w ≠ 0 → (⟨0, w - 0⟩ : DiskRange).span.Contains 0 := by
    intro w hw
    have hlt : 0 < w.toNat := UInt64.lt_iff_toNat_lt.mp (hpos w hw)
    rw [UInt64.sub_zero]
    exact ⟨le_rfl, by simpa [DiskRange.span] using hlt⟩
  induction sorted with
  | nil =>
      rcases h with hsize | ⟨p, hp, -⟩
      · refine ⟨⟨0, size - 0⟩, ?_, hrange size hsize⟩
        rw [freeSweep, if_pos ⟨hpos size hsize, hpos size hsize⟩]
        exact List.mem_singleton_self _
      · cases hp
  | cons p sorted ih =>
      obtain ⟨hp, hsorted⟩ := List.forall_mem_cons.mp hstart
      by_cases hoffset : p.offset = 0
      · have hrest : size ≠ 0 ∨ ∃ q ∈ sorted, q.offset ≠ 0 := by
          rcases h with hsize | ⟨q, hq, hne⟩
          · exact .inl hsize
          · rcases List.mem_cons.mp hq with rfl | hq
            · exact absurd hoffset hne
            · exact .inr ⟨q, hq, hne⟩
        rw [freeSweep, hoffset, hp hoffset]
        exact ih hsorted hrest
      · refine ⟨⟨0, p.offset - 0⟩, ?_, hrange p.offset hoffset⟩
        rw [freeSweep, if_pos (hpos p.offset hoffset)]
        exact List.mem_append_left _ (List.mem_singleton_self _)

/-- A partition that begins at the start of the disk, and outside of the MBR, is empty. -/
theorem WellFormed.size_of_start (hw : WellFormed disk layout)
    (hsector : 0 < disk.querySectorSize.toNat) {p : PartitionInfo} (hp : p ∈ layout.partitions)
    (hoffset : p.offset = 0) : p.size = 0 := by
  by_contra hne
  have hpos : 0 < p.size.toNat := UInt64.lt_iff_toNat_lt.mp (UInt64.pos_iff_ne_zero.mpr hne)
  refine hw.outside p hp ⟨0, disk.querySectorSize.toNat⟩ List.mem_cons_self 0 ⟨?_, le_rfl, hsector⟩
  rw [PartitionInfo.span, hoffset]
  exact ⟨le_rfl, by simpa using hpos⟩

/-- An entry's place has 64 bits to spare. -/
theorem toNat_offset_mbrPartition (sectorSize : UInt32) (i : Nat) (e : MBRPartitionEntry) :
    (mbrPartition disk sectorSize i e).offset.toNat
      = e.startLBA.toNat * sectorSize.toNat := by
  have hlt : e.startLBA.toNat * sectorSize.toNat < 2 ^ 32 * 2 ^ 32 :=
    Nat.mul_lt_mul'' e.startLBA.toNat_lt sectorSize.toNat_lt
  rw [mbrPartition, offset_detectPartitionContent, UInt64.toNat_mul, UInt32.toNat_toUInt64,
    UInt32.toNat_toUInt64]
  exact Nat.mod_eq_of_lt hlt

/-- Every partition of the MBR begins at the start when every entry does. -/
theorem mbrPartitions_start_iff {sectorSize : UInt32} (hsector : 0 < sectorSize.toNat)
    {buffer : Bytes} :
    (∀ p ∈ mbrPartitions disk sectorSize buffer, p.offset = 0) ↔
      ∀ i < 4, (mbrEntry buffer i).type ≠ 0 → (mbrEntry buffer i).startLBA = 0 := by
  have hentry : ∀ i, (mbrPartition disk sectorSize i (mbrEntry buffer i)).offset = 0 ↔
      (mbrEntry buffer i).startLBA = 0 := by
    intro i
    rw [← UInt64.toNat_inj, toNat_offset_mbrPartition, ← UInt32.toNat_inj]
    exact Nat.mul_eq_zero.trans (or_iff_left hsector.ne')
  constructor
  · intro h i hi htype
    refine (hentry i).mp (h _ (List.mem_filterMap.mpr ⟨i, List.mem_range.mpr hi, ?_⟩))
    exact if_neg htype
  · intro h p hp
    obtain ⟨i, hi, hsome⟩ := List.mem_filterMap.mp hp
    split at hsome
    · cases hsome
    · next htype =>
        obtain rfl := Option.some.inj hsome
        exact (hentry i).mpr (h i (List.mem_range.mp hi) htype)

/-- A disk that has bytes has no size only if the query fails. -/
theorem querySize_eq_zero_iff (hlength : 0 < disk.length.toNat) :
    disk.querySize = 0 ↔ disk.lengthInfo = false := by
  rw [PhysicalDisk.querySize]
  cases hknown : disk.lengthInfo with
  | false => exact ⟨fun _ => rfl, fun _ => rfl⟩
  | true =>
      refine ⟨fun hzero => ?_, fun hfalse => by cases hfalse⟩
      have hnone : disk.length.toNat = 0 := congrArg UInt64.toNat hzero
      exact absurd hnone hlength.ne'

/-- The first byte is not free only if nothing is known of the disk beyond it. -/
theorem nothing_beyond_of_not_free (hsort : Sorts (fun p : PartitionInfo => p.offset) sort)
    (hstarts : ∀ p ∈ layout.partitions, p.offset = 0 → p.size = 0)
    (h : ¬ ∃ r ∈ (calculateFreeSpace sort layout).freeRanges, r.span.Contains 0) :
    layout.disk.size = 0 ∧ ∀ p ∈ layout.partitions, p.offset = 0 := by
  rw [freeRanges_eq_freeSweep hsort] at h
  have hperm := (hsort layout.partitions).1
  have hfree := mt (exists_free_zero fun p hp => hstarts p (hperm.subset hp)) h
  rw [not_or, not_exists, not_not] at hfree
  refine ⟨hfree.1, fun p hp => ?_⟩
  by_contra hne
  exact hfree.2 p ⟨hperm.symm.subset hp, hne⟩

/-- Nothing is free if nothing is known of the disk beyond its first byte. -/
theorem no_free_of_nothing_beyond (hsort : Sorts (fun p : PartitionInfo => p.offset) sort)
    (hsize : layout.disk.size = 0) (h : ∀ p ∈ layout.partitions, p.offset = 0 ∧ p.size = 0) :
    (calculateFreeSpace sort layout).freeRanges = [] := by
  rw [freeRanges_eq_freeSweep hsort, hsize]
  exact freeSweep_eq_nil fun p hp => h p ((hsort layout.partitions).1.subset hp)

/-- The range of the MBR. -/
theorem span_mbr (sectorSize : UInt32) :
    (⟨0, sectorSize.toUInt64⟩ : DiskRange).span = ⟨0, sectorSize.toNat⟩ := by
  rw [DiskRange.span, UInt32.toNat_toUInt64, UInt64.toNat_zero, Nat.zero_add]

/-- **When the layout divides the disk**: only when nothing is known of it beyond the MBR. -/
theorem dividesDisk_iff (hsort : Sorts (fun p : PartitionInfo => p.offset) sort)
    (hempty : layout.Empty) (h : parse sort disk layout = some layout')
    (hw : WellFormed disk layout') : DividesDisk disk layout' ↔ disk.AllAtStart := by
  obtain ⟨hsector, hlength, hcases⟩ := parse_cases hempty h
  have hspos : 0 < disk.querySectorSize.toNat := (Nat.zero_le 510).trans_lt hsector
  have hlpos : 0 < disk.length.toNat := hspos.trans_le hlength
  have hzero : (⟨0, disk.querySectorSize.toUInt64⟩ : DiskRange).span.Contains 0 := by
    rw [span_mbr]
    exact ⟨le_rfl, hspos⟩
  rcases hcases with ⟨htype, -, header, hranges⟩ |
    ⟨htype, -, hsize, hpartitions, hranges, hfree⟩
  · -- the sector of the MBR is there twice
    constructor
    · intro hdivides
      have hpairs := hdivides.metadata
      rw [hranges] at hpairs
      exact absurd ⟨hzero, hzero⟩ (List.rel_of_pairwise_cons hpairs List.mem_cons_self 0)
    · intro hstart
      exact absurd htype hstart.mbr
  · have hstarts : ∀ p ∈ layout'.partitions, p.offset = 0 → p.size = 0 :=
      fun p hp => hw.size_of_start hspos hp
    constructor
    · intro hdivides
      have hnot : ¬ ∃ r ∈ (calculateFreeSpace sort layout').freeRanges, r.span.Contains 0 := by
        rintro ⟨r, hr, hin⟩
        refine hdivides.metadata_free 0 hlpos ⟨?_, r.span, ?_, hin⟩
        · rw [hranges]
          exact ⟨_, List.mem_singleton_self _, hzero⟩
        · rw [hfree]
          exact List.mem_map_of_mem hr
      obtain ⟨hnosize, hoffsets⟩ := nothing_beyond_of_not_free hsort hstarts hnot
      rw [hsize] at hnosize
      rw [hpartitions] at hoffsets
      exact ⟨htype, (querySize_eq_zero_iff hlpos).mp hnosize,
        (mbrPartitions_start_iff hspos).mp hoffsets⟩
    · intro hstart
      have hnosize := (querySize_eq_zero_iff hlpos).mpr hstart.unknown
      have hoffsets : ∀ p ∈ mbrPartitions disk disk.querySectorSize disk.mbr, p.offset = 0 :=
        (mbrPartitions_start_iff hspos).mpr hstart.start
      rw [← hsize] at hnosize
      rw [← hpartitions] at hoffsets
      have hnofree : layout'.freeRanges = [] := by
        rw [hfree]
        exact no_free_of_nothing_beyond hsort hnosize fun p hp =>
          ⟨hoffsets p hp, hstarts p hp (hoffsets p hp)⟩
      refine ⟨?_, ?_, ?_, ?_⟩
      · rw [hranges]
        exact List.pairwise_singleton _ _
      · rintro x - ⟨⟨s, hs, hx⟩, t, ht, hx'⟩
        obtain ⟨p, hp, rfl⟩ := List.mem_map.mp hs
        rw [hranges] at ht
        obtain rfl := List.mem_singleton.mp ht
        rw [span_mbr] at hx'
        exact hw.outside p hp _ List.mem_cons_self x ⟨hx, hx'⟩
      · rw [hnofree]
        rintro x - ⟨-, s, hs, -⟩
        cases hs
      · rw [hnofree]
        rintro x - ⟨-, s, hs, -⟩
        cases hs

/-! ### Two disks -/

/-- A disk of 512-byte sectors with the given bytes, the others zero, that can be read where it has
bytes. -/
def diskOf (length : UInt64) (cells : List (Nat × UInt8)) : PhysicalDisk :=
  { zeroDisk length with bytes := fun i => (cells.lookup i).getD 0 }

/-- Two sectors: the MBR and a partition. -/
def mbrDisk : PhysicalDisk :=
  diskOf 1024 [(450, 0x07), (454, 1), (458, 1), (510, 0x55), (511, 0xAA)]

/-- Six sectors: the protective MBR, the header, a table of one entry, its partition, and what
belongs to the backup. -/
def gptDisk : PhysicalDisk :=
  diskOf 3072
    [(450, 0xEE), (510, 0x55), (511, 0xAA),
      (512, 0x45), (513, 0x46), (514, 0x49), (515, 0x20),
      (516, 0x50), (517, 0x41), (518, 0x52), (519, 0x54),
      (544, 5), (584, 2), (592, 1), (596, 128),
      (1024, 1), (1056, 3), (1064, 3)]

/-- What the parser makes of the MBR disk. -/
def mbrLayout : DiskLayout where
  disk := { DiskLayout.blank.disk with size := 1024, sectorSize := 512, style := .mbr }
  partitions :=
    [{ partitionAt 512 512 with mbrType := 7, content := .rawPartition, fsName := "Raw" }]
  freeRanges := [⟨0, 512⟩]
  metadataRanges := [⟨0, 512⟩]

theorem parse_mbrDisk : parse (sortBy (·.offset)) mbrDisk .blank = some mbrLayout := by
  decide +kernel

/-- What the parser makes of the GPT disk. -/
def gptLayout : DiskLayout where
  disk :=
    { DiskLayout.blank.disk with
      size := 3072
      sectorSize := 512
      style := .gpt
      gpt := ⟨512, 2560, 1024, 2432, 1, 128, .zero⟩ }
  partitions :=
    [{ partitionAt 1536 512 with
        typeGuid := { Guid.zero with data1 := 1 }, content := .rawPartition, fsName := "Raw" }]
  freeRanges := [⟨0, 1536⟩, ⟨2048, 1024⟩]
  metadataRanges := [⟨0, 512⟩, ⟨0, 512⟩, ⟨512, 512⟩, ⟨1024, 128⟩, ⟨2432, 128⟩, ⟨2560, 512⟩]

theorem parse_gptDisk : parse (sortBy (·.offset)) gptDisk .blank = some gptLayout := by
  decide +kernel

theorem empty_blank : DiskLayout.blank.Empty := ⟨rfl, rfl, rfl⟩

/-- One partition, in front of or behind everything that the disk keeps. -/
theorem wellFormed_of_one {p : PartitionInfo} (hone : layout.partitions = [p])
    (hinside : p.span.hi ≤ disk.length.toNat)
    (houtside : ∀ s ∈ disk.areas layout.disk.style, p.span.hi ≤ s.lo ∨ s.hi ≤ p.span.lo)
    (hconsistent : layout.disk.style = .gpt →
      disk.header.Consistent disk.querySectorSize.toNat disk.length.toNat) :
    WellFormed disk layout := by
  refine ⟨?_, ?_, ?_, hconsistent⟩
  · rw [hone]
    exact List.pairwise_singleton _ _
  · rw [hone, List.forall_mem_singleton]
    exact hinside
  · rw [hone, List.forall_mem_singleton]
    intro s hs
    rcases houtside s hs with hle | hle
    · exact Span.apart_of_le hle
    · exact (Span.apart_of_le hle).symm

theorem wellFormed_mbrDisk : WellFormed mbrDisk mbrLayout :=
  wellFormed_of_one rfl (by decide) (by decide +kernel) fun h => by cases h

theorem wellFormed_gptDisk : WellFormed gptDisk gptLayout :=
  wellFormed_of_one rfl (by decide) (by decide +kernel) fun _ =>
    ⟨by decide +kernel, by decide +kernel, by decide +kernel⟩

theorem dividesDisk_iff_mbrDisk : DividesDisk mbrDisk mbrLayout ↔ mbrDisk.AllAtStart :=
  dividesDisk_iff (sorts_sortBy _) empty_blank parse_mbrDisk wellFormed_mbrDisk

/-- On both disks the MBR is in a free range; on the GPT disk it is a metadata range twice. -/
theorem disks_not_divided :
    (parse (sortBy (·.offset)) mbrDisk .blank = some mbrLayout ∧ WellFormed mbrDisk mbrLayout ∧
      ¬ DividesDisk mbrDisk mbrLayout) ∧
    (parse (sortBy (·.offset)) gptDisk .blank = some gptLayout ∧ WellFormed gptDisk gptLayout ∧
      ¬ DividesDisk gptDisk gptLayout) := by
  have hfirst : ∀ size, 0 < size.toNat → (⟨0, size⟩ : DiskRange).span.Contains 0 :=
    fun size hsize => ⟨le_rfl, by simpa [DiskRange.span] using hsize⟩
  refine ⟨⟨parse_mbrDisk, wellFormed_mbrDisk, fun h => ?_⟩,
    parse_gptDisk, wellFormed_gptDisk, fun h => ?_⟩
  · have hmbr : Covers [(⟨0, 512⟩ : DiskRange).span] 0 :=
      ⟨_, List.mem_singleton_self _, hfirst 512 (by decide)⟩
    exact h.metadata_free 0 (by decide) ⟨hmbr, hmbr⟩
  · have htwice := List.rel_of_pairwise_cons h.metadata List.mem_cons_self 0
    exact htwice ⟨hfirst 512 (by decide), hfirst 512 (by decide)⟩

end Go2Cbt.Disk
