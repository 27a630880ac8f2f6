import Go2Cbt.Client.FreeSpace
import Go2Cbt.Lib.Image

/-!
# Client — what a partition holds

`DiskParser` reads the first sector of a partition and looks for the signature of a filesystem.
For an entry of a GPT it looks at the type before that: a Microsoft reserved partition is to be
`Reserved`, and its first sector is not to be read.  `ParseGPT` reads it all the same, and what it
finds there is what stays.

`followsFlow_iff` says that this is the only way in which an entry leaves the documented flow.
-/

namespace Go2Cbt.Disk

/-- An open disk: its length and bytes, what it answers to the two queries, and the reads that
succeed. -/
structure PhysicalDisk where
  deviceNumber : UInt32
  length : UInt64
  bytes : Image
  /-- Whether `IOCTL_DISK_GET_LENGTH_INFO` succeeds. -/
  lengthInfo : Bool
  /-- The answer to `IOCTL_DISK_GET_DRIVE_GEOMETRY_EX`, if it succeeds. -/
  bytesPerSector : Option UInt32
  reads : UInt64 → UInt32 → Bool
  inside : ∀ offset size, reads offset size = true → offset.toNat + size.toNat ≤ length.toNat

/-- `DiskParser::Read`: the bytes, when the read succeeds in full. -/
def PhysicalDisk.read (disk : PhysicalDisk) (offset : UInt64) (size : UInt32) : Option Bytes :=
  if disk.reads offset size then some (disk.bytes.slice offset.toNat size.toNat) else none

/-- `BYTE sector[4096] = {}`, after a read into it.  A sector that is longer runs past the buffer;
`parseMBR` stops there. -/
def sectorBuffer (data : Bytes) : Bytes := data ++ List.replicate (4096 - data.length) 0

/-- The bytes of a string literal. -/
def ascii (text : String) : Bytes := text.toList.map fun c => UInt8.ofNat c.toNat

/-- `memcmp(sector + offset, text, …) == 0`. -/
def holds (sector : Bytes) (offset : Nat) (text : String) : Bool :=
  LittleEndian.field sector offset (ascii text).length == ascii text

/-- `ESP_GUID`. -/
def espGuid : Guid :=
  ⟨0xC12A7328, 0xF81E, 0x11D2, [0xBA, 0x4B, 0x00, 0xA0, 0xC9, 0x3E, 0xC9, 0x3B]⟩

/-- `MSR_GUID`. -/
def msrGuid : Guid :=
  ⟨0xE3C9E316, 0x0B5C, 0x4DB8, [0x81, 0x7D, 0xF9, 0x2D, 0xF0, 0x02, 0x15, 0xAE]⟩

/-- `DetectPartitionContentGpt`. -/
def detectPartitionContentGpt (p : PartitionInfo) : PartitionInfo :=
  if p.typeGuid = msrGuid then { p with content := .reserved, fsName := "MSR" }
  else if p.typeGuid = espGuid then { p with fsName := "ESP" }
  else p

/-- Set the content, and the name unless there is one. -/
def PartitionInfo.mark (p : PartitionInfo) (content : Client.PartitionContent) (name : String) :
    PartitionInfo :=
  { p with content := content, fsName := if p.fsName.isEmpty then name else p.fsName }

/-- `DetectPartitionContent`. -/
def detectPartitionContent (disk : PhysicalDisk) (sectorSize : UInt32) (p : PartitionInfo) :
    PartitionInfo :=
  let p := { p with content := .unknown, isEncrypted := false }
  match disk.read p.offset sectorSize with
  | none => { p with content := .rawPartition, fsName := "Unreadable" }
  | some data =>
      let sector := sectorBuffer data
      if holds sector 3 "-FVE-FS-" then
        { p with isEncrypted := true, content := .filesystemNTFS, fsName := "BitLocker-NTFS" }
      else if holds sector 3 "NTFS    " then p.mark .filesystemNTFS "NTFS"
      else if holds sector 3 "ReFS" then p.mark .filesystemReFS "ReFS"
      else if holds sector 3 "EXFAT   " then p.mark .filesystemExFAT "exFAT"
      else if holds sector 0x52 "FAT32   " then p.mark .filesystemFAT32 "FAT32"
      else if holds sector 0x36 "FAT16   " then p.mark .filesystemFAT32 "FAT16"
      else p.mark .rawPartition "Raw"

/-- `GPTEntry`, its name as far as the first zero. -/
structure GPTEntry where
  typeGuid : Guid
  partitionGuid : Guid
  firstLBA : UInt64
  lastLBA : UInt64
  attributes : UInt64
  name : List UInt16
  deriving DecidableEq, Repr

/-- Where an entry's partition begins. -/
def GPTEntry.offset (e : GPTEntry) (sectorSize : UInt32) : UInt64 :=
  e.firstLBA * sectorSize.toUInt64

/-- What entry `i` of the table says of its partition. -/
def GPTEntry.partition (e : GPTEntry) (sectorSize i : UInt32) : PartitionInfo :=
  { PartitionInfo.blank with
    index := i
    typeGuid := e.typeGuid
    partitionGuid := e.partitionGuid
    offset := e.offset sectorSize
    size := (e.lastLBA - e.firstLBA + 1) * sectorSize.toUInt64
    attributes := e.attributes
    name := e.name }

/-- What `ParseGPT` makes of entry `i` of the table. -/
def gptPartition (disk : PhysicalDisk) (sectorSize i : UInt32) (e : GPTEntry) : PartitionInfo :=
  detectPartitionContent disk sectorSize (detectPartitionContentGpt (e.partition sectorSize i))

/-! ### The documented flow -/

/-- A signature of the flow: where it stands, and what it says of the partition. -/
structure Signature where
  offset : Nat
  text : String
  content : Client.PartitionContent
  deriving DecidableEq, Repr

/-- The signature of BitLocker. -/
def bitLocker : Signature := ⟨3, "-FVE-FS-", .filesystemNTFS⟩

/-- The signatures, in the order in which they are looked for. -/
def signatures : List Signature :=
  [bitLocker,
    ⟨3, "NTFS    ", .filesystemNTFS⟩,
    ⟨3, "ReFS", .filesystemReFS⟩,
    ⟨3, "EXFAT   ", .filesystemExFAT⟩,
    ⟨0x52, "FAT32   ", .filesystemFAT32⟩,
    ⟨0x36, "FAT16   ", .filesystemFAT32⟩]

/-- The first signature that the sector holds; there is none if it was not read. -/
def firstSignature (read : Option Bytes) : Option Signature :=
  read.bind fun data => signatures.find? fun s => holds (sectorBuffer data) s.offset s.text

/-- The signature that decides about a partition of the given type. -/
def decidingSignature (read : Option Bytes) (typeGuid : Guid) : Option Signature :=
  if typeGuid = msrGuid then none else firstSignature read

/-- The partition is classified as documented. -/
structure FollowsFlow (read : Option Bytes) (typeGuid : Guid) (p : PartitionInfo) : Prop where
  reserved : typeGuid = msrGuid → p.content = .reserved
  content : typeGuid ≠ msrGuid →
    p.content = ((decidingSignature read typeGuid).map Signature.content).getD .rawPartition
  encrypted : p.isEncrypted = true ↔ decidingSignature read typeGuid = some bitLocker

variable {disk : PhysicalDisk} {sectorSize i : UInt32}

@[simp] theorem content_mark (p : PartitionInfo) (content : Client.PartitionContent)
    (name : String) : (p.mark content name).content = content := rfl

@[simp] theorem isEncrypted_mark (p : PartitionInfo) (content : Client.PartitionContent)
    (name : String) : (p.mark content name).isEncrypted = p.isEncrypted := rfl

@[simp] theorem offset_detectPartitionContentGpt (p : PartitionInfo) :
    (detectPartitionContentGpt p).offset = p.offset := by
  rw [detectPartitionContentGpt]
  split_ifs <;> rfl

@[simp] theorem offset_detectPartitionContent (p : PartitionInfo) :
    (detectPartitionContent disk sectorSize p).offset = p.offset := by
  rw [detectPartitionContent]
  dsimp only
  split
  · rfl
  · split_ifs <;> rfl

/-- The second detector decides by the first signature, whatever the first detector said. -/
theorem detectPartitionContent_spec (disk : PhysicalDisk) (sectorSize : UInt32)
    (p : PartitionInfo) :
    (detectPartitionContent disk sectorSize p).content
        = ((firstSignature (disk.read p.offset sectorSize)).map Signature.content).getD
            .rawPartition ∧
      ((detectPartitionContent disk sectorSize p).isEncrypted = true ↔
        firstSignature (disk.read p.offset sectorSize) = some bitLocker) := by
  rw [detectPartitionContent, firstSignature]
  dsimp only
  cases disk.read p.offset sectorSize with
  | none => simp
  | some data =>
      simp only [Option.bind_some, signatures, bitLocker, List.find?_cons, List.find?_nil]
      -- one case for each signature, in their order
      split_ifs <;> simp_all

/-- What the second detector finds is what stays, the first sector read at the entry's place. -/
theorem gptPartition_spec (disk : PhysicalDisk) (sectorSize i : UInt32) (e : GPTEntry) :
    (gptPartition disk sectorSize i e).content
        = ((firstSignature (disk.read (e.offset sectorSize) sectorSize)).map
            Signature.content).getD .rawPartition ∧
      ((gptPartition disk sectorSize i e).isEncrypted = true ↔
        firstSignature (disk.read (e.offset sectorSize) sectorSize) = some bitLocker) := by
  have hspec := detectPartitionContent_spec disk sectorSize
    (detectPartitionContentGpt (e.partition sectorSize i))
  rw [offset_detectPartitionContentGpt] at hspec
  exact hspec

/-- No sector decides for `Reserved`. -/
theorem content_ne_reserved (e : GPTEntry) :
    (gptPartition disk sectorSize i e).content ≠ .reserved := by
  rw [(gptPartition_spec disk sectorSize i e).1]
  cases hfirst : firstSignature (disk.read (e.offset sectorSize) sectorSize) with
  | none => decide
  | some s =>
      obtain ⟨data, -, hfind⟩ := Option.bind_eq_some_iff.mp hfirst
      have hall : ∀ s ∈ signatures, s.content ≠ .reserved := by decide
      exact hall s (List.mem_of_find?_eq_some hfind)

/-- **When an entry is classified as documented**: when it is not a Microsoft reserved
partition. -/
theorem followsFlow_iff {e : GPTEntry} :
    FollowsFlow (disk.read (e.offset sectorSize) sectorSize) e.typeGuid
        (gptPartition disk sectorSize i e) ↔
      e.typeGuid ≠ msrGuid := by
  obtain ⟨hcontent, hencrypted⟩ := gptPartition_spec disk sectorSize i e
  constructor
  · intro hflow hmsr
    exact content_ne_reserved e (hflow.reserved hmsr)
  · intro hne
    have hdeciding : decidingSignature (disk.read (e.offset sectorSize) sectorSize) e.typeGuid
        = firstSignature (disk.read (e.offset sectorSize) sectorSize) := if_neg hne
    refine ⟨fun hmsr => absurd hmsr hne, fun _ => ?_, ?_⟩
    · rw [hdeciding, hcontent]
    · rw [hdeciding, hencrypted]

/-- A disk of zeros that can be read wherever it has bytes. -/
def zeroDisk (length : UInt64) : PhysicalDisk where
  deviceNumber := 0
  length := length
  bytes := fun _ => 0
  lengthInfo := true
  bytesPerSector := some 512
  reads := fun offset size => decide (offset.toNat + size.toNat ≤ length.toNat)
  inside := fun _ _ h => of_decide_eq_true h

/-- A Microsoft reserved partition of one sector. -/
def msrEntry : GPTEntry where
  typeGuid := msrGuid
  partitionGuid := .zero
  firstLBA := 34
  lastLBA := 34
  attributes := 0
  name := []

/-- An empty reserved partition ends as a raw one, under the name of the reserved one. -/
theorem msr_leaves_flow :
    (gptPartition (zeroDisk 0x10000) 512 0 msrEntry).content = .rawPartition ∧
      (gptPartition (zeroDisk 0x10000) 512 0 msrEntry).fsName = "MSR" ∧
      ¬ FollowsFlow ((zeroDisk 0x10000).read (msrEntry.offset 512) 512) msrEntry.typeGuid
          (gptPartition (zeroDisk 0x10000) 512 0 msrEntry) := by
  refine ⟨by decide +kernel, by decide +kernel, fun h => ?_⟩
  exact content_ne_reserved msrEntry (h.reserved rfl)

end Go2Cbt.Disk
