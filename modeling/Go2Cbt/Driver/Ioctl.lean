import Go2Cbt.Driver.Bitmap

/-!
# Driver — the disk map and the query interface

`go2cbt/ioctl.c` over the table `g_DiskMap`: `IOCTL_QUERY_CBT_DATA` copies a disk's bitmap out,
`IOCTL_RESET_CBT_DATA` clears it.  Both find the disk by its number and leave every other entry
alone.

A query that is told of too small a buffer still writes the sixteen header bytes if they fit;
that is the first of the client's two steps.
-/

namespace Go2Cbt.Driver

/-- `DISK_MAP_ENTRY`, with the fields that a write or a query reads.  `hookEntry` is an index
into `g_HookList`. -/
structure DiskMapEntry where
  deviceObject : Nat
  hookEntry : Nat
  diskNumber : UInt32
  partitionStartingOffset : UInt64
  cbtState : DiskCbtState
  deriving DecidableEq, Repr

/-- `g_DiskMap`, its first `g_DiskMapCount` entries. -/
abbrev DiskMap := List DiskMapEntry

/-- `FindDiskMapEntryByNumber`. -/
def findDiskMapEntryByNumber (diskMap : DiskMap) (deviceNumber : UInt32) : Option DiskMapEntry :=
  diskMap.find? fun e => e.diskNumber = deviceNumber

/-- Update the bitmap of the first entry that `p` accepts. -/
def DiskMap.updateFirst (p : DiskMapEntry → Bool) (f : DiskCbtState → DiskCbtState) :
    DiskMap → DiskMap
  | [] => []
  | e :: es =>
      if p e then { e with cbtState := f e.cbtState } :: es else e :: DiskMap.updateFirst p f es

/-- `CTL_CODE` with `FILE_DEVICE_UNKNOWN`, `METHOD_BUFFERED` and `FILE_ANY_ACCESS`. -/
def ctlCode (function : UInt32) : UInt32 := (0x22 : UInt32) <<< 16 ||| function <<< 2

/-- `IOCTL_QUERY_CBT_DATA`, and the client's `IOCTL_CBT_QUERY`. -/
def ioctlQueryCbtData : UInt32 := ctlCode 0x802

/-- `IOCTL_RESET_CBT_DATA`, and the client's `IOCTL_CBT_RESET`. -/
def ioctlResetCbtData : UInt32 := ctlCode 0x803

/-- A device-control request. -/
structure IoctlRequest where
  ioControlCode : UInt32
  inputBuffer : Bytes
  outputBufferLength : UInt32
  deriving DecidableEq, Repr

/-- What a handler leaves: its status, the bytes it wrote at the start of the system buffer, and
the count it reports. -/
structure IoctlReply where
  status : NtStatus
  written : Bytes
  bytesReturned : UInt32
  deriving DecidableEq, Repr

/-- A reply that carries no data. -/
def IoctlReply.bare (status : NtStatus) : IoctlReply :=
  { status, written := [], bytesReturned := 0 }

/-- The offset of `BitmapData` in `CBT_QUERY_OUTPUT`. -/
def bitmapDataOffset : UInt32 := 16

/-- The fixed part of `CBT_QUERY_OUTPUT`. -/
def queryHeader (totalBits : UInt64) (totalBytes : UInt32) : Bytes :=
  LittleEndian.ofU64 totalBits ++ LittleEndian.ofU64 totalBytes.toUInt64

/-- `HandleIoctlQuery`. -/
def handleIoctlQuery (diskMap : DiskMap) (req : IoctlRequest) : IoctlReply :=
  if req.inputBuffer.length < 4 then .bare .invalidParameter
  else
    match findDiskMapEntryByNumber diskMap (LittleEndian.u32 req.inputBuffer 0) with
    | none => .bare .notFound
    | some mapEntry =>
        let cbtState := mapEntry.cbtState
        if cbtState.buffer = none ∨ cbtState.totalBits = 0 then .bare .invalidDeviceState
        else
          let totalBytes := cbtState.totalBytes.toUInt32
          let requiredSize := bitmapDataOffset + totalBytes
          if req.outputBufferLength < requiredSize then
            if req.outputBufferLength ≥ bitmapDataOffset then
              { status := .bufferOverflow
                written := queryHeader cbtState.totalBits totalBytes
                bytesReturned := bitmapDataOffset }
            else { status := .bufferOverflow, written := [], bytesReturned := requiredSize }
          else
            { status := .success
              written := queryHeader cbtState.totalBits totalBytes
                ++ (BitWords.bytes cbtState.words).take totalBytes.toNat
              bytesReturned := requiredSize }

/-- `HandleIoctlReset`. -/
def handleIoctlReset (diskMap : DiskMap) (req : IoctlRequest) : IoctlReply × DiskMap :=
  if req.inputBuffer.length < 4 then (.bare .invalidParameter, diskMap)
  else
    let devNo := LittleEndian.u32 req.inputBuffer 0
    match findDiskMapEntryByNumber diskMap devNo with
    | none => (.bare .notFound, diskMap)
    | some mapEntry =>
        if mapEntry.cbtState.buffer = none ∨ mapEntry.cbtState.totalBits = 0 then
          (.bare .invalidDeviceState, diskMap)
        else
          (.bare .success,
            DiskMap.updateFirst (fun e => e.diskNumber = devNo) DiskCbtState.rtlClearAllBits
              diskMap)

/-- `CbtDispatchDeviceControl`. -/
def cbtDispatchDeviceControl (diskMap : DiskMap) (req : IoctlRequest) : IoctlReply × DiskMap :=
  if req.ioControlCode = ioctlQueryCbtData then (handleIoctlQuery diskMap req, diskMap)
  else if req.ioControlCode = ioctlResetCbtData then handleIoctlReset diskMap req
  else (.bare .invalidDeviceRequest, diskMap)

/-- The disk numbered `devNo` has the bitmap `d`. -/
def Tracks (diskMap : DiskMap) (devNo : UInt32) (d : TrackedDisk) : Prop :=
  ∃ e, findDiskMapEntryByNumber diskMap devNo = some e ∧ e.cbtState = d.state

/-! ### What the handlers do to a tracked disk -/

/-- The request `CbtClient` sends: four bytes of input, the disk number. -/
def IoctlRequest.forDisk (code devNo outputBufferLength : UInt32) : IoctlRequest :=
  { ioControlCode := code
    inputBuffer := LittleEndian.ofU32 devNo
    outputBufferLength := outputBufferLength }

theorem devNo_forDisk (code devNo len : UInt32) :
    LittleEndian.u32 (IoctlRequest.forDisk code devNo len).inputBuffer 0 = devNo := by
  rw [LittleEndian.u32, IoctlRequest.forDisk, LittleEndian.field_all (LittleEndian.length_ofU32 _),
    LittleEndian.decode_ofU32]

theorem ioctlResetCbtData_ne : ioctlResetCbtData ≠ ioctlQueryCbtData := by decide

theorem dispatch_reset (diskMap : DiskMap) (devNo len : UInt32) :
    cbtDispatchDeviceControl diskMap (.forDisk ioctlResetCbtData devNo len)
      = handleIoctlReset diskMap (.forDisk ioctlResetCbtData devNo len) :=
  (if_neg ioctlResetCbtData_ne).trans (if_pos rfl)

theorem TrackedDisk.live (d : TrackedDisk) :
    ¬ (d.state.buffer = none ∨ d.state.totalBits = 0) := d.dimensioned.not_dead

/-- The size of a tracked disk's bitmap in bytes. -/
theorem TrackedDisk.toNat_totalBytes (d : TrackedDisk) :
    d.state.totalBytes.toUInt32.toNat = 4 * ((d.totalBlocks + 31) / 32) := by
  have hlt := d.totalBlocks_lt
  have hbytes := d.dimensioned.bytes
  rw [d.dimensioned.words] at hbytes
  rw [UInt64.toNat_toUInt32, hbytes, totalBlocks] at *
  omega

/-- The bytes a query needs room for. -/
theorem TrackedDisk.toNat_requiredSize (d : TrackedDisk) :
    (bitmapDataOffset + d.state.totalBytes.toUInt32).toNat
      = 16 + 4 * ((d.totalBlocks + 31) / 32) := by
  have hlt := d.totalBlocks_lt
  rw [UInt32.toNat_add, d.toNat_totalBytes, bitmapDataOffset,
    show (16 : UInt32).toNat = 16 from rfl]
  omega

/-- A query that is told of the header's size only gets the header. -/
theorem handleIoctlQuery_header {diskMap : DiskMap} {devNo : UInt32} {d : TrackedDisk}
    (h : Tracks diskMap devNo d) :
    handleIoctlQuery diskMap (.forDisk ioctlQueryCbtData devNo 16)
      = { status := .bufferOverflow
          written := queryHeader d.state.totalBits d.state.totalBytes.toUInt32
          bytesReturned := 16 } := by
  obtain ⟨e, hfind, hstate⟩ := h
  have hpos := d.dimensioned.pos
  have hsmall : (16 : UInt32) < bitmapDataOffset + d.state.totalBytes.toUInt32 := by
    rw [UInt32.lt_iff_toNat_lt, d.toNat_requiredSize, show (16 : UInt32).toNat = 16 from rfl,
      TrackedDisk.totalBlocks]
    omega
  rw [handleIoctlQuery, devNo_forDisk, hfind]
  simp only [hstate, if_neg d.live]
  simp only [bitmapDataOffset] at hsmall
  simp [IoctlRequest.forDisk, bitmapDataOffset, hsmall]

/-- A query with the room it needs gets the header and the whole bitmap. -/
theorem handleIoctlQuery_full {diskMap : DiskMap} {devNo : UInt32} {d : TrackedDisk}
    (h : Tracks diskMap devNo d) :
    handleIoctlQuery diskMap
        (.forDisk ioctlQueryCbtData devNo (bitmapDataOffset + d.state.totalBytes.toUInt32))
      = { status := .success
          written := queryHeader d.state.totalBits d.state.totalBytes.toUInt32
            ++ BitWords.bytes d.state.words
          bytesReturned := bitmapDataOffset + d.state.totalBytes.toUInt32 } := by
  obtain ⟨e, hfind, hstate⟩ := h
  have hlen : (BitWords.bytes d.state.words).length = d.state.totalBytes.toUInt32.toNat := by
    rw [BitWords.length_bytes, d.dimensioned.words, d.toNat_totalBytes, TrackedDisk.totalBlocks]
  rw [handleIoctlQuery, devNo_forDisk, hfind]
  simp only [hstate, if_neg d.live, ← hlen, List.take_length]
  simp [IoctlRequest.forDisk]

/-- A reset updates the first entry with the number. -/
theorem handleIoctlReset_snd {diskMap : DiskMap} {devNo : UInt32} {d : TrackedDisk}
    (h : Tracks diskMap devNo d) :
    (handleIoctlReset diskMap (.forDisk ioctlResetCbtData devNo 0)).2
      = DiskMap.updateFirst (fun e => e.diskNumber = devNo) DiskCbtState.rtlClearAllBits
          diskMap := by
  obtain ⟨e, hfind, hstate⟩ := h
  have hinput : ¬ (IoctlRequest.forDisk ioctlResetCbtData devNo 0).inputBuffer.length < 4 := by
    simp [IoctlRequest.forDisk]
  rw [handleIoctlReset, if_neg hinput, devNo_forDisk]
  simp only [hfind, hstate, if_neg d.live]

theorem find_updateFirst_self {f : DiskCbtState → DiskCbtState} (diskMap : DiskMap)
    (devNo : UInt32) :
    findDiskMapEntryByNumber (DiskMap.updateFirst (fun e => e.diskNumber = devNo) f diskMap) devNo
      = (findDiskMapEntryByNumber diskMap devNo).map fun e =>
          { e with cbtState := f e.cbtState } := by
  induction diskMap with
  | nil => rfl
  | cons e es ih =>
      by_cases he : e.diskNumber = devNo
      · simp [DiskMap.updateFirst, findDiskMapEntryByNumber, he]
      · simpa [DiskMap.updateFirst, findDiskMapEntryByNumber, he] using ih

/-- **A reset clears the bitmap that a query finds.** -/
theorem Tracks.reset {diskMap : DiskMap} {devNo : UInt32} {d : TrackedDisk}
    (h : Tracks diskMap devNo d) :
    Tracks (handleIoctlReset diskMap (.forDisk ioctlResetCbtData devNo 0)).2 devNo d.reset := by
  obtain ⟨e, hfind, hstate⟩ := id h
  refine ⟨{ e with cbtState := e.cbtState.rtlClearAllBits }, ?_, ?_⟩
  · rw [handleIoctlReset_snd h, find_updateFirst_self, hfind]
    rfl
  · rw [hstate]
    rfl

end Go2Cbt.Driver
