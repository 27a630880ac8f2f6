import Go2Cbt.Client.BlockState
import Go2Cbt.Protocol
import Mathlib.Data.List.TakeWhile

/-!
# Client — the state file

`BlockStateManager::Save` and `Load`: a 64-byte header with a checksum, one record of 48 bytes
for each block, and one row of 92 bytes for each version.

`SerializeBlock` fills 52 bytes and `DeserializeBlock` reads 52, while the buffer they are given
and the record in the file have 48.  What lies behind the buffer when a record is read is not the
file's, so it is a parameter: `slack i` are the four bytes behind the `i`-th record.
-/

namespace Go2Cbt.Client

open LittleEndian

/-- `STATE_FILE_MAGIC`. -/
def stateFileMagic : UInt32 := 0x534B4C42

/-- `STATE_FILE_VERSION`. -/
def stateFileVersion : UInt32 := 1

/-- `BLOCK_RECORD_SIZE`. -/
def blockRecordSize : Nat := 48

/-- `HEADER_SIZE` of the state file. -/
def stateHeaderSize : Nat := 64

/-- The bytes of a row of the version table. -/
def versionRowSize : Nat := 92

/-! ### The checksum -/

/-- The table of `ComputeCRC32`, as the source spells it. -/
def crcTable : List UInt32 :=
  [
    0x00000000, 0x77073096, 0xEE0E612C, 0x990951BA, 0x076DC419, 0x706AF48F, 0xE963A535, 0x9E6495A3,
    0x0EDB8832, 0x79DCB8A4, 0xE0D5E91E, 0x97D2D988, 0x09B64C2B, 0x7EB17CBD, 0xE7B82D07, 0x90BF1D91,
    0x1DB71064, 0x6AB020F2, 0xF3B97148, 0x84BE41DE, 0x1ADAD47D, 0x6DDDE4EB, 0xF4D4B551, 0x83D385C7,
    0x136C9856, 0x646BA8C0, 0xFD62F97A, 0x8A65C9EC, 0x14015C4F, 0x63066CD9, 0xFA0F3D63, 0x8D080DF5,
    0x3B6E20C8, 0x4C69105E, 0xD56041E4, 0xA2677172, 0x3C03E4D1, 0x4B04D447, 0xD20D85FD, 0xA50AB56B,
    0x35B5A8FA, 0x42B2986C, 0xDBBBC9D6, 0xACBCF940, 0x32D86CE3, 0x45DF5C75, 0xDCD60DCF, 0xABD13D59,
    0x26D930AC, 0x51DE003A, 0xC8D75180, 0xBFD06116, 0x21B4F4B5, 0x56B3C423, 0xCFBA9599, 0xB8BDA50F,
    0x2802B89E, 0x5F058808, 0xC60CD9B2, 0xB10BE924, 0x2F6F7C87, 0x58684C11, 0xC1611DAB, 0xB6662D3D,
    0x76DC4190, 0x01DB7106, 0x98D220BC, 0xEFD5102A, 0x71B18589, 0x06B6B51F, 0x9FBFE4A5, 0xE8B8D433,
    0x7807C9A2, 0x0F00F934, 0x9609A88E, 0xE10E9818, 0x7F6A0DBB, 0x086D3D2D, 0x91646C97, 0xE6635C01,
    0x6B6B51F4, 0x1C6C6162, 0x856530D8, 0xF262004E, 0x6C0695ED, 0x1B01A57B, 0x8208F4C1, 0xF50FC457,
    0x65B0D9C6, 0x12B7E950, 0x8BBEB8EA, 0xFCB9887C, 0x62DD1DDF, 0x15DA2D49, 0x8CD37CF3, 0xFBD44C65,
    0x4DB26158, 0x3AB551CE, 0xA3BC0074, 0xD4BB30E2, 0x4ADFA541, 0x3DD895D7, 0xA4D1C46D, 0xD3D6F4FB,
    0x4369E96A, 0x346ED9FC, 0xAD678846, 0xDA60B8D0, 0x44042D73, 0x33031DE5, 0xAA0A4C5F, 0xDD0D7CC9,
    0x5005713C, 0x270241AA, 0xBE0B1010, 0xC90C2086, 0x5768B525, 0x206F85B3, 0xB966D409, 0xCE61E49F,
    0x5EDEF90E, 0x29D9C998, 0xB0D09822, 0xC7D7A8B4, 0x59B33D17, 0x2EB40D81, 0xB7BD5C3B, 0xC0BA6CAD,
    0xEDB88320, 0x9ABFB3B6, 0x03B6E20C, 0x74B1D29A, 0xEAD54739, 0x9DD277AF, 0x04DB2615, 0x73DC1683,
    0xE3630B12, 0x94643B84, 0x0D6D6A3E, 0x7A6A5AA8, 0xE40ECF0B, 0x9309FF9D, 0x0A00AE27, 0x7D079EB1,
    0xF00F9344, 0x8708A3D2, 0x1E01F268, 0x6906C2FE, 0xF762575D, 0x806567CB, 0x196C3671, 0x6E6B06E7,
    0xFED41B76, 0x89D32BE0, 0x10DA7A5A, 0x67DD4ACC, 0xF9B9DF6F, 0x8EBEEFF9, 0x17B7BE43, 0x60B08ED5,
    0xD6D6A3E8, 0xA1D1937E, 0x38D8C2C4, 0x4FDFF252, 0xD1BB67F1, 0xA6BC5767, 0x3FB506DD, 0x48B2364B,
    0xD80D2BDA, 0xAF0A1B4C, 0x36034AF6, 0x41047A60, 0xDF60EFC3, 0xA867DF55, 0x316E8EEF, 0x4669BE79,
    0xCB61B38C, 0xBC66831A, 0x256FD2A0, 0x5268E236, 0xCC0C7795, 0xBB0B4703, 0x220216B9, 0x5505262F,
    0xC5BA3BBE, 0xB2BD0B28, 0x2BB45A92, 0x5CB30A04, 0xC2D7FFA7, 0xB5D0CF31, 0x2CD99E8B, 0x5BDEAE1D,
    0x9B64C2B0, 0xEC63F226, 0x756AA39C, 0x026D930A, 0x9C0906A9, 0xEB0E363F, 0x72676785, 0x05605713,
    0x95BF4A82, 0xE2B87A14, 0x7BB12BAE, 0x0CB61B38, 0x92D28E9B, 0xE5D5BE0D, 0x7CDCEFB7, 0x0BDBDF21,
    0x86D3D2D4, 0xF1D4E242, 0x68DDB3F8, 0x1FDA836E, 0x81BE16CD, 0xF6B9265B, 0x6FB077E1, 0x18B74777,
    0x88085AE6, 0xFF0F6A70, 0x66063BCA, 0x11010B5C, 0x8F659EFF, 0xF862AE69, 0x616BFFD3, 0x166CCF45,
    0xA00AE278, 0xD70DD2EE, 0x4E048354, 0x3903B3C2, 0xA7672661, 0xD06016F7, 0x4969474D, 0x3E6E77DB,
    0xAED16A4A, 0xD9D65ADC, 0x40BF0B66, 0x37B83BF0, 0xA9BCAE53, 0xDEBB9EC5, 0x47A2CF7F, 0x30A5FFE9,
    0xBDBDF21C, 0xCABAC28A, 0x539BD330, 0x249CF3A6, 0xBA2D6605, 0xCD2A7693, 0x54052729, 0x230236BF,
    0xB300352E, 0xC40713B8, 0x5D0E4202, 0x2A09F294, 0xB4CF6737, 0xC3C857A1, 0x5AEF061B, 0x2DE8F58D]

/-- One turn of the loop of `ComputeCRC32`. -/
def crcStep (crc : UInt32) (b : UInt8) : UInt32 :=
  (crc >>> 8) ^^^ crcTable.getD ((crc ^^^ b.toUInt32) &&& 0xFF).toNat 0

/-- `ComputeCRC32`. -/
def computeCrc32 (data : Bytes) : UInt32 := data.foldl crcStep 0xFFFFFFFF ^^^ 0xFFFFFFFF

/-! ### Block records -/

def AckStatus.code : AckStatus → UInt32
  | pending => 0
  | sent => 1
  | acknowledged => 2
  | failed => 3
  | skipped => 4
  | unnamed code => code

/-- The status a code stands for. -/
def AckStatus.ofCode (code : UInt32) : AckStatus :=
  if code = 0 then pending
  else if code = 1 then sent
  else if code = 2 then acknowledged
  else if code = 3 then failed
  else if code = 4 then skipped
  else unnamed code

/-- One of the five values of the enumeration. -/
def AckStatus.Named : AckStatus → Prop
  | unnamed _ => False
  | _ => True

/-- The flags of a record: bit 0 is the changed flag, bits 1 to 3 are the status. -/
def BlockState.flags (bs : BlockState) : UInt32 :=
  (if bs.changed then (1 : UInt32) else 0) ||| ((bs.ack.code &&& 0x07) <<< 1)

/-- `SerializeBlock`: everything it writes, from the start of the buffer on. -/
def serializeBlock (bs : BlockState) : Bytes :=
  ofU32 bs.flags ++ ofU64 bs.blockIndex ++ ofU64 bs.versionId ++ bs.hash.bytes

/-- `DeserializeBlock`, on everything it reads. -/
def deserializeBlock (data : Bytes) : BlockState :=
  let flags := u32 data 0
  { blockIndex := u64 data 4
    offset := u64 data 4 * UInt64.ofNat blockSize
    hash := Protocol.hashField data 20
    versionId := u64 data 12
    ack := .ofCode ((flags >>> 1) &&& 0x07)
    changed := flags &&& 0x01 ≠ 0 }

/-- The record in the file: what fits the buffer. -/
def blockRecord (bs : BlockState) : Bytes := (serializeBlock bs).take blockRecordSize

@[simp] theorem length_blockRecord (bs : BlockState) :
    (blockRecord bs).length = blockRecordSize := by
  simp [blockRecord, serializeBlock, blockRecordSize, bs.hash.length_eq]

theorem code_ofCode (code : UInt32) : (AckStatus.ofCode code).code = code := by
  rw [AckStatus.ofCode]
  split
  · next h => exact h.symm
  · split
    · next h => exact h.symm
    · split
      · next h => exact h.symm
      · split
        · next h => exact h.symm
        · split
          · next h => exact h.symm
          · rfl

/-- A status that fits the three bits of a record. -/
def AckStatus.Coded (ack : AckStatus) : Prop := ∃ code < 8, ack = ofCode code

theorem AckStatus.Named.coded {ack : AckStatus} (h : ack.Named) : ack.Coded := by
  cases ack with
  | pending => exact ⟨0, by decide, rfl⟩
  | sent => exact ⟨1, by decide, rfl⟩
  | acknowledged => exact ⟨2, by decide, rfl⟩
  | failed => exact ⟨3, by decide, rfl⟩
  | skipped => exact ⟨4, by decide, rfl⟩
  | unnamed code => exact h.elim

/-- The status and the changed flag survive, whatever the three bits are. -/
theorem flags_of_coded {bs : BlockState} (h : bs.ack.Coded) :
    AckStatus.ofCode ((bs.flags >>> 1) &&& 0x07) = bs.ack ∧
      decide (bs.flags &&& 0x01 ≠ 0) = bs.changed := by
  obtain ⟨code, hcode, hack⟩ := h
  have hcases : code = 0 ∨ code = 1 ∨ code = 2 ∨ code = 3 ∨ code = 4 ∨ code = 5 ∨ code = 6 ∨
      code = 7 := by
    have hlt : code.toNat < 8 := UInt32.lt_iff_toNat_lt.mp hcode
    simp only [← UInt32.toNat_inj]
    change _ = 0 ∨ _ = 1 ∨ _ = 2 ∨ _ = 3 ∨ _ = 4 ∨ _ = 5 ∨ _ = 6 ∨ _ = 7
    omega
  rw [BlockState.flags, hack, code_ofCode]
  rcases hcases with rfl | rfl | rfl | rfl | rfl | rfl | rfl | rfl <;> cases bs.changed <;> decide

/-- A block as a load gives it back: the last four bytes of the hash come from behind the
buffer. -/
def BlockState.reread (bs : BlockState) (slack : Vector UInt8 4) : BlockState :=
  { bs with
    offset := bs.blockIndex * UInt64.ofNat blockSize
    hash :=
      ⟨bs.hash.bytes.take 28 ++ slack.toList, by
        rw [List.length_append, List.length_take, bs.hash.length_eq, Vector.length_toList]
        rfl⟩ }

theorem BlockState.ack_with (bs : BlockState) (offset : UInt64) (hash : Hash) :
    ({ bs with offset, hash } : BlockState).ack = bs.ack := rfl

theorem BlockState.place_with (bs : BlockState) (offset : UInt64) (hash : Hash) :
    ({ bs with offset, hash } : BlockState).place = (bs.blockIndex, offset) := rfl

/-- A block read back has its status. -/
theorem BlockState.ack_reread (bs : BlockState) (slack : Vector UInt8 4) :
    (bs.reread slack).ack = bs.ack := bs.ack_with _ _

/-- It has its number, and its offset is computed from that. -/
theorem BlockState.place_reread (bs : BlockState) (slack : Vector UInt8 4) :
    (bs.reread slack).place = (bs.blockIndex, bs.blockIndex * UInt64.ofNat blockSize) :=
  bs.place_with _ _

theorem blockRecord_eq (bs : BlockState) :
    blockRecord bs
      = ofU32 bs.flags ++ ofU64 bs.blockIndex ++ ofU64 bs.versionId ++ bs.hash.bytes.take 28 := by
  have hfront : (ofU32 bs.flags ++ ofU64 bs.blockIndex ++ ofU64 bs.versionId).length = 20 := by
    simp
  rw [blockRecord, serializeBlock, blockRecordSize, List.take_append, hfront,
    List.take_of_length_le (by rw [hfront]; decide)]

/-- The flags of a record as a load reads them. -/
theorem u32_blockRecord (bs : BlockState) (rest : Bytes) :
    u32 (blockRecord bs ++ rest) 0 = bs.flags := by
  simp [blockRecord_eq, u32_head]

/-- **Reading a record back.** -/
theorem deserializeBlock_blockRecord {bs : BlockState} (h : bs.ack.Named)
    (slack : Vector UInt8 4) :
    deserializeBlock (blockRecord bs ++ slack.toList) = bs.reread slack := by
  have hindex : u64 (blockRecord bs ++ slack.toList) 4 = bs.blockIndex := by
    simp [blockRecord_eq, u64_skip, u64_head]
  have hversion : u64 (blockRecord bs ++ slack.toList) 12 = bs.versionId := by
    simp [blockRecord_eq, u64_skip, u64_head]
  have hhash : Protocol.hashField (blockRecord bs ++ slack.toList) 20
      = (bs.reread slack).hash := by
    have hskip : ((ofU32 bs.flags ++ ofU64 bs.blockIndex) ++ ofU64 bs.versionId).length = 20 := by
      simp
    rw [blockRecord_eq, List.append_assoc, Protocol.hashField_skip hskip.le, hskip]
    have := Protocol.hashField_head (bs.reread slack).hash []
    rwa [List.append_nil] at this
  rw [deserializeBlock, hindex, hversion, hhash, u32_blockRecord, (flags_of_coded h.coded).1,
    (flags_of_coded h.coded).2]
  rfl

/-! ### Version rows -/

/-- What `wcsncpy_s` copies of a type: at most 15 units before the first zero. -/
def storedType (type : List UInt16) : List UInt16 := (type.takeWhile (· ≠ 0)).take 15

theorem length_storedType_le (type : List UInt16) : (storedType type).length ≤ 15 := by
  rw [storedType, List.length_take]
  exact Nat.min_le_left _ _

/-- The zeroed buffer that a type is copied to. -/
def typeBuffer (type : List UInt16) : Vector UInt16 16 :=
  ⟨(storedType type ++ List.replicate (16 - (storedType type).length) 0).toArray, by
    have := length_storedType_le type
    simp
    omega⟩

/-- A buffer read as a text. -/
def typeOfBuffer (buffer : Vector UInt16 16) : List UInt16 := buffer.toList.takeWhile (· ≠ 0)

/-- A row of the version table. -/
def versionRow (ver : VersionRecord) : Bytes :=
  ofU64 ver.versionId ++ ofU32 ver.devNo
    ++ ofUnits (typeBuffer ver.versionType) ++ ofU64 ver.snapshotTime ++ ofU64 ver.totalBlocks
    ++ ofU64 ver.changedBlocks ++ ofU64 ver.totalSize ++ ofU64 ver.ackedBlocks
    ++ ofU64 ver.createTimestamp

/-- A row read back. -/
def readVersion (row : Bytes) : VersionRecord :=
  { versionId := u64 row 0
    devNo := u32 row 8
    versionType := typeOfBuffer (units 16 row 12)
    snapshotTime := u64 row 44
    totalBlocks := u64 row 52
    changedBlocks := u64 row 60
    totalSize := u64 row 68
    ackedBlocks := u64 row 76
    createTimestamp := u64 row 84 }

@[simp] theorem length_versionRow (ver : VersionRecord) :
    (versionRow ver).length = versionRowSize := by
  simp [versionRow, versionRowSize]

theorem typeOfBuffer_typeBuffer (type : List UInt16) :
    typeOfBuffer (typeBuffer type) = storedType type := by
  have hlen := length_storedType_le type
  have hnonzero : ∀ u ∈ storedType type, (decide (u ≠ 0)) = true := by
    intro u hu
    have hmem : u ∈ type.takeWhile (· ≠ 0) := List.mem_of_mem_take hu
    have hne := List.mem_takeWhile_imp hmem
    exact hne
  have hpad : 16 - (storedType type).length = 15 - (storedType type).length + 1 := by omega
  have hlist : (typeBuffer type).toList
      = storedType type ++ List.replicate (16 - (storedType type).length) 0 := rfl
  rw [typeOfBuffer, hlist, List.takeWhile_append_of_pos hnonzero, hpad, List.replicate_succ,
    List.takeWhile_cons_of_neg (by decide), List.append_nil]

/-- A type of at most 15 units is stored whole unless it contains a zero. -/
theorem storedType_eq_iff {type : List UInt16} (hlen : type.length ≤ 15) :
    storedType type = type ↔ (0 : UInt16) ∉ type := by
  have hall : storedType type = type.takeWhile (· ≠ 0) :=
    List.take_of_length_le ((List.takeWhile_prefix _).length_le.trans hlen)
  rw [hall, List.takeWhile_eq_self_iff]
  refine ⟨fun h hz => ?_, fun h u hu => decide_eq_true fun hz => h (hz ▸ hu)⟩
  exact of_decide_eq_true (h 0 hz) rfl

/-- **Reading a row back.** -/
theorem readVersion_versionRow (ver : VersionRecord) :
    readVersion (versionRow ver) = { ver with versionType := storedType ver.versionType } := by
  have hunits : typeOfBuffer (units 16 (versionRow ver) 12) = storedType ver.versionType := by
    rw [← typeOfBuffer_typeBuffer]
    simp [versionRow, units_head, units_skip]
  have htime : u64 (versionRow ver) 84 = ver.createTimestamp := by
    have := u64_head ver.createTimestamp []
    rw [List.append_nil] at this
    simp [versionRow, u64_skip, this]
  rw [readVersion, hunits, htime]
  simp [versionRow, u32_head, u32_skip, u64_head, u64_skip]

namespace BlockStateManager

/-! ### Save -/

/-- The fields of the header in front of the checksum. -/
def headerFields (m : BlockStateManager) : Bytes :=
  ofU32 stateFileMagic ++ ofU32 stateFileVersion ++ ofU32 m.devNo
    ++ ofU32 (UInt32.ofNat blockRecordSize) ++ ofU64 (UInt64.ofNat blockSize)
    ++ ofU64 m.totalBlocks ++ ofU32 (UInt32.ofNat m.versions.size)

/-- The header with a checksum and its padding. -/
def stateHeader (m : BlockStateManager) (crc : UInt32) : Bytes :=
  m.headerFields ++ ofU32 crc ++ List.replicate 24 0

/-- The file that `Save` writes: a header without a checksum, the records and the rows, and then
the header over again, with the checksum of its first 36 bytes. -/
def stateFile (m : BlockStateManager) : Bytes :=
  let written := m.stateHeader 0 ++ m.blocks.flatMap blockRecord
    ++ m.versions.entries.flatMap fun e => versionRow e.2
  m.stateHeader (computeCrc32 ((m.stateHeader 0).take 36)) ++ written.drop stateHeaderSize

/-- `Save` when every file operation succeeds: the file it leaves, if it gets as far. -/
def save (m : BlockStateManager) : Bool × Option Bytes × BlockStateManager :=
  if m.initialized then (true, some m.stateFile, { m with dirty := false }) else (false, none, m)

/-! ### Load -/

/-- `ReadFile`: up to `n` bytes, and what is left of the file. -/
def readFile (n : Nat) (rest : Bytes) : Bytes × Bytes := (rest.take n, rest.drop n)

/-- The loop over the block records, with `left` to go from the `i`-th. -/
def readBlocks (slack : Nat → Vector UInt8 4) : (left i : Nat) → Bytes → List BlockState × Bytes
  | 0, _, rest => ([], rest)
  | left + 1, i, rest =>
      let read := readFile blockRecordSize rest
      if read.1.length < blockRecordSize then ([], read.2)
      else
        let more := readBlocks slack left (i + 1) read.2
        (deserializeBlock (read.1 ++ (slack i).toList) :: more.1, more.2)

/-- The loop over the version rows, with `left` to go. -/
def readVersions : (left : Nat) → Bytes → SortedMap Nat VersionRecord × UInt64 →
    SortedMap Nat VersionRecord × UInt64
  | 0, _, table => table
  | left + 1, rest, table =>
      let read := readFile versionRowSize rest
      if read.1.length < versionRowSize then table
      else
        let ver := readVersion read.1
        readVersions left read.2
          (table.1.insert ver.versionId.toNat ver,
            if ver.versionId ≥ table.2 then ver.versionId + 1 else table.2)

/-- `Load`; there may be no file. -/
def load (slack : Nat → Vector UInt8 4) (file : Option Bytes) (m : BlockStateManager) :
    Bool × BlockStateManager :=
  match file with
  | none => (false, m)
  | some content =>
      let read := readFile stateHeaderSize content
      let header := read.1
      if header.length < stateHeaderSize then (false, m)
      else
        let m := { m with totalBlocks := u64 header 24 }
        let savedCrc := u32 header 36
        let computedCrc :=
          computeCrc32 (header.take 36 ++ List.replicate 4 0 ++ header.drop 40)
        if savedCrc ≠ computedCrc then (false, m)
        else if u32 header 0 ≠ stateFileMagic ∨ u32 header 12 ≠ UInt32.ofNat blockRecordSize then
          (false, m)
        else
          let blocks := readBlocks slack m.totalBlocks.toNat 0 read.2
          let table := readVersions (u32 header 32).toNat blocks.2 (.empty, 0)
          (true,
            { m with
              devNo := u32 header 8
              blocks := blocks.1
              versions := table.1
              nextVersionId := table.2 })

/-- `Initialize`, with what `Load` reports. -/
def initializeFrom (slack : Nat → Vector UInt8 4) (file : Option Bytes) (devNo : UInt32) :
    Bool × BlockStateManager :=
  load slack file { new with devNo := devNo, initialized := true }

end BlockStateManager

end Go2Cbt.Client
