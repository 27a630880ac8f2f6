import Go2Cbt.Server.BlockProcessor
import Mathlib.Data.UInt

/-!
# Server — what processing a block does to the images

`process` either rejects a block and touches nothing, or issues one `pwrite` of the inflated
block (`processRequest_eq`).  From this:

* when a block is answered `OK`, the write is the exact one, unless its index wraps
  (`process_exact_iff`);
* when it is not, the images are as before, unless a write fell short
  (`process_failure_unchanged_iff`).
-/

namespace Go2Cbt.Server

open Go2Cbt.Protocol

/-- A `DATA_BLOCK` as `Process` gets it. -/
structure BlockRequest where
  devno : UInt32
  header : BlockHeader
  payload : Bytes
  deriving DecidableEq

/-- The offset of the write, as the code computes it. -/
def BlockRequest.offset (r : BlockRequest) : UInt64 :=
  r.header.blockIndex * UInt64.ofNat blockSize

/-- The checks of `Process`: why the block is refused, or its file and what it inflates to. -/
def BlockRequest.check (libs : Libs) (r : BlockRequest) : Except AckStatus (BackingFile × Bytes) :=
  match libs.diskMap.get r.devno with
  | none => .error .invalidDev
  | some bf =>
      if r.header.dataSize = 0 ∨ r.header.dataSize.toNat > blockSize then .error .outOfRange
      else if r.offset + r.header.dataSize.toUInt64 > bf.sizeBytes then .error .outOfRange
      else
        match libs.uncompress2 rawBufSize r.payload with
        | none => .error .decompressError
        | some raw =>
            if raw.length ≠ r.header.dataSize.toNat then .error .decompressError
            else if libs.sha256 raw ≠ r.header.hash then .error .hashMismatch
            else .ok (bf, raw)

/-- Every check of `Process` passes: the block is for the file `bf` and inflates to `raw`. -/
structure Accepts (libs : Libs) (r : BlockRequest) (bf : BackingFile) (raw : Bytes) : Prop where
  device : libs.diskMap.get r.devno = some bf
  size : r.header.dataSize ≠ 0 ∧ r.header.dataSize.toNat ≤ blockSize
  range : r.offset + r.header.dataSize.toUInt64 ≤ bf.sizeBytes
  inflates : libs.uncompress2 rawBufSize r.payload = some raw
  length : raw.length = r.header.dataSize.toNat
  hash : libs.sha256 raw = r.header.hash

/-- Bytes for the file `bf` at the offset of the request. -/
def BlockRequest.patch (r : BlockRequest) (libs : Libs) (bf : BackingFile) (data : Bytes) :
    Patch Nat :=
  { image := libs.fileOf bf.fd, off := r.offset.toNat, data }

/-- What the call of `pwrite` reports for the inflated block. -/
def BlockRequest.wrote (r : BlockRequest) (libs : Libs) (raw : Bytes) (files : Files) :
    Option Nat :=
  if r.offset.toNat ≥ 2 ^ 63 then none else libs.pwrite files.calls.length raw.length

/-- `process` on a request. -/
def processRequest (libs : Libs) (r : BlockRequest) (files : Files) :
    AckStatus × AckBody × Files :=
  process libs r.devno r.header r.payload files

/-! ### Two disks -/

/-- The bytes `1 2`, as zlib deflates them. -/
def deflatedOneTwo : Bytes := [120, 156, 99, 100, 2, 0, 0, 6, 0, 4]

/-- The SHA-256 of the bytes `1 2`. -/
def hashOfOneTwo : Hash :=
  { bytes := [161, 40, 113, 254, 226, 16, 251, 134, 25, 41, 30, 174, 161, 148, 88, 28, 189, 37, 49,
      228, 178, 55, 89, 210, 37, 246, 128, 105, 35, 246, 50, 34]
    length_eq := rfl }

/-- Devices 0 and 1 with files of 2 MB.  The libraries do what they do on the bytes `1 2`. -/
def twoDisks (writes : Nat → Nat → Option Nat) : Libs where
  diskMap := (SortedMap.empty.insert 0 { fd := 3, sizeBytes := 2097152, path := "disk0.img" }).insert
    1 { fd := 4, sizeBytes := 2097152, path := "disk1.img" }
  fileOf := id
  sha256 := fun _ => hashOfOneTwo
  uncompress2 := fun _ data => if data = deflatedOneTwo then some [1, 2] else none
  pwrite := writes

/-- Looking up one of the two disks. -/
theorem get_twoDisks {writes : Nat → Nat → Option Nat} {devno : UInt32} {bf : BackingFile}
    (h : (twoDisks writes).diskMap.get devno = some bf) : bf.fd = devno.toNat + 3 := by
  simp only [DiskMap.get, twoDisks, SortedMap.find?_insert] at h
  split at h
  · next h1 =>
    cases h
    rw [h1]
  · split at h
    · next h0 =>
      cases h
      rw [h0]
    · cases h

/-- Files of 2 MB that hold zeros. -/
def blankFiles : Files := { image := fun _ _ => 0, size := fun _ => 2097152, calls := [] }

/-- The bytes `1 2` as a block. -/
def oneTwoBlock (devno : UInt32) (blockIndex : UInt64) : BlockRequest where
  devno := devno
  header :=
    { blockIndex
      versionId := 1
      dataSize := 2
      compressedSize := 10
      hash := hashOfOneTwo }
  payload := deflatedOneTwo

section Process

variable {libs : Libs} {r : BlockRequest}

/-- The acknowledgement repeats the request. -/
def BlockRequest.ack (r : BlockRequest) (status : AckStatus) : AckBody :=
  { blockIndex := r.header.blockIndex
    status := status.code
    devNo := r.devno
    hash := r.header.hash }

/-- **`Process` checks, and then writes.** -/
theorem processRequest_eq (libs : Libs) (r : BlockRequest) (files : Files) :
    processRequest libs r files
      = match r.check libs with
        | .error status => (status, r.ack status, files)
        | .ok (bf, raw) =>
            let w := pwrite libs bf.fd raw r.offset files
            if w.1 = some raw.length then (.ok, r.ack .ok, w.2)
            else (.writeError, r.ack .writeError, w.2) := by
  rw [processRequest, process, BlockRequest.check]
  cases libs.diskMap.get r.devno with
  | none => rfl
  | some bf =>
      dsimp only
      by_cases hsize : r.header.dataSize = 0 ∨ r.header.dataSize.toNat > blockSize
      · rw [if_pos hsize, if_pos hsize]
        rfl
      rw [if_neg hsize, if_neg hsize, BlockRequest.offset]
      by_cases hrange : r.header.blockIndex * UInt64.ofNat blockSize
          + r.header.dataSize.toUInt64 > bf.sizeBytes
      · rw [if_pos hrange, if_pos hrange]
        rfl
      rw [if_neg hrange, if_neg hrange]
      cases libs.uncompress2 rawBufSize r.payload with
      | none => rfl
      | some raw =>
          dsimp only
          by_cases hlength : raw.length = r.header.dataSize.toNat
          · by_cases hhash : libs.sha256 raw = r.header.hash
            · rw [if_neg (not_not.mpr hlength), if_neg (not_not.mpr hhash),
                if_neg (not_not.mpr hlength), if_neg (not_not.mpr hhash)]
              exact ite_not _ _ _
            · rw [if_neg (not_not.mpr hlength), if_pos hhash, if_neg (not_not.mpr hlength),
                if_pos hhash]
              rfl
          · rw [if_pos hlength, if_pos hlength]
            rfl

theorem check_eq_ok_iff {bf : BackingFile} {raw : Bytes} :
    r.check libs = .ok (bf, raw) ↔ Accepts libs r bf raw := by
  constructor
  · intro h
    rw [BlockRequest.check] at h
    split at h
    · cases h
    · next bf' hdevice =>
      split at h
      · cases h
      · next hsize =>
        split at h
        · cases h
        · next hrange =>
          split at h
          · cases h
          · next raw' hinflates =>
            split at h
            · cases h
            · next hlength =>
              split at h
              · cases h
              · next hhash =>
                cases h
                obtain ⟨hzero, hbig⟩ := not_or.mp hsize
                exact
                  { device := hdevice
                    size := ⟨hzero, not_lt.mp hbig⟩
                    range := UInt64.not_lt.mp hrange
                    inflates := hinflates
                    length := not_not.mp hlength
                    hash := not_not.mp hhash }
  · intro h
    have hsize : ¬ (r.header.dataSize = 0 ∨ r.header.dataSize.toNat > blockSize) :=
      not_or.mpr ⟨h.size.1, not_lt.mpr h.size.2⟩
    rw [BlockRequest.check, h.device]
    dsimp only
    rw [if_neg hsize, if_neg (UInt64.not_lt.mpr h.range), h.inflates]
    dsimp only
    rw [if_neg (not_not.mpr h.length), if_neg (not_not.mpr h.hash)]

/-- No check answers `OK`. -/
theorem check_ne_error_ok : r.check libs ≠ .error .ok := by
  intro h
  rw [BlockRequest.check] at h
  repeat' split at h
  all_goals cases h

theorem Accepts.unique {bf bf' : BackingFile} {raw raw' : Bytes} (h : Accepts libs r bf raw)
    (h' : Accepts libs r bf' raw') : bf = bf' ∧ raw = raw' :=
  ⟨Option.some.inj (h.device.symm.trans h'.device),
    Option.some.inj (h.inflates.symm.trans h'.inflates)⟩

/-- **A block that fails a check is refused, and no file is touched.** -/
theorem process_of_refused {status : AckStatus} (h : r.check libs = .error status)
    (files : Files) :
    status ≠ .ok ∧ (processRequest libs r files).1 = status ∧
      (processRequest libs r files).2.2 = files := by
  refine ⟨fun hok => check_ne_error_ok (hok ▸ h), ?_⟩
  rw [processRequest_eq, h]
  exact ⟨rfl, rfl⟩

/-- A block answered `OK` passed every check. -/
theorem accepts_of_ok {files : Files} (hok : (processRequest libs r files).1 = .ok) :
    ∃ bf raw, Accepts libs r bf raw := by
  cases hcheck : r.check libs with
  | error status =>
      obtain ⟨hne, hstatus, -⟩ := process_of_refused hcheck files
      exact absurd (hstatus.symm.trans hok) hne
  | ok found => exact ⟨found.1, found.2, check_eq_ok_iff.mp hcheck⟩

/-- A write that fails leaves the files as they are. -/
theorem process_of_write_failed {bf : BackingFile} {raw : Bytes} (h : Accepts libs r bf raw)
    {files : Files} (hwrote : r.wrote libs raw files = none) :
    (processRequest libs r files).1 = .writeError ∧
      (processRequest libs r files).2.2.image = files.image ∧
      (processRequest libs r files).2.2.size = files.size := by
  have hcall : pwrite libs bf.fd raw r.offset files
      = (none, { files with calls := files.calls ++ [bf.fd] }) := by
    rw [BlockRequest.wrote] at hwrote
    rw [pwrite]
    split at hwrote
    · next hneg => exact if_pos hneg
    · next hneg => rw [if_neg hneg, hwrote]
  rw [processRequest_eq, check_eq_ok_iff.mpr h]
  dsimp only
  rw [hcall]
  exact ⟨rfl, rfl, rfl⟩

/-- A write that takes bytes puts them into the file of the device; the status says whether
it took all. -/
theorem process_of_write {bf : BackingFile} {raw : Bytes} (h : Accepts libs r bf raw)
    {files : Files} {n : Nat} (hwrote : r.wrote libs raw files = some n) :
    (processRequest libs r files).1 = (if raw.length ≤ n then .ok else .writeError) ∧
      (processRequest libs r files).2.2.image
        = (r.patch libs bf (raw.take n)).apply files.image ∧
      (processRequest libs r files).2.2.size
        = Function.update files.size (libs.fileOf bf.fd)
            (grownSize (files.size (libs.fileOf bf.fd)) r.offset.toNat (min n raw.length)) := by
  have hcall : pwrite libs bf.fd raw r.offset files
      = (some (min n raw.length),
          { image := (r.patch libs bf (raw.take n)).apply files.image
            size := Function.update files.size (libs.fileOf bf.fd)
              (grownSize (files.size (libs.fileOf bf.fd)) r.offset.toNat (min n raw.length))
            calls := files.calls ++ [bf.fd] }) := by
    rw [BlockRequest.wrote] at hwrote
    rw [pwrite]
    split at hwrote
    · next hneg => cases hwrote
    · next hneg =>
      rw [if_neg hneg, hwrote]
      rfl
  have hwhole : some (min n raw.length) = some raw.length ↔ raw.length ≤ n := by
    rw [Option.some.injEq]
    exact min_eq_right_iff
  rw [processRequest_eq, check_eq_ok_iff.mpr h]
  dsimp only
  rw [hcall]
  dsimp only
  by_cases hn : raw.length ≤ n
  · rw [if_pos (hwhole.mpr hn), if_pos hn]
    exact ⟨rfl, rfl, rfl⟩
  · rw [if_neg (mt hwhole.mp hn), if_neg hn]
    exact ⟨rfl, rfl, rfl⟩

/-! ### A block answered `OK` -/

/-- The address of the block, in exact arithmetic. -/
def BlockRequest.address (r : BlockRequest) : Nat := r.header.blockIndex.toNat * blockSize

/-- The inflated block `raw` has come to its own address in the file `bf` and nothing else has
changed.  A file keeps its size if it is as large as `DiskMap` recorded. -/
structure WrittenExactly (libs : Libs) (r : BlockRequest) (bf : BackingFile) (raw : Bytes)
    (files files' : Files) : Prop where
  device : libs.diskMap.get r.devno = some bf
  inRange : r.address + r.header.dataSize.toNat ≤ bf.sizeBytes.toNat
  inflates : libs.uncompress2 rawBufSize r.payload = some raw
  length : raw.length = r.header.dataSize.toNat
  hash : libs.sha256 raw = r.header.hash
  image : files'.image
    = Function.update files.image (libs.fileOf bf.fd)
        ((files.image (libs.fileOf bf.fd)).write r.address raw)
  size : bf.sizeBytes.toNat ≤ files.size (libs.fileOf bf.fd) → files'.size = files.size

/-- An `OK` is only answered after the exact write. -/
def ExactOnSuccess (libs : Libs) (r : BlockRequest) (files : Files) : Prop :=
  (processRequest libs r files).1 = .ok →
    ∃ bf raw, WrittenExactly libs r bf raw files (processRequest libs r files).2.2

/-- The index does not fit, and yet the block passes every check and is written whole. -/
def WrapsAround (libs : Libs) (r : BlockRequest) (files : Files) : Prop :=
  2 ^ 44 ≤ r.header.blockIndex.toNat ∧
    ∃ bf raw n, Accepts libs r bf raw ∧ r.wrote libs raw files = some n ∧ raw.length ≤ n

/-- Below `2 ^ 44` the offset does not wrap. -/
theorem offset_toNat (h : r.header.blockIndex.toNat < 2 ^ 44) : r.offset.toNat = r.address := by
  have hsize : (UInt64.ofNat blockSize).toNat = blockSize := rfl
  rw [BlockRequest.offset, UInt64.toNat_mul, hsize, BlockRequest.address, Nat.mod_eq_of_lt]
  rw [blockSize_eq]
  omega

/-- The offset counts the index modulo `2 ^ 44`. -/
theorem offset_toNat_mod (r : BlockRequest) :
    r.offset.toNat = r.header.blockIndex.toNat % 2 ^ 44 * blockSize := by
  have hsize : (UInt64.ofNat blockSize).toNat = blockSize := rfl
  rw [BlockRequest.offset, UInt64.toNat_mul, hsize, blockSize_eq]
  omega

/-- A block that passes the range check ends within the file, from the offset that is used. -/
theorem Accepts.offset_add_le {bf : BackingFile} {raw : Bytes} (h : Accepts libs r bf raw)
    (hneg : r.offset.toNat < 2 ^ 63) :
    r.offset.toNat + r.header.dataSize.toNat ≤ bf.sizeBytes.toNat := by
  have hrange : (r.offset + r.header.dataSize.toUInt64).toNat ≤ bf.sizeBytes.toNat :=
    UInt64.le_iff_toNat_le.mp h.range
  have hsize := h.size.2
  rw [blockSize_eq] at hsize
  rw [UInt64.toNat_add, UInt32.toNat_toUInt64, Nat.mod_eq_of_lt (by omega)] at hrange
  exact hrange

theorem wrote_some {raw : Bytes} {files : Files} {n : Nat}
    (h : r.wrote libs raw files = some n) :
    r.offset.toNat < 2 ^ 63 ∧ libs.pwrite files.calls.length raw.length = some n := by
  rw [BlockRequest.wrote] at h
  split at h
  · cases h
  · next hneg => exact ⟨not_le.mp hneg, h⟩

/-- A write that stays within the size of the file does not change it. -/
theorem grownSize_of_le {size offset n : Nat} (h : offset + n ≤ size) :
    grownSize size offset n = size := by
  rw [grownSize, max_eq_left h, ite_self]

/-- A block that is written whole, with an index that fits, is written exactly. -/
theorem writtenExactly_of_write {bf : BackingFile} {raw : Bytes} (h : Accepts libs r bf raw)
    {files : Files} {n : Nat} (hwrote : r.wrote libs raw files = some n) (hn : raw.length ≤ n)
    (hidx : r.header.blockIndex.toNat < 2 ^ 44) :
    WrittenExactly libs r bf raw files (processRequest libs r files).2.2 := by
  obtain ⟨-, himage, hsize⟩ := process_of_write h hwrote
  have hend := h.offset_add_le (wrote_some hwrote).1
  have haddress := offset_toNat hidx
  refine
    { device := h.device
      inRange := haddress ▸ hend
      inflates := h.inflates
      length := h.length
      hash := h.hash
      image := ?_
      size := fun hle => ?_ }
  · rw [himage, List.take_of_length_le hn, Patch.apply, BlockRequest.patch, haddress]
  · rw [hsize, min_eq_right hn, h.length, grownSize_of_le (hend.trans hle)]
    exact Function.update_eq_self _ _

/-- **A block touches no byte outside its own**, whatever becomes of it. -/
theorem process_of_outside (libs : Libs) {r : BlockRequest} (files : Files) (file : Nat) {k : Nat}
    (hk : k < r.offset.toNat ∨ r.offset.toNat + blockSize ≤ k) :
    (processRequest libs r files).2.2.image file k = files.image file k := by
  cases hcheck : r.check libs with
  | error status => rw [(process_of_refused hcheck files).2.2]
  | ok found =>
      have h := check_eq_ok_iff.mp hcheck
      cases hwrote : r.wrote libs found.2 files with
      | none => rw [(process_of_write_failed h hwrote).2.1]
      | some n =>
          rw [(process_of_write h hwrote).2.1]
          refine Patch.apply_of_outside _ fun _ => ?_
          have hle : (found.2.take n).length ≤ blockSize := by
            rw [List.length_take, h.length]
            exact (min_le_right _ _).trans h.size.2
          rw [BlockRequest.patch]
          dsimp only
          omega

/-- **An `OK` means the exact write, unless the index wrapped.** -/
theorem process_exact_iff (libs : Libs) (r : BlockRequest) (files : Files) :
    ExactOnSuccess libs r files ↔ ¬ WrapsAround libs r files := by
  constructor
  · rintro hexact ⟨hidx, bf, raw, n, h, hwrote, hn⟩
    have hok : (processRequest libs r files).1 = .ok :=
      (process_of_write h hwrote).1.trans (if_pos hn)
    obtain ⟨bf', raw', hw⟩ := hexact hok
    have hend := hw.inRange
    have hfile := bf'.sizeBytes.toNat_lt
    rw [BlockRequest.address, blockSize_eq] at hend
    omega
  · intro hwraps hok
    cases hcheck : r.check libs with
    | error status =>
        obtain ⟨hne, hstatus, -⟩ := process_of_refused hcheck files
        exact absurd (hstatus.symm.trans hok) hne
    | ok found =>
        obtain ⟨bf, raw⟩ := found
        have h := check_eq_ok_iff.mp hcheck
        cases hwrote : r.wrote libs raw files with
        | none =>
            have hstatus := (process_of_write_failed h hwrote).1
            exact absurd (hstatus.symm.trans hok) AckStatus.noConfusion
        | some n =>
            have hstatus := (process_of_write h hwrote).1
            have hn : raw.length ≤ n := by
              by_contra hshort
              rw [if_neg hshort] at hstatus
              exact absurd (hstatus.symm.trans hok) AckStatus.noConfusion
            have hidx : r.header.blockIndex.toNat < 2 ^ 44 := by
              by_contra hbig
              exact hwraps ⟨not_lt.mp hbig, bf, raw, n, h, hwrote, hn⟩
            exact ⟨bf, raw, writtenExactly_of_write h hwrote hn hidx⟩

/-- The block `2 ^ 44` lands on the first bytes of the disk, and is answered `OK`. -/
theorem wrapped_block_answered_ok :
    ¬ ExactOnSuccess (twoDisks fun _ len => some len) (oneTwoBlock 0 (2 ^ 44)) blankFiles := by
  intro h
  obtain ⟨bf, raw, hw⟩ := h (by decide)
  have hend := hw.inRange
  have hfile := bf.sizeBytes.toNat_lt
  have haddress : (oneTwoBlock 0 (2 ^ 44)).address = 2 ^ 64 := by decide
  omega

/-! ### A block answered otherwise -/

/-- Any other answer leaves every byte of every file. -/
def UnchangedOnFailure (libs : Libs) (r : BlockRequest) (files : Files) : Prop :=
  (processRequest libs r files).1 ≠ .ok → (processRequest libs r files).2.2.image = files.image

/-- The block passes every check, and `pwrite` stops early after bytes that were not there. -/
def FallsShort (libs : Libs) (r : BlockRequest) (files : Files) : Prop :=
  ∃ bf raw n, Accepts libs r bf raw ∧ r.wrote libs raw files = some n ∧ n < raw.length ∧
    ¬ (r.patch libs bf (raw.take n)).Present files.image

/-- **A failure leaves the images, unless a write fell short.** -/
theorem process_failure_unchanged_iff (libs : Libs) (r : BlockRequest) (files : Files) :
    UnchangedOnFailure libs r files ↔ ¬ FallsShort libs r files := by
  constructor
  · rintro hsame ⟨bf, raw, n, h, hwrote, hn, habsent⟩
    obtain ⟨hstatus, himage, -⟩ := process_of_write h hwrote
    have hfails : (processRequest libs r files).1 ≠ .ok := by
      rw [hstatus, if_neg (not_le.mpr hn)]
      exact AckStatus.noConfusion
    exact habsent (Patch.apply_eq_self_iff.mp (himage.symm.trans (hsame hfails)))
  · intro hshort hfails
    cases hcheck : r.check libs with
    | error status =>
        rw [(process_of_refused hcheck files).2.2]
    | ok found =>
        obtain ⟨bf, raw⟩ := found
        have h := check_eq_ok_iff.mp hcheck
        cases hwrote : r.wrote libs raw files with
        | none => exact (process_of_write_failed h hwrote).2.1
        | some n =>
            obtain ⟨hstatus, himage, -⟩ := process_of_write h hwrote
            have hn : n < raw.length := by
              by_contra hwhole
              exact hfails (hstatus.trans (if_pos (not_lt.mp hwhole)))
            rw [himage]
            refine Patch.apply_eq_self_iff.mpr ?_
            by_contra habsent
            exact hshort ⟨bf, raw, n, h, hwrote, hn, habsent⟩

/-- A disk that is full after one byte: the block is refused, and its first byte is written. -/
theorem short_write_leaves_byte :
    ¬ UnchangedOnFailure (twoDisks fun _ _ => some 1) (oneTwoBlock 0 0) blankFiles := by
  intro h
  have himage := congrFun (congrFun (h (by decide)) 3) 0
  exact absurd himage (by decide)

end Process

end Go2Cbt.Server
