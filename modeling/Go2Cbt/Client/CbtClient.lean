import Go2Cbt.Driver.Ioctl

/-!
# Client — the driver's bitmap as the client reads it

`CbtClient::Query` asks the driver twice, first for the sizes and then for the whole bitmap, and
`CbtClient::ParseChangedBlocks` lists the blocks whose bit it finds set.

The driver and the client count the bits of a byte from opposite ends.  `mirror` is the block
whose bit the client looks at for block `i`, and `parseChangedBlocks_query_iff` says for which
bitmaps the list is still right.
-/

namespace Go2Cbt.Client

open Go2Cbt.Driver

/-- What `DeviceIoControl` and `GetLastError` report. -/
inductive IoOutcome where
  | ok
  | moreData
  | failed
  deriving DecidableEq, Repr

/-- `DeviceIoControl` with a buffered method: the reply lands at the start of `buf`, except that
an error leaves `buf` as it was. -/
def deviceIoControl (reply : IoctlReply) (buf : Bytes) : IoOutcome × Bytes :=
  match reply.status with
  | .success => (.ok, reply.written ++ buf.drop reply.written.length)
  | .bufferOverflow => (.moreData, reply.written ++ buf.drop reply.written.length)
  | _ => (.failed, buf)

namespace CbtClient

/-- `CbtClient::Query`.  The driver is `atStep1` when it answers the first request and
`atStep2` when it answers the second; `none` is a failed query. -/
def query (connected : Bool) (atStep1 atStep2 : DiskMap) (devNo : UInt32) :
    Option (Bytes × UInt64) :=
  if connected then
    let step1 := deviceIoControl
      (cbtDispatchDeviceControl atStep1 (.forDisk ioctlQueryCbtData devNo 16)).1
      (List.replicate 16 0)
    if step1.1 = .failed then none
    else
      let totalBits := LittleEndian.u64 step1.2 0
      let totalBytes := LittleEndian.u64 step1.2 8
      if totalBytes = 0 ∨ totalBits = 0 then none
      else
        let requiredSize := (bitmapDataOffset.toUInt64 + totalBytes).toUInt32
        let step2 := deviceIoControl
          (cbtDispatchDeviceControl atStep2 (.forDisk ioctlQueryCbtData devNo requiredSize)).1
          (List.replicate requiredSize.toNat 0)
        if step2.1 = .ok then some (LittleEndian.field step2.2 16 totalBytes.toNat, totalBits)
        else none
  else none

/-- The loop of `ParseChangedBlocks` from block `i` on, with `left` blocks to go. -/
def parseChangedBlocksFrom (bitmap : Bytes) : (left i : Nat) → List Nat → List Nat
  | 0, _, changedBlocks => changedBlocks
  | left + 1, i, changedBlocks =>
      let byteIndex := i / 8
      let bitInByte := 7 - i % 8
      if byteIndex ≥ bitmap.length then changedBlocks
      else if (bitmap.getD byteIndex 0 >>> UInt8.ofNat bitInByte) &&& 1 = 1 then
        parseChangedBlocksFrom bitmap left (i + 1) (changedBlocks ++ [i])
      else parseChangedBlocksFrom bitmap left (i + 1) changedBlocks

/-- `CbtClient::ParseChangedBlocks`. -/
def parseChangedBlocks (bitmap : Bytes) (totalBits : UInt64) : List Nat :=
  parseChangedBlocksFrom bitmap totalBits.toNat 0 []

/-- `CbtClient::Reset`, with the driver it leaves behind. -/
def reset (connected : Bool) (driver : DiskMap) (devNo : UInt32) : Bool × DiskMap :=
  if connected then
    let reply := cbtDispatchDeviceControl driver (.forDisk ioctlResetCbtData devNo 0)
    (decide ((deviceIoControl reply.1 []).1 = .ok), reply.2)
  else (false, driver)

end CbtClient

theorem CbtClient.reset_snd (driver : DiskMap) (devNo : UInt32) :
    (CbtClient.reset true driver devNo).2
      = (handleIoctlReset driver (.forDisk ioctlResetCbtData devNo 0)).2 := by
  rw [CbtClient.reset, if_pos rfl]
  exact congrArg Prod.snd (dispatch_reset driver devNo 0)

/-- The blocks of a disk that are marked, in ascending order. -/
def markedBlocks (d : TrackedDisk) : List Nat := (List.range d.totalBlocks).filter d.marked

/-- The block at the mirrored position in the same byte of the bitmap. -/
def mirror (i : Nat) : Nat := 8 * (i / 8) + (7 - i % 8)

/-! ### The list a bitmap parses to -/

/-- The test of the loop, on a bit number. -/
theorem shiftRight_and_one_eq {b : UInt8} {k : Nat} (hk : k < 8) :
    ((b >>> UInt8.ofNat k) &&& 1 = 1) ↔ b.toNat.testBit k = true := by
  have hk' : (UInt8.ofNat k).toNat = k := by rw [UInt8.toNat_ofNat']; omega
  rw [← UInt8.toNat_inj, UInt8.toNat_and, UInt8.toNat_shiftRight, hk', UInt8.toNat_one,
    Nat.mod_eq_of_lt hk, Nat.testBit, Nat.and_comm]
  simp only [Nat.one_and_eq_mod_two, bne_iff_ne]
  omega

/-- What the loop looks at for block `i`. -/
def mirroredBit (bitmap : Bytes) (i : Nat) : Bool :=
  (bitmap.getD (i / 8) 0).toNat.testBit (7 - i % 8)

theorem mirroredBit_of_le {bitmap : Bytes} {i : Nat} (h : bitmap.length ≤ i / 8) :
    mirroredBit bitmap i = false := by
  rw [mirroredBit, List.getD_eq_default _ _ h, UInt8.toNat_zero, Nat.zero_testBit]

theorem parseChangedBlocksFrom_eq (bitmap : Bytes) (left i : Nat) (changed : List Nat) :
    CbtClient.parseChangedBlocksFrom bitmap left i changed
      = changed ++ (List.range' i left).filter (mirroredBit bitmap) := by
  induction left generalizing i changed with
  | zero => rw [CbtClient.parseChangedBlocksFrom, List.range'_zero, List.filter_nil,
      List.append_nil]
  | succ left ih =>
      rw [CbtClient.parseChangedBlocksFrom]
      split
      · next hpast =>
        -- the loop stops where the bytes end, and no later block has a byte either
        have hnone : (List.range' i (left + 1)).filter (mirroredBit bitmap) = [] := by
          rw [List.filter_eq_nil_iff]
          intro j hj
          have hij := (List.mem_range'_1.mp hj).1
          rw [mirroredBit_of_le (by omega)]
          exact Bool.false_ne_true
        rw [hnone, List.append_nil]
      · next hin =>
        have htest := shiftRight_and_one_eq (b := bitmap.getD (i / 8) 0) (k := 7 - i % 8)
          (by omega)
        rw [List.range'_succ, List.filter_cons]
        by_cases hbit : mirroredBit bitmap i = true
        · rw [if_pos (htest.mpr hbit), if_pos hbit, ih, List.append_assoc, List.singleton_append]
        · rw [if_neg fun h => hbit (htest.mp h), if_neg hbit, ih]

/-- `ParseChangedBlocks` lists the blocks whose mirrored bit is set. -/
theorem parseChangedBlocks_eq (bitmap : Bytes) (totalBits : UInt64) :
    CbtClient.parseChangedBlocks bitmap totalBits
      = (List.range totalBits.toNat).filter (mirroredBit bitmap) := by
  rw [CbtClient.parseChangedBlocks, parseChangedBlocksFrom_eq, List.nil_append,
    List.range_eq_range']

/-! ### The two steps of a query -/

/-- A later state of the same bitmap: writes and resets in any order. -/
inductive Evolves : TrackedDisk → TrackedDisk → Prop
  | refl (d) : Evolves d d
  | mark {d e} (offset : UInt64) (length : UInt32) :
      Evolves d e → Evolves d (e.mark offset length)
  | reset {d e} : Evolves d e → Evolves d e.reset

theorem Evolves.totalBlocks {d e : TrackedDisk} (h : Evolves d e) :
    e.totalBlocks = d.totalBlocks := by
  induction h with
  | refl => rfl
  | mark offset length _ ih => rw [TrackedDisk.totalBlocks_mark, ih]
  | reset _ ih => rw [TrackedDisk.totalBlocks_reset, ih]

theorem totalBytes_eq_of_totalBlocks_eq {d e : TrackedDisk}
    (h : e.totalBlocks = d.totalBlocks) :
    e.state.totalBytes = d.state.totalBytes := by
  apply UInt64.toNat_inj.mp
  rw [e.dimensioned.bytes, d.dimensioned.bytes, e.dimensioned.words, d.dimensioned.words]
  rw [TrackedDisk.totalBlocks, TrackedDisk.totalBlocks] at h
  rw [h]

theorem toUInt64_toUInt32_totalBytes (d : TrackedDisk) :
    d.state.totalBytes.toUInt32.toUInt64 = d.state.totalBytes := by
  apply UInt64.toNat_inj.mp
  rw [UInt32.toNat_toUInt64, d.toNat_totalBytes, d.dimensioned.bytes, d.dimensioned.words,
    TrackedDisk.totalBlocks]

theorem u64_queryHeader_zero (totalBits : UInt64) (totalBytes : UInt32) (rest : Bytes) :
    LittleEndian.u64 (queryHeader totalBits totalBytes ++ rest) 0 = totalBits := by
  rw [LittleEndian.u64, queryHeader, List.append_assoc,
    LittleEndian.field_head (LittleEndian.length_ofU64 _), LittleEndian.decode_ofU64]

theorem u64_queryHeader_eight (totalBits : UInt64) (totalBytes : UInt32) (rest : Bytes) :
    LittleEndian.u64 (queryHeader totalBits totalBytes ++ rest) 8 = totalBytes.toUInt64 := by
  rw [LittleEndian.u64, queryHeader, List.append_assoc,
    LittleEndian.field_append_right (by simp), LittleEndian.length_ofU64,
    LittleEndian.field_head (LittleEndian.length_ofU64 _), LittleEndian.decode_ofU64]

/-- **What a query returns**: the bytes of the bitmap as the second step finds it, and the
number of blocks. -/
theorem query_spec {m₁ m₂ : DiskMap} {devNo : UInt32} {d₁ d₂ : TrackedDisk}
    (h₁ : Tracks m₁ devNo d₁) (h₂ : Tracks m₂ devNo d₂) (hsame : d₂.totalBlocks = d₁.totalBlocks) :
    CbtClient.query true m₁ m₂ devNo
      = some (BitWords.bytes d₂.state.words, d₂.state.totalBits) := by
  have hbits : d₂.state.totalBits = d₁.state.totalBits := UInt64.toNat_inj.mp hsame
  have hbytes := totalBytes_eq_of_totalBlocks_eq hsame
  have hnonzero : ¬ (d₁.state.totalBytes = 0 ∨ d₁.state.totalBits = 0) := by
    rintro (h | h)
    · have := d₁.dimensioned.bytes
      rw [h, d₁.dimensioned.words] at this
      have := d₁.dimensioned.pos
      simp at *
      omega
    · exact d₁.live (.inr h)
  have hrequired : (bitmapDataOffset.toUInt64 + d₁.state.totalBytes).toUInt32
      = bitmapDataOffset + d₂.state.totalBytes.toUInt32 := by
    rw [UInt64.toUInt32_add, hbytes]; rfl
  have hlen : (BitWords.bytes d₂.state.words).length = d₁.state.totalBytes.toNat := by
    rw [BitWords.length_bytes, ← hbytes, d₂.dimensioned.bytes]
  have hdispatch : ∀ m len, (cbtDispatchDeviceControl m (.forDisk ioctlQueryCbtData devNo len)).1
      = handleIoctlQuery m (.forDisk ioctlQueryCbtData devNo len) := fun _ _ => rfl
  rw [CbtClient.query, if_pos rfl]
  simp only [hdispatch, handleIoctlQuery_header h₁, deviceIoControl, u64_queryHeader_zero,
    u64_queryHeader_eight, toUInt64_toUInt32_totalBytes, hnonzero, if_false, hrequired,
    handleIoctlQuery_full h₂]
  have hempty : (List.replicate (bitmapDataOffset + d₂.state.totalBytes.toUInt32).toNat
      (0 : UInt8)).drop (queryHeader d₂.state.totalBits d₂.state.totalBytes.toUInt32
        ++ BitWords.bytes d₂.state.words).length = [] := by
    rw [List.drop_eq_nil_iff, List.length_replicate, List.length_append, hlen, queryHeader,
      d₂.toNat_requiredSize, ← hbytes, d₂.dimensioned.bytes, d₂.dimensioned.words]
    simp [TrackedDisk.totalBlocks]
  have hfield : LittleEndian.field
      (queryHeader d₂.state.totalBits d₂.state.totalBytes.toUInt32 ++ BitWords.bytes d₂.state.words)
      16 d₁.state.totalBytes.toNat = BitWords.bytes d₂.state.words := by
    rw [LittleEndian.field_append_right (by simp [queryHeader])]
    exact LittleEndian.field_all hlen
  rw [if_neg (by decide), if_pos trivial, hempty, List.append_nil, hfield, hbits]

/-! ### When the list is the marked blocks -/

/-- The client's bit for block `i` is the driver's bit for the mirrored block. -/
theorem mirroredBit_bytes (d : TrackedDisk) (i : Nat) :
    mirroredBit (BitWords.bytes d.state.words) i = d.marked (mirror i) := by
  rw [mirroredBit, BitWords.testBit_bytes _ (by omega)]
  rfl

/-- The list a query of a tracked disk parses to. -/
theorem parseChangedBlocks_bytes (d : TrackedDisk) :
    CbtClient.parseChangedBlocks (BitWords.bytes d.state.words) d.state.totalBits
      = (List.range d.totalBlocks).filter fun i => d.marked (mirror i) := by
  rw [parseChangedBlocks_eq]
  exact List.filter_congr fun i _ => mirroredBit_bytes d i

theorem filter_range_eq_iff {n : Nat} {p q : Nat → Bool} :
    (List.range n).filter p = (List.range n).filter q ↔ ∀ i < n, p i = q i := by
  refine ⟨fun h i hi => ?_, fun h => List.filter_congr fun i hi => h i (List.mem_range.mp hi)⟩
  have hmem : i ∈ (List.range n).filter p ↔ i ∈ (List.range n).filter q := by rw [h]
  simp only [List.mem_filter, List.mem_range, hi, true_and] at hmem
  exact Bool.eq_iff_iff.mpr hmem

/-- **The parsed list is the list of marked blocks exactly for the bitmaps that are symmetric
inside each byte**: the driver counts the bits of a byte from the low end and the client from
the high end. -/
theorem parseChangedBlocks_query_iff {m₁ m₂ : DiskMap} {devNo : UInt32} {d₁ d₂ : TrackedDisk}
    (h₁ : Tracks m₁ devNo d₁) (h₂ : Tracks m₂ devNo d₂) (hev : Evolves d₁ d₂) {bitmap : Bytes}
    {totalBits : UInt64}
    (hquery : CbtClient.query true m₁ m₂ devNo = some (bitmap, totalBits)) :
    CbtClient.parseChangedBlocks bitmap totalBits = markedBlocks d₂ ↔
      ∀ i < d₂.totalBlocks, d₂.marked (mirror i) = d₂.marked i := by
  rw [query_spec h₁ h₂ hev.totalBlocks, Option.some.injEq, Prod.mk.injEq] at hquery
  rw [← hquery.1, ← hquery.2, parseChangedBlocks_bytes, markedBlocks, filter_range_eq_iff]

/-- A disk map of one disk, disk 0. -/
def soleDisk (cbtState : DiskCbtState) : DiskMap :=
  [{ deviceObject := 1, hookEntry := 0, diskNumber := 0, partitionStartingOffset := 0, cbtState }]

theorem tracks_soleDisk (d : TrackedDisk) : Tracks (soleDisk d.state) 0 d :=
  ⟨_, rfl, rfl⟩

/-- A disk of one block, freshly set up. -/
def oneBlockDisk : TrackedDisk :=
  ⟨(initCbtState true .zero cbtBlockSize).2,
    (dimensioned_of_zeroed (k := 1) rfl (by decide) (by decide) (by decide) (by decide)).1⟩

theorem parseChangedBlocks_query_iff_oneBlock :
    CbtClient.parseChangedBlocks (BitWords.bytes (oneBlockDisk.mark 0 512).state.words) 1
        = markedBlocks (oneBlockDisk.mark 0 512) ↔
      ∀ i < 1, (oneBlockDisk.mark 0 512).marked (mirror i) = (oneBlockDisk.mark 0 512).marked i :=
  parseChangedBlocks_query_iff (tracks_soleDisk oneBlockDisk)
    (tracks_soleDisk (oneBlockDisk.mark 0 512)) (.mark 0 512 (.refl _)) (by decide +kernel)

/-- A write to the first sector of a one-block disk marks block 0, and the client finds no
changed block. -/
theorem parseChangedBlocks_misses_block_zero :
    (oneBlockDisk.mark 0 512).marked 0 = true ∧
      (CbtClient.query true (soleDisk (oneBlockDisk.mark 0 512).state)
          (soleDisk (oneBlockDisk.mark 0 512).state) 0).map
        (fun r => CbtClient.parseChangedBlocks r.1 r.2) = some [] := by
  decide +kernel

end Go2Cbt.Client
