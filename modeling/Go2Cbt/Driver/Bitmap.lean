import Go2Cbt.Lib.BitWords

/-!
# Driver — the change bitmap of one disk

`go2cbt/bitmap.c` and `MarkBlockChanged` of `go2cbt/go2cbt.h`: one bit for each 1 MB block of a
disk, in an `RTL_BITMAP` over 32-bit words.  Arithmetic is the C code's, on 64-bit offsets and
32-bit lengths.  The spin lock makes each operation one step, so it does not appear.

Of Windows the file assumes that `RtlSetBits(start, n)` sets exactly `n` bits from `start`, that
`RtlClearAllBits` clears every bit, and that bit `i` of the map is bit `i % 32` of word `i / 32`.

`TrackedDisk` is a bitmap that `InitCbtState` built for fewer than `2 ^ 32` blocks: marking and
resetting keep it one, and `marked_mark` says which blocks a write marks.
-/

namespace Go2Cbt.Driver

/-- The statuses the driver's routines return. -/
inductive NtStatus where
  | success
  | invalidParameter
  | insufficientResources
  | notFound
  | invalidDeviceState
  | invalidDeviceRequest
  | bufferOverflow
  deriving DecidableEq, Repr

/-- `CBT_BLOCK_SIZE`. -/
def cbtBlockSize : UInt64 := 1024 * 1024

/-- `DISK_CBT_STATE`.  `buffer` is the pool memory `Bitmap` lies over; `none` is the null
pointer. -/
structure DiskCbtState where
  sizeOfBitMap : UInt32
  buffer : Option (List UInt32)
  totalBits : UInt64
  totalBytes : UInt64
  deriving DecidableEq, Repr

/-- The state `RtlZeroMemory` leaves. -/
def DiskCbtState.zero : DiskCbtState :=
  { sizeOfBitMap := 0, buffer := none, totalBits := 0, totalBytes := 0 }

/-- `InitCbtState`; `allocated` says whether `ExAllocatePool2` found the memory. -/
def initCbtState (allocated : Bool) (cbtState : DiskCbtState) (diskSizeBytes : UInt64) :
    NtStatus × DiskCbtState :=
  if diskSizeBytes = 0 then (.invalidParameter, cbtState)
  else
    let totalBits := (diskSizeBytes + cbtBlockSize - 1) / cbtBlockSize
    let totalBytes : UInt32 := ((totalBits + 31) / 32 * 4).toUInt32
    if allocated then
      (.success,
        { sizeOfBitMap := totalBits.toUInt32
          buffer := some (List.replicate (totalBytes.toNat / 4) 0)
          totalBits := totalBits
          totalBytes := totalBytes.toUInt64 })
    else (.insufficientResources, .zero)

/-- `RtlSetBits` on the disk's bitmap. -/
def DiskCbtState.rtlSetBits (cbtState : DiskCbtState) (start count : UInt32) : DiskCbtState :=
  { cbtState with
    buffer := cbtState.buffer.map fun ws => BitWords.setBits ws start.toNat count.toNat }

/-- `RtlClearAllBits` on the disk's bitmap. -/
def DiskCbtState.rtlClearAllBits (cbtState : DiskCbtState) : DiskCbtState :=
  { cbtState with buffer := cbtState.buffer.map BitWords.clear }

/-- `MarkBlockChanged`. -/
def markBlockChanged (cbtState : DiskCbtState) (offset : UInt64) (length : UInt32) :
    DiskCbtState :=
  if cbtState.buffer = none ∨ cbtState.totalBits = 0 then cbtState
  else if offset ≥ cbtState.totalBits * cbtBlockSize then cbtState
  else
    let startBlock := offset / cbtBlockSize
    -- a length of zero borrows here, and from offset 0 it wraps
    let endBlock := (offset + length.toUInt64 - 1) / cbtBlockSize
    let endBlock := if endBlock ≥ cbtState.totalBits then cbtState.totalBits - 1 else endBlock
    if startBlock > endBlock then cbtState
    else cbtState.rtlSetBits startBlock.toUInt32 (endBlock - startBlock + 1).toUInt32

/-- The words of the bitmap. -/
def DiskCbtState.words (cbtState : DiskCbtState) : List UInt32 := cbtState.buffer.getD []

/-- Bit `b` of the disk's bitmap. -/
def DiskCbtState.marked (cbtState : DiskCbtState) (b : Nat) : Bool :=
  BitWords.bit cbtState.words b

/-- A bitmap as `InitCbtState` dimensions it, for fewer than `2 ^ 32` blocks: the words cover
the blocks, and no bit past the last block is set. -/
structure DiskCbtState.Dimensioned (s : DiskCbtState) : Prop where
  live : s.buffer = some s.words
  pos : 0 < s.totalBits.toNat
  size : s.sizeOfBitMap.toNat = s.totalBits.toNat
  words : s.words.length = (s.totalBits.toNat + 31) / 32
  bytes : s.totalBytes.toNat = 4 * s.words.length
  tail : ∀ b, s.totalBits.toNat ≤ b → s.marked b = false

theorem DiskCbtState.Dimensioned.not_dead {s : DiskCbtState} (hs : s.Dimensioned) :
    ¬ (s.buffer = none ∨ s.totalBits = 0) := by
  rintro (h | h)
  · rw [hs.live] at h
    cases h
  · have hpos := hs.pos
    rw [h] at hpos
    exact Nat.lt_irrefl 0 hpos

/-- A disk with a bitmap. -/
structure TrackedDisk where
  state : DiskCbtState
  dimensioned : state.Dimensioned

namespace TrackedDisk

/-- The number of blocks. -/
def totalBlocks (d : TrackedDisk) : Nat := d.state.totalBits.toNat

/-- Block `b` is marked as changed. -/
def marked (d : TrackedDisk) (b : Nat) : Bool := d.state.marked b

theorem totalBlocks_lt (d : TrackedDisk) : d.totalBlocks < 2 ^ 32 := by
  rw [totalBlocks, ← d.dimensioned.size]
  exact d.state.sizeOfBitMap.toNat_lt

end TrackedDisk

/-! ### Setting up -/

theorem toNat_cbtBlockSize : cbtBlockSize.toNat = 2 ^ 20 := rfl

theorem toNat_totalBits (size : UInt64) (h : size.toNat < 2 ^ 63) :
    ((size + cbtBlockSize - 1) / cbtBlockSize).toNat = (size.toNat + 2 ^ 20 - 1) / 2 ^ 20 := by
  have hadd : (size + cbtBlockSize).toNat = size.toNat + 2 ^ 20 := by
    rw [UInt64.toNat_add, toNat_cbtBlockSize]; omega
  have hle : (1 : UInt64) ≤ size + cbtBlockSize := by
    rw [UInt64.le_iff_toNat_le, hadd]; simp
  rw [UInt64.toNat_div, UInt64.toNat_sub_of_le _ _ hle, hadd, UInt64.toNat_one,
    toNat_cbtBlockSize]

/-- The byte count of the buffer, for fewer than `2 ^ 32` blocks. -/
theorem toNat_totalBytes (totalBits : UInt64) (h : totalBits.toNat < 2 ^ 32) :
    ((totalBits + 31) / 32 * 4).toUInt32.toNat = 4 * ((totalBits.toNat + 31) / 32) := by
  have hadd : (totalBits + 31).toNat = totalBits.toNat + 31 := by
    rw [UInt64.toNat_add, show (31 : UInt64).toNat = 31 from rfl]; omega
  rw [UInt64.toNat_toUInt32, UInt64.toNat_mul, UInt64.toNat_div, hadd,
    show (32 : UInt64).toNat = 32 from rfl, show (4 : UInt64).toNat = 4 from rfl]
  omega

/-- A zeroed buffer of the right length is a dimensioned bitmap with no block marked. -/
theorem dimensioned_of_zeroed {s : DiskCbtState} {k : Nat}
    (hbuffer : s.buffer = some (List.replicate k 0)) (hpos : 0 < s.totalBits.toNat)
    (hsize : s.sizeOfBitMap.toNat = s.totalBits.toNat)
    (hwords : k = (s.totalBits.toNat + 31) / 32) (hbytes : s.totalBytes.toNat = 4 * k) :
    s.Dimensioned ∧ ∀ b, s.marked b = false := by
  have hw : s.words = List.replicate k 0 := by
    rw [DiskCbtState.words, hbuffer, Option.getD_some]
  have hclear : ∀ b, s.marked b = false := fun b => by
    rw [DiskCbtState.marked, hw, BitWords.bit_replicate]
  refine ⟨{ live := ?_, pos := hpos, size := hsize, words := ?_, bytes := ?_,
            tail := fun b _ => hclear b }, hclear⟩
  · rw [hbuffer, hw]
  · rw [hw, List.length_replicate, hwords]
  · rw [hw, List.length_replicate, hbytes]

/-- **`InitCbtState` dimensions the bitmap** of every disk of fewer than `2 ^ 32` blocks, with
no block marked. -/
theorem initCbtState_spec {old s : DiskCbtState} {size : UInt64} {allocated : Bool}
    (hsize : (size.toNat + 2 ^ 20 - 1) / 2 ^ 20 < 2 ^ 32)
    (h : initCbtState allocated old size = (.success, s)) :
    ∃ d : TrackedDisk, d.state = s ∧ d.totalBlocks = (size.toNat + 2 ^ 20 - 1) / 2 ^ 20 ∧
      ∀ b, d.marked b = false := by
  by_cases hzero : size = 0
  · simp [initCbtState, hzero] at h
  cases allocated with
  | false => simp [initCbtState, hzero] at h
  | true =>
      simp only [initCbtState, hzero, if_false, if_true, Prod.mk.injEq, true_and] at h
      have hbits := toNat_totalBits size (by omega)
      generalize (size + cbtBlockSize - 1) / cbtBlockSize = totalBits at h hbits
      have hpos : 0 < size.toNat :=
        Nat.pos_of_ne_zero fun h0 => hzero (UInt64.toNat_inj.mp h0)
      have hbytes := toNat_totalBytes totalBits (by omega)
      generalize ((totalBits + 31) / 32 * 4).toUInt32 = totalBytes at h hbytes
      have htotal : s.totalBits = totalBits := by rw [← h]
      obtain ⟨hdim, hclear⟩ := dimensioned_of_zeroed (s := s) (k := totalBytes.toNat / 4)
        (by rw [← h]) (by rw [htotal]; omega)
        (by rw [htotal, ← h, UInt64.toNat_toUInt32]; omega) (by rw [htotal]; omega)
        (by rw [← h, UInt32.toNat_toUInt64]; omega)
      exact ⟨⟨s, hdim⟩, rfl, by rw [TrackedDisk.totalBlocks, htotal, hbits], hclear⟩

/-! ### Marking -/

/-- The last byte a marking call works with: the last byte of the write, or for a length of
zero the byte before it, which at offset 0 is byte `2 ^ 64 - 1`. -/
def lastByte (offset : UInt64) (length : UInt32) : Nat :=
  (offset.toNat + length.toNat + (2 ^ 64 - 1)) % 2 ^ 64

/-- The blocks a marking call reaches on a disk of `total` blocks. -/
def Reaches (offset : UInt64) (length : UInt32) (total b : Nat) : Prop :=
  offset.toNat / 2 ^ 20 ≤ b ∧ b ≤ lastByte offset length / 2 ^ 20 ∧ b < total

instance (offset : UInt64) (length : UInt32) (total b : Nat) :
    Decidable (Reaches offset length total b) := by
  unfold Reaches; infer_instance

theorem toNat_lastByte (offset : UInt64) (length : UInt32) :
    (offset + length.toUInt64 - 1).toNat = lastByte offset length := by
  rw [UInt64.toNat_sub, UInt64.toNat_add, UInt32.toNat_toUInt64, UInt64.toNat_one, lastByte]
  omega

theorem words_rtlSetBits (s : DiskCbtState) (start count : UInt32) :
    (s.rtlSetBits start count).words = BitWords.setBits s.words start.toNat count.toNat := by
  rw [DiskCbtState.rtlSetBits, DiskCbtState.words, DiskCbtState.words]
  cases s.buffer with
  | none => exact (List.eq_nil_of_length_eq_zero (BitWords.length_setBits _ _ _)).symm
  | some ws => rfl

theorem marked_rtlSetBits (s : DiskCbtState) (start count : UInt32) (b : Nat) :
    (s.rtlSetBits start count).marked b
      = (s.marked b || decide (start.toNat ≤ b ∧ b < start.toNat + count.toNat ∧
          b / 32 < s.words.length)) := by
  rw [DiskCbtState.marked, words_rtlSetBits, BitWords.bit_setBits, DiskCbtState.marked]

/-- The arguments with which `MarkBlockChanged` calls `RtlSetBits`; none when it does not. -/
def setBitsCall (cbtState : DiskCbtState) (offset : UInt64) (length : UInt32) :
    Option (UInt32 × UInt32) :=
  if cbtState.buffer = none ∨ cbtState.totalBits = 0 then none
  else if offset ≥ cbtState.totalBits * cbtBlockSize then none
  else
    let startBlock := offset / cbtBlockSize
    let endBlock := (offset + length.toUInt64 - 1) / cbtBlockSize
    let endBlock := if endBlock ≥ cbtState.totalBits then cbtState.totalBits - 1 else endBlock
    if startBlock > endBlock then none
    else some (startBlock.toUInt32, (endBlock - startBlock + 1).toUInt32)

/-- **Marking is that call.** -/
theorem markBlockChanged_eq (s : DiskCbtState) (offset : UInt64) (length : UInt32) :
    markBlockChanged s offset length
      = (setBitsCall s offset length).elim s fun call => s.rtlSetBits call.1 call.2 := by
  rw [markBlockChanged, setBitsCall]
  split
  · rfl
  · split
    · rfl
    · dsimp only
      generalize (if (offset + length.toUInt64 - 1) / cbtBlockSize ≥ s.totalBits
        then s.totalBits - 1 else (offset + length.toUInt64 - 1) / cbtBlockSize) = endBlock
      split <;> rfl

/-- The last block of the call, clamped to the disk. -/
def lastBlock (s : DiskCbtState) (offset : UInt64) (length : UInt32) : Nat :=
  min (lastByte offset length / 2 ^ 20) (s.totalBits.toNat - 1)

theorem toNat_endBlock {s : DiskCbtState} (offset : UInt64) (length : UInt32)
    (hpos : 0 < s.totalBits.toNat) :
    (if (offset + length.toUInt64 - 1) / cbtBlockSize ≥ s.totalBits then s.totalBits - 1
      else (offset + length.toUInt64 - 1) / cbtBlockSize).toNat = lastBlock s offset length := by
  have hblock : ((offset + length.toUInt64 - 1) / cbtBlockSize).toNat
      = lastByte offset length / 2 ^ 20 := by
    rw [UInt64.toNat_div, toNat_lastByte, toNat_cbtBlockSize]
  have hone : (1 : UInt64) ≤ s.totalBits := UInt64.le_iff_toNat_le.mpr hpos
  rw [lastBlock, ← hblock]
  split
  · next hge =>
      rw [UInt64.toNat_sub_of_le _ _ hone, UInt64.toNat_one]
      exact (min_eq_right ((Nat.sub_le _ _).trans (UInt64.le_iff_toNat_le.mp hge))).symm
  · next hlt =>
      exact (min_eq_left
        (Nat.le_sub_one_of_lt (UInt64.lt_iff_toNat_lt.mp (UInt64.not_le.mp hlt)))).symm

/-- The end of the disk as the bound check works it out. -/
def DiskCbtState.diskEnd (s : DiskCbtState) : Nat := s.totalBits.toNat * 2 ^ 20 % 2 ^ 64

/-- The arguments in exact arithmetic, before they are narrowed. -/
theorem setBitsCall_eq (s : DiskCbtState) (offset : UInt64) (length : UInt32) :
    setBitsCall s offset length
      = if (s.buffer = none ∨ s.totalBits = 0) ∨ s.diskEnd ≤ offset.toNat ∨
            lastBlock s offset length < offset.toNat / 2 ^ 20 then none
        else some (UInt32.ofNat (offset.toNat / 2 ^ 20),
          UInt32.ofNat (lastBlock s offset length - offset.toNat / 2 ^ 20 + 1)) := by
  rw [setBitsCall]
  by_cases hlive : s.buffer = none ∨ s.totalBits = 0
  · rw [if_pos hlive, if_pos (.inl hlive)]
  have hpos : 0 < s.totalBits.toNat :=
    Nat.pos_of_ne_zero fun h => hlive (.inr (UInt64.toNat_inj.mp h))
  have hlast := toNat_endBlock offset length hpos
  have hend : (s.totalBits * cbtBlockSize).toNat = s.diskEnd := by
    rw [UInt64.toNat_mul, toNat_cbtBlockSize, DiskCbtState.diskEnd]
  have hstart : (offset / cbtBlockSize).toNat = offset.toNat / 2 ^ 20 := by
    rw [UInt64.toNat_div, toNat_cbtBlockSize]
  rw [if_neg hlive]
  by_cases hout : s.diskEnd ≤ offset.toNat
  · rw [if_pos (UInt64.le_iff_toNat_le.mpr (hend.le.trans hout)), if_pos (.inr (.inl hout))]
  rw [if_neg fun h => hout (hend.ge.trans (UInt64.le_iff_toNat_le.mp h))]
  dsimp only
  generalize (if (offset + length.toUInt64 - 1) / cbtBlockSize ≥ s.totalBits
    then s.totalBits - 1 else (offset + length.toUInt64 - 1) / cbtBlockSize) = endBlock at hlast ⊢
  generalize offset / cbtBlockSize = startBlock at hstart ⊢
  rw [← hlast, ← hstart]
  by_cases hgt : endBlock.toNat < startBlock.toNat
  · rw [if_pos (UInt64.lt_iff_toNat_lt.mpr hgt), if_pos (.inr (.inr hgt))]
  · have hle : startBlock ≤ endBlock := UInt64.le_iff_toNat_le.mpr (not_lt.mp hgt)
    have hbound : endBlock.toNat < 2 ^ 44 := by
      rw [hlast, lastBlock, lastByte]
      omega
    have hcount : (endBlock - startBlock + 1).toNat
        = endBlock.toNat - startBlock.toNat + 1 := by
      rw [UInt64.toNat_add, UInt64.toNat_sub_of_le _ _ hle, UInt64.toNat_one]
      omega
    have hnarrow : ∀ w : UInt64, w.toUInt32 = UInt32.ofNat w.toNat := fun w => by
      apply UInt32.toNat_inj.mp
      rw [UInt64.toNat_toUInt32, UInt32.toNat_ofNat']
    rw [if_neg (mt UInt64.lt_iff_toNat_lt.mp hgt), if_neg, hnarrow, hnarrow, hcount]
    rintro (h | h | h)
    · exact hlive h
    · exact hout h
    · exact hgt h

/-- A run inside the map is set, and the map keeps its dimensions. -/
theorem rtlSetBits_spec {s : DiskCbtState} (hs : s.Dimensioned) (start count : UInt32)
    (h : start.toNat + count.toNat ≤ s.totalBits.toNat) :
    (s.rtlSetBits start count).Dimensioned ∧
      ∀ b, (s.rtlSetBits start count).marked b
        = (s.marked b || decide (start.toNat ≤ b ∧ b < start.toNat + count.toNat)) := by
  have hwords := words_rtlSetBits s start count
  have hmarked : ∀ b, (s.rtlSetBits start count).marked b
      = (s.marked b || decide (start.toNat ≤ b ∧ b < start.toNat + count.toNat)) := by
    intro b
    rw [marked_rtlSetBits]
    congr 1
    refine decide_eq_decide.mpr ⟨fun hb => ⟨hb.1, hb.2.1⟩, fun hb => ⟨hb.1, hb.2, ?_⟩⟩
    rw [hs.words]; omega
  refine ⟨{ live := ?_, pos := hs.pos, size := hs.size, words := ?_, bytes := ?_, tail := ?_ },
    hmarked⟩
  · rw [hwords, DiskCbtState.rtlSetBits, hs.live]; rfl
  · rw [hwords, BitWords.length_setBits]; exact hs.words
  · rw [hwords, BitWords.length_setBits]; exact hs.bytes
  · intro b hb
    have hb' : s.totalBits.toNat ≤ b := hb
    have hout : ¬ (start.toNat ≤ b ∧ b < start.toNat + count.toNat) := by omega
    rw [hmarked, hs.tail b hb', decide_eq_false hout, Bool.or_false]

/-- **What a marking call does**: it sets the bits of the blocks it reaches and no other. -/
theorem markBlockChanged_spec {s : DiskCbtState} (hs : s.Dimensioned) (offset : UInt64)
    (length : UInt32) :
    (markBlockChanged s offset length).Dimensioned ∧
      (markBlockChanged s offset length).totalBits = s.totalBits ∧
      ∀ b, (markBlockChanged s offset length).marked b
        = (s.marked b || decide (Reaches offset length s.totalBits.toNat b)) := by
  have hpos := hs.pos
  have hsmall : s.totalBits.toNat < 2 ^ 32 := hs.size ▸ s.sizeOfBitMap.toNat_lt
  have hend : s.diskEnd = s.totalBits.toNat * 2 ^ 20 := Nat.mod_eq_of_lt (by omega)
  rw [markBlockChanged_eq, setBitsCall_eq]
  split
  · next hnone =>
      -- no call, and no block to reach
      refine ⟨hs, rfl, fun b => ?_⟩
      have hreach : ¬ Reaches offset length s.totalBits.toNat b := by
        rintro ⟨hlo, hhi, hb⟩
        rcases hnone with h | h | h
        · exact hs.not_dead h
        · omega
        · rw [lastBlock] at h
          omega
      rw [Option.elim_none, decide_eq_false hreach, Bool.or_false]
  · next hcall =>
      obtain ⟨hin, hle⟩ := not_or.mp (not_or.mp hcall).2
      have hlast : lastBlock s offset length
          = min (lastByte offset length / 2 ^ 20) (s.totalBits.toNat - 1) := rfl
      have hstart : (UInt32.ofNat (offset.toNat / 2 ^ 20)).toNat = offset.toNat / 2 ^ 20 :=
        UInt32.toNat_ofNat_of_lt' (show _ < 2 ^ 32 by omega)
      have hcount : (UInt32.ofNat (lastBlock s offset length - offset.toNat / 2 ^ 20 + 1)).toNat
          = lastBlock s offset length - offset.toNat / 2 ^ 20 + 1 :=
        UInt32.toNat_ofNat_of_lt' (show _ < 2 ^ 32 by omega)
      obtain ⟨hdim, hbits⟩ := rtlSetBits_spec hs (UInt32.ofNat (offset.toNat / 2 ^ 20))
        (UInt32.ofNat (lastBlock s offset length - offset.toNat / 2 ^ 20 + 1)) (by omega)
      refine ⟨hdim, rfl, fun b => (hbits b).trans ?_⟩
      congr 1
      refine decide_eq_decide.mpr ?_
      rw [hstart, hcount, Reaches]
      omega

/-- `RtlClearAllBits` keeps the dimensions and leaves no bit set. -/
theorem rtlClearAllBits_spec {s : DiskCbtState} (hs : s.Dimensioned) :
    s.rtlClearAllBits.Dimensioned ∧ ∀ b, s.rtlClearAllBits.marked b = false := by
  have hwords : s.rtlClearAllBits.words = BitWords.clear s.words := by
    rw [DiskCbtState.rtlClearAllBits, DiskCbtState.words, hs.live]; rfl
  have hclear : ∀ b, s.rtlClearAllBits.marked b = false := fun b => by
    rw [DiskCbtState.marked, hwords, BitWords.bit_clear]
  refine ⟨{ live := ?_, pos := hs.pos, size := hs.size, words := ?_, bytes := ?_, tail := ?_ },
    hclear⟩
  · rw [hwords, DiskCbtState.rtlClearAllBits, hs.live]; rfl
  · rw [hwords, BitWords.length_clear]; exact hs.words
  · rw [hwords, BitWords.length_clear]; exact hs.bytes
  · exact fun b _ => hclear b

/-! ### The tracked disk as a set of blocks -/

namespace TrackedDisk

/-- `MarkBlockChanged` on a tracked disk. -/
def mark (d : TrackedDisk) (offset : UInt64) (length : UInt32) : TrackedDisk :=
  ⟨markBlockChanged d.state offset length, (markBlockChanged_spec d.dimensioned _ _).1⟩

/-- `RtlClearAllBits` on a tracked disk. -/
def reset (d : TrackedDisk) : TrackedDisk :=
  ⟨d.state.rtlClearAllBits, (rtlClearAllBits_spec d.dimensioned).1⟩

@[simp] theorem totalBlocks_mark (d : TrackedDisk) (offset : UInt64) (length : UInt32) :
    (d.mark offset length).totalBlocks = d.totalBlocks :=
  congrArg UInt64.toNat (markBlockChanged_spec d.dimensioned offset length).2.1

@[simp] theorem totalBlocks_reset (d : TrackedDisk) : d.reset.totalBlocks = d.totalBlocks := rfl

@[simp] theorem marked_mark (d : TrackedDisk) (offset : UInt64) (length : UInt32) (b : Nat) :
    (d.mark offset length).marked b
      = (d.marked b || decide (Reaches offset length d.totalBlocks b)) :=
  (markBlockChanged_spec d.dimensioned offset length).2.2 b

@[simp] theorem marked_reset (d : TrackedDisk) (b : Nat) : d.reset.marked b = false :=
  (rtlClearAllBits_spec d.dimensioned).2 b

end TrackedDisk

end Go2Cbt.Driver
