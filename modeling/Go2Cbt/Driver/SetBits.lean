import Go2Cbt.Driver.Marking

/-!
# Driver — the call of `RtlSetBits`

`MarkBlockChanged` sets bits with one call of `RtlSetBits`, or with none.  `setBitsCall` gives the
arguments of that call, in 32 bits; what they are worked out from has 64.

* `fitsDisk_iff`: for which disks the bitmap has the disk's dimensions and the call the bits of the
  blocks that the write overlaps.
* `leavesBitmaps_iff`: when a write of length zero, which is meant to set none, changes nothing.
-/

namespace Go2Cbt.Driver

/-! ### The dimensions of the bitmap -/

/-- Block `b` of a disk of `total` blocks holds a byte of the write. -/
def Overlaps (offset : UInt64) (length : UInt32) (total b : Nat) : Prop :=
  b < total ∧ ∃ x, offset.toNat ≤ x ∧ x < offset.toNat + length.toNat ∧ x / 2 ^ 20 = b

/-- The call stays within the bitmap and sets the bits of the blocks that the write overlaps. -/
def CallCovers (s : DiskCbtState) (offset : UInt64) (length : UInt32) : Prop :=
  match setBitsCall s offset length with
  | none => ∀ b, ¬ Overlaps offset length s.totalBits.toNat b
  | some (start, n) =>
      start.toNat + n.toNat ≤ s.sizeOfBitMap.toNat ∧
        ∀ b, start.toNat ≤ b ∧ b < start.toNat + n.toNat ↔
          Overlaps offset length s.totalBits.toNat b

/-- The bitmap is that of a disk of `size` bytes: one bit for each block that begins on the disk,
room for these bits, and every write of some bytes sets the bits of the blocks it overlaps. -/
structure FitsDisk (s : DiskCbtState) (size : Nat) : Prop where
  bits : s.totalBits.toNat = (size + (1048576 - 1)) / 1048576
  bitmap : s.sizeOfBitMap.toNat = s.totalBits.toNat
  room : s.totalBits.toNat ≤ 32 * s.words.length
  calls : ∀ offset length, length ≠ 0 → CallCovers s offset length

/-- With the right dimensions every call covers its write. -/
theorem DiskCbtState.Dimensioned.callCovers {s : DiskCbtState} (hs : s.Dimensioned)
    (offset : UInt64) {length : UInt32} (hlength : length ≠ 0) : CallCovers s offset length := by
  have hpos := hs.pos
  have hsmall : s.totalBits.toNat < 2 ^ 32 := hs.size ▸ s.sizeOfBitMap.toNat_lt
  have hlen : 0 < length.toNat := Nat.pos_of_ne_zero fun h => hlength (UInt32.toNat_inj.mp h)
  have hlen' := length.toNat_lt
  have hend : s.diskEnd = s.totalBits.toNat * 2 ^ 20 := Nat.mod_eq_of_lt (by omega)
  have hlive := hs.not_dead
  rw [CallCovers, setBitsCall_eq]
  by_cases hout : s.diskEnd ≤ offset.toNat
  · rw [if_pos (.inr (.inl hout))]
    rintro b ⟨hb, x, hlo, -, rfl⟩
    omega
  · have hlast : lastByte offset length = offset.toNat + length.toNat - 1 := by
      rw [lastByte]
      omega
    have hle : offset.toNat / 2 ^ 20 ≤ lastBlock s offset length := by
      rw [lastBlock, hlast]
      omega
    have hlt : lastBlock s offset length < s.totalBits.toNat := by
      rw [lastBlock]
      omega
    have hstart : (UInt32.ofNat (offset.toNat / 2 ^ 20)).toNat = offset.toNat / 2 ^ 20 :=
      UInt32.toNat_ofNat_of_lt' (show _ < 2 ^ 32 by omega)
    have hcount : (UInt32.ofNat (lastBlock s offset length - offset.toNat / 2 ^ 20 + 1)).toNat
        = lastBlock s offset length - offset.toNat / 2 ^ 20 + 1 :=
      UInt32.toNat_ofNat_of_lt' (show _ < 2 ^ 32 by omega)
    rw [if_neg (not_or.mpr ⟨hlive, not_or.mpr ⟨hout, not_lt.mpr hle⟩⟩)]
    dsimp only
    rw [hstart, hcount, hs.size]
    refine ⟨by omega, fun b => ?_⟩
    rw [lastBlock, hlast, Overlaps]
    constructor
    · rintro ⟨hlo, hhi⟩
      exact ⟨by omega, max offset.toNat (b * 2 ^ 20), by omega, by omega, by omega⟩
    · rintro ⟨hb, x, hlo, hhi, rfl⟩
      omega

/-- **The bitmap fits the disk exactly up to 4 PiB less one block**: from there on the number of
its bits is cut to 32 bits while the bound checks go on with the wide one. -/
theorem fitsDisk_iff (old s : DiskCbtState) (size : UInt64) (allocated : Bool)
    (hpos : 0 < size.toNat) (hsize : size.toNat < 9223372036854775808)
    (hinit : initCbtState allocated old size = (.success, s)) :
    FitsDisk s size.toNat ↔ size.toNat ≤ 4503599626321920 := by
  constructor
  · intro h
    have hbits := h.bits
    have hsize := s.sizeOfBitMap.toNat_lt
    rw [h.bitmap, hbits] at hsize
    omega
  · intro hle
    obtain ⟨d, rfl, htotal, -⟩ := initCbtState_spec (show _ < 2 ^ 32 by omega) hinit
    exact
      { bits := htotal.trans (by omega)
        bitmap := d.dimensioned.size
        room := by
          rw [d.dimensioned.words]
          omega
        calls := fun offset _ hlength => d.dimensioned.callCovers offset hlength }

/-- A disk of one block. -/
theorem fitsDisk_iff_oneBlock :
    FitsDisk (initCbtState true .zero 1048576).2 1048576 ↔ 1048576 ≤ 4503599626321920 :=
  fitsDisk_iff .zero _ 1048576 true (by decide) (by decide) rfl

/-- A disk of 4 PiB has `2 ^ 32` blocks and a bitmap of none. -/
theorem bitmap_of_four_pib :
    (initCbtState true .zero 4503599627370496).1 = .success ∧
      ¬ FitsDisk (initCbtState true .zero 4503599627370496).2 4503599627370496 := by
  refine ⟨rfl, fun h => ?_⟩
  have hsize := (initCbtState true .zero 4503599627370496).2.sizeOfBitMap.toNat_lt
  rw [h.bitmap, h.bits] at hsize
  omega

/-! ### Writes of length zero -/

/-- The bits that a write of length zero sets: from offset 0 all of them, and from an offset inside
a block that of the block. -/
def ZeroLengthSets (s : DiskCbtState) (offset : UInt64) (b : Nat) : Prop :=
  if offset = 0 then b < min s.totalBits.toNat (2 ^ 44) % 2 ^ 32
  else offset.toNat % 2 ^ 20 ≠ 0 ∧ b = offset.toNat / 2 ^ 20 % 2 ^ 32

/-- There is nothing for the write to set: no bitmap, an offset past the disk or bits that are
set already. -/
def ZeroLengthHarmless (s : DiskCbtState) (offset : UInt64) : Prop :=
  (s.buffer = none ∨ s.totalBits = 0) ∨ s.diskEnd ≤ offset.toNat ∨
    ∀ b, ZeroLengthSets s offset b → s.marked b = true

/-- The call of `RtlSetBits`, if there is one, stays within the words and changes no bit. -/
def CallHarmless (s : DiskCbtState) (offset : UInt64) (length : UInt32) : Prop :=
  (∀ b, (markBlockChanged s offset length).marked b = s.marked b) ∧
    ∀ call ∈ setBitsCall s offset length, call.1.toNat + call.2.toNat ≤ 32 * s.words.length

theorem callHarmless_of_none {s : DiskCbtState} {offset : UInt64} {length : UInt32}
    (h : setBitsCall s offset length = none) : CallHarmless s offset length := by
  rw [CallHarmless, markBlockChanged_eq, h]
  exact ⟨fun _ => rfl, fun _ hcall => by cases hcall⟩

/-- A bit that is set lies in the words. -/
theorem lt_words_of_marked {s : DiskCbtState} {b : Nat} (h : s.marked b = true) :
    b / 32 < s.words.length := by
  by_contra hout
  rw [DiskCbtState.marked, BitWords.bit_of_le (not_lt.mp hout)] at h
  cases h

/-- A call changes nothing exactly when its bits are set already. -/
theorem callHarmless_of_some {s : DiskCbtState} {offset : UInt64} {length start count : UInt32}
    (h : setBitsCall s offset length = some (start, count))
    (hnonempty : 0 < count.toNat ∨ start.toNat = 0) :
    CallHarmless s offset length ↔
      ∀ b, start.toNat ≤ b → b < start.toNat + count.toNat → s.marked b = true := by
  rw [CallHarmless, markBlockChanged_eq, h, Option.elim_some]
  constructor
  · rintro ⟨hsame, hin⟩ b hlo hhi
    have hwithin : start.toNat + count.toNat ≤ 32 * s.words.length := hin (start, count) rfl
    have hword : b / 32 < s.words.length := by omega
    rw [← hsame b, marked_rtlSetBits, decide_eq_true ⟨hlo, hhi, hword⟩, Bool.or_true]
  · intro hall
    refine ⟨fun b => ?_, ?_⟩
    · rw [marked_rtlSetBits]
      by_cases hb : start.toNat ≤ b ∧ b < start.toNat + count.toNat ∧ b / 32 < s.words.length
      · rw [hall b hb.1 hb.2.1, Bool.true_or]
      · rw [decide_eq_false hb, Bool.or_false]
    · rintro _ ⟨⟩
      change start.toNat + count.toNat ≤ _
      rcases Nat.eq_zero_or_pos count.toNat with hzero | hpos
      · rcases hnonempty with hpos | hstart
        · omega
        · omega
      · -- the last bit of the call lies in the words
        have hlast := lt_words_of_marked
          (hall (start.toNat + count.toNat - 1) (by omega) (by omega))
        omega

/-- **A write of length zero**: what it sets is there already, or it does harm. -/
theorem callHarmless_zero_iff (s : DiskCbtState) (offset : UInt64) :
    CallHarmless s offset 0 ↔ ZeroLengthHarmless s offset := by
  have hbits := s.totalBits.toNat_lt
  have hoffset := offset.toNat_lt
  by_cases hlive : s.buffer = none ∨ s.totalBits = 0
  · refine iff_of_true (callHarmless_of_none ?_) (.inl hlive)
    rw [setBitsCall_eq, if_pos (.inl hlive)]
  by_cases hout : s.diskEnd ≤ offset.toNat
  · refine iff_of_true (callHarmless_of_none ?_) (.inr (.inl hout))
    rw [setBitsCall_eq, if_pos (.inr (.inl hout))]
  have hpos : 0 < s.totalBits.toNat :=
    Nat.pos_of_ne_zero fun h => hlive (.inr (UInt64.toNat_inj.mp h))
  have hdisk : offset.toNat / 2 ^ 20 < s.totalBits.toNat := by
    rw [DiskCbtState.diskEnd] at hout
    omega
  have hzero : (0 : UInt32).toNat = 0 := rfl
  rw [ZeroLengthHarmless, or_iff_right hlive, or_iff_right hout]
  by_cases hstart : offset = 0
  · -- the byte before offset 0 is the last of 64 bits
    subst hstart
    have hlast : lastBlock s 0 0 = min (2 ^ 44 - 1) (s.totalBits.toNat - 1) := rfl
    have hcall : setBitsCall s 0 0
        = some (UInt32.ofNat 0, UInt32.ofNat (min s.totalBits.toNat (2 ^ 44))) := by
      have hcount : lastBlock s 0 0 - 0 + 1 = min s.totalBits.toNat (2 ^ 44) := by
        rw [hlast]
        omega
      rw [setBitsCall_eq, if_neg]
      · change some (UInt32.ofNat 0, UInt32.ofNat (lastBlock s 0 0 - 0 + 1)) = _
        rw [hcount]
      · rintro (h | h | h)
        · exact hlive h
        · exact hout h
        · exact Nat.not_lt_zero _ h
    rw [callHarmless_of_some hcall (.inr rfl)]
    have hcount : (UInt32.ofNat (min s.totalBits.toNat (2 ^ 44))).toNat
        = min s.totalBits.toNat (2 ^ 44) % 2 ^ 32 := UInt32.toNat_ofNat'
    rw [hcount]
    refine forall_congr' fun b => ?_
    rw [ZeroLengthSets, if_pos rfl]
    refine ⟨fun h hb => h (Nat.zero_le b) ?_, fun h _ hb => h ?_⟩
    · exact hb.trans_eq (Nat.zero_add _).symm
    · exact hb.trans_eq (Nat.zero_add _)
  · have hne : 0 < offset.toNat := Nat.pos_of_ne_zero fun h => hstart (UInt64.toNat_inj.mp h)
    have hlast : lastByte offset 0 = offset.toNat - 1 := by
      rw [lastByte, hzero]
      omega
    by_cases haligned : offset.toNat % 2 ^ 20 = 0
    · -- the byte before lies in the block before
      refine iff_of_true (callHarmless_of_none ?_) fun b hb => ?_
      · rw [setBitsCall_eq, if_pos]
        refine .inr (.inr ?_)
        rw [lastBlock, hlast]
        omega
      · rw [ZeroLengthSets, if_neg hstart] at hb
        exact absurd haligned hb.1
    · have hblock : lastBlock s offset 0 = offset.toNat / 2 ^ 20 := by
        rw [lastBlock, hlast]
        omega
      have hcall : setBitsCall s offset 0 = some (UInt32.ofNat (offset.toNat / 2 ^ 20), 1) := by
        rw [setBitsCall_eq, if_neg, hblock, Nat.sub_self]
        · rfl
        · rintro (h | h | h)
          · exact hlive h
          · exact hout h
          · omega
      have hnarrow : (UInt32.ofNat (offset.toNat / 2 ^ 20)).toNat
          = offset.toNat / 2 ^ 20 % 2 ^ 32 := UInt32.toNat_ofNat'
      have hone : (1 : UInt32).toNat = 1 := rfl
      rw [callHarmless_of_some hcall (.inl Nat.one_pos), hnarrow, hone]
      refine forall_congr' fun b => ?_
      rw [ZeroLengthSets, if_neg hstart]
      refine ⟨fun h hb => h hb.2.ge (by omega), fun h hlo hhi => h ⟨haligned, by omega⟩⟩

/-- A write leaves every bit of every disk of the map as it is, and sets none outside the
bitmaps. -/
def LeavesBitmaps (hookList : List HookEntry) (majorFunction : Nat → UInt8 → Nat)
    (diskMap : DiskMap) (device : DeviceObject) (irpSp : IoStackLocation) : Prop :=
  (∀ (k b : Nat), ((hwReadWrite hookList majorFunction diskMap device irpSp).2[k]?).map
      (fun e : DiskMapEntry => e.cbtState.marked b)
        = diskMap[k]?.map fun e : DiskMapEntry => e.cbtState.marked b) ∧
    ∀ e ∈ diskMap.find? fun e => e.deviceObject = device.address,
      ∀ call ∈ setBitsCall e.cbtState (irpSp.byteOffset + e.partitionStartingOffset) irpSp.length,
        call.1.toNat + call.2.toNat ≤ 32 * e.cbtState.words.length

/-- A write leaves the bitmaps alone when the call for the disk that it finds does. -/
theorem leavesBitmaps_iff_call {hookList : List HookEntry} {majorFunction : Nat → UInt8 → Nat}
    {diskMap : DiskMap} {device : DeviceObject} {irpSp : IoStackLocation}
    (hwrite : irpSp.majorFunction = irpMjWrite) :
    LeavesBitmaps hookList majorFunction diskMap device irpSp ↔
      ∀ e ∈ diskMap.find? fun e => e.deviceObject = device.address,
        CallHarmless e.cbtState (irpSp.byteOffset + e.partitionStartingOffset) irpSp.length := by
  rw [LeavesBitmaps, hwReadWrite, if_neg (not_not.mpr hwrite)]
  cases hfind : diskMap.find? fun e => e.deviceObject = device.address with
  | none =>
      dsimp only
      refine iff_of_true ⟨fun k b => ?_, fun e he => by cases he⟩ fun e he => by cases he
      split
      · split <;> rfl
      · rfl
  | some e =>
      dsimp only
      obtain ⟨k, hidx⟩ : ∃ k, diskMap.findIdx? (fun e => e.deviceObject = device.address)
          = some k := by
        rw [List.find?_eq_bind_findIdx?_getElem?] at hfind
        obtain ⟨k, hk, -⟩ := Option.bind_eq_some_iff.mp hfind
        exact ⟨k, hk⟩
      have hget : diskMap[k]? = some e := (find?_of_findIdx? hidx).symm.trans hfind
      constructor
      · rintro ⟨hsame, hin⟩ _ ⟨⟩
        refine ⟨fun b => ?_, hin e rfl⟩
        have hb := hsame k b
        rw [getElem?_updateFirst, if_pos hidx, hget] at hb
        exact Option.some.inj hb
      · intro h
        obtain ⟨hsame, hin⟩ := h e rfl
        refine ⟨fun j b => ?_, ?_⟩
        · rw [getElem?_updateFirst]
          split
          · next hj =>
              obtain rfl : k = j := Option.some.inj (hidx.symm.trans hj)
              rw [hget]
              exact congrArg some (hsame b)
          · rfl
        · rintro _ ⟨⟩
          exact hin

/-- **A write of length zero marks nothing exactly when there is nothing to mark**: its disk is
unknown or has no bitmap, the offset lies past the disk or, other than 0, at the start of a block,
or the block it lies in is marked already, and at offset 0 every block. -/
theorem leavesBitmaps_iff (hookList : List HookEntry) (majorFunction : Nat → UInt8 → Nat)
    (diskMap : DiskMap) (device : DeviceObject) (byteOffset : UInt64) :
    LeavesBitmaps hookList majorFunction diskMap device
        { majorFunction := irpMjWrite, byteOffset, length := 0 } ↔
      ∀ e ∈ diskMap.find? fun e => e.deviceObject = device.address,
        ZeroLengthHarmless e.cbtState (byteOffset + e.partitionStartingOffset) := by
  rw [leavesBitmaps_iff_call rfl]
  exact forall₂_congr fun e _ => callHarmless_zero_iff e.cbtState _

/-- A write of length zero to the first byte of a disk of two blocks. -/
theorem zero_length_marks_the_disk :
    ¬ LeavesBitmaps [] (fun _ _ => 0) twoBlockDisk { address := 10, driverObject := 1 }
      { majorFunction := irpMjWrite, byteOffset := 0, length := 0 } := by
  rintro ⟨hsame, -⟩
  exact absurd (hsame 0 1) (by decide)

end Go2Cbt.Driver
