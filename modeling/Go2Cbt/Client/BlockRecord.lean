import Go2Cbt.Client.StateRoundTrip
import Go2Cbt.Lib.Image

/-!
# Client — a block record in memory

`SerializeBlock` and `DeserializeBlock` as copies between a block and the memory behind a pointer.
The buffers that `Save` and `Load` hand them have 48 bytes, and the copies go to byte 51: the hash
starts at byte 20 and has 32 bytes, while the comment that calls bytes 52 to 55 reserved counts a
record of 56.

`leaves_record` says so of every block; `deserializeBlockAt_eq_iff` says what a reader gets: the
hash ends with whatever four bytes lie behind the buffer.
-/

namespace Go2Cbt.Client

open LittleEndian

/-- `SerializeBlock`: its copies into the memory behind `out`, in order. -/
def serializeBlockTo (bs : BlockState) (out : Image) : Image :=
  let out := out.write 0 (List.replicate blockRecordSize 0)
  let out := out.write 0 (ofU32 bs.flags)
  let out := out.write 4 (ofU64 bs.blockIndex)
  let out := out.write 12 (ofU64 bs.versionId)
  out.write 20 bs.hash.bytes

/-- `DeserializeBlock`: its copies out of the memory behind `data`. -/
def deserializeBlockAt (data : Image) : BlockState :=
  let flags := u32 (data.slice 0 4) 0
  let blockIndex := u64 (data.slice 4 8) 0
  { blockIndex := blockIndex
    offset := blockIndex * UInt64.ofNat blockSize
    hash := ⟨data.slice 20 32, Image.length_slice _ _ _⟩
    versionId := u64 (data.slice 12 8) 0
    ack := .ofCode ((flags >>> 1) &&& 0x07)
    changed := flags &&& 0x01 ≠ 0 }

/-! ### What a record takes -/

/-- The four copies of `SerializeBlock`, in the memory they fill. -/
theorem slices_serializeBlockTo (bs : BlockState) (out : Image) :
    (serializeBlockTo bs out).slice 0 4 = ofU32 bs.flags ∧
      (serializeBlockTo bs out).slice 4 8 = ofU64 bs.blockIndex ∧
      (serializeBlockTo bs out).slice 12 8 = ofU64 bs.versionId ∧
      (serializeBlockTo bs out).slice 20 32 = bs.hash.bytes := by
  have hhash := bs.hash.length_eq
  rw [serializeBlockTo]
  refine ⟨?_, ?_, ?_, ?_⟩
  · rw [Image.slice_write_of_disjoint (by omega), Image.slice_write_of_disjoint (by simp),
      Image.slice_write_of_disjoint (by simp), ← length_ofU32 bs.flags, Image.slice_write_self]
  · rw [Image.slice_write_of_disjoint (by omega), Image.slice_write_of_disjoint (by simp),
      ← length_ofU64 bs.blockIndex, Image.slice_write_self]
  · rw [Image.slice_write_of_disjoint (by omega), ← length_ofU64 bs.versionId,
      Image.slice_write_self]
  · rw [← hhash, Image.slice_write_self]

/-- The first 52 bytes of a memory, copy by copy. -/
theorem slice_record (data : Image) :
    data.slice 0 52
      = data.slice 0 4 ++ data.slice 4 8 ++ data.slice 12 8 ++ data.slice 20 32 := by
  rw [show 52 = 4 + 8 + 8 + 32 from rfl, Image.slice_add, Image.slice_add, Image.slice_add]

/-- **The copies put 52 bytes**, one behind the other. -/
theorem slice_serializeBlockTo (bs : BlockState) (out : Image) :
    (serializeBlockTo bs out).slice 0 52 = serializeBlock bs := by
  obtain ⟨hflags, hindex, hversion, hhash⟩ := slices_serializeBlockTo bs out
  rw [slice_record, hflags, hindex, hversion, hhash, serializeBlock]

theorem serializeBlockTo_of_behind (bs : BlockState) (out : Image) {i : Nat} (h : 52 ≤ i) :
    serializeBlockTo bs out i = out i := by
  have hhash := bs.hash.length_eq
  rw [serializeBlockTo, Image.write_of_outside (.inr (by omega)),
    Image.write_of_outside (.inr (by rw [length_ofU64]; omega)),
    Image.write_of_outside (.inr (by rw [length_ofU64]; omega)),
    Image.write_of_outside (.inr (by rw [length_ofU32]; omega)),
    Image.write_of_outside (.inr (by rw [List.length_replicate, blockRecordSize]; omega))]

/-- What is copied out is the 52 bytes that `SerializeBlock` puts. -/
theorem deserializeBlockAt_eq (data : Image) :
    deserializeBlockAt data = deserializeBlock (data.slice 0 52) := by
  have hflags : u32 (data.slice 0 4) 0 = u32 (data.slice 0 52) 0 := by
    rw [u32, u32, Image.field_slice (by omega), Image.field_slice (by omega)]
  have hindex : u64 (data.slice 4 8) 0 = u64 (data.slice 0 52) 4 := by
    rw [u64, u64, Image.field_slice (by omega), Image.field_slice (by omega)]
  have hversion : u64 (data.slice 12 8) 0 = u64 (data.slice 0 52) 12 := by
    rw [u64, u64, Image.field_slice (by omega), Image.field_slice (by omega)]
  have hhash : Protocol.hashField (data.slice 0 52) 20
      = ⟨data.slice 20 32, Image.length_slice _ _ _⟩ := by
    have hfield : ((data.slice 0 52).drop 20).takeD 32 0 = data.slice 20 32 := by
      rw [List.takeD_eq_take _ (by simp)]
      exact Image.field_slice (by omega)
    rw [Protocol.hashField]
    congr 1
  rw [deserializeBlockAt, deserializeBlock, hflags, hindex, hversion, hhash]

/-! ### Past the end of the record -/

theorem writes_serializeBlockTo_iff (bs : BlockState) (i : Nat) :
    Image.Writes (serializeBlockTo bs) i ↔ i < 52 := by
  have hlen : (serializeBlock bs).length = 52 := by simp [serializeBlock, bs.hash.length_eq]
  constructor
  · intro h
    by_contra hbehind
    exact Image.not_writes (fun out => serializeBlockTo_of_behind bs out (by omega)) h
  · intro h
    refine Image.writes_of_slice (fun out => ?_) ⟨Nat.zero_le i, by rw [hlen]; omega⟩
    rw [hlen]
    exact slice_serializeBlockTo bs out

/-- Every byte of the hash is read, and nothing behind it. -/
theorem reads_deserializeBlockAt_iff {i : Nat} (h : 20 ≤ i) :
    Image.Reads deserializeBlockAt i ↔ i < 52 := by
  constructor
  · rintro ⟨data, b, hne⟩
    by_contra hbehind
    refine hne ?_
    rw [deserializeBlockAt_eq, deserializeBlockAt_eq,
      Image.slice_update_of_outside b (.inr (by omega))]
  · intro hi
    refine ⟨fun _ => 0, 1, fun heq => ?_⟩
    have hhash := congrArg (fun bs : BlockState => bs.hash.bytes) heq
    exact Image.slice_update_ne ⟨h, by omega⟩ (by decide) hhash

/-- A memory with the record of a block behind the pointer. -/
def HoldsRecord (bs : BlockState) (data : Image) : Prop :=
  data.slice 0 blockRecordSize = blockRecord bs

theorem holdsRecord_serializeBlockTo (bs : BlockState) (out : Image) :
    HoldsRecord bs (serializeBlockTo bs out) := by
  have hfront : field ((serializeBlockTo bs out).slice 0 52) 0 blockRecordSize
      = (serializeBlockTo bs out).slice 0 blockRecordSize :=
    Image.field_slice (by decide)
  rw [HoldsRecord, ← hfront, slice_serializeBlockTo, blockRecord, field, List.drop_zero]

/-- **What comes back**: the block, when the last four bytes of its hash happen to lie behind the
buffer. -/
theorem deserializeBlockAt_eq_iff {bs : BlockState} (hstorable : BlockStateManager.Storable bs)
    {data : Image} (h : HoldsRecord bs data) :
    deserializeBlockAt data = bs ↔ bs.hash.bytes.drop 28 = data.slice blockRecordSize 4 := by
  let slack : Vector UInt8 4 := ⟨(data.slice blockRecordSize 4).toArray, by simp⟩
  have hslack : slack.toList = data.slice blockRecordSize 4 := rfl
  have hread : data.slice 0 52 = blockRecord bs ++ slack.toList := by
    rw [hslack, ← h]
    exact Image.slice_add data 0 blockRecordSize 4
  rw [deserializeBlockAt_eq, hread, deserializeBlock_blockRecord hstorable.2,
    BlockStateManager.reread_eq_iff hstorable, hslack]

/-- A memory that holds the record and another byte behind it. -/
theorem exists_other_hash (bs : BlockState) :
    ∃ data, HoldsRecord bs data ∧ (deserializeBlockAt data).hash ≠ bs.hash := by
  let out : Image := serializeBlockTo bs fun _ => 0
  let other : Image := Function.update out 51 (out 51 + 1)
  have hother : out 51 + 1 ≠ out 51 := fun hsame => by simp at hsame
  refine ⟨other, ?_, fun heq => ?_⟩
  · rw [HoldsRecord, Image.slice_update_of_outside _ (.inr (by decide))]
    exact holdsRecord_serializeBlockTo bs _
  · have hbytes : other.slice 20 32 = out.slice 20 32 :=
      (congrArg Hash.bytes heq).trans (slices_serializeBlockTo bs _).2.2.2.symm
    exact Image.slice_update_ne (by decide) hother hbytes

/-- The copies of a block stay inside its record, and the record gives it back. -/
structure StaysInRecord (bs : BlockState) : Prop where
  writes : ∀ i, Image.Writes (serializeBlockTo bs) i → i < blockRecordSize
  reads : ∀ i, Image.Reads deserializeBlockAt i → i < blockRecordSize
  returns : ∀ data, HoldsRecord bs data → deserializeBlockAt data = bs

/-- **No block stays inside its record**: four bytes are written and read past its end, and the
hash that comes back is not decided by the record. -/
theorem leaves_record (bs : BlockState) :
    ¬ StaysInRecord bs ∧
      (∀ i, Image.Writes (serializeBlockTo bs) i ↔ i < blockRecordSize + 4) ∧
      (∀ i, 20 ≤ i → (Image.Reads deserializeBlockAt i ↔ i < blockRecordSize + 4)) ∧
      ∃ data, HoldsRecord bs data ∧ (deserializeBlockAt data).hash ≠ bs.hash := by
  refine ⟨fun h => ?_, writes_serializeBlockTo_iff bs,
    fun i hi => reads_deserializeBlockAt_iff hi, exists_other_hash bs⟩
  have hwritten := h.writes 51 ((writes_serializeBlockTo_iff bs 51).mpr (by decide))
  exact absurd hwritten (by decide)

/-- The block at offset 0 with a zeroed hash. -/
def zeroBlock : BlockState where
  blockIndex := 0
  offset := 0
  hash := .zero
  versionId := 0
  ack := .pending
  changed := false

/-- **Byte 51 of a 48-byte record**: a zeroed block clears it, and reads it back. -/
theorem zeroBlock_leaves_record :
    serializeBlockTo zeroBlock (fun _ => 1) 51 = 0 ∧
      HoldsRecord zeroBlock (Function.update (fun _ => 0) 51 1) ∧
      (deserializeBlockAt (Function.update (fun _ => 0) 51 1)).hash ≠ zeroBlock.hash ∧
      ¬ StaysInRecord zeroBlock := by
  have hrecord : HoldsRecord zeroBlock (Function.update (fun _ => 0) 51 1) := by
    rw [HoldsRecord, Image.slice_update_of_outside _ (.inr (by decide))]
    decide
  have hhash : (deserializeBlockAt (Function.update (fun _ => 0) 51 1)).hash ≠ zeroBlock.hash := by
    decide +kernel
  refine ⟨by decide +kernel, hrecord, hhash, fun h => hhash ?_⟩
  rw [h.returns _ hrecord]

end Go2Cbt.Client
