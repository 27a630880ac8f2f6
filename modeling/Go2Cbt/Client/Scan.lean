import Go2Cbt.Client.Manifest
import Go2Cbt.Lib.Chunks

/-!
# Client — scanning a source

`BuildManifest` takes the lengths of the blocks from what remains of the source, and
`ComputeBlockHashes` takes the length of the last block from the total size modulo the size of a
block.  `build_scans`: the blocks of a manifest tile the part of the source that was scanned, and
re-hashing the same source gives the entries of the manifest again.
-/

namespace Go2Cbt.Client

open Chunks (chunk)

/-- An open source with these contents, and a hash function.  A read past the end comes out
short and fails. -/
def contentSource (content : Bytes) (sha256 : Bytes → Hash) : HashOps where
  ready := true
  readAt _ offset size :=
    if offset.toNat + size.toNat ≤ content.length then
      some ((content.drop offset.toNat).take size.toNat)
    else none
  computeBlockHash _ data := some (sha256 data)

theorem readAt_contentSource (content : Bytes) (sha256 : Bytes → Hash) (call : Nat)
    (offset : UInt64) (size : UInt32) :
    (contentSource content sha256).readAt call offset size
      = if offset.toNat + size.toNat ≤ content.length then
          some ((content.drop offset.toNat).take size.toNat)
        else none := rfl

theorem computeBlockHash_contentSource (content : Bytes) (sha256 : Bytes → Hash) (call : Nat)
    (data : Bytes) :
    (contentSource content sha256).computeBlockHash call data = some (sha256 data) := rfl

/-- The entry of block `i` of a part of a source. -/
def scanEntry (content : Bytes) (sha256 : Bytes → Hash) (offset totalSize : UInt64) (i : Nat) :
    BlockHashEntry where
  blockIndex := UInt64.ofNat i
  offset := offset + UInt64.ofNat (i * blockSize)
  hash := sha256 (chunk blockSize ((content.drop offset.toNat).take totalSize.toNat) i)

/-- The range of an entry: where it starts and how long it is. -/
def rangeOf (totalSize : UInt64) (p : BlockHashEntry × Nat) : Nat × Nat :=
  (p.1.offset.toNat, Chunks.length blockSize totalSize.toNat p.2)

/-- What a build is to leave of a part of a source. -/
structure Scans (content : Bytes) (sha256 : Bytes → Hash) (offset totalSize : UInt64)
    (manifest : FullManifest) : Prop where
  count : manifest.entries.length = (totalSize.toNat + blockSize - 1) / blockSize
  tiles : Chunks.Tiles offset.toNat (manifest.entries.zipIdx.map (rangeOf totalSize))
    (offset.toNat + totalSize.toNat)
  hashes : ∀ i entry, manifest.entries[i]? = some entry →
    entry.blockIndex.toNat = i ∧
      entry.hash = sha256 ((content.drop (rangeOf totalSize (entry, i)).1).take
        (rangeOf totalSize (entry, i)).2)

section

variable {content : Bytes} {sha256 : Bytes → Hash} {offset totalSize : UInt64}

/-- How much `BuildManifest` reads when the blocks before block `i` have been read. -/
theorem toNat_nextBlockSize {remaining : UInt64} {i : Nat}
    (h : remaining.toNat = totalSize.toNat - i * blockSize) :
    (nextBlockSize remaining).toNat = Chunks.length blockSize totalSize.toNat i := by
  rw [nextBlockSize, Chunks.length, ← h]
  by_cases hwhole : UInt64.ofNat blockSize ≤ remaining
  · rw [if_pos hwhole]
    rw [UInt64.le_iff_toNat_le, toNat_ofNat_blockSize] at hwhole
    exact (Nat.min_eq_left hwhole).symm
  · rw [if_neg hwhole]
    rw [UInt64.le_iff_toNat_le, toNat_ofNat_blockSize, not_le] at hwhole
    rw [Nat.min_eq_right hwhole.le, UInt64.toNat_toUInt32]
    rw [blockSize_lit] at hwhole
    exact Nat.mod_eq_of_lt (by omega)

/-- The count of the blocks, below `2 ^ 63` bytes. -/
theorem toNat_manifestBlocks_eq_count (h : totalSize.toNat < 2 ^ 63) :
    (manifestBlocks totalSize).toNat = Chunks.count blockSize totalSize.toNat := by
  rw [toNat_manifestBlocks, if_pos (by rw [blockSize_lit]; omega), Chunks.count]

variable (hsize : offset.toNat + totalSize.toNat < 2 ^ 63)
include hsize

theorem toNat_scanEntry_offset {i : Nat}
    (hi : i < Chunks.count blockSize totalSize.toNat) :
    (scanEntry content sha256 offset totalSize i).offset.toNat = offset.toNat + i * blockSize := by
  have hstart := (Chunks.lt_count_iff blockSize_pos).mp hi
  have hval : (UInt64.ofNat (i * blockSize)).toNat = i * blockSize :=
    UInt64.toNat_ofNat_of_lt (by rw [UInt64.size]; omega)
  rw [scanEntry, UInt64.toNat_add, hval, Nat.mod_eq_of_lt (by omega)]

variable (hread : offset.toNat + totalSize.toNat ≤ content.length)
include hread

/-- A read of block `i` gives its bytes. -/
theorem readAt_scanEntry {i call : Nat} {size : UInt32}
    (hi : i < Chunks.count blockSize totalSize.toNat)
    (hlen : size.toNat = Chunks.length blockSize totalSize.toNat i) :
    (contentSource content sha256).readAt call
        (scanEntry content sha256 offset totalSize i).offset size
      = some (chunk blockSize ((content.drop offset.toNat).take totalSize.toNat) i) := by
  have hend := Chunks.mul_add_length blockSize_pos hi
  have hoffset : (scanEntry content sha256 offset totalSize i).offset.toNat
      = offset.toNat + i * blockSize := toNat_scanEntry_offset hsize hi
  rw [readAt_contentSource, hoffset, hlen, if_pos (by omega), Chunks.chunk_take_drop]

/-- The loop of `BuildManifest` from block `i` on: what is left to read goes with the number of
the block. -/
theorem buildManifestFrom_contentSource {left i : Nat} {currentOffset remaining : UInt64}
    {entries : List BlockHashEntry} (hleft : i + left = Chunks.count blockSize totalSize.toNat)
    (hcurrent : currentOffset = (scanEntry content sha256 offset totalSize i).offset)
    (hremaining : remaining.toNat = totalSize.toNat - i * blockSize) :
    buildManifestFrom (contentSource content sha256) left i currentOffset remaining entries
      = (true, entries ++ (List.range' i left).map (scanEntry content sha256 offset totalSize)) := by
  induction left generalizing i currentOffset remaining entries with
  | zero => exact congrArg (Prod.mk true) (List.append_nil _).symm
  | succ left ih =>
      have hi : i < Chunks.count blockSize totalSize.toNat := by omega
      have hlen := toNat_nextBlockSize hremaining
      have hrest : (remaining - (nextBlockSize remaining).toUInt64).toNat
          = totalSize.toNat - (i + 1) * blockSize := by
        have hle : (nextBlockSize remaining).toUInt64 ≤ remaining := by
          rw [UInt64.le_iff_toNat_le, UInt32.toNat_toUInt64, hlen, hremaining]
          exact Nat.min_le_right _ _
        rw [UInt64.toNat_sub_of_le _ _ hle, UInt32.toNat_toUInt64, hlen, hremaining,
          Chunks.sub_length]
      rw [buildManifestFrom, hcurrent, readAt_scanEntry hsize hread hi hlen]
      dsimp only
      rw [computeBlockHash_contentSource]
      dsimp only
      cases left with
      | zero =>
          rw [buildManifestFrom]
          rfl
      | succ left =>
          have hnext : (scanEntry content sha256 offset totalSize i).offset
              + (nextBlockSize remaining).toUInt64
                = (scanEntry content sha256 offset totalSize (i + 1)).offset := by
            have hi' : i + 1 < Chunks.count blockSize totalSize.toNat := by omega
            have hlast := Chunks.mul_add_length blockSize_pos hi
            rw [← UInt64.toNat_inj, toNat_scanEntry_offset hsize hi', UInt64.toNat_add,
              toNat_scanEntry_offset hsize hi, UInt32.toNat_toUInt64, hlen, Nat.add_assoc, hlast]
            have hstart' := (Chunks.lt_count_iff blockSize_pos).mp hi'
            rw [Nat.min_eq_left hstart'.le, Nat.mod_eq_of_lt (by omega)]
          rw [ih (by omega) hnext hrest, List.append_assoc, List.singleton_append]
          rfl

/-- **A build of a source that can be read** goes through. -/
theorem buildManifest_contentSource (now : UInt64) (volumePath : List UInt16)
    (manifest : FullManifest) :
    buildManifest (contentSource content sha256) now offset totalSize volumePath manifest
      = (true,
          { totalBlocks := manifestBlocks totalSize
            totalSize := totalSize
            entries := (List.range (Chunks.count blockSize totalSize.toNat)).map
              (scanEntry content sha256 offset totalSize)
            blockSize := UInt64.ofNat Go2Cbt.blockSize
            timestamp := now
            volumePath := volumePath }) := by
  have hcount : (manifestBlocks totalSize).toNat = Chunks.count blockSize totalSize.toNat :=
    toNat_manifestBlocks_eq_count (by omega)
  have hfirst : offset = (scanEntry content sha256 offset totalSize 0).offset := by
    rw [scanEntry, Nat.zero_mul]
    exact (UInt64.add_zero offset).symm
  have hstart : totalSize.toNat = totalSize.toNat - 0 * blockSize := by
    rw [Nat.zero_mul, Nat.sub_zero]
  have hready : (contentSource content sha256).ready = true := rfl
  rw [buildManifest, if_pos hready, hcount,
    buildManifestFrom_contentSource hsize hread (Nat.zero_add _) hfirst hstart, List.nil_append,
    ← List.range_eq_range']
  rfl

omit hread in
/-- `ComputeBlockHashes` reads a block with the length it was built with. -/
theorem toNat_rehashSize {manifest : HashManifest} {i : Nat}
    (hblocks : manifest.totalBlocks = manifestBlocks totalSize)
    (htotal : manifest.totalSize = totalSize) (hi : i < Chunks.count blockSize totalSize.toNat) :
    (rehashSize manifest i).toNat = Chunks.length blockSize totalSize.toNat i := by
  have hcount : (manifestBlocks totalSize).toNat = Chunks.count blockSize totalSize.toNat :=
    toNat_manifestBlocks_eq_count (by omega)
  have hone : (1 : UInt64).toNat = 1 := rfl
  have hpos : 1 ≤ manifestBlocks totalSize := UInt64.le_iff_toNat_le.mpr (by omega)
  have hlast : i = (manifestBlocks totalSize - 1).toNat ↔
      i + 1 = Chunks.count blockSize totalSize.toNat := by
    rw [UInt64.toNat_sub_of_le _ _ hpos, hcount, hone]
    omega
  have hmod : (totalSize % UInt64.ofNat blockSize).toNat = totalSize.toNat % blockSize := by
    rw [UInt64.toNat_mod, toNat_ofNat_blockSize]
  have hrest : totalSize % UInt64.ofNat blockSize > 0 ↔ 0 < totalSize.toNat % blockSize := by
    rw [gt_iff_lt, UInt64.lt_iff_toNat_lt, hmod]
    rfl
  have hlt := Nat.mod_lt totalSize.toNat blockSize_pos
  rw [Chunks.length_eq_mod blockSize_pos hi, rehashSize, hblocks, htotal]
  by_cases hshort : i + 1 = Chunks.count blockSize totalSize.toNat ∧ 0 < totalSize.toNat % blockSize
  · rw [if_pos hshort, if_pos ⟨hlast.mpr hshort.1, hrest.mpr hshort.2⟩, UInt64.toNat_toUInt32, hmod]
    rw [blockSize_lit] at hlt ⊢
    exact Nat.mod_eq_of_lt (by omega)
  · rw [if_neg hshort, if_neg fun h => hshort ⟨hlast.mp h.1, hrest.mp h.2⟩]
    rfl

/-- The loop of `ComputeBlockHashes` on the manifest of a source, and the source. -/
theorem computeBlockHashesFrom_contentSource {manifest : HashManifest} {call : Nat}
    {idxs : List Nat} {hashes : List BlockHashEntry}
    (hblocks : manifest.totalBlocks = manifestBlocks totalSize)
    (htotal : manifest.totalSize = totalSize)
    (hentries : manifest.entries = (List.range (Chunks.count blockSize totalSize.toNat)).map
      (scanEntry content sha256 offset totalSize)) :
    computeBlockHashesFrom (contentSource content sha256) manifest call idxs hashes
      = (true, hashes ++ idxs.filterMap (manifest.entries[·]?)) := by
  induction idxs generalizing call hashes with
  | nil => exact congrArg (Prod.mk true) (List.append_nil _).symm
  | cons idx rest ih =>
      by_cases hidx : idx < Chunks.count blockSize totalSize.toNat
      · have hentry : manifest.entries[idx]?
            = some (scanEntry content sha256 offset totalSize idx) := by
          rw [hentries, List.getElem?_map, List.getElem?_range hidx]
          rfl
        have hlen := toNat_rehashSize hsize hblocks htotal hidx
        rw [computeBlockHashesFrom_cons hentry (readAt_scanEntry hsize hread hidx hlen)
          (computeBlockHash_contentSource _ _ _ _), ih,
          List.append_assoc, List.singleton_append, List.filterMap_cons_some hentry]
        rfl
      · have hnone : manifest.entries[idx]? = none := by
          rw [hentries, List.getElem?_eq_none_iff, List.length_map, List.length_range]
          exact not_lt.mp hidx
        rw [computeBlockHashesFrom, hnone, List.filterMap_cons_none hnone]
        exact ih

omit hread in
/-- The entries of a source, as a manifest has them. -/
theorem scans_of_entries {manifest : FullManifest}
    (hentries : manifest.entries = (List.range (Chunks.count blockSize totalSize.toNat)).map
      (scanEntry content sha256 offset totalSize)) :
    Scans content sha256 offset totalSize manifest := by
  refine ⟨?_, ?_, fun i entry hi => ?_⟩
  · rw [hentries, List.length_map, List.length_range]
    rfl
  · have hranges : manifest.entries.zipIdx.map (rangeOf totalSize)
        = (List.range (Chunks.count blockSize totalSize.toNat)).map fun i =>
          (offset.toNat + i * blockSize, Chunks.length blockSize totalSize.toNat i) := by
      rw [hentries]
      refine List.ext_getElem (by simp) fun i hi _ => ?_
      have hlt : i < Chunks.count blockSize totalSize.toNat := by simpa using hi
      simp only [List.getElem_map, List.getElem_zipIdx, List.getElem_range, Nat.zero_add, rangeOf,
        toNat_scanEntry_offset hsize hlt]
    rw [hranges]
    exact Chunks.tiles_map_range blockSize_pos _
  · obtain ⟨hlt, hget⟩ := List.getElem?_eq_some_iff.mp hi
    rw [hentries, List.length_map, List.length_range] at hlt
    rw [hentries, List.getElem?_map, List.getElem?_range hlt, Option.map_some,
      Option.some.injEq] at hi
    subst hi
    have hindex : i < UInt64.size := by
      have hstart := (Chunks.lt_count_iff blockSize_pos).mp hlt
      have hle := Nat.le_mul_of_pos_right i blockSize_pos
      rw [UInt64.size]
      omega
    rw [rangeOf, toNat_scanEntry_offset hsize hlt, ← Chunks.chunk_take_drop]
    exact ⟨UInt64.toNat_ofNat_of_lt hindex, rfl⟩

end

/-- **A manifest tiles what it was built from, and re-hashing agrees with it.** -/
theorem build_scans (content : Bytes) (sha256 : Bytes → Hash) (now offset totalSize : UInt64)
    (volumePath : List UInt16) (manifest : FullManifest)
    (hsize : offset.toNat + totalSize.toNat < 2 ^ 63)
    (hread : offset.toNat + totalSize.toNat ≤ content.length) :
    let built := buildManifest (contentSource content sha256) now offset totalSize volumePath
      manifest
    built.1 = true ∧ Scans content sha256 offset totalSize built.2 ∧
      ∀ idxs, computeBlockHashes (contentSource content sha256) built.2.toHashManifest idxs
        = (true, idxs.filterMap (built.2.entries[·]?)) := by
  intro built
  have hbuilt : built = _ := buildManifest_contentSource hsize hread now volumePath manifest
  rw [hbuilt]
  refine ⟨rfl, scans_of_entries hsize rfl, fun idxs => ?_⟩
  have hready : (contentSource content sha256).ready = true := rfl
  rw [computeBlockHashes, if_pos hready,
    computeBlockHashesFrom_contentSource hsize hread rfl rfl rfl, List.nil_append]

/-- The hashes of a source of zero bytes that has a megabyte and one byte. -/
def zeroSha256 (data : Bytes) : Hash := if data = [0] then zeroHashes.1 else zeroHashes.2

/-- A megabyte and one byte, from the fourth byte on. -/
theorem build_scans_twoBlocks :
    let zeros := List.replicate 1048580 0
    let built := buildManifest (contentSource zeros zeroSha256) 0 3 1048577 [] .blank
    built.1 = true ∧ Scans zeros zeroSha256 3 1048577 built.2 ∧
      ∀ idxs, computeBlockHashes (contentSource zeros zeroSha256) built.2.toHashManifest idxs
        = (true, idxs.filterMap (built.2.entries[·]?)) :=
  build_scans (List.replicate 1048580 0) zeroSha256 0 3 1048577 [] .blank (by decide)
    (by rw [List.length_replicate]; decide)

end Go2Cbt.Client
