import Go2Cbt.Client.BlockHasher
import Go2Cbt.Protocol

/-!
# Client — a hash manifest and its bytes

`BuildManifest` records for each block where it was read.  `SerializeManifest` writes the number
and the hash of a block but not its offset, and `DeserializeManifest` leaves the offsets at zero,
where `ComputeBlockHashes` then reads.

`reloads_iff` gives the sources whose manifest survives: those of no block, and those of one
block at offset 0.
-/

namespace Go2Cbt.Client

open LittleEndian

/-- `HashManifest` with the fields that re-hashing does not read. -/
structure FullManifest extends HashManifest where
  blockSize : UInt64
  timestamp : UInt64
  volumePath : List UInt16
  deriving DecidableEq

/-- `manifest = {}`. -/
def FullManifest.blank : FullManifest where
  totalBlocks := 0
  totalSize := 0
  entries := []
  blockSize := 0
  timestamp := 0
  volumePath := []

/-- The number of blocks that `BuildManifest` splits a source into. -/
def manifestBlocks (totalSize : UInt64) : UInt64 :=
  (totalSize + UInt64.ofNat blockSize - 1) / UInt64.ofNat blockSize

/-- How much `BuildManifest` reads for the next block. -/
def nextBlockSize (remaining : UInt64) : UInt32 :=
  if remaining ≥ UInt64.ofNat blockSize then UInt32.ofNat blockSize else remaining.toUInt32

/-- The loop of `BuildManifest` from block `i` on. -/
def buildManifestFrom (ops : HashOps) : (left i : Nat) → (currentOffset remaining : UInt64) →
    List BlockHashEntry → Bool × List BlockHashEntry
  | 0, _, _, _, entries => (true, entries)
  | left + 1, i, currentOffset, remaining, entries =>
      match ops.readAt i currentOffset (nextBlockSize remaining) with
      | none => (false, entries)
      | some data =>
          match ops.computeBlockHash i data with
          | none => (false, entries)
          | some hash =>
              buildManifestFrom ops left (i + 1)
                (currentOffset + (nextBlockSize remaining).toUInt64)
                (remaining - (nextBlockSize remaining).toUInt64)
                (entries ++ [{ blockIndex := UInt64.ofNat i, offset := currentOffset, hash }])

/-- `BuildManifest`, on the manifest that it fills.  `now` is the clock. -/
def buildManifest (ops : HashOps) (now offset totalSize : UInt64) (volumePath : List UInt16)
    (manifest : FullManifest) : Bool × FullManifest :=
  if ops.ready then
    (buildManifestFrom ops (manifestBlocks totalSize).toNat 0 offset totalSize []).map id
      fun entries =>
        { totalBlocks := manifestBlocks totalSize
          totalSize := totalSize
          entries := entries
          blockSize := UInt64.ofNat Go2Cbt.blockSize
          timestamp := now
          volumePath := volumePath }
  else (false, manifest)

/-! ### The bytes -/

/-- "BHMF". -/
def manifestMagic : UInt32 := 0x464D4842

def manifestVersion : UInt32 := 1

/-- An entry in the bytes: its number and its hash. -/
def serializeEntry (entry : BlockHashEntry) : Bytes := ofU64 entry.blockIndex ++ entry.hash.bytes

/-- `SerializeManifest`. -/
def serializeManifest (manifest : FullManifest) : Bytes :=
  ofU32 manifestMagic ++ ofU32 manifestVersion ++ ofU64 manifest.blockSize
    ++ ofU64 manifest.totalBlocks ++ ofU64 manifest.totalSize
    ++ manifest.entries.flatMap serializeEntry

/-- An entry as `Entries.resize` makes it. -/
def blankEntry : BlockHashEntry where
  blockIndex := 0
  offset := 0
  hash := .zero

/-- The loop of `DeserializeManifest`, which fills the resized array. -/
def readEntries : (left : Nat) → Bytes → Bool × List BlockHashEntry
  | 0, _ => (true, [])
  | left + 1, rest =>
      if rest.length < 8 then (false, List.replicate (left + 1) blankEntry)
      else if rest.length < 40 then
        (false, { blankEntry with blockIndex := u64 rest 0 } :: List.replicate left blankEntry)
      else
        let entries := readEntries left (rest.drop 40)
        (entries.1,
          { blankEntry with blockIndex := u64 rest 0, hash := Protocol.hashField rest 8 }
            :: entries.2)

/-- `DeserializeManifest`, on the manifest that it fills. -/
def deserializeManifest (data : Bytes) (manifest : FullManifest) : Bool × FullManifest :=
  if data.length < 32 then (false, manifest)
  else if u32 data 0 ≠ manifestMagic then (false, manifest)
  else if u32 data 4 ≠ manifestVersion then (false, manifest)
  else
    let header : FullManifest :=
      { FullManifest.blank with
        blockSize := u64 data 8
        totalBlocks := u64 data 16
        totalSize := u64 data 24 }
    -- the expected size is counted in 64 bits
    if data.length < (32 + header.totalBlocks * 40).toNat then (false, header)
    else
      let entries := readEntries header.totalBlocks.toNat (data.drop 32)
      (entries.1, { header with entries := entries.2 })

/-! ### Reading back what was written -/

@[simp] theorem length_serializeEntry (entry : BlockHashEntry) :
    (serializeEntry entry).length = 40 := by
  rw [serializeEntry, List.length_append, length_ofU64, entry.hash.length_eq]

/-- What is left of an entry. -/
def BlockHashEntry.withoutOffset (entry : BlockHashEntry) : BlockHashEntry :=
  { entry with offset := 0 }

theorem readEntries_flatMap (entries : List BlockHashEntry) :
    readEntries entries.length (entries.flatMap serializeEntry)
      = (true, entries.map BlockHashEntry.withoutOffset) := by
  induction entries with
  | nil => rfl
  | cons entry entries ih =>
      have hlen : ((entry :: entries).flatMap serializeEntry).length
          = 40 + (entries.flatMap serializeEntry).length := by
        rw [List.flatMap_cons, List.length_append, length_serializeEntry]
      have hindex : u64 ((entry :: entries).flatMap serializeEntry) 0 = entry.blockIndex := by
        rw [List.flatMap_cons, serializeEntry, List.append_assoc, u64_head]
      have hhash : Protocol.hashField ((entry :: entries).flatMap serializeEntry) 8 = entry.hash := by
        rw [List.flatMap_cons, serializeEntry, List.append_assoc,
          Protocol.hashField_skip (by rw [length_ofU64]), length_ofU64]
        exact Protocol.hashField_head _ _
      have hrest : ((entry :: entries).flatMap serializeEntry).drop 40
          = entries.flatMap serializeEntry := by
        rw [List.flatMap_cons, List.drop_left' (length_serializeEntry entry)]
      rw [List.length_cons, readEntries, if_neg (by omega), if_neg (by omega), hindex, hhash,
        hrest, ih]
      rfl

/-- **A manifest comes back** without its offsets, its time and its path. -/
theorem deserializeManifest_serializeManifest {manifest : FullManifest}
    (hcount : manifest.entries.length = manifest.totalBlocks.toNat)
    (hsmall : manifest.totalBlocks.toNat < 2 ^ 58) (into : FullManifest) :
    deserializeManifest (serializeManifest manifest) into
      = (true,
          { manifest with
            entries := manifest.entries.map BlockHashEntry.withoutOffset
            timestamp := 0
            volumePath := [] }) := by
  have hbytes : (serializeManifest manifest).length = 32 + 40 * manifest.totalBlocks.toNat := by
    simp [serializeManifest, length_flatMap_of_length length_serializeEntry, hcount]
    omega
  have hmagic : u32 (serializeManifest manifest) 0 = manifestMagic := by
    simp [serializeManifest, u32_head]
  have hversion : u32 (serializeManifest manifest) 4 = manifestVersion := by
    simp [serializeManifest, u32_skip, u32_head]
  have hblockSize : u64 (serializeManifest manifest) 8 = manifest.blockSize := by
    simp [serializeManifest, u64_skip, u64_head]
  have htotal : u64 (serializeManifest manifest) 16 = manifest.totalBlocks := by
    simp [serializeManifest, u64_skip, u64_head]
  have hsize : u64 (serializeManifest manifest) 24 = manifest.totalSize := by
    simp [serializeManifest, u64_skip, u64_head]
  have hbody : (serializeManifest manifest).drop 32
      = manifest.entries.flatMap serializeEntry := by
    rw [serializeManifest, List.drop_left' (by simp)]
  have hexpected : (32 + manifest.totalBlocks * 40).toNat
      = 32 + 40 * manifest.totalBlocks.toNat := by
    rw [UInt64.toNat_add, UInt64.toNat_mul]
    change (32 + manifest.totalBlocks.toNat * 40 % 2 ^ 64) % 2 ^ 64 = _
    omega
  rw [deserializeManifest, if_neg (by rw [hbytes]; omega), if_neg (not_not.mpr hmagic),
    if_neg (not_not.mpr hversion)]
  dsimp only
  rw [htotal, hexpected, if_neg (by rw [hbytes]; exact lt_irrefl _), hbody, ← hcount,
    readEntries_flatMap, hblockSize, hsize]
  rfl

/-! ### What a build records -/

/-- The entries of a build from block `i` on. -/
def builtEntries (hash : Nat → Hash) (i left : Nat) (currentOffset : UInt64) :
    List BlockHashEntry :=
  (List.range left).map fun k =>
    { blockIndex := UInt64.ofNat (i + k)
      offset := currentOffset + UInt64.ofNat k * UInt64.ofNat blockSize
      hash := hash k }

theorem builtEntries_succ (hash : Nat → Hash) (first : Hash) (i left : Nat)
    (currentOffset : UInt64) :
    ({ blockIndex := UInt64.ofNat i, offset := currentOffset, hash := first } : BlockHashEntry)
        :: builtEntries hash (i + 1) left (currentOffset + UInt64.ofNat blockSize)
      = builtEntries (fun k => k.casesOn first hash) i (left + 1) currentOffset := by
  rw [builtEntries, builtEntries, List.range_succ_eq_map, List.map_cons, List.map_map]
  congr 1
  · rw [Nat.add_zero]
    congr 1
    change _ = currentOffset + 0 * _
    rw [UInt64.zero_mul, UInt64.add_zero]
  · refine List.map_congr_left fun k _ => ?_
    have hindex : i + 1 + k = i + (k + 1) := by omega
    have hnext : UInt64.ofNat (k + 1) = UInt64.ofNat k + 1 := UInt64.ofNat_add k 1
    simp only [Function.comp, hindex, Nat.succ_eq_add_one, hnext, UInt64.add_mul, UInt64.one_mul,
      UInt64.add_assoc, UInt64.add_comm (UInt64.ofNat blockSize)]

/-- A block that is not the last one is read whole. -/
theorem nextBlockSize_of_le {remaining : UInt64} (h : UInt64.ofNat blockSize ≤ remaining) :
    (nextBlockSize remaining).toUInt64 = UInt64.ofNat blockSize := by
  rw [nextBlockSize, if_pos h]
  rfl

/-- **The loop of a build** that goes through: every block at its distance from the start. -/
theorem buildManifestFrom_eq {ops : HashOps} {left i : Nat} {currentOffset remaining : UInt64}
    {entries : List BlockHashEntry} (hleft : blockSize * left < remaining.toNat + blockSize)
    (hok : (buildManifestFrom ops left i currentOffset remaining entries).1 = true) :
    ∃ hash, (buildManifestFrom ops left i currentOffset remaining entries).2
      = entries ++ builtEntries hash i left currentOffset := by
  induction left generalizing i currentOffset remaining entries with
  | zero => exact ⟨fun _ => .zero, (List.append_nil _).symm⟩
  | succ left ih =>
      rw [buildManifestFrom] at hok ⊢
      split at hok
      · cases hok
      · split at hok
        · cases hok
        · next first _ =>
          cases left with
          | zero => exact ⟨fun _ => first, by simp [buildManifestFrom, builtEntries]⟩
          | succ left =>
              have hwhole : UInt64.ofNat blockSize ≤ remaining := by
                rw [UInt64.le_iff_toNat_le, toNat_ofNat_blockSize]
                rw [blockSize_lit] at hleft ⊢
                omega
              rw [nextBlockSize_of_le hwhole] at hok ⊢
              have hrest : (remaining - UInt64.ofNat blockSize).toNat
                  = remaining.toNat - blockSize := UInt64.toNat_sub_of_le _ _ hwhole
              have hnext : blockSize * (left + 1)
                  < (remaining - UInt64.ofNat blockSize).toNat + blockSize := by
                rw [hrest]
                rw [Nat.mul_succ] at hleft
                omega
              obtain ⟨hash, heq⟩ := ih hnext hok
              exact ⟨fun k => k.casesOn first hash, by
                rw [heq, List.append_assoc, ← builtEntries_succ]
                rfl⟩

/-- The number of blocks, in exact arithmetic: the sum wraps for the last block sizes. -/
theorem toNat_manifestBlocks (totalSize : UInt64) :
    (manifestBlocks totalSize).toNat
      = if totalSize.toNat ≤ 2 ^ 64 - blockSize then (totalSize.toNat + blockSize - 1) / blockSize
        else 0 := by
  have hlt := totalSize.toNat_lt
  have hsum : (totalSize + UInt64.ofNat blockSize - 1).toNat
      = (2 ^ 64 - 1 + (totalSize.toNat + blockSize) % 2 ^ 64) % 2 ^ 64 := by
    rw [UInt64.toNat_sub, UInt64.toNat_add, toNat_ofNat_blockSize, UInt64.toNat_one]
  have hcount : (manifestBlocks totalSize).toNat
      = (2 ^ 64 - 1 + (totalSize.toNat + blockSize) % 2 ^ 64) % 2 ^ 64 / blockSize := by
    rw [manifestBlocks, UInt64.toNat_div, hsum, toNat_ofNat_blockSize]
  rw [hcount]
  split
  · next hfits =>
    have hexact : (2 ^ 64 - 1 + (totalSize.toNat + blockSize) % 2 ^ 64) % 2 ^ 64
        = totalSize.toNat + blockSize - 1 := by
      rw [blockSize_lit] at hfits ⊢
      omega
    exact congrArg (· / blockSize) hexact
  · next hfits =>
    have hwrapped : (2 ^ 64 - 1 + (totalSize.toNat + blockSize) % 2 ^ 64) % 2 ^ 64 < blockSize := by
      rw [blockSize_lit] at hfits ⊢
      omega
    exact Nat.div_eq_of_lt hwrapped

theorem blockSize_mul_manifestBlocks_lt (totalSize : UInt64) :
    blockSize * (manifestBlocks totalSize).toNat < totalSize.toNat + blockSize := by
  rw [toNat_manifestBlocks, blockSize_lit]
  split <;> omega

/-- **A manifest that was built.** -/
theorem buildManifest_eq {ops : HashOps} {now offset totalSize : UInt64} {volumePath : List UInt16}
    {manifest : FullManifest}
    (hbuilt : (buildManifest ops now offset totalSize volumePath manifest).1 = true) :
    ∃ hash, (buildManifest ops now offset totalSize volumePath manifest).2
      = { totalBlocks := manifestBlocks totalSize
          totalSize := totalSize
          entries := builtEntries hash 0 (manifestBlocks totalSize).toNat offset
          blockSize := UInt64.ofNat Go2Cbt.blockSize
          timestamp := now
          volumePath := volumePath } := by
  have hready : ops.ready = true := by
    by_contra hnot
    rw [buildManifest, if_neg hnot] at hbuilt
    cases hbuilt
  rw [buildManifest, if_pos hready] at hbuilt ⊢
  rw [Prod.map_fst, id] at hbuilt
  obtain ⟨hash, hentries⟩ := buildManifestFrom_eq (blockSize_mul_manifestBlocks_lt totalSize) hbuilt
  exact ⟨hash, by rw [Prod.map_snd, hentries, List.nil_append]⟩

/-! ### Manifests that survive -/

/-- The bytes of a manifest are accepted and give back what re-hashing needs. -/
structure Reloads (manifest into : FullManifest) : Prop where
  accepted : (deserializeManifest (serializeManifest manifest) into).1 = true
  blockSize :
    (deserializeManifest (serializeManifest manifest) into).2.blockSize = manifest.blockSize
  totalBlocks :
    (deserializeManifest (serializeManifest manifest) into).2.totalBlocks = manifest.totalBlocks
  totalSize :
    (deserializeManifest (serializeManifest manifest) into).2.totalSize = manifest.totalSize
  entries : (deserializeManifest (serializeManifest manifest) into).2.entries = manifest.entries
  rehashed : ∀ (ops : HashOps) (blockIndexes : List Nat),
    computeBlockHashes ops (deserializeManifest (serializeManifest manifest) into).2.toHashManifest
        blockIndexes
      = computeBlockHashes ops manifest.toHashManifest blockIndexes

/-- A manifest survives exactly when its offsets are zero anyway. -/
theorem reloads_iff_offsets {manifest : FullManifest}
    (hcount : manifest.entries.length = manifest.totalBlocks.toNat)
    (hsmall : manifest.totalBlocks.toNat < 2 ^ 58) (into : FullManifest) :
    Reloads manifest into ↔ ∀ entry ∈ manifest.entries, entry.offset = 0 := by
  have heq := deserializeManifest_serializeManifest hcount hsmall into
  have hkept : manifest.entries.map BlockHashEntry.withoutOffset = manifest.entries ↔
      ∀ entry ∈ manifest.entries, entry.offset = 0 := by
    rw [← List.map_id manifest.entries, List.map_map, List.map_inj_left, List.map_id]
    refine forall₂_congr fun entry _ => ?_
    exact ⟨fun h => (congrArg BlockHashEntry.offset h).symm, fun h => by
      rw [Function.comp, id, BlockHashEntry.withoutOffset, ← h]⟩
  constructor
  · intro h
    have hentries := h.entries
    rw [heq] at hentries
    exact hkept.mp hentries
  · intro h
    refine ⟨?_, ?_, ?_, ?_, ?_, fun ops idxs => ?_⟩ <;> rw [heq]
    · exact hkept.mpr h
    · dsimp only
      rw [hkept.mpr h]

theorem offsets_builtEntries_iff (hash : Nat → Hash) {left : Nat} (offset : UInt64) :
    (∀ entry ∈ builtEntries hash 0 left offset, entry.offset = 0) ↔
      left = 0 ∨ left = 1 ∧ offset = 0 := by
  rw [builtEntries, List.forall_mem_map]
  have hfirst : offset + UInt64.ofNat 0 * UInt64.ofNat blockSize = offset :=
    (congrArg (offset + ·) UInt64.zero_mul).trans (UInt64.add_zero offset)
  constructor
  · intro h
    rcases left with _ | _ | left
    · exact .inl rfl
    · exact .inr ⟨rfl, hfirst ▸ h 0 (List.mem_range.mpr Nat.one_pos)⟩
    · have hzero : offset = 0 := hfirst ▸ h 0 (List.mem_range.mpr (Nat.succ_pos _))
      have hone : offset + UInt64.ofNat 1 * UInt64.ofNat blockSize = 0 :=
        h 1 (List.mem_range.mpr (Nat.succ_lt_succ (Nat.succ_pos _)))
      rw [hzero] at hone
      exact absurd hone (by decide)
  · rintro (rfl | ⟨rfl, rfl⟩) k hk
    · exact absurd (List.mem_range.mp hk) (Nat.not_lt_zero k)
    · rw [Nat.lt_one_iff.mp (List.mem_range.mp hk)]
      exact hfirst

/-- **Which manifests survive**: those of sources without blocks, counting the sizes whose count
wraps, and those of at most one block at offset 0. -/
theorem reloads_iff {ops : HashOps} {now offset totalSize : UInt64} {volumePath : List UInt16}
    {manifest : FullManifest}
    (hbuilt : (buildManifest ops now offset totalSize volumePath manifest).1 = true)
    (into : FullManifest) :
    Reloads (buildManifest ops now offset totalSize volumePath manifest).2 into ↔
      totalSize = 0 ∨ 2 ^ 64 - blockSize < totalSize.toNat ∨
        offset = 0 ∧ totalSize.toNat ≤ blockSize := by
  obtain ⟨hash, heq⟩ := buildManifest_eq hbuilt
  have hsmall : (manifestBlocks totalSize).toNat < 2 ^ 58 := by
    have hleft := blockSize_mul_manifestBlocks_lt totalSize
    have hsize := totalSize.toNat_lt
    rw [blockSize_lit] at hleft
    omega
  have hcount : (builtEntries hash 0 (manifestBlocks totalSize).toNat offset).length
      = (manifestBlocks totalSize).toNat := by
    rw [builtEntries, List.length_map, List.length_range]
  have hzero : totalSize = 0 ↔ totalSize.toNat = 0 := by
    rw [← UInt64.toNat_inj, UInt64.toNat_zero]
  have hsize := totalSize.toNat_lt
  rw [heq, reloads_iff_offsets hcount hsmall, offsets_builtEntries_iff, toNat_manifestBlocks, hzero,
    blockSize_lit]
  clear heq hcount hbuilt hsmall hzero
  by_cases hoffset : offset = 0
  · simp only [hoffset, and_true, true_and]
    split <;> omega
  · simp only [hoffset, and_false, false_and, or_false]
    split <;> omega

/-! ### A source of two blocks -/

/-- SHA-256 of one zero byte, and of 1 MB of them. -/
def zeroHashes : Hash × Hash :=
  (⟨[110, 52, 11, 156, 255, 179, 122, 152, 156, 165, 68, 230, 187, 120, 10, 44,
      120, 144, 29, 63, 179, 55, 56, 118, 133, 17, 163, 6, 23, 175, 160, 29], rfl⟩,
    ⟨[48, 225, 73, 85, 235, 241, 53, 34, 102, 220, 47, 248, 6, 126, 104, 16,
      70, 7, 231, 80, 171, 185, 211, 179, 101, 130, 184, 175, 144, 159, 203, 88], rfl⟩)

/-- A source of zero bytes. -/
def zeroSource : HashOps where
  ready := true
  readAt _ _ size := some (List.replicate size.toNat 0)
  computeBlockHash _ data := some (if data = [0] then zeroHashes.1 else zeroHashes.2)

/-- One byte at offset 0. -/
theorem reloads_iff_oneByte : Reloads (buildManifest zeroSource 0 0 1 [] .blank).2 .blank :=
  (reloads_iff (by decide +kernel) .blank).mpr (.inr (.inr ⟨rfl, by decide⟩))

/-- The manifest of a megabyte and one byte, from offset 0. -/
def twoBlockManifest : Bool × FullManifest := buildManifest zeroSource 0 0 1048577 [] .blank

theorem deserializeManifest_twoBlock :
    deserializeManifest (serializeManifest twoBlockManifest.2) .blank
      = (true,
          { twoBlockManifest.2 with
            entries := twoBlockManifest.2.entries.map BlockHashEntry.withoutOffset
            timestamp := 0
            volumePath := [] }) := by
  have hcount : twoBlockManifest.2.entries.length = twoBlockManifest.2.totalBlocks.toNat := by
    decide +kernel
  exact deserializeManifest_serializeManifest hcount (by decide +kernel) .blank

/-- **An offset that does not come back.** -/
theorem second_block_reloads_at_zero :
    let reloaded := deserializeManifest (serializeManifest twoBlockManifest.2) .blank
    twoBlockManifest.1 = true ∧
      twoBlockManifest.2.entries.map BlockHashEntry.offset = [0, 1048576] ∧
      reloaded.1 = true ∧ reloaded.2.entries.map BlockHashEntry.offset = [0, 0] ∧
      ¬ Reloads twoBlockManifest.2 .blank := by
  have hoffsets : twoBlockManifest.2.entries.map BlockHashEntry.offset = [0, 1048576] := by
    decide +kernel
  have hreloaded : (twoBlockManifest.2.entries.map BlockHashEntry.withoutOffset).map
      BlockHashEntry.offset = [0, 0] := by
    rw [List.map_map]
    decide +kernel
  intro reloaded
  have heq : reloaded = _ := deserializeManifest_twoBlock
  refine ⟨by decide +kernel, hoffsets, by rw [heq], by rw [heq]; exact hreloaded, fun h => ?_⟩
  have hsame := h.entries
  rw [deserializeManifest_twoBlock] at hsame
  have hlost := congrArg (List.map BlockHashEntry.offset) hsame
  rw [hreloaded, hoffsets] at hlost
  exact absurd hlost (by decide)

end Go2Cbt.Client
