import Go2Cbt.Client.Scan
import Go2Cbt.Engine.Incremental

/-!
# Engine — the hashes of an incremental backup

`IncrementalBackup` builds the manifest for `ComputeBlockHashes` itself, and leaves the offsets of
its entries at zero: every listed block is hashed with the bytes of block 0.
`listedHashes_iff` says which lists come out right all the same.
-/

namespace Go2Cbt.Engine

open Go2Cbt.Client
open Chunks (chunk)

/-- The hashes of an incremental backup: what `ComputeBlockHashes` returns, and its list. -/
def listedHashes (ops : HashOps) (totalBlocks : UInt64) (cbtChanged : List Nat) :
    Bool × List Hash :=
  (computeBlockHashes ops (dummyManifest totalBlocks) cbtChanged).map id
    (List.map BlockHashEntry.hash)

/-- Every block is read whole: the total size is a multiple of the size of a block. -/
theorem rehashSize_dummyManifest (totalBlocks : UInt64) (idx : Nat) :
    rehashSize (dummyManifest totalBlocks) idx = UInt32.ofNat blockSize := by
  have hzero : totalBlocks * UInt64.ofNat blockSize % UInt64.ofNat blockSize = 0 := by
    rw [← UInt64.toNat_inj, UInt64.toNat_mod, UInt64.toNat_mul, toNat_ofNat_blockSize,
      blockSize_lit]
    have hval : (0 : UInt64).toNat = 0 := rfl
    omega
  rw [rehashSize, dummyManifest]
  dsimp only
  rw [hzero, if_neg]
  rintro ⟨_, hpos⟩
  exact absurd hpos (by decide)

section

variable {disk : Bytes} {sha256 : Bytes → Hash} {totalBlocks : UInt64}

/-- An entry of the manifest. -/
theorem getElem?_dummyManifest {idx : Nat} (hidx : idx < totalBlocks.toNat) :
    (dummyManifest totalBlocks).entries[idx]?
      = some { blockIndex := 0, offset := 0, hash := .zero } := by
  rw [dummyManifest, List.getElem?_replicate, if_pos hidx]

variable (disk sha256 totalBlocks) in
/-- What a read for a listed block gives. -/
theorem readAt_dummyManifest (call idx : Nat) :
    (contentSource disk sha256).readAt call 0 (rehashSize (dummyManifest totalBlocks) idx)
      = if blockSize ≤ disk.length then some (chunk blockSize disk 0) else none := by
  have hval : (UInt32.ofNat blockSize).toNat = blockSize := rfl
  have hzero : (0 : UInt64).toNat = 0 := rfl
  rw [readAt_contentSource, rehashSize_dummyManifest, hval, hzero, Nat.zero_add, chunk,
    Nat.zero_mul]

/-- The loop of `ComputeBlockHashes` on that manifest: block 0 for every listed block. -/
theorem computeBlockHashesFrom_dummyManifest (hdisk : blockSize ≤ disk.length) {call : Nat}
    {listed : List Nat} {hashes : List BlockHashEntry}
    (hlisted : ∀ idx ∈ listed, idx < totalBlocks.toNat) :
    (computeBlockHashesFrom (contentSource disk sha256) (dummyManifest totalBlocks) call listed
        hashes).map id (List.map BlockHashEntry.hash)
      = (true, hashes.map BlockHashEntry.hash
          ++ listed.map fun _ => sha256 (chunk blockSize disk 0)) := by
  induction listed generalizing call hashes with
  | nil => exact congrArg (Prod.mk true) (List.append_nil _).symm
  | cons idx rest ih =>
      obtain ⟨hidx, hrest⟩ := List.forall_mem_cons.mp hlisted
      have hread := (readAt_dummyManifest disk sha256 totalBlocks call idx).trans (if_pos hdisk)
      rw [computeBlockHashesFrom_cons (getElem?_dummyManifest hidx) hread
        (computeBlockHash_contentSource _ _ _ _), ih hrest, List.map_append, List.append_assoc]
      rfl

/-- Reads that succeed need a disk of a block at least. -/
theorem blockSize_le_of_reads {listed : List Nat} (hne : listed ≠ [])
    (hlisted : ∀ idx ∈ listed, idx < totalBlocks.toNat)
    (hreads : (listedHashes (contentSource disk sha256) totalBlocks listed).1 = true) :
    blockSize ≤ disk.length := by
  by_contra hshort
  obtain ⟨idx, rest, rfl⟩ := List.exists_cons_of_ne_nil hne
  have hentry := getElem?_dummyManifest (hlisted idx List.mem_cons_self)
  have hread := (readAt_dummyManifest disk sha256 totalBlocks 0 idx).trans (if_neg hshort)
  have hready : (contentSource disk sha256).ready = true := rfl
  rw [listedHashes, computeBlockHashes, if_pos hready, computeBlockHashesFrom, hentry] at hreads
  dsimp only at hreads
  rw [hread] at hreads
  cases hreads

/-- The list of hashes: the one of block 0, over and over. -/
theorem listedHashes_eq (hdisk : blockSize ≤ disk.length) {listed : List Nat}
    (hlisted : ∀ idx ∈ listed, idx < totalBlocks.toNat) :
    listedHashes (contentSource disk sha256) totalBlocks listed
      = (true, listed.map fun _ => sha256 (chunk blockSize disk 0)) := by
  have hready : (contentSource disk sha256).ready = true := rfl
  rw [listedHashes, computeBlockHashes, if_pos hready,
    computeBlockHashesFrom_dummyManifest hdisk hlisted]
  rfl

end

/-- **When an incremental backup hashes the blocks it lists.** -/
theorem listedHashes_iff (disk : Bytes) (sha256 : Bytes → Hash) (totalBlocks : UInt64)
    (listed : List Nat) (hlisted : ∀ idx ∈ listed, idx < totalBlocks.toNat)
    (hreads : (listedHashes (contentSource disk sha256) totalBlocks listed).1 = true) :
    (listedHashes (contentSource disk sha256) totalBlocks listed).2
        = listed.map (fun idx => sha256 (chunk blockSize disk idx)) ↔
      ∀ idx ∈ listed, sha256 (chunk blockSize disk idx) = sha256 (chunk blockSize disk 0) := by
  rcases eq_or_ne listed [] with rfl | hne
  · have hready : (contentSource disk sha256).ready = true := rfl
    rw [listedHashes, computeBlockHashes, if_pos hready]
    exact iff_of_true rfl (List.forall_mem_nil _)
  · rw [listedHashes_eq (blockSize_le_of_reads hne hlisted hreads) hlisted, List.map_inj_left]
    exact forall₂_congr fun _ _ => eq_comm

/-- SHA-256 of 1 MB of ones. -/
def onesHash : Hash :=
  ⟨[238, 120, 205, 41, 211, 165, 52, 113, 59, 54, 230, 255, 111, 163, 102, 140,
    138, 143, 133, 26, 84, 45, 94, 178, 64, 28, 37, 202, 78, 5, 125, 2], rfl⟩

/-- Two blocks: one of zeros, one of ones. -/
def zerosAndOnes : Bytes := List.replicate blockSize 0 ++ List.replicate blockSize 1

/-- The hashes of the two blocks. -/
def zerosAndOnesSha256 (data : Bytes) : Hash :=
  if data.head? = some 0 then zeroHashes.2 else onesHash

theorem chunk_zerosAndOnes :
    chunk blockSize zerosAndOnes 0 = List.replicate blockSize 0 ∧
      chunk blockSize zerosAndOnes 1 = List.replicate blockSize 1 := by
  have hzeros : (List.replicate blockSize (0 : UInt8)).length = blockSize := List.length_replicate
  have hones : (List.replicate blockSize (1 : UInt8)).length = blockSize := List.length_replicate
  constructor
  · rw [chunk, Nat.zero_mul, List.drop_zero, zerosAndOnes, List.take_left' hzeros]
  · rw [chunk, Nat.one_mul, zerosAndOnes, List.drop_left' hzeros, List.take_of_length_le hones.le]

theorem sha256_replicate (b : UInt8) :
    zerosAndOnesSha256 (List.replicate blockSize b) = if b = 0 then zeroHashes.2 else onesHash := by
  have hhead : (List.replicate blockSize b).head? = some b :=
    congrArg (fun n => (List.replicate n b).head?) (Nat.succ_pred_eq_of_pos blockSize_pos).symm
  rw [zerosAndOnesSha256, hhead]
  exact if_congr Option.some_inj rfl rfl

theorem sha256_zerosAndOnes :
    zerosAndOnesSha256 (chunk blockSize zerosAndOnes 0) = zeroHashes.2 ∧
      zerosAndOnesSha256 (chunk blockSize zerosAndOnes 1) = onesHash := by
  rw [chunk_zerosAndOnes.1, chunk_zerosAndOnes.2, sha256_replicate, sha256_replicate]
  exact ⟨if_pos rfl, if_neg (by decide)⟩

theorem blockSize_le_zerosAndOnes : blockSize ≤ zerosAndOnes.length := by
  rw [zerosAndOnes, List.length_append, List.length_replicate, List.length_replicate]
  exact Nat.le_add_left _ _

/-- Block 0 alone. -/
theorem listedHashes_iff_block0 :
    (listedHashes (contentSource zerosAndOnes zerosAndOnesSha256) 2 [0]).2
        = [0].map (fun idx => zerosAndOnesSha256 (chunk blockSize zerosAndOnes idx)) ↔
      ∀ idx ∈ [0], zerosAndOnesSha256 (chunk blockSize zerosAndOnes idx)
        = zerosAndOnesSha256 (chunk blockSize zerosAndOnes 0) := by
  have hlisted : ∀ idx ∈ [0], idx < (2 : UInt64).toNat := by decide
  exact listedHashes_iff zerosAndOnes zerosAndOnesSha256 2 [0] hlisted
    (by rw [listedHashes_eq blockSize_le_zerosAndOnes hlisted])

/-- **Block 1 gets the hash of block 0**, although the reads succeed. -/
theorem block1_gets_hash_of_block0 :
    (listedHashes (contentSource zerosAndOnes zerosAndOnesSha256) 2 [1]).1 = true ∧
      (listedHashes (contentSource zerosAndOnes zerosAndOnesSha256) 2 [1]).2
        ≠ [1].map fun idx => zerosAndOnesSha256 (chunk blockSize zerosAndOnes idx) := by
  rw [listedHashes_eq blockSize_le_zerosAndOnes (by decide), List.map_singleton,
    List.map_singleton, sha256_zerosAndOnes.1, sha256_zerosAndOnes.2]
  exact ⟨rfl, by decide⟩

end Go2Cbt.Engine
