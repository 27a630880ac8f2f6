import Go2Cbt.Client.Operations
import Go2Cbt.Engine.Tiling
import Go2Cbt.Engine.Transfer
import Go2Cbt.Lib.Chunks

/-!
# Engine — where the two transfers read a block

The pipeline takes the length of the last block from the size of the disk.  `TransferBlocks` has
the number of blocks only, and takes the size to be that many whole blocks: the branch for a short
last block is never taken.  `sameGeometry_iff` says for which blocks the two agree.
-/

namespace Go2Cbt.Engine

open Go2Cbt.Client

/-- What `TransferBlocks` reads and sends for a block: offset and length. -/
def transferRange (totalBlocks : UInt64) (block : BlockState) : Nat × Nat :=
  (block.offset.toNat, (transferSize totalBlocks block.place).toNat)

/-- What `PipelineTransferBlocks` reads and sends for block `i`. -/
def pipelineRange (job : Job) (i : Nat) : Nat × Nat :=
  ((UInt64.ofNat i * UInt64.ofNat blockSize).toNat, (job.blockSize i).toNat)

/-- The block state that a full backup of a disk of this size leaves to the next run, whatever was
recorded about its blocks. -/
structure SavedFrom (m : BlockStateManager) (snapshotTime now totalSize : UInt64)
    (saved : BlockStateManager) : Prop where
  totalBlocks : saved.totalBlocks = (Job.full 0 0 totalSize).totalBlocks
  blocks : BlockStateManager.ChangesInPlace
    (prepare m snapshotTime now (Job.full 0 0 totalSize).totalBlocks totalSize).2.blocks saved.blocks

/-- Both transfers read block `i` of the disk, from where it starts to where it ends. -/
def SameGeometry (saved : BlockStateManager) (job : Job) (i : Nat) : Prop :=
  ∃ block, saved.blocks[i]? = some block ∧
    transferRange saved.totalBlocks block = pipelineRange job i ∧
    pipelineRange job i
      = (i * blockSize, min blockSize (job.totalSize.toNat - i * blockSize))

section

variable {m saved : BlockStateManager} {snapshotTime now totalSize : UInt64}
  {devNo versionId : UInt32} {i : Nat}

/-- A saved block is where the full backup put it. -/
theorem SavedFrom.place (h : SavedFrom m snapshotTime now totalSize saved)
    (hi : i < (Job.full devNo versionId totalSize).totalBlocks.toNat) :
    ∃ block, saved.blocks[i]? = some block ∧
      block.place = (UInt64.ofNat i, UInt64.ofNat i * UInt64.ofNat blockSize) := by
  obtain ⟨f, hget, hplace⟩ := h.blocks
  have hin : i < (Job.full 0 0 totalSize).totalBlocks.toNat := hi
  refine ⟨f i (BlockStateManager.fullBlock m.nextVersionId .zero i), (hget i).trans ?_,
    (hplace i _).1⟩
  rw [blocks_prepare, List.getElem?_map, List.getElem?_range hin]
  rfl

variable (hsize : totalSize.toNat < 2 ^ 63)
  (hi : i < (Job.full devNo versionId totalSize).totalBlocks.toNat)
include hsize hi

/-- The pipeline reads a block to its end. -/
theorem pipelineRange_eq :
    pipelineRange (Job.full devNo versionId totalSize) i
      = (i * blockSize, min blockSize (totalSize.toNat - i * blockSize)) := by
  have hoffset := toNat_offset (hi.trans (totalBlocks_full_lt devNo versionId totalSize))
  have hend := end_full_eq hsize hi
  have hlen : ((Job.full devNo versionId totalSize).blockSize i).toNat
      = min blockSize (totalSize.toNat - i * blockSize) := by
    rw [Nat.add_mul, Nat.one_mul] at hend
    generalize i * blockSize = start at hend ⊢
    omega
  rw [pipelineRange, hoffset, hlen]

omit hsize in
/-- `TransferBlocks` reads every block whole. -/
theorem transferSize_eq :
    transferSize (Job.full devNo versionId totalSize).totalBlocks
        (UInt64.ofNat i, UInt64.ofNat i * UInt64.ofNat blockSize)
      = UInt32.ofNat blockSize := by
  have hcount := totalBlocks_full_lt devNo versionId totalSize
  have hoffset := toNat_offset (hi.trans hcount)
  generalize (Job.full devNo versionId totalSize).totalBlocks = totalBlocks at hi hcount ⊢
  have htotal : (totalBlocks * UInt64.ofNat blockSize).toNat = totalBlocks.toNat * blockSize := by
    rw [← toNat_offset hcount, UInt64.ofNat_toNat]
  have hstart : (i + 1) * blockSize ≤ totalBlocks.toNat * blockSize := Nat.mul_le_mul_right _ hi
  rw [Nat.add_mul, Nat.one_mul] at hstart
  have hle : UInt64.ofNat i * UInt64.ofNat blockSize ≤ totalBlocks * UInt64.ofNat blockSize := by
    rw [UInt64.le_iff_toNat_le, hoffset, htotal]
    exact (Nat.le_add_right _ _).trans hstart
  rw [transferSize]
  dsimp only
  rw [if_neg]
  rintro ⟨_, hshort⟩
  rw [UInt64.lt_iff_toNat_lt, UInt64.toNat_sub_of_le _ _ hle, hoffset, htotal,
    toNat_ofNat_blockSize] at hshort
  generalize i * blockSize = start at hstart hshort
  omega

end

section

variable {m saved : BlockStateManager} {snapshotTime now totalSize : UInt64}
  {devNo versionId : UInt32} {i : Nat}

/-- They agree on the blocks that the disk has whole. -/
theorem sameGeometry_iff_whole (hsize : totalSize.toNat < 2 ^ 63)
    (hi : i < (totalSize.toNat + blockSize - 1) / blockSize)
    (hsaved : SavedFrom m snapshotTime now totalSize saved) :
    SameGeometry saved (Job.full devNo versionId totalSize) i ↔
      i * blockSize + blockSize ≤ totalSize.toNat := by
  have hjob : i < (Job.full devNo versionId totalSize).totalBlocks.toNat := by
    rwa [toNat_totalBlocks_full hsize]
  obtain ⟨block, hblock, hplace⟩ := hsaved.place hjob
  have hpipeline := pipelineRange_eq hsize hjob
  have htransfer : transferRange saved.totalBlocks block = (i * blockSize, blockSize) := by
    have hoffset : block.offset = UInt64.ofNat i * UInt64.ofNat blockSize :=
      congrArg Prod.snd hplace
    have hcount : saved.totalBlocks = (Job.full devNo versionId totalSize).totalBlocks :=
      hsaved.totalBlocks
    rw [transferRange, hplace, hcount, transferSize_eq hjob, hoffset,
      toNat_offset (hjob.trans (totalBlocks_full_lt devNo versionId totalSize))]
    rfl
  have hlen : (i * blockSize, blockSize)
        = (i * blockSize, min blockSize (totalSize.toNat - i * blockSize)) ↔
      i * blockSize + blockSize ≤ totalSize.toNat := by
    rw [Prod.mk.injEq, eq_self_iff_true, true_and, left_eq_inf, Nat.le_sub_iff_add_le' ?_]
    exact ((Chunks.lt_count_iff blockSize_pos).mp hi).le
  rw [← hlen, ← htransfer, ← hpipeline]
  constructor
  · rintro ⟨block', hblock', hsame, -⟩
    rw [hblock, Option.some.injEq] at hblock'
    rwa [hblock']
  · exact fun h => ⟨block, hblock, h, hpipeline⟩

end

/-- **Where the two transfers agree on a block**: everywhere but on a short last block. -/
theorem sameGeometry_iff (m saved : BlockStateManager) (snapshotTime now totalSize : UInt64)
    (devNo versionId : UInt32) (i : Nat) (hsize : totalSize.toNat < 2 ^ 63)
    (hi : i < (totalSize.toNat + blockSize - 1) / blockSize)
    (hsaved : SavedFrom m snapshotTime now totalSize saved) :
    SameGeometry saved (Job.full devNo versionId totalSize) i ↔
      blockSize ∣ totalSize.toNat ∨ i + 1 < (totalSize.toNat + blockSize - 1) / blockSize :=
  (sameGeometry_iff_whole hsize hi hsaved).trans (Chunks.whole_iff blockSize_pos hi)

/-- What a full backup of a disk of 1 MB and 512 bytes saves. -/
def savedShort : BlockStateManager := (prepare .new 0 0 2 1049088).2

theorem savedFrom_savedShort : SavedFrom .new 0 0 1049088 savedShort where
  totalBlocks := by decide
  blocks := .refl _

/-- The first block of that disk. -/
theorem sameGeometry_iff_first :
    SameGeometry savedShort (Job.full 0 1 1049088) 0 ↔
      blockSize ∣ (1049088 : UInt64).toNat ∨
        0 + 1 < ((1049088 : UInt64).toNat + blockSize - 1) / blockSize :=
  sameGeometry_iff .new savedShort 0 0 1049088 0 1 0 (by decide) (by decide) savedFrom_savedShort

/-- **The last 512 bytes** are read as a whole block. -/
theorem short_block_read_whole :
    ¬ SameGeometry savedShort (Job.full 0 1 1049088) 1 := by
  rw [sameGeometry_iff_whole (by decide) (by decide) savedFrom_savedShort]
  decide

end Go2Cbt.Engine
