import Go2Cbt.Engine.Pipeline

/-!
# Engine — how the blocks of a full backup tile the disk

The number of blocks is the size of the disk divided by the size of a block, rounded up, and the
last block has what is left.  Below `2 ^ 63` bytes nothing wraps, so that the blocks lie one
behind the other and end where the disk does.
-/

namespace Go2Cbt.Engine

/-- Where a block is. -/
theorem toNat_offset {i : Nat} (hi : i < 2 ^ 44) :
    (UInt64.ofNat i * UInt64.ofNat blockSize).toNat = i * blockSize := by
  rw [UInt64.toNat_mul, toNat_ofNat_blockSize, UInt64.toNat_ofNat', blockSize_eq,
    Nat.mod_eq_of_lt (by omega), Nat.mod_eq_of_lt (by omega)]

section Full

variable {devNo versionId : UInt32} {totalSize : UInt64}

/-- **The number of blocks is less than `2 ^ 44`**, whatever the size. -/
theorem totalBlocks_full_lt (devNo versionId : UInt32) (totalSize : UInt64) :
    (Job.full devNo versionId totalSize).totalBlocks.toNat < 2 ^ 44 := by
  rw [Job.full, UInt64.toNat_div, toNat_ofNat_blockSize, blockSize_eq]
  have hlt := (totalSize + UInt64.ofNat (2 ^ 20) - 1).toNat_lt
  omega

variable (hsize : totalSize.toNat < 2 ^ 63)
include hsize

theorem toNat_totalBlocks_full :
    (Job.full devNo versionId totalSize).totalBlocks.toNat
      = (totalSize.toNat + blockSize - 1) / blockSize := by
  have hone : (1 : UInt64).toNat = 1 := rfl
  have hsum : (totalSize + UInt64.ofNat blockSize).toNat = totalSize.toNat + blockSize := by
    rw [UInt64.toNat_add, toNat_ofNat_blockSize, blockSize_eq]
    exact Nat.mod_eq_of_lt (by omega)
  rw [Job.full, UInt64.toNat_div, toNat_ofNat_blockSize,
    UInt64.toNat_sub_of_le _ _ (UInt64.le_iff_toNat_le.mpr (by rw [hsum, hone, blockSize_eq]; omega)),
    hsum, hone]

/-- A block of the disk starts on the disk. -/
theorem start_full_lt {i : Nat} (hi : i < (Job.full devNo versionId totalSize).totalBlocks.toNat) :
    i * blockSize < totalSize.toNat := by
  rw [toNat_totalBlocks_full hsize, blockSize_lit] at hi
  rw [blockSize_lit]
  omega

omit hsize in
/-- The number of the last block. -/
theorem eq_last_full_iff {i : Nat} (hi : i < (Job.full devNo versionId totalSize).totalBlocks.toNat) :
    UInt64.ofNat i = (Job.full devNo versionId totalSize).totalBlocks - 1 ↔
      i + 1 = (Job.full devNo versionId totalSize).totalBlocks.toNat := by
  have hone : (1 : UInt64).toNat = 1 := rfl
  have hlt := (Job.full devNo versionId totalSize).totalBlocks.toNat_lt
  have hpos : 1 ≤ (Job.full devNo versionId totalSize).totalBlocks :=
    UInt64.le_iff_toNat_le.mpr (by omega)
  rw [← UInt64.toNat_inj, UInt64.toNat_sub_of_le _ _ hpos, UInt64.toNat_ofNat',
    Nat.mod_eq_of_lt (by omega), hone]
  omega

/-- What is left of the disk at a block. -/
theorem toNat_remain_full {i : Nat}
    (hi : i < (Job.full devNo versionId totalSize).totalBlocks.toNat) :
    (totalSize - UInt64.ofNat i * UInt64.ofNat blockSize).toNat
      = totalSize.toNat - i * blockSize := by
  have hoffset := toNat_offset (hi.trans (totalBlocks_full_lt devNo versionId totalSize))
  have hle : UInt64.ofNat i * UInt64.ofNat blockSize ≤ totalSize := by
    rw [UInt64.le_iff_toNat_le, hoffset]
    exact (start_full_lt hsize hi).le
  rw [UInt64.toNat_sub_of_le _ _ hle, hoffset]

/-- **A block ends where the next one starts, the last one where the disk ends.** -/
theorem end_full_eq {i : Nat} (hi : i < (Job.full devNo versionId totalSize).totalBlocks.toNat) :
    i * blockSize + ((Job.full devNo versionId totalSize).blockSize i).toNat
      = min ((i + 1) * blockSize) totalSize.toNat := by
  have hstart := start_full_lt hsize hi
  have hremain := toNat_remain_full hsize hi
  have hlast := eq_last_full_iff hi
  have hsizes : (Job.full devNo versionId totalSize).totalSize = totalSize := rfl
  have hzero : (0 : UInt64).toNat = 0 := rfl
  rw [toNat_totalBlocks_full hsize] at hlast hi
  rw [Job.blockSize, hsizes]
  generalize totalSize - UInt64.ofNat i * UInt64.ofNat blockSize = remain at hremain ⊢
  by_cases hshort : UInt64.ofNat i = (Job.full devNo versionId totalSize).totalBlocks - 1 ∧
      remain < UInt64.ofNat blockSize ∧ 0 < remain
  · have hlt := UInt64.lt_iff_toNat_lt.mp hshort.2.1
    have hend := hlast.mp hshort.1
    rw [toNat_ofNat_blockSize, blockSize_lit] at hlt
    rw [blockSize_lit] at hstart hremain hend
    rw [if_pos hshort, UInt64.toNat_toUInt32, Nat.mod_eq_of_lt (by omega), blockSize_lit]
    omega
  · have hwhole : ¬ (i + 1 = (totalSize.toNat + blockSize - 1) / blockSize ∧
        remain.toNat < blockSize) := by
      rintro ⟨hend, hlt⟩
      refine hshort ⟨hlast.mpr hend, UInt64.lt_iff_toNat_lt.mpr hlt,
        UInt64.lt_iff_toNat_lt.mpr ?_⟩
      rw [hzero, hremain]
      exact Nat.sub_pos_of_lt hstart
    have hfull : (UInt32.ofNat blockSize).toNat = blockSize := rfl
    rw [if_neg hshort, hfull]
    rw [blockSize_lit] at hwhole hstart hremain hi ⊢
    omega

/-- A block is not empty, and lies on the disk. -/
theorem blockSize_full_bounds {i : Nat}
    (hi : i < (Job.full devNo versionId totalSize).totalBlocks.toNat) :
    0 < ((Job.full devNo versionId totalSize).blockSize i).toNat ∧
      ((Job.full devNo versionId totalSize).blockSize i).toNat ≤ blockSize ∧
      i * blockSize + ((Job.full devNo versionId totalSize).blockSize i).toNat
        ≤ totalSize.toNat := by
  have hstart := start_full_lt hsize hi
  have hend := end_full_eq hsize hi
  rw [Nat.add_mul, Nat.one_mul] at hend
  have hpos := blockSize_pos
  generalize i * blockSize = start at hstart hend ⊢
  generalize blockSize = size at hend hpos ⊢
  omega

end Full

end Go2Cbt.Engine
