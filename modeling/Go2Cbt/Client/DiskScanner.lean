import Go2Cbt.Client.FreeSpace

/-!
# Client — the unallocated space, as the scanner counts it

`DiskScanner::CalculateUnallocated` makes the same sweep as `DiskParser::CalculateFreeSpace`, except
that it goes on from the end of the partition it has just passed.  Behind a partition that lies
inside another one it is back in the middle of the outer one.

`agreesWithParser_iff` says for which partitions this makes no difference.
-/

namespace Go2Cbt.BackupSystem

open Disk

/-- `DiskInfo` of the scanner, the fields of the sweep.  Of a partition it reads the offset and the
size. -/
structure ScannedDisk where
  size : UInt64
  partitions : List DiskRange
  unallocated : List DiskRange
  deriving DecidableEq, Repr

/-- The loop of `CalculateUnallocated` from `current` on, and the range behind it. -/
def unallocatedFrom (size : UInt64) : (current : UInt64) → List DiskRange → List DiskRange
  | current, [] =>
      if current < size then [{ offset := current, size := size - current }] else []
  | current, p :: sorted =>
      let range :=
        if p.offset > current then [{ offset := current, size := p.offset - current }] else []
      range ++ unallocatedFrom size (p.offset + p.size) sorted

/-- `CalculateUnallocated`; it leaves the partitions sorted. -/
def calculateUnallocated (sort : List DiskRange → List DiskRange) (disk : ScannedDisk) :
    ScannedDisk :=
  { disk with
    partitions := sort disk.partitions
    unallocated := unallocatedFrom disk.size 0 (sort disk.partitions) }

/-- The bytes that the parser sees of a partition. -/
def extent (p : PartitionInfo) : DiskRange := { offset := p.offset, size := p.size }

/-- The two have found the same disk and the same partitions. -/
structure SameDisk (disk : ScannedDisk) (layout : DiskLayout) : Prop where
  size : disk.size = layout.disk.size
  partitions : disk.partitions = layout.partitions.map extent

/-- The scanner's ranges are the parser's, none of their bytes lies in a partition, and no other
byte is missing. -/
structure AgreesWithParser (layout : DiskLayout) (unallocated : List DiskRange) : Prop where
  same : unallocated = layout.freeRanges
  sound : ∀ r ∈ unallocated, ∀ x, r.span.Contains x → ∀ p ∈ layout.partitions, ¬ p.span.Contains x
  complete : ∀ x < layout.disk.size.toNat, (∀ p ∈ layout.partitions, ¬ p.span.Contains x) →
    ∃ r ∈ unallocated, r.span.Contains x

/-- The loop goes on from the last end. -/
theorem map_span_unallocatedFrom {size current : UInt64} {sorted : List DiskRange}
    (h : ∀ p ∈ sorted, p.span.hi ≤ size.toNat) :
    (unallocatedFrom size current sorted).map DiskRange.span
      = Span.walk size.toNat current.toNat (sorted.map DiskRange.span) := by
  induction sorted generalizing current with
  | nil => exact map_span_between
  | cons p sorted ih =>
      obtain ⟨hp, hsorted⟩ := List.forall_mem_cons.mp h
      have hend : (p.offset + p.size).toNat = p.span.hi := by
        rw [UInt64.toNat_add]
        exact Nat.mod_eq_of_lt (hp.trans_lt size.toNat_lt)
      rw [unallocatedFrom, List.map_append, map_span_between, ih hsorted, hend, List.map_cons,
        Span.walk]
      rfl

variable {sort : List DiskRange → List DiskRange} {disk : ScannedDisk}
  {parserSort : List PartitionInfo → List PartitionInfo} {layout : DiskLayout}

/-- The partitions of the scanner, sorted, are a row of spans. -/
theorem laid_scanned (hsort : Sorts DiskRange.offset sort) (hsame : SameDisk disk layout)
    (h : Inside layout.disk.size layout.partitions) :
    Span.Laid disk.size.toNat ((sort disk.partitions).map DiskRange.span) where
  sorted := by
    rw [List.pairwise_map]
    exact (hsort disk.partitions).2.imp UInt64.le_iff_toNat_le.mp
  proper := by
    intro s hs
    obtain ⟨p, -, rfl⟩ := List.mem_map.mp hs
    exact Nat.le_add_right _ _
  inside := by
    intro s hs
    obtain ⟨p, hp, rfl⟩ := List.mem_map.mp hs
    have hmem := (hsort disk.partitions).1.subset hp
    rw [hsame.partitions] at hmem
    obtain ⟨q, hq, rfl⟩ := List.mem_map.mp hmem
    rw [hsame.size]
    exact h q hq

/-- The scanner's row holds the spans of the partitions. -/
theorem perm_spans (hsort : Sorts DiskRange.offset sort) (hsame : SameDisk disk layout) :
    ((sort disk.partitions).map DiskRange.span).Perm
      (layout.partitions.map PartitionInfo.span) := by
  have hspans : disk.partitions.map DiskRange.span
      = layout.partitions.map PartitionInfo.span := by
    rw [hsame.partitions, List.map_map]
    rfl
  rw [← hspans]
  exact (hsort disk.partitions).1.map DiskRange.span

/-- No partition holds a byte when no span of the scanner's row does. -/
theorem forall_not_contains_iff (hsort : Sorts DiskRange.offset sort)
    (hsame : SameDisk disk layout) {x : Nat} :
    (∀ p ∈ layout.partitions, ¬ p.span.Contains x) ↔
      ∀ s ∈ (sort disk.partitions).map DiskRange.span, ¬ s.Contains x := by
  have hmem : ∀ s, s ∈ (sort disk.partitions).map DiskRange.span ↔
      s ∈ layout.partitions.map PartitionInfo.span := fun _ => (perm_spans hsort hsame).mem_iff
  simp only [hmem, List.forall_mem_map]

/-- **When the scanner finds what the parser finds**: when every partition that ends before one in
front of it is followed by one that begins no later than it ends. -/
theorem agreesWithParser_iff (hsort : Sorts DiskRange.offset sort)
    (hparser : Sorts (fun p : PartitionInfo => p.offset) parserSort) (hsame : SameDisk disk layout)
    (h : Inside layout.disk.size layout.partitions) :
    AgreesWithParser (calculateFreeSpace parserSort layout)
        (calculateUnallocated sort disk).unallocated ↔
      Span.Followed ((sort disk.partitions).map DiskRange.span) := by
  have hlaid := laid_scanned hsort hsame h
  have hstart : ∀ s ∈ (sort disk.partitions).map DiskRange.span, 0 ≤ s.lo :=
    fun s _ => Nat.zero_le s.lo
  have hwalk : (calculateUnallocated sort disk).unallocated.map DiskRange.span
      = Span.walk disk.size.toNat 0 ((sort disk.partitions).map DiskRange.span) :=
    map_span_unallocatedFrom fun p hp => hlaid.inside p.span (List.mem_map_of_mem hp)
  have hsweep : (calculateFreeSpace parserSort layout).freeRanges.map DiskRange.span
      = Span.sweep disk.size.toNat 0 ((sort disk.partitions).map DiskRange.span) := by
    rw [map_span_freeRanges hparser h, hsame.size]
    have hperm := (perm_spans hsort hsame).trans
      ((hparser layout.partitions).1.symm.map PartitionInfo.span)
    refine (Span.sweep_eq_of_perm hperm (hsame.size ▸ hlaid) ?_).symm
    rw [List.pairwise_map]
    exact (hparser layout.partitions).2.imp UInt64.le_iff_toNat_le.mp
  constructor
  · intro hagrees
    rw [← Span.walk_eq_sweep_iff hlaid hstart, ← hwalk, ← hsweep, hagrees.same]
  · intro hfollowed
    refine ⟨?_, ?_, ?_⟩
    · refine List.map_injective_iff.mpr DiskRange.span_injective ?_
      rw [hwalk, hsweep]
      exact (Span.walk_eq_sweep_iff hlaid hstart).mpr hfollowed
    · intro r hr x hx
      have hmem : r.span ∈ Span.walk disk.size.toNat 0 _ := hwalk ▸ List.mem_map_of_mem hr
      refine (forall_not_contains_iff hsort hsame).mpr ?_
      exact (Span.walk_sound_iff hlaid hstart).mpr hfollowed r.span hmem x hx
    · intro x hx hfree
      obtain ⟨s, hs, hin⟩ := Span.exists_walk_contains (Nat.zero_le x) (hsame.size ▸ hx)
        ((forall_not_contains_iff hsort hsame).mp hfree)
      rw [← hwalk] at hs
      obtain ⟨r, hr, rfl⟩ := List.mem_map.mp hs
      exact ⟨r, hr, hin⟩

/-- What the scanner holds of a layout. -/
def scanned (layout : DiskLayout) : ScannedDisk where
  size := layout.disk.size
  partitions := layout.partitions.map extent
  unallocated := []

/-- A disk of ten bytes: a partition, one that it holds, and one that begins inside both. -/
def joinedLayout : DiskLayout := layoutOf 10 [partitionAt 1 6, partitionAt 2 3, partitionAt 4 5]

theorem agreesWithParser_iff_joined :
    AgreesWithParser (calculateFreeSpace (sortBy (·.offset)) joinedLayout)
        (calculateUnallocated (sortBy (·.offset)) (scanned joinedLayout)).unallocated ↔
      Span.Followed ((sortBy DiskRange.offset (scanned joinedLayout).partitions).map
        DiskRange.span) :=
  agreesWithParser_iff (sorts_sortBy _) (sorts_sortBy _) ⟨rfl, rfl⟩ (by decide)

/-- A disk of ten bytes: an extended partition and the logical one in it. -/
def extendedLayout : DiskLayout := layoutOf 10 [partitionAt 1 8, partitionAt 2 1]

/-- The scanner gives bytes 3 to 9 as unallocated; up to byte 8 they are the extended
partition's. -/
theorem extended_not_agreesWithParser :
    Sorts DiskRange.offset (sortBy DiskRange.offset) ∧ Inside 10 extendedLayout.partitions ∧
      SameDisk (scanned extendedLayout) extendedLayout ∧
      (calculateUnallocated (sortBy DiskRange.offset) (scanned extendedLayout)).unallocated
        = [⟨0, 1⟩, ⟨3, 7⟩] ∧
      (calculateFreeSpace (sortBy (·.offset)) extendedLayout).freeRanges = [⟨0, 1⟩, ⟨9, 1⟩] ∧
      ¬ AgreesWithParser (calculateFreeSpace (sortBy (·.offset)) extendedLayout)
          (calculateUnallocated (sortBy DiskRange.offset) (scanned extendedLayout)).unallocated := by
  have hscanner : (calculateUnallocated (sortBy DiskRange.offset)
      (scanned extendedLayout)).unallocated = [⟨0, 1⟩, ⟨3, 7⟩] := by decide +kernel
  have hparser : (calculateFreeSpace (sortBy (·.offset)) extendedLayout).freeRanges
      = [⟨0, 1⟩, ⟨9, 1⟩] := by decide +kernel
  refine ⟨sorts_sortBy _, by decide, ⟨rfl, rfl⟩, hscanner, hparser, fun h => ?_⟩
  have hsame := h.same
  rw [hscanner, hparser] at hsame
  exact absurd hsame (by decide)

end Go2Cbt.BackupSystem
