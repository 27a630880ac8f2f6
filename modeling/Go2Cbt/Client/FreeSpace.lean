import Go2Cbt.Client.VolumeMapper
import Go2Cbt.Lib.Sweep
import Mathlib.Data.List.Sort

/-!
# Client — the unallocated space of a disk

The layout that `DiskParser` fills, and `CalculateFreeSpace`: a sweep over the partitions, sorted by
where they begin, from the furthest end so far.  How `std::sort` leaves partitions that begin
together is not said, so the sorting is a parameter.

`calculateFreeSpace_exact` says that the ranges are exactly what the partitions leave, however
these lie and however they are sorted.
-/

namespace Go2Cbt.Disk

open Client (PartitionContent)

/-- `PartitionStyle`. -/
inductive PartitionStyle where
  | unknown
  | mbr
  | gpt
  deriving DecidableEq, Repr

/-- `DiskRange`. -/
structure DiskRange where
  offset : UInt64
  size : UInt64
  deriving DecidableEq, Repr

/-- `GUID`. -/
structure Guid where
  data1 : UInt32
  data2 : UInt16
  data3 : UInt16
  data4 : List UInt8
  deriving DecidableEq, Repr

/-- `GUID{}`. -/
def Guid.zero : Guid := ⟨0, 0, 0, List.replicate 8 0⟩

/-- `GPTInfo`. -/
structure GPTInfo where
  primaryHeaderOffset : UInt64
  backupHeaderOffset : UInt64
  primaryEntryOffset : UInt64
  backupEntryOffset : UInt64
  entryCount : UInt32
  entrySize : UInt32
  diskGuid : Guid
  deriving DecidableEq, Repr

/-- `PartitionInfo`, with the fields that a backup does not read. -/
structure PartitionInfo extends Client.PartitionInfo where
  index : UInt32
  mbrType : UInt8
  typeGuid : Guid
  partitionGuid : Guid
  attributes : UInt64
  name : List UInt16
  isEncrypted : Bool
  fsName : String
  deriving DecidableEq, Repr

/-- `PartitionInfo{}`. -/
def PartitionInfo.blank : PartitionInfo where
  offset := 0
  size := 0
  content := .unknown
  index := 0
  mbrType := 0
  typeGuid := .zero
  partitionGuid := .zero
  attributes := 0
  name := []
  isEncrypted := false
  fsName := ""

/-- `DiskInfo`. -/
structure DiskInfo where
  deviceNumber : UInt32
  size : UInt64
  sectorSize : UInt32
  style : PartitionStyle
  gpt : GPTInfo
  deriving DecidableEq, Repr

/-- `DiskLayout`. -/
structure DiskLayout where
  disk : DiskInfo
  partitions : List PartitionInfo
  freeRanges : List DiskRange
  metadataRanges : List DiskRange
  deriving DecidableEq, Repr

/-- A layout before it is filled: the disk zeroed, no partition and no range. -/
def DiskLayout.blank : DiskLayout where
  disk :=
    { deviceNumber := 0
      size := 0
      sectorSize := 0
      style := .unknown
      gpt := ⟨0, 0, 0, 0, 0, 0, .zero⟩ }
  partitions := []
  freeRanges := []
  metadataRanges := []

/-- What a backup reads of a layout. -/
def DiskLayout.mapped (layout : DiskLayout) : Client.DiskLayout where
  deviceNumber := layout.disk.deviceNumber
  size := layout.disk.size
  partitions := layout.partitions.map PartitionInfo.toPartitionInfo

/-- The loop of `CalculateFreeSpace` from `current` on, and the range behind it. -/
def freeSweep (size : UInt64) : (current : UInt64) → List PartitionInfo → List DiskRange
  | current, [] =>
      if size > 0 ∧ current < size then [{ offset := current, size := size - current }] else []
  | current, p :: sorted =>
      let range :=
        if p.offset > current then [{ offset := current, size := p.offset - current }] else []
      let partitionEnd := p.offset + p.size
      range ++ freeSweep size (if partitionEnd > current then partitionEnd else current) sorted

/-- `CalculateFreeSpace`. -/
def calculateFreeSpace (sort : List PartitionInfo → List PartitionInfo) (layout : DiskLayout) :
    DiskLayout :=
  { layout with
    freeRanges :=
      if layout.partitions.isEmpty then
        if layout.disk.size > 0 then [{ offset := 0, size := layout.disk.size }] else []
      else freeSweep layout.disk.size 0 (sort layout.partitions) }

/-- What `std::sort` is promised to do; it may leave elements of the same key in any order. -/
def Sorts {α : Type} (key : α → UInt64) (sort : List α → List α) : Prop :=
  ∀ l, (sort l).Perm l ∧ (sort l).Pairwise fun a b => key a ≤ key b

/-- One way to sort. -/
def sortBy {α : Type} (key : α → UInt64) (l : List α) : List α :=
  l.insertionSort fun a b => key a ≤ key b

theorem sorts_sortBy {α : Type} (key : α → UInt64) : Sorts key (sortBy key) := by
  intro l
  have : Std.Total fun a b : α => key a ≤ key b := ⟨fun a b => UInt64.le_total (key a) (key b)⟩
  have : IsTrans α fun a b => key a ≤ key b := ⟨fun _ _ _ => UInt64.le_trans⟩
  exact ⟨List.perm_insertionSort _ l, List.pairwise_insertionSort _ l⟩

/-! ### Places on the disk -/

/-- The bytes of a range. -/
def DiskRange.span (r : DiskRange) : Span Nat := ⟨r.offset.toNat, r.offset.toNat + r.size.toNat⟩

/-- The bytes of a partition. -/
def PartitionInfo.span (p : PartitionInfo) : Span Nat :=
  ⟨p.offset.toNat, p.offset.toNat + p.size.toNat⟩

/-- Every partition ends on the disk. -/
def Inside (size : UInt64) (partitions : List PartitionInfo) : Prop :=
  ∀ p ∈ partitions, p.span.hi ≤ size.toNat

instance (size : UInt64) (partitions : List PartitionInfo) : Decidable (Inside size partitions) :=
  inferInstanceAs (Decidable (∀ p ∈ partitions, _))

theorem DiskRange.span_injective : Function.Injective DiskRange.span := by
  rintro ⟨offset, size⟩ ⟨offset', size'⟩ h
  rw [DiskRange.span, DiskRange.span, Span.mk.injEq] at h
  obtain ⟨hlo, hhi⟩ := h
  obtain rfl := UInt64.toNat_inj.mp hlo
  obtain rfl := UInt64.toNat_inj.mp (Nat.add_left_cancel hhi)
  rfl

/-- The range between two places. -/
theorem map_span_between {a b : UInt64} :
    (if b > a then [{ offset := a, size := b - a }] else [] : List DiskRange).map DiskRange.span
      = Span.gap a.toNat b.toNat := by
  by_cases h : b > a
  · have hlt : a.toNat < b.toNat := UInt64.lt_iff_toNat_lt.mp h
    have hsize : (b - a).toNat = b.toNat - a.toNat :=
      UInt64.toNat_sub_of_le b a (UInt64.le_iff_toNat_le.mpr hlt.le)
    rw [if_pos h, Span.gap_of_lt hlt, List.map_singleton, DiskRange.span, hsize,
      Nat.add_sub_of_le hlt.le]
  · have hge : b.toNat ≤ a.toNat := not_lt.mp fun hlt => h (UInt64.lt_iff_toNat_lt.mpr hlt)
    rw [if_neg h, Span.gap_of_le hge, List.map_nil]

theorem toNat_partitionEnd {size : UInt64} {p : PartitionInfo} (h : p.span.hi ≤ size.toNat) :
    (p.offset + p.size).toNat = p.span.hi := by
  rw [UInt64.toNat_add]
  exact Nat.mod_eq_of_lt (h.trans_lt size.toNat_lt)

/-- The loop is a sweep. -/
theorem map_span_freeSweep {size current : UInt64} {sorted : List PartitionInfo}
    (h : Inside size sorted) :
    (freeSweep size current sorted).map DiskRange.span
      = Span.sweep size.toNat current.toNat (sorted.map PartitionInfo.span) := by
  induction sorted generalizing current with
  | nil =>
      have hcond : (size > 0 ∧ current < size) ↔ size > current := by
        refine ⟨fun hc => hc.2, fun hc => ⟨?_, hc⟩⟩
        have hlt : current.toNat < size.toNat := UInt64.lt_iff_toNat_lt.mp hc
        exact UInt64.lt_iff_toNat_lt.mpr ((Nat.zero_le _).trans_lt hlt)
      rw [freeSweep]
      simp only [hcond]
      exact map_span_between
  | cons p sorted ih =>
      obtain ⟨hp, hsorted⟩ := List.forall_mem_cons.mp h
      have hend := toNat_partitionEnd hp
      have hmax : (if p.offset + p.size > current then p.offset + p.size else current).toNat
          = max current.toNat p.span.hi := by
        split
        · next hgt =>
            have hlt : current.toNat < p.span.hi := hend ▸ UInt64.lt_iff_toNat_lt.mp hgt
            rw [hend, max_eq_right hlt.le]
        · next hle =>
            have hge : p.span.hi ≤ current.toNat :=
              not_lt.mp fun hlt => hle (UInt64.lt_iff_toNat_lt.mpr (hend ▸ hlt))
            rw [max_eq_left hge]
      rw [freeSweep, List.map_append, map_span_between, ih hsorted, hmax, List.map_cons, Span.sweep]
      rfl

/-- Sorted partitions of the disk are a row of spans. -/
theorem laid_sorted {size : UInt64} {partitions sorted : List PartitionInfo}
    (h : Inside size partitions) (hperm : sorted.Perm partitions)
    (hsorted : sorted.Pairwise fun a b => a.offset ≤ b.offset) :
    Span.Laid size.toNat (sorted.map PartitionInfo.span) where
  sorted := by
    rw [List.pairwise_map]
    exact hsorted.imp UInt64.le_iff_toNat_le.mp
  proper := by
    intro s hs
    obtain ⟨p, -, rfl⟩ := List.mem_map.mp hs
    exact Nat.le_add_right _ _
  inside := by
    intro s hs
    obtain ⟨p, hp, rfl⟩ := List.mem_map.mp hs
    exact h p (hperm.subset hp)

variable {sort : List PartitionInfo → List PartitionInfo} {layout : DiskLayout}

/-- The disk without partitions is no exception. -/
theorem freeRanges_eq_freeSweep (hsort : Sorts (fun p : PartitionInfo => p.offset) sort) :
    (calculateFreeSpace sort layout).freeRanges
      = freeSweep layout.disk.size 0 (sort layout.partitions) := by
  rw [calculateFreeSpace]
  dsimp only
  split
  · next hempty =>
      have hsorted : sort [] = [] := List.perm_nil.mp (hsort []).1
      simp only [List.isEmpty_iff.mp hempty, hsorted, freeSweep, UInt64.sub_zero, gt_iff_lt, and_self]
  · rfl

/-- The free ranges are the gaps of a sweep. -/
theorem map_span_freeRanges (hsort : Sorts (fun p : PartitionInfo => p.offset) sort)
    (h : Inside layout.disk.size layout.partitions) :
    (calculateFreeSpace sort layout).freeRanges.map DiskRange.span
      = Span.sweep layout.disk.size.toNat 0
          ((sort layout.partitions).map PartitionInfo.span) := by
  rw [freeRanges_eq_freeSweep hsort]
  exact map_span_freeSweep fun p hp => h p ((hsort layout.partitions).1.subset hp)

/-- The free ranges are not empty, in order, apart and on the disk, and hold what no partition
does. -/
structure ExactComplement (layout : DiskLayout) (free : List DiskRange) : Prop where
  nonempty : ∀ r ∈ free, 0 < r.size.toNat
  apart : free.Pairwise fun r r' => r.span.hi ≤ r'.span.lo
  inside : ∀ r ∈ free, r.span.hi ≤ layout.disk.size.toNat
  covers : ∀ x < layout.disk.size.toNat,
    (∃ r ∈ free, r.span.Contains x) ↔ ∀ p ∈ layout.partitions, ¬ p.span.Contains x

/-- **The free ranges are exactly what the partitions leave**, in whatever order the partitions
stand and are sorted. -/
theorem calculateFreeSpace_exact (hsort : Sorts (fun p : PartitionInfo => p.offset) sort)
    (h : Inside layout.disk.size layout.partitions) :
    ExactComplement layout (calculateFreeSpace sort layout).freeRanges ∧
      ∀ (partitions : List PartitionInfo) (sort' : List PartitionInfo → List PartitionInfo),
        partitions.Perm layout.partitions → Sorts (fun p : PartitionInfo => p.offset) sort' →
          (calculateFreeSpace sort' { layout with partitions := partitions }).freeRanges
            = (calculateFreeSpace sort layout).freeRanges := by
  have hspans := map_span_freeRanges hsort h
  have hlaid := laid_sorted h (hsort layout.partitions).1 (hsort layout.partitions).2
  -- a free range is a gap of the sweep
  have hgap : ∀ r ∈ (calculateFreeSpace sort layout).freeRanges,
      r.span ∈ Span.sweep layout.disk.size.toNat 0
        ((sort layout.partitions).map PartitionInfo.span) := by
    intro r hr
    rw [← hspans]
    exact List.mem_map_of_mem hr
  refine ⟨⟨fun r hr => ?_, ?_, fun r hr => ?_, fun x hx => ?_⟩, ?_⟩
  · have hlt := (Span.bounds_of_mem_sweep hlaid (hgap r hr)).2.1
    exact Nat.lt_add_right_iff_pos.mp hlt
  · have hpair : ((calculateFreeSpace sort layout).freeRanges.map DiskRange.span).Pairwise
        fun s s' => s.hi ≤ s'.lo := by
      rw [hspans]
      exact Span.pairwise_sweep hlaid
    exact List.pairwise_map.mp hpair
  · exact (Span.bounds_of_mem_sweep hlaid (hgap r hr)).2.2
  · have hcovers : (∃ r ∈ (calculateFreeSpace sort layout).freeRanges.map DiskRange.span,
          r.Contains x) ↔ 0 ≤ x ∧ x < layout.disk.size.toNat ∧
        ∀ s ∈ (sort layout.partitions).map PartitionInfo.span, ¬ s.Contains x := by
      rw [hspans]
      exact Span.covers_sweep hlaid
    constructor
    · rintro ⟨r, hr, hin⟩ p hp
      have hfree := (hcovers.mp ⟨r.span, List.mem_map_of_mem hr, hin⟩).2.2
      exact hfree p.span (List.mem_map_of_mem ((hsort layout.partitions).1.symm.subset hp))
    · intro hfree
      have hspansFree : ∀ s ∈ (sort layout.partitions).map PartitionInfo.span,
          ¬ s.Contains x := by
        intro s hs
        obtain ⟨p, hp, rfl⟩ := List.mem_map.mp hs
        exact hfree p ((hsort layout.partitions).1.subset hp)
      obtain ⟨s, hs, hin⟩ := hcovers.mpr ⟨Nat.zero_le x, hx, hspansFree⟩
      obtain ⟨r, hr, rfl⟩ := List.mem_map.mp hs
      exact ⟨r, hr, hin⟩
  · intro partitions sort' hperm hsort'
    have hinside : Inside layout.disk.size partitions := fun p hp => h p (hperm.subset hp)
    have hspans' := @map_span_freeRanges sort' { layout with partitions := partitions } hsort'
      hinside
    have hsame : (sort layout.partitions).Perm (sort' partitions) :=
      (hsort layout.partitions).1.trans (hperm.symm.trans (hsort' partitions).1.symm)
    refine List.map_injective_iff.mpr DiskRange.span_injective ?_
    rw [hspans', hspans]
    refine (Span.sweep_eq_of_perm (hsame.map PartitionInfo.span) hlaid ?_).symm
    rw [List.pairwise_map]
    exact (hsort' partitions).2.imp UInt64.le_iff_toNat_le.mp

/-- A partition of the given bytes. -/
def partitionAt (offset size : UInt64) : PartitionInfo :=
  { PartitionInfo.blank with offset := offset, size := size }

/-- A layout of a disk of `size` bytes with the given partitions. -/
def layoutOf (size : UInt64) (partitions : List PartitionInfo) : DiskLayout :=
  { DiskLayout.blank with
    disk := { DiskLayout.blank.disk with size := size }
    partitions := partitions }

/-- A disk of ten bytes: a partition inside another, an empty one, and no order. -/
def nestedLayout : DiskLayout := layoutOf 10 [partitionAt 4 4, partitionAt 5 1, partitionAt 1 0]

theorem calculateFreeSpace_exact_nested :
    ExactComplement nestedLayout
        (calculateFreeSpace (sortBy (·.offset)) nestedLayout).freeRanges ∧
      ∀ (partitions : List PartitionInfo) (sort' : List PartitionInfo → List PartitionInfo),
        partitions.Perm nestedLayout.partitions →
          Sorts (fun p : PartitionInfo => p.offset) sort' →
            (calculateFreeSpace sort' { nestedLayout with partitions := partitions }).freeRanges
              = (calculateFreeSpace (sortBy (·.offset)) nestedLayout).freeRanges :=
  calculateFreeSpace_exact (sorts_sortBy _) (by decide)

end Go2Cbt.Disk
