import Go2Cbt.Client.CbtClient
import Go2Cbt.Lib.Image
import Go2Cbt.Lib.Runs
import Mathlib.Logic.Function.Iterate

/-!
# Cbtctl — the report on a bitmap

`DumpCbtBitmap` prints a bitmap in rows of eight groups of eight bits and counts as it goes: the
changed blocks, the runs of changed blocks, the longest of them, and then the changed blocks once
more in 64 segments.  What it prints is left out, the counts are kept.

* `terminates_iff`: for which sizes the rows come to an end.
* `dumpCbtBitmap_agrees`: the counts are those of the list that the backup works with.
-/

namespace Go2Cbt.Cbtctl

open Go2Cbt.Client Runs

/-- The variables of the loops of `DumpCbtBitmap`. -/
structure Scan where
  i : UInt64
  changedBlocks : UInt64
  changedRanges : UInt64
  maxRunLength : UInt64
  currentRunStart : UInt64
  inChangedRun : Bool

/-- Where the scan begins. -/
def Scan.start : Scan where
  i := 0
  changedBlocks := 0
  changedRanges := 0
  maxRunLength := 0
  currentRunStart := 0
  inChangedRun := false

/-- The bit of block `i`, the high bit of a byte first. -/
def bitAt (data : Image) (i : UInt64) : Bool :=
  decide ((data (i / 8).toNat >>> (7 - i % 8).toUInt8) &&& 1 = 1)

/-- A run that ends in front of `i` is counted. -/
def countRun (s : Scan) (i : UInt64) : Scan :=
  let runLen := i - s.currentRunStart
  { s with
    changedRanges := s.changedRanges + 1
    maxRunLength := if runLen > s.maxRunLength then runLen else s.maxRunLength }

/-- What the innermost loop does with block `i`. -/
def visit (data : Image) (s : Scan) : Scan :=
  if bitAt data s.i then
    let s := { s with changedBlocks := s.changedBlocks + 1 }
    if s.inChangedRun then s else { s with inChangedRun := true, currentRunStart := s.i }
  else if s.inChangedRun then { countRun s s.i with inChangedRun := false }
  else s

/-- A turn of the innermost loop, with its `i++`. -/
def advance (data : Image) (s : Scan) : Scan := { visit data s with i := s.i + 1 }

section Loops

variable (data : Image) (totalBits totalBytes : UInt64)

/-- The bits of a group, with `left` of them to go. -/
def scanBits : (left : Nat) → Scan → Scan
  | 0, s => s
  | left + 1, s =>
      if s.i < totalBits then
        if s.i / 8 ≥ totalBytes then s else scanBits left (advance data s)
      else s

/-- The groups of a row. -/
def scanGroups : (left : Nat) → Scan → Scan
  | 0, s => s
  | left + 1, s =>
      if s.i < totalBits then scanGroups left (scanBits data totalBits totalBytes 8 s) else s

/-- The rows; nothing when `fuel` rows were not enough. -/
def scanRows : (fuel : Nat) → Scan → Option Scan
  | 0, s => if s.i < totalBits then none else some s
  | fuel + 1, s =>
      if s.i < totalBits then scanRows fuel (scanGroups data totalBits totalBytes 8 s) else some s

/-- The changed blocks of a segment, from `j` on with `left` blocks to go. -/
def countSegment : (left : Nat) → (j segChanged : UInt64) → UInt64
  | 0, _, segChanged => segChanged
  | left + 1, j, segChanged =>
      countSegment left (j + 1)
        (if j / 8 < totalBytes ∧ bitAt data j then segChanged + 1 else segChanged)

/-- The segments from `seg` on. -/
def densityMap : (left seg : Nat) → List UInt64
  | 0, _ => []
  | left + 1, seg =>
      let segSize := (totalBits + 63) / 64
      let segStart := UInt64.ofNat seg * segSize
      let segEnd := if segStart + segSize > totalBits then totalBits else segStart + segSize
      if segStart ≥ totalBits then []
      else
        countSegment data totalBytes (segEnd.toNat - segStart.toNat) segStart 0
          :: densityMap left (seg + 1)

end Loops

/-- What the report says. -/
structure Statistics where
  changedBlocks : UInt64
  changedRanges : UInt64
  maxRunLength : UInt64
  segments : List UInt64

/-- What `DumpCbtBitmap` does behind the rows: the run that is still open is counted, too. -/
def report (data : Image) (totalBits totalBytes : UInt64) (s : Scan) : Statistics :=
  let s := if s.inChangedRun then countRun s totalBits else s
  { changedBlocks := s.changedBlocks
    changedRanges := s.changedRanges
    maxRunLength := s.maxRunLength
    segments := densityMap data totalBits totalBytes 64 0 }

/-- `DumpCbtBitmap`; nothing when `fuel` rows were not enough. -/
def dumpCbtBitmap (fuel : Nat) (data : Image) (totalBits totalBytes : UInt64) :
    Option Statistics :=
  (scanRows data totalBits totalBytes fuel .start).map (report data totalBits totalBytes)

/-! ### The loops as one -/

/-- The block at which the innermost loop stops advancing. -/
def limit (totalBits totalBytes : UInt64) : Nat := min totalBits.toNat (8 * totalBytes.toNat)

theorem lt_limit_iff {totalBits totalBytes i : UInt64} :
    i.toNat < limit totalBits totalBytes ↔ i < totalBits ∧ ¬ i / 8 ≥ totalBytes := by
  have hdiv : (i / 8).toNat = i.toNat / 8 := UInt64.toNat_div i 8
  rw [limit, lt_min_iff, UInt64.lt_iff_toNat_lt, ge_iff_le, UInt64.le_iff_toNat_le, hdiv]
  omega

theorem limit_le (totalBits totalBytes : UInt64) :
    limit totalBits totalBytes ≤ totalBits.toNat := min_le_left _ _

theorem toNat_i_iterate {data : Image} {k : Nat} {s : Scan} (h : s.i.toNat + k < 2 ^ 64) :
    ((advance data)^[k] s).i.toNat = s.i.toNat + k := by
  induction k with
  | zero => rfl
  | succ k ih =>
      rw [Function.iterate_succ_apply']
      change (((advance data)^[k] s).i + 1).toNat = _
      rw [UInt64.toNat_add, ih (by omega)]
      exact Nat.mod_eq_of_lt h

section Loops

variable (data : Image) {totalBits totalBytes : UInt64}

theorem scanBits_eq (left : Nat) (s : Scan) :
    scanBits data totalBits totalBytes left s
      = (advance data)^[min left (limit totalBits totalBytes - s.i.toNat)] s := by
  induction left generalizing s with
  | zero => rw [scanBits, Nat.zero_min, Function.iterate_zero, id]
  | succ left ih =>
      have hlimit := limit_le totalBits totalBytes
      have hbits := totalBits.toNat_lt
      rw [scanBits]
      by_cases hin : s.i.toNat < limit totalBits totalBytes
      · obtain ⟨hlt, hbyte⟩ := lt_limit_iff.mp hin
        have hnext : (advance data s).i.toNat = s.i.toNat + 1 :=
          toNat_i_iterate (k := 1) (by omega)
        rw [if_pos hlt, if_neg hbyte, ih, hnext, ← Function.iterate_succ_apply]
        congr 1
        omega
      · have hzero : min (left + 1) (limit totalBits totalBytes - s.i.toNat) = 0 := by omega
        rw [hzero, Function.iterate_zero, id]
        split
        · next hlt =>
            -- the break: `i` is not advanced
            rw [if_pos (not_not.mp fun hbyte => hin (lt_limit_iff.mpr ⟨hlt, hbyte⟩))]
        · rfl

theorem scanGroups_eq (left : Nat) (s : Scan) :
    scanGroups data totalBits totalBytes left s
      = (advance data)^[min (8 * left) (limit totalBits totalBytes - s.i.toNat)] s := by
  induction left generalizing s with
  | zero => rw [scanGroups, Nat.mul_zero, Nat.zero_min, Function.iterate_zero, id]
  | succ left ih =>
      have hlimit := limit_le totalBits totalBytes
      have hbits := totalBits.toNat_lt
      rw [scanGroups]
      split
      · have hnext : ((advance data)^[min 8 (limit totalBits totalBytes - s.i.toNat)] s).i.toNat
            = s.i.toNat + min 8 (limit totalBits totalBytes - s.i.toNat) := by
          rcases Nat.eq_zero_or_pos (min 8 (limit totalBits totalBytes - s.i.toNat)) with h | h
          · rw [h]
            rfl
          · exact toNat_i_iterate (by omega)
        rw [ih, scanBits_eq, hnext, ← Function.iterate_add_apply]
        congr 1
        omega
      · next hge =>
          have hpast := mt UInt64.lt_iff_toNat_lt.mpr hge
          have hzero : limit totalBits totalBytes - s.i.toNat = 0 := by omega
          rw [hzero, Nat.min_zero, Function.iterate_zero, id]

/-- Where every bit has its byte, the rows visit the blocks one after the other. -/
theorem scanRows_eq (henough : totalBits.toNat ≤ 8 * totalBytes.toNat) {fuel : Nat} {s : Scan}
    (hfuel : totalBits.toNat - s.i.toNat ≤ 64 * fuel) :
    scanRows data totalBits totalBytes fuel s
      = some ((advance data)^[totalBits.toNat - s.i.toNat] s) := by
  have hlimit : limit totalBits totalBytes = totalBits.toNat := min_eq_left henough
  have hbits := totalBits.toNat_lt
  induction fuel generalizing s with
  | zero =>
      have hend : totalBits.toNat - s.i.toNat = 0 := by omega
      rw [scanRows, if_neg, hend]
      · rfl
      · intro hlt
        have := UInt64.lt_iff_toNat_lt.mp hlt
        omega
  | succ fuel ih =>
      rw [scanRows]
      split
      · next hlt =>
          have hlt := UInt64.lt_iff_toNat_lt.mp hlt
          have hnext : ((advance data)^[min 64 (totalBits.toNat - s.i.toNat)] s).i.toNat
              = s.i.toNat + min 64 (totalBits.toNat - s.i.toNat) := toNat_i_iterate (by omega)
          rw [scanGroups_eq, hlimit, ih (by rw [hnext]; omega), hnext,
            ← Function.iterate_add_apply]
          congr 2
          omega
      · next hge =>
          have hpast := mt UInt64.lt_iff_toNat_lt.mpr hge
          have hend : totalBits.toNat - s.i.toNat = 0 := by omega
          rw [hend]
          rfl

/-- Where some bit has no byte, no number of rows is enough: at that bit the row ends as it
began. -/
theorem scanRows_none (hshort : 8 * totalBytes.toNat < totalBits.toNat) (fuel : Nat) {s : Scan}
    (hi : s.i.toNat ≤ 8 * totalBytes.toNat) :
    scanRows data totalBits totalBytes fuel s = none := by
  have hlimit : limit totalBits totalBytes = 8 * totalBytes.toNat := min_eq_right hshort.le
  have hbits := totalBits.toNat_lt
  induction fuel generalizing s with
  | zero => rw [scanRows, if_pos (UInt64.lt_iff_toNat_lt.mpr (by omega))]
  | succ fuel ih =>
      rw [scanRows, if_pos (UInt64.lt_iff_toNat_lt.mpr (by omega)), scanGroups_eq, hlimit]
      refine ih ?_
      rw [toNat_i_iterate (by omega)]
      omega

end Loops

/-! ### The end of the rows -/

/-- The loops of `DumpCbtBitmap` come to an end. -/
def Terminates (data : Image) (totalBits totalBytes : UInt64) : Prop :=
  ∃ fuel, dumpCbtBitmap fuel data totalBits totalBytes ≠ none

/-- **The rows end exactly when every bit has its byte**: the test for a bit without one leaves
the innermost loop only, and the index stays where it is. -/
theorem terminates_iff (data : Image) (totalBits totalBytes : UInt64) :
    Terminates data totalBits totalBytes ↔ totalBits.toNat ≤ 8 * totalBytes.toNat := by
  constructor
  · rintro ⟨fuel, hfuel⟩
    by_contra hshort
    refine hfuel ?_
    rw [dumpCbtBitmap, scanRows_none data (not_le.mp hshort) fuel (Nat.zero_le _)]
    rfl
  · intro henough
    refine ⟨totalBits.toNat, ?_⟩
    rw [dumpCbtBitmap, scanRows_eq data henough (by omega)]
    exact Option.some_ne_none _

/-- Nine blocks and one byte. -/
theorem nine_bits_of_one_byte : ¬ Terminates (fun _ => 0) 9 1 := by
  rintro ⟨fuel, hfuel⟩
  refine hfuel ?_
  rw [dumpCbtBitmap, scanRows_none _ (by decide) fuel (Nat.zero_le _)]
  rfl

/-! ### What the counts are after `n` blocks -/

/-- The bitmap that `TotalBytes` bytes make. -/
abbrev bitmapOf (data : Image) (totalBytes : UInt64) : Bytes := data.slice 0 totalBytes.toNat

theorem bitAt_eq {data : Image} {totalBytes i : UInt64} (h : i / 8 < totalBytes) :
    bitAt data i = mirroredBit (bitmapOf data totalBytes) i.toNat := by
  have hdiv : (i / 8).toNat = i.toNat / 8 := UInt64.toNat_div i 8
  have hmod : (i % 8).toNat = i.toNat % 8 := UInt64.toNat_mod i 8
  have hlt : i.toNat / 8 < totalBytes.toNat := by
    rw [← hdiv]
    exact UInt64.lt_iff_toNat_lt.mp h
  have hshift : (7 - i % 8).toUInt8 = UInt8.ofNat (7 - i.toNat % 8) := by
    have hle : i % 8 ≤ 7 := UInt64.le_iff_toNat_le.mpr (by
      rw [hmod]
      change _ ≤ 7
      omega)
    apply UInt8.toNat_inj.mp
    rw [UInt64.toNat_toUInt8, UInt64.toNat_sub_of_le _ _ hle, hmod, UInt8.toNat_ofNat']
    rfl
  rw [bitAt, mirroredBit, Image.getD_slice hlt, Nat.zero_add, hshift, hdiv, Bool.eq_iff_iff,
    decide_eq_true_iff]
  exact shiftRight_and_one_eq (by omega)

/-- Where the run that is open began, or `i` when none is. -/
def Scan.runStart (s : Scan) : Nat := if s.inChangedRun then s.currentRunStart.toNat else s.i.toNat

/-- What the variables hold when `n` blocks have been visited. -/
structure Scanned (p : Nat → Bool) (n : Nat) (s : Scan) : Prop where
  index : s.i.toNat = n
  count : s.changedBlocks.toNat = (below p n).length
  ranges : s.changedRanges.toNat = (runs (below p s.runStart)).length
  longest : s.maxRunLength.toNat = longest (runs (below p s.runStart))
  opened : s.inChangedRun = true → s.runStart < n
  run : ∀ j, s.runStart ≤ j → j < n → p j = true
  gap : ∀ j, j + 1 = s.runStart → p j = false

theorem runStart_of_open {s : Scan} (h : s.inChangedRun = true) :
    s.runStart = s.currentRunStart.toNat := if_pos h

theorem runStart_of_closed {s : Scan} (h : s.inChangedRun = false) : s.runStart = s.i.toNat := by
  rw [Scan.runStart, h]
  rfl

theorem scanned_start (p : Nat → Bool) : Scanned p 0 .start where
  index := rfl
  count := rfl
  ranges := rfl
  longest := rfl
  opened := fun h => Bool.noConfusion h
  run := fun j _ hj => absurd hj (Nat.not_lt_zero j)
  gap := fun j hj => absurd hj (Nat.succ_ne_zero j)

section Count

variable {p : Nat → Bool} {n : Nat} {s : Scan}

/-- Counting the open run counts the runs below `n`. -/
theorem Scanned.countRun (h : Scanned p n s) (hopen : s.inChangedRun = true) {i : UInt64}
    (hi : i.toNat = n) :
    (countRun s i).changedRanges.toNat = (runs (below p n)).length ∧
      (countRun s i).maxRunLength.toNat = Runs.longest (runs (below p n)) := by
  have hlt := h.opened hopen
  have hstart := runStart_of_open hopen
  have hbound := i.toNat_lt
  have hcount : (runs (below p s.runStart)).length ≤ s.runStart :=
    (length_runs_le _).trans (length_below_le p _)
  have hlen : (i - s.currentRunStart).toNat = n - s.runStart := by
    have hle : s.currentRunStart ≤ i := UInt64.le_iff_toNat_le.mpr (by omega)
    rw [UInt64.toNat_sub_of_le _ _ hle, hi, hstart]
  rw [runs_below hlt h.run h.gap, List.length_append, longest_append, List.length_range', ← hlen]
  constructor
  · change (s.changedRanges + 1).toNat = _
    rw [UInt64.toNat_add, h.ranges]
    exact Nat.mod_eq_of_lt (by change _ + 1 < 2 ^ 64; omega)
  · change (if i - s.currentRunStart > s.maxRunLength then i - s.currentRunStart
      else s.maxRunLength).toNat = _
    rw [← h.longest]
    split
    · next hgt => exact (max_eq_right (UInt64.lt_iff_toNat_lt.mp hgt).le).symm
    · next hle => exact (max_eq_left (not_lt.mp (mt UInt64.lt_iff_toNat_lt.mpr hle))).symm

theorem Scanned.runStart_le (h : Scanned p n s) : s.runStart ≤ n := by
  cases hopen : s.inChangedRun with
  | true => exact (h.opened hopen).le
  | false => exact ((runStart_of_closed hopen).trans h.index).le

theorem Scanned.index_succ (h : Scanned p n s) (hn : n + 1 < 2 ^ 64) :
    (s.i + 1).toNat = n + 1 := by
  rw [UInt64.toNat_add, h.index]
  exact Nat.mod_eq_of_lt hn

/-- A block that is changed: it opens a run or goes on with one. -/
theorem Scanned.advance_changed (h : Scanned p n s) (hn : n + 1 < 2 ^ 64) {data : Image}
    (hbit : bitAt data s.i = true) (hp : p n = true) : Scanned p (n + 1) (advance data s) := by
  have hstart : (advance data s).runStart = s.runStart := by
    cases hopen : s.inChangedRun <;> simp [advance, visit, hbit, hopen, Scan.runStart]
  have hranges : (advance data s).changedRanges = s.changedRanges := by
    cases hopen : s.inChangedRun <;> simp [advance, visit, hbit, hopen]
  have hmax : (advance data s).maxRunLength = s.maxRunLength := by
    cases hopen : s.inChangedRun <;> simp [advance, visit, hbit, hopen]
  have hblocks : (advance data s).changedBlocks = s.changedBlocks + 1 := by
    cases hopen : s.inChangedRun <;> simp [advance, visit, hbit, hopen]
  refine ⟨h.index_succ hn, ?_, ?_, ?_, ?_, ?_, ?_⟩
  · have hle := length_below_le p n
    rw [hblocks, below_succ_of_true hp, List.length_append, UInt64.toNat_add, h.count]
    exact Nat.mod_eq_of_lt (by change _ + 1 < 2 ^ 64; omega)
  · rw [hstart, hranges, h.ranges]
  · rw [hstart, hmax, h.longest]
  · intro _
    rw [hstart]
    exact Nat.lt_succ_of_le h.runStart_le
  · intro j hj hjn
    rw [hstart] at hj
    rcases Nat.lt_succ_iff_lt_or_eq.mp hjn with hlt | rfl
    · exact h.run j hj hlt
    · exact hp
  · rw [hstart]
    exact h.gap

/-- A block that is not: it ends the run that is open. -/
theorem Scanned.advance_unchanged (h : Scanned p n s) (hn : n + 1 < 2 ^ 64) {data : Image}
    (hbit : bitAt data s.i = false) (hp : p n = false) : Scanned p (n + 1) (advance data s) := by
  have hclosed : (advance data s).inChangedRun = false := by
    cases hopen : s.inChangedRun <;> simp [advance, visit, hbit, hopen]
  have hstart : (advance data s).runStart = n + 1 :=
    (runStart_of_closed hclosed).trans (h.index_succ hn)
  have hblocks : (advance data s).changedBlocks = s.changedBlocks := by
    cases hopen : s.inChangedRun <;> simp [advance, visit, hbit, hopen, Cbtctl.countRun]
  -- the runs below `n` are counted by now
  have hruns : (advance data s).changedRanges.toNat = (runs (below p n)).length ∧
      (advance data s).maxRunLength.toNat = Runs.longest (runs (below p n)) := by
    cases hopen : s.inChangedRun with
    | true =>
        have hadvance : advance data s
            = { Cbtctl.countRun s s.i with inChangedRun := false, i := s.i + 1 } := by
          simp [advance, visit, hbit, hopen]
        rw [hadvance]
        exact h.countRun hopen h.index
    | false =>
        have hadvance : advance data s = { s with i := s.i + 1 } := by
          simp [advance, visit, hbit, hopen]
        have hn : s.runStart = n := (runStart_of_closed hopen).trans h.index
        rw [hadvance, ← hn]
        exact ⟨h.ranges, h.longest⟩
  have hsame := below_succ_of_false hp
  refine ⟨h.index_succ hn, ?_, ?_, ?_, ?_, ?_, ?_⟩
  · rw [hblocks, hsame, h.count]
  · rw [hstart, hsame, hruns.1]
  · rw [hstart, hsame, hruns.2]
  · intro hopen
    rw [hclosed] at hopen
    cases hopen
  · intro j hj hjn
    rw [hstart] at hj
    omega
  · intro j hj
    rw [hstart] at hj
    obtain rfl : j = n := by omega
    exact hp

end Count

section Agree

variable (data : Image) {totalBits totalBytes : UInt64}

/-- The rows visit `n` blocks. -/
theorem scanned_iterate (henough : totalBits.toNat ≤ 8 * totalBytes.toNat) {n : Nat}
    (hn : n ≤ totalBits.toNat) :
    Scanned (mirroredBit (bitmapOf data totalBytes)) n ((advance data)^[n] .start) := by
  have hbits := totalBits.toNat_lt
  induction n with
  | zero => exact scanned_start _
  | succ n ih =>
      have h := ih (Nat.le_of_succ_le hn)
      have hbyte : ((advance data)^[n] Scan.start).i / 8 < totalBytes := by
        rw [UInt64.lt_iff_toNat_lt, UInt64.toNat_div, h.index]
        change n / 8 < _
        omega
      have hbit := @bitAt_eq data _ _ hbyte
      rw [h.index] at hbit
      rw [Function.iterate_succ_apply']
      cases hp : mirroredBit (bitmapOf data totalBytes) n with
      | true => exact h.advance_changed (by omega) (hbit.trans hp) hp
      | false => exact h.advance_unchanged (by omega) (hbit.trans hp) hp

/-- The changed blocks of a stretch. -/
theorem toNat_countSegment (left : Nat) {j segChanged : UInt64}
    (hj : j.toNat + left < 2 ^ 64) (hc : segChanged.toNat + left < 2 ^ 64) :
    (countSegment data totalBytes left j segChanged).toNat
      = segChanged.toNat
        + ((List.range' j.toNat left).filter (mirroredBit (bitmapOf data totalBytes))).length := by
  induction left generalizing j segChanged with
  | zero => rfl
  | succ left ih =>
      have hnext : (j + 1).toNat = j.toNat + 1 := by
        rw [UInt64.toNat_add]
        exact Nat.mod_eq_of_lt (by change _ + 1 < 2 ^ 64; omega)
      have hmore : (segChanged + 1).toNat = segChanged.toNat + 1 := by
        rw [UInt64.toNat_add]
        exact Nat.mod_eq_of_lt (by change _ + 1 < 2 ^ 64; omega)
      -- a block behind the last byte counts as unchanged in both
      have hbit : (j / 8 < totalBytes ∧ bitAt data j = true)
          ↔ mirroredBit (bitmapOf data totalBytes) j.toNat = true := by
        by_cases hbyte : j / 8 < totalBytes
        · rw [bitAt_eq hbyte]
          exact and_iff_right hbyte
        · have hpast := mt UInt64.lt_iff_toNat_lt.mpr hbyte
          rw [UInt64.toNat_div] at hpast
          have hfalse : mirroredBit (bitmapOf data totalBytes) j.toNat = false :=
            mirroredBit_of_le (by rw [Image.length_slice]; exact not_lt.mp hpast)
          simp [hbyte, hfalse]
      rw [countSegment, List.range'_succ, List.filter_cons]
      by_cases hset : mirroredBit (bitmapOf data totalBytes) j.toNat = true
      · rw [if_pos (hbit.mpr hset), if_pos hset, ih (by omega) (by omega), hnext, hmore,
          List.length_cons]
        omega
      · rw [if_neg (mt hbit.mp hset), if_neg hset, ih (by omega) (by omega), hnext]

/-- The segments from `seg` on are those of the blocks behind the segments before it. -/
theorem sum_densityMap (hbits : totalBits.toNat < 2 ^ 63) {left seg : Nat}
    (hseg : seg + left = 64) :
    ((densityMap data totalBits totalBytes left seg).map UInt64.toNat).sum
      = ((List.range' (seg * ((totalBits.toNat + 63) / 64))
            (totalBits.toNat - seg * ((totalBits.toNat + 63) / 64))).filter
          (mirroredBit (bitmapOf data totalBytes))).length := by
  have hsize : ((totalBits + 63) / 64).toNat = (totalBits.toNat + 63) / 64 := by
    rw [UInt64.toNat_div, UInt64.toNat_add]
    exact congrArg (· / 64) (Nat.mod_eq_of_lt (show totalBits.toNat + 63 < 2 ^ 64 by omega))
  generalize hS : (totalBits.toNat + 63) / 64 = S at hsize ⊢
  induction left generalizing seg with
  | zero =>
      -- 64 segments reach the end
      have hend : totalBits.toNat - seg * S = 0 := by
        obtain rfl : seg = 64 := by omega
        omega
      rw [hend]
      rfl
  | succ left ih =>
      have hprod : seg * S ≤ 63 * S := Nat.mul_le_mul_right S (by omega)
      have hsucc : (seg + 1) * S = seg * S + S := Nat.succ_mul seg S
      have hstart : (UInt64.ofNat seg * ((totalBits + 63) / 64)).toNat = seg * S := by
        rw [UInt64.toNat_mul, hsize, UInt64.toNat_ofNat_of_lt' (by change seg < 2 ^ 64; omega)]
        exact Nat.mod_eq_of_lt (by omega)
      have hstop : (UInt64.ofNat seg * ((totalBits + 63) / 64) + (totalBits + 63) / 64).toNat
          = seg * S + S := by
        rw [UInt64.toNat_add, hstart, hsize]
        exact Nat.mod_eq_of_lt (by omega)
      rw [densityMap]
      split
      · next hpast =>
          have hpast := UInt64.le_iff_toNat_le.mp hpast
          rw [hstart] at hpast
          rw [Nat.sub_eq_zero_of_le hpast]
          rfl
      · next hin =>
          have hin := mt UInt64.le_iff_toNat_le.mpr hin
          rw [hstart] at hin
          have hsegEnd : (if UInt64.ofNat seg * ((totalBits + 63) / 64) + (totalBits + 63) / 64
              > totalBits then totalBits
              else UInt64.ofNat seg * ((totalBits + 63) / 64) + (totalBits + 63) / 64).toNat
                = min totalBits.toNat (seg * S + S) := by
            split
            · next hgt =>
                have hgt := UInt64.lt_iff_toNat_lt.mp hgt
                rw [hstop] at hgt
                exact (min_eq_left hgt.le).symm
            · next hle =>
                have hle := mt UInt64.lt_iff_toNat_lt.mpr hle
                rw [hstop] at hle ⊢
                exact (min_eq_right (not_lt.mp hle)).symm
          have hsplit : List.range' (seg * S) (totalBits.toNat - seg * S)
              = List.range' (seg * S) (min totalBits.toNat (seg * S + S) - seg * S)
                ++ List.range' ((seg + 1) * S) (totalBits.toNat - (seg + 1) * S) := by
            rcases le_total totalBits.toNat (seg * S + S) with hle | hle
            · rw [min_eq_left hle, hsucc, Nat.sub_eq_zero_of_le hle, List.range'_zero,
                List.append_nil]
            · have hall : totalBits.toNat - seg * S = S + (totalBits.toNat - (seg * S + S)) := by
                omega
              rw [min_eq_right hle, hsucc, Nat.add_sub_cancel_left, hall]
              exact List.range'_append_1.symm
          rw [List.map_cons, List.sum_cons, ih (by omega), hsegEnd, hstart,
            toNat_countSegment data _ (by rw [hstart]; omega) (by change 0 + _ < _; omega), hstart,
            hsplit, List.filter_append, List.length_append]
          exact congrArg (· + _) (Nat.zero_add _)

end Agree

/-- **The report agrees with the backup**: on a bitmap with a byte for every bit, the changed
blocks, their runs and the longest of these are those of the list that the client makes of the same
bytes, and the segments share the changed blocks out among them. -/
theorem dumpCbtBitmap_agrees (data : Image) (totalBits totalBytes : UInt64)
    (hbits : totalBits.toNat < 9223372036854775808)
    (henough : totalBits.toNat ≤ 8 * totalBytes.toNat) :
    ∃ stats,
      (∀ fuel, totalBits.toNat ≤ fuel →
        dumpCbtBitmap fuel data totalBits totalBytes = some stats) ∧
      stats.changedBlocks.toNat
        = (CbtClient.parseChangedBlocks (data.slice 0 totalBytes.toNat) totalBits).length ∧
      stats.changedRanges.toNat
        = (runs (CbtClient.parseChangedBlocks (data.slice 0 totalBytes.toNat) totalBits)).length ∧
      stats.maxRunLength.toNat
        = longest (runs
            (CbtClient.parseChangedBlocks (data.slice 0 totalBytes.toNat) totalBits)) ∧
      (stats.segments.map UInt64.toNat).sum = stats.changedBlocks.toNat := by
  have hlist : CbtClient.parseChangedBlocks (data.slice 0 totalBytes.toNat) totalBits
      = below (mirroredBit (bitmapOf data totalBytes)) totalBits.toNat :=
    parseChangedBlocks_eq _ _
  have hscan := scanned_iterate data henough (Nat.le_refl totalBits.toNat)
  have hsegments := @sum_densityMap data _ totalBytes hbits _ _ (Nat.zero_add 64)
  have hdump : ∀ fuel, totalBits.toNat ≤ fuel → scanRows data totalBits totalBytes fuel .start
      = some ((advance data)^[totalBits.toNat] .start) := fun fuel hfuel =>
    scanRows_eq data henough (by omega)
  rw [Nat.zero_mul, Nat.sub_zero, ← List.range_eq_range'] at hsegments
  generalize (advance data)^[totalBits.toNat] Scan.start = s at hscan hdump
  rw [hlist]
  refine ⟨report data totalBits totalBytes s, fun fuel hfuel => ?_, ?_⟩
  · rw [dumpCbtBitmap, hdump fuel hfuel, Option.map_some]
  · cases hopen : s.inChangedRun with
    | true =>
        obtain ⟨hranges, hlongest⟩ := hscan.countRun hopen (i := totalBits) rfl
        have hreport : (if s.inChangedRun then countRun s totalBits else s)
            = countRun s totalBits := if_pos hopen
        rw [report, hreport]
        exact ⟨hscan.count, hranges, hlongest, hsegments.trans hscan.count.symm⟩
    | false =>
        have hend : s.runStart = totalBits.toNat := (runStart_of_closed hopen).trans hscan.index
        have hranges := hscan.ranges
        have hlongest := hscan.longest
        rw [hend] at hranges hlongest
        have hreport : (if s.inChangedRun then countRun s totalBits else s) = s := by
          rw [hopen]
          rfl
        rw [report, hreport]
        exact ⟨hscan.count, hranges, hlongest, hsegments.trans hscan.count.symm⟩

/-- Ten blocks, of which three at the start and two across the bytes are changed. -/
theorem dumpCbtBitmap_agrees_ten :
    ∃ stats,
      (∀ fuel, 10 ≤ fuel →
        dumpCbtBitmap fuel (fun k => if k = 0 then 0xE1 else 0x80) 10 2 = some stats) ∧
      stats.changedBlocks.toNat
        = (CbtClient.parseChangedBlocks
            (Image.slice (fun k => if k = 0 then 0xE1 else 0x80) 0 2) 10).length ∧
      stats.changedRanges.toNat
        = (runs (CbtClient.parseChangedBlocks
            (Image.slice (fun k => if k = 0 then 0xE1 else 0x80) 0 2) 10)).length ∧
      stats.maxRunLength.toNat
        = longest (runs (CbtClient.parseChangedBlocks
            (Image.slice (fun k => if k = 0 then 0xE1 else 0x80) 0 2) 10)) ∧
      (stats.segments.map UInt64.toNat).sum = stats.changedBlocks.toNat :=
  dumpCbtBitmap_agrees (fun k => if k = 0 then 0xE1 else 0x80) 10 2 (by decide) (by decide)

/-- What the report says about them. -/
example : (dumpCbtBitmap 1 (fun k => if k = 0 then 0xE1 else 0x80) 10 2).map
    (fun stats => (stats.changedBlocks, stats.changedRanges, stats.maxRunLength))
      = some (5, 2, 3) := by
  decide +kernel

end Go2Cbt.Cbtctl
