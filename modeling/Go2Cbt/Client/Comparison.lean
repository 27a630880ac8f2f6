import Go2Cbt.Client.Scan
import Mathlib.Data.Set.Function
import Mathlib.Data.List.Pairwise

/-!
# Client — comparing two manifests

`CompareManifests` lists the blocks whose hashes differ, and those that only one of the manifests
has.  Where no two different blocks of the sources have the same hash, these are the blocks that
differ, and putting them into the old source gives the new one (`compareManifests_diff`).
-/

namespace Go2Cbt.Client

open Chunks (chunk chunks)

/-- The turn of `CompareManifests` for block `i`: whether it is listed. -/
def blockChanged (old current : HashManifest) (i : Nat) : Bool :=
  match old.entries[i]?, current.entries[i]? with
  | none, _ => true
  | some _, none => true
  | some oldEntry, some currentEntry => oldEntry.hash != currentEntry.hash

/-- `CompareManifests`. -/
def compareManifests (old current : HashManifest) : List Nat :=
  (List.range (max old.entries.length current.entries.length)).filter (blockChanged old current)

/-- The source has a block `i`. -/
def HasBlock (content : Bytes) (i : Nat) : Prop := i < Chunks.count blockSize content.length

/-- Block `i` is in both sources, with another content or length, or in one of them only. -/
def BlockDiffers (old current : Bytes) (i : Nat) : Prop :=
  HasBlock old i ∧ HasBlock current i ∧ chunk blockSize old i ≠ chunk blockSize current i ∨
    HasBlock old i ∧ ¬ HasBlock current i ∨ ¬ HasBlock old i ∧ HasBlock current i

/-- The manifest of a whole source, with its clock and its path. -/
def wholeManifest (sha256 : Bytes → Hash) (now : UInt64) (volumePath : List UInt16)
    (content : Bytes) (manifest : FullManifest) : Bool × FullManifest :=
  buildManifest (contentSource content sha256) now 0 (UInt64.ofNat content.length) volumePath
    manifest

section

variable {sha256 : Bytes → Hash}

/-- The manifest has the blocks of the source. -/
structure Describes (sha256 : Bytes → Hash) (built : Bool × FullManifest) (content : Bytes) :
    Prop where
  ok : built.1 = true
  hashes : built.2.entries.map BlockHashEntry.hash = (chunks blockSize content).map sha256

theorem describes_wholeManifest {content : Bytes} (hlen : content.length < 2 ^ 63) (now : UInt64)
    (volumePath : List UInt16) (manifest : FullManifest) :
    Describes sha256 (wholeManifest sha256 now volumePath content manifest) content := by
  have hval : (UInt64.ofNat content.length).toNat = content.length :=
    UInt64.toNat_ofNat_of_lt (by rw [UInt64.size]; omega)
  have hzero : (0 : UInt64).toNat = 0 := rfl
  have hsize : (0 : UInt64).toNat + (UInt64.ofNat content.length).toNat < 2 ^ 63 := by omega
  have hread : (0 : UInt64).toNat + (UInt64.ofNat content.length).toNat ≤ content.length := by omega
  rw [wholeManifest, buildManifest_contentSource hsize hread]
  refine ⟨rfl, ?_⟩
  dsimp only
  rw [hval, chunks, List.map_map, List.map_map]
  refine List.map_congr_left fun i _ => ?_
  rw [Function.comp, Function.comp, scanEntry, hval, hzero, List.drop_zero, List.take_length]

/-- The turn of a block by the hashes alone. -/
theorem blockChanged_eq (old current : HashManifest) (i : Nat) :
    blockChanged old current i
      = match (old.entries.map BlockHashEntry.hash)[i]?,
          (current.entries.map BlockHashEntry.hash)[i]? with
        | none, _ => true
        | some _, none => true
        | some oldHash, some currentHash => oldHash != currentHash := by
  rw [blockChanged, List.getElem?_map, List.getElem?_map]
  cases old.entries[i]? <;> cases current.entries[i]? <;> rfl

variable {old current : Bytes} {oldManifest currentManifest : HashManifest}

/-- **The blocks that are listed**, if different blocks have different hashes. -/
theorem mem_compareManifests_iff
    (hinj : Set.InjOn sha256 {data | data ∈ chunks blockSize old ∨ data ∈ chunks blockSize current})
    (hold : oldManifest.entries.map BlockHashEntry.hash = (chunks blockSize old).map sha256)
    (hcurrent : currentManifest.entries.map BlockHashEntry.hash
      = (chunks blockSize current).map sha256) {i : Nat} :
    i ∈ compareManifests oldManifest currentManifest ↔ BlockDiffers old current i := by
  have hlenOld := congrArg List.length hold
  have hlenCurrent := congrArg List.length hcurrent
  rw [List.length_map, List.length_map, Chunks.length_chunks] at hlenOld hlenCurrent
  rw [compareManifests, List.mem_filter, List.mem_range, hlenOld, hlenCurrent, blockChanged_eq,
    hold, hcurrent, List.getElem?_map, List.getElem?_map, BlockDiffers, lt_max_iff]
  by_cases ho : HasBlock old i <;> by_cases hc : HasBlock current i
  · -- in both: the hashes say
    have hsame : sha256 (chunk blockSize old i) = sha256 (chunk blockSize current i) ↔
        chunk blockSize old i = chunk blockSize current i :=
      hinj.eq_iff (.inl (Chunks.chunk_mem_chunks ho)) (.inr (Chunks.chunk_mem_chunks hc))
    rw [Chunks.getElem?_chunks ho, Chunks.getElem?_chunks hc]
    simp only [Option.map_some, bne_iff_ne, ne_eq, hsame, ho, hc, true_and, not_true, and_false,
      false_and, or_false]
    exact and_iff_right (.inl ho)
  · have hnone : (chunks blockSize current)[i]? = none := by
      rw [List.getElem?_eq_none_iff, Chunks.length_chunks]
      exact not_lt.mp hc
    rw [Chunks.getElem?_chunks ho, hnone]
    simp only [Option.map_some, Option.map_none, ho, hc, and_true, true_and, false_and, not_true,
      not_false_eq_true, or_false, or_true, iff_true]
    exact .inl ho
  · have hnone : (chunks blockSize old)[i]? = none := by
      rw [List.getElem?_eq_none_iff, Chunks.length_chunks]
      exact not_lt.mp ho
    rw [hnone]
    simp only [Option.map_none, ho, hc, and_true, true_and, false_and, not_true,
      not_false_eq_true, or_true, iff_true]
    exact .inr hc
  · simp only [ho, hc, false_and, and_false, or_false, iff_false]
    exact fun h => h.1.elim ho hc

/-- Blocks that do not differ are the same, also past the ends. -/
theorem chunk_eq_of_not_differs {i : Nat} (h : ¬ BlockDiffers old current i) :
    chunk blockSize old i = chunk blockSize current i := by
  by_contra hne
  by_cases ho : HasBlock old i <;> by_cases hc : HasBlock current i
  · exact h (.inl ⟨ho, hc, hne⟩)
  · exact h (.inr (.inl ⟨ho, hc⟩))
  · exact h (.inr (.inr ⟨ho, hc⟩))
  · exact hne ((Chunks.chunk_eq_nil blockSize_pos (not_lt.mp ho)).trans
      (Chunks.chunk_eq_nil blockSize_pos (not_lt.mp hc)).symm)

/-- The comparison of two manifests of these sources. -/
theorem diff_of_describes
    (hinj : Set.InjOn sha256 {data | data ∈ chunks blockSize old ∨ data ∈ chunks blockSize current})
    {builtOld builtCurrent : Bool × FullManifest} (hold : Describes sha256 builtOld old)
    (hcurrent : Describes sha256 builtCurrent current) :
    let changed := compareManifests builtOld.2.toHashManifest builtCurrent.2.toHashManifest
    builtOld.1 = true ∧ builtCurrent.1 = true ∧ changed.Pairwise (· < ·) ∧
      (∀ i, i ∈ changed ↔ BlockDiffers old current i) ∧
      Chunks.patch blockSize old current changed = current := by
  intro changed
  have hmem : ∀ i, i ∈ changed ↔ BlockDiffers old current i :=
    fun i => mem_compareManifests_iff hinj hold.hashes hcurrent.hashes
  refine ⟨hold.ok, hcurrent.ok, List.pairwise_lt_range.filter _, hmem, ?_⟩
  exact Chunks.patch_eq blockSize_pos fun i hi => chunk_eq_of_not_differs ((hmem i).not.mp hi)

end

/-- **The comparison of two manifests is a sound and complete difference.** -/
theorem compareManifests_diff (sha256 : Bytes → Hash) (old current : Bytes)
    (hold : old.length < 2 ^ 63) (hcurrent : current.length < 2 ^ 63)
    (hinj : Set.InjOn sha256 {data | data ∈ chunks blockSize old ∨ data ∈ chunks blockSize current})
    (now now' : UInt64) (volumePath volumePath' : List UInt16) (manifest manifest' : FullManifest) :
    let builtOld := wholeManifest sha256 now volumePath old manifest
    let builtCurrent := wholeManifest sha256 now' volumePath' current manifest'
    let changed := compareManifests builtOld.2.toHashManifest builtCurrent.2.toHashManifest
    builtOld.1 = true ∧ builtCurrent.1 = true ∧ changed.Pairwise (· < ·) ∧
      (∀ i, i ∈ changed ↔ BlockDiffers old current i) ∧
      Chunks.patch blockSize old current changed = current :=
  diff_of_describes hinj (describes_wholeManifest hold now volumePath manifest)
    (describes_wholeManifest hcurrent now' volumePath' manifest')

/-- SHA-256 of one zero byte and of two. -/
def shortSha256 (data : Bytes) : Hash :=
  if data = [0] then zeroHashes.1
  else
    ⟨[150, 162, 150, 210, 36, 242, 133, 198, 123, 238, 147, 195, 15, 138, 48, 145,
      87, 240, 218, 163, 93, 197, 184, 126, 65, 11, 120, 99, 10, 9, 207, 199], rfl⟩

/-- A last block that grows without adding a block. -/
theorem compareManifests_diff_growing :
    let builtOld := wholeManifest shortSha256 0 [] [0] .blank
    let builtCurrent := wholeManifest shortSha256 0 [] [0, 0] .blank
    let changed := compareManifests builtOld.2.toHashManifest builtCurrent.2.toHashManifest
    builtOld.1 = true ∧ builtCurrent.1 = true ∧ changed.Pairwise (· < ·) ∧
      (∀ i, i ∈ changed ↔ BlockDiffers [0] [0, 0] i) ∧
      Chunks.patch blockSize ([0] : Bytes) [0, 0] changed = [0, 0] := by
  have hblocks : chunks blockSize ([0] : Bytes) = [[0]] ∧
      chunks blockSize ([0, 0] : Bytes) = [[0, 0]] :=
    ⟨Chunks.chunks_of_length_le (by decide) (by decide),
      Chunks.chunks_of_length_le (by decide) (by decide)⟩
  have hinj : Set.InjOn shortSha256
      {data | data ∈ chunks blockSize [0] ∨ data ∈ chunks blockSize [0, 0]} := by
    rw [hblocks.1, hblocks.2]
    rintro a (ha | ha) b (hb | hb) hab <;> cases List.mem_singleton.mp ha <;>
      cases List.mem_singleton.mp hb
    · rfl
    · exact absurd hab (by decide)
    · exact absurd hab (by decide)
    · rfl
  exact compareManifests_diff shortSha256 [0] [0, 0] (by decide) (by decide) hinj 0 0 [] [] .blank
    .blank

end Go2Cbt.Client
