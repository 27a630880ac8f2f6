import Go2Cbt.Client.Manifest

/-!
# Client — which bytes are a manifest

`DeserializeManifest` compares the size of its input with `32 + 40 * TotalBlocks`, which it counts
in 64 bits, and then resizes the entries to `TotalBlocks`, a number it has from the input.  Where
the product wraps to something small the check lets the number through: the entries are resized to
far more than the input can hold, and the loop then fails on the missing bytes.

`acceptsWellFormed_iff` says that this is the only fault: outside the counts that wrap, the
accepted strings are the well-formed ones, they serialise back, and the resize is bounded.
-/

namespace Go2Cbt.Client

open LittleEndian

/-- The number of elements that `DeserializeManifest` resizes the entries to, where it does. -/
def entriesResized (data : Bytes) : Option Nat :=
  if data.length < 32 then none
  else if u32 data 0 ≠ manifestMagic then none
  else if u32 data 4 ≠ manifestVersion then none
  else if data.length < (32 + u64 data 16 * 40).toNat then none
  else some (u64 data 16).toNat

/-- A manifest header that the reader lets through. -/
def ManifestHeader (data : Bytes) : Prop :=
  32 ≤ data.length ∧ u32 data 0 = manifestMagic ∧ u32 data 4 = manifestVersion

/-- `TotalBlocks` of a header. -/
def manifestCount (data : Bytes) : Nat := (u64 data 16).toNat

/-- A header and the entries it counts. -/
def WellFormedManifest (data : Bytes) : Prop :=
  ManifestHeader data ∧ 32 + 40 * manifestCount data ≤ data.length

/-- The expected size wraps and passes the check, while the entries are not there. -/
def CountWraps (data : Bytes) : Prop :=
  ManifestHeader data ∧ (32 + 40 * manifestCount data) % 2 ^ 64 ≤ data.length ∧
    data.length < 32 + 40 * manifestCount data

/-! ### The entries -/

theorem length_readEntries (left : Nat) (rest : Bytes) :
    (readEntries left rest).2.length = left := by
  induction left generalizing rest with
  | zero => rfl
  | succ left ih =>
      rw [readEntries]
      split
      · rw [List.length_replicate]
      · split
        · rw [List.length_cons, List.length_replicate]
        · rw [List.length_cons, ih]

/-- The entries that are resized are those of the manifest that comes back. -/
theorem length_entries {data : Bytes} {n : Nat} (h : entriesResized data = some n)
    (into : FullManifest) : (deserializeManifest data into).2.entries.length = n := by
  rw [entriesResized] at h
  rw [deserializeManifest]
  split at h
  · cases h
  · next hsize =>
      rw [if_neg hsize]
      split at h
      · cases h
      · next hmagic =>
          rw [if_neg hmagic]
          split at h
          · cases h
          · next hversion =>
              rw [if_neg hversion]
              dsimp only
              split at h
              · cases h
              · next hexpected =>
                  rw [if_neg hexpected]
                  cases h
                  exact length_readEntries _ _

/-- An entry that is read serialises to the bytes it was read from. -/
theorem serializeEntry_read {rest : Bytes} (h : 40 ≤ rest.length) :
    serializeEntry
        { blankEntry with blockIndex := u64 rest 0, hash := Protocol.hashField rest 8 }
      = rest.take 40 := by
  have hindex : ofU64 (u64 rest 0) = rest.take 8 := ofU64_u64 (by omega)
  have hhash : (Protocol.hashField rest 8).bytes = (rest.drop 8).take 32 :=
    List.takeD_eq_take _ (by rw [List.length_drop]; omega)
  rw [serializeEntry]
  dsimp only
  rw [hindex, hhash, ← List.take_add]

/-- The loop succeeds on the entries that are there, and they serialise back. -/
theorem readEntries_of_le {left : Nat} {rest : Bytes} (h : 40 * left ≤ rest.length) :
    (readEntries left rest).1 = true ∧
      (readEntries left rest).2.flatMap serializeEntry = rest.take (40 * left) := by
  induction left generalizing rest with
  | zero => exact ⟨rfl, rfl⟩
  | succ left ih =>
      have hrest : 40 * left ≤ (rest.drop 40).length := by
        rw [List.length_drop]
        omega
      obtain ⟨hread, hbytes⟩ := ih hrest
      rw [readEntries, if_neg (by omega), if_neg (by omega)]
      refine ⟨hread, ?_⟩
      rw [List.flatMap_cons, hbytes, serializeEntry_read (by omega), ← List.take_add]
      congr 1
      omega

/-- The loop fails where bytes are missing. -/
theorem readEntries_of_lt {left : Nat} {rest : Bytes} (h : rest.length < 40 * left) :
    (readEntries left rest).1 = false := by
  induction left generalizing rest with
  | zero => exact absurd h (Nat.not_lt_zero _)
  | succ left ih =>
      rw [readEntries]
      split
      · rfl
      · split
        · rfl
        · next _ hentry =>
            have hrest : (rest.drop 40).length < 40 * left := by
              rw [List.length_drop]
              omega
            exact ih hrest

/-! ### The header -/

theorem toNat_expectedSize (totalBlocks : UInt64) :
    (32 + totalBlocks * 40).toNat = (32 + 40 * totalBlocks.toNat) % 2 ^ 64 := by
  rw [UInt64.toNat_add, UInt64.toNat_mul]
  change (32 + totalBlocks.toNat * 40 % 2 ^ 64) % 2 ^ 64 = _
  omega

theorem deserializeManifest_of_not_header {data : Bytes} (h : ¬ ManifestHeader data)
    (into : FullManifest) :
    deserializeManifest data into = (false, into) ∧ entriesResized data = none := by
  rw [deserializeManifest, entriesResized]
  by_cases hsize : data.length < 32
  · rw [if_pos hsize, if_pos hsize]
    exact ⟨rfl, rfl⟩
  · by_cases hmagic : u32 data 0 = manifestMagic
    · have hversion : u32 data 4 ≠ manifestVersion := fun hversion =>
        h ⟨not_lt.mp hsize, hmagic, hversion⟩
      rw [if_neg hsize, if_neg hsize, if_neg (not_not.mpr hmagic), if_neg (not_not.mpr hmagic),
        if_pos hversion, if_pos hversion]
      exact ⟨rfl, rfl⟩
    · rw [if_neg hsize, if_neg hsize, if_pos hmagic, if_pos hmagic]
      exact ⟨rfl, rfl⟩

/-- The manifest with the fields of a header and the given entries. -/
def headerManifest (data : Bytes) (entries : List BlockHashEntry) : FullManifest :=
  { FullManifest.blank with
    blockSize := u64 data 8
    totalBlocks := u64 data 16
    totalSize := u64 data 24
    entries := entries }

theorem deserializeManifest_of_header {data : Bytes} (h : ManifestHeader data)
    (into : FullManifest) :
    deserializeManifest data into
        = (if data.length < (32 + 40 * manifestCount data) % 2 ^ 64 then
            (false, headerManifest data [])
          else
            ((readEntries (manifestCount data) (data.drop 32)).1,
              headerManifest data (readEntries (manifestCount data) (data.drop 32)).2)) ∧
      entriesResized data
        = if data.length < (32 + 40 * manifestCount data) % 2 ^ 64 then none
          else some (manifestCount data) := by
  obtain ⟨hsize, hmagic, hversion⟩ := h
  rw [deserializeManifest, entriesResized, if_neg (not_lt.mpr hsize), if_neg (not_lt.mpr hsize),
    if_neg (not_not.mpr hmagic), if_neg (not_not.mpr hmagic), if_neg (not_not.mpr hversion),
    if_neg (not_not.mpr hversion)]
  dsimp only
  rw [toNat_expectedSize]
  exact ⟨rfl, rfl⟩

/-- What is read of a well-formed string serialises to its first bytes. -/
theorem serializeManifest_headerManifest {data : Bytes} (h : WellFormedManifest data) :
    serializeManifest (headerManifest data (readEntries (manifestCount data) (data.drop 32)).2)
      = data.take (32 + 40 * manifestCount data) := by
  obtain ⟨⟨hsize, hmagic, hversion⟩, hentries⟩ := h
  have hbody : 40 * manifestCount data ≤ (data.drop 32).length := by
    rw [List.length_drop]
    omega
  have hfront : ofU32 manifestMagic ++ ofU32 manifestVersion ++ ofU64 (u64 data 8)
      ++ ofU64 (u64 data 16) ++ ofU64 (u64 data 24) = data.take 32 := by
    rw [← hmagic, ← hversion, ofU32_u32 (by omega), ofU32_u32 (by omega), ofU64_u64 (by omega),
      ofU64_u64 (by omega), ofU64_u64 (by omega)]
    simp only [field, ← List.take_add, List.drop_zero]
  rw [serializeManifest]
  change ofU32 manifestMagic ++ ofU32 manifestVersion ++ ofU64 (u64 data 8)
    ++ ofU64 (u64 data 16) ++ ofU64 (u64 data 24) ++ _ = _
  rw [hfront]
  change _ ++ (readEntries (manifestCount data) (data.drop 32)).2.flatMap serializeEntry = _
  rw [(readEntries_of_le hbody).2, ← List.take_add]

/-! ### Which strings are accepted -/

/-- The accepted strings are the well-formed ones, they serialise back, and no resize goes beyond
what the string can hold. -/
structure AcceptsWellFormed (data : Bytes) : Prop where
  accepted : ∀ into, (deserializeManifest data into).1 = true ↔ WellFormedManifest data
  serialised : ∀ into, (deserializeManifest data into).1 = true →
    serializeManifest (deserializeManifest data into).2
      = data.take (32 + 40 * manifestCount data)
  resized : ∀ n, entriesResized data = some n → n ≤ (data.length - 32) / 40

/-- A string that a program can hold is accepted only when it is well formed, whatever the check
of its size says. -/
theorem accepted_iff_wellFormed {data : Bytes} (hlen : data.length < 2 ^ 64)
    (into : FullManifest) :
    (deserializeManifest data into).1 = true ↔ WellFormedManifest data := by
  by_cases hheader : ManifestHeader data
  · rw [(deserializeManifest_of_header hheader into).1]
    by_cases hentries : 32 + 40 * manifestCount data ≤ data.length
    · have hbody : 40 * manifestCount data ≤ (data.drop 32).length := by
        rw [List.length_drop]
        omega
      rw [if_neg (by omega)]
      exact ⟨fun _ => ⟨hheader, hentries⟩, fun _ => (readEntries_of_le hbody).1⟩
    · have hbody : (data.drop 32).length < 40 * manifestCount data := by
        have hsize := hheader.1
        rw [List.length_drop]
        omega
      constructor
      · intro haccepted
        split at haccepted
        · cases haccepted
        · rw [readEntries_of_lt hbody] at haccepted
          cases haccepted
      · intro hwell
        exact absurd hwell.2 hentries
  · rw [(deserializeManifest_of_not_header hheader into).1]
    constructor
    · intro haccepted
      cases haccepted
    · intro hwell
      exact absurd hwell.1 hheader

/-- **Exactly the well-formed strings**, unless the count wraps. -/
theorem acceptsWellFormed_iff {data : Bytes} (hlen : data.length < 2 ^ 64) :
    AcceptsWellFormed data ↔ ¬ CountWraps data := by
  constructor
  · rintro h ⟨hheader, hpassed, hmissing⟩
    have hresized : entriesResized data = some (manifestCount data) := by
      rw [(deserializeManifest_of_header hheader .blank).2, if_neg (not_lt.mpr hpassed)]
    have hbound := h.resized _ hresized
    have hsize := hheader.1
    omega
  · intro h
    refine ⟨accepted_iff_wellFormed hlen, fun into haccepted => ?_, fun n hn => ?_⟩
    · have hwell := (accepted_iff_wellFormed hlen into).mp haccepted
      rw [(deserializeManifest_of_header hwell.1 into).1, if_neg (by have := hwell.2; omega)]
      exact serializeManifest_headerManifest hwell
    · by_cases hheader : ManifestHeader data
      · have hsize := hheader.1
        rw [(deserializeManifest_of_header hheader .blank).2] at hn
        split at hn
        · cases hn
        · next hpassed =>
            cases hn
            have hentries : 32 + 40 * manifestCount data ≤ data.length := by
              by_contra hmissing
              exact h ⟨hheader, not_lt.mp hpassed, not_le.mp hmissing⟩
            omega
      · rw [(deserializeManifest_of_not_header hheader .blank).2] at hn
        cases hn

/-! ### A count that wraps -/

/-- The header of a manifest of `totalBlocks` blocks, without entries. -/
def manifestHeader (totalBlocks : UInt64) : Bytes :=
  serializeManifest { FullManifest.blank with totalBlocks := totalBlocks }

/-- A header and its two entries. -/
def twoEntries : Bytes :=
  manifestHeader 2
    ++ [0, 1].flatMap fun i =>
      serializeEntry { blockIndex := i, offset := i * UInt64.ofNat blockSize, hash := .zero }

theorem acceptsWellFormed_iff_twoEntries : AcceptsWellFormed twoEntries :=
  (acceptsWellFormed_iff (by decide)).mpr fun h => absurd h.2.2 (by decide)

/-- **A count that passes the check**: forty times `2 ^ 61` is five times `2 ^ 64`. -/
theorem bare_header_resizes :
    (manifestHeader 0x2000000000000000).length = 32 ∧
      entriesResized (manifestHeader 0x2000000000000000) = some 0x2000000000000000 ∧
      ¬ AcceptsWellFormed (manifestHeader 0x2000000000000000) := by
  have hlen : (manifestHeader 0x2000000000000000).length = 32 := by decide
  have hresized : entriesResized (manifestHeader 0x2000000000000000)
      = some 0x2000000000000000 := by
    decide +kernel
  refine ⟨hlen, hresized, fun h => ?_⟩
  have hbound := h.resized _ hresized
  rw [hlen] at hbound
  exact absurd hbound (by decide)

end Go2Cbt.Client
