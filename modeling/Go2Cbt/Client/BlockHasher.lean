import Go2Cbt.Client.BlockState

/-!
# Client — re-hashing listed blocks

`BlockHasher::ComputeBlockHashes`: read and hash the listed blocks, one after the other.  A
block number past the manifest is skipped, and the first failed read or hash ends the loop with
what was collected so far.

Reads and hashes can fail at any call, so both take the number of the call.
-/

namespace Go2Cbt.Client

/-- `HashManifest`, the fields that re-hashing reads. -/
structure HashManifest where
  totalBlocks : UInt64
  totalSize : UInt64
  entries : List BlockHashEntry
  deriving DecidableEq

/-- The hasher's source and the hash library.  `ready` says that `Initialize` succeeded and
that the source was opened. -/
structure HashOps where
  ready : Bool
  readAt : Nat → UInt64 → UInt32 → Option Bytes
  computeBlockHash : Nat → Bytes → Option Hash

/-- The size `ComputeBlockHashes` reads for block `idx`. -/
def rehashSize (manifest : HashManifest) (idx : Nat) : UInt32 :=
  if idx = (manifest.totalBlocks - 1).toNat ∧ manifest.totalSize % UInt64.ofNat blockSize > 0 then
    (manifest.totalSize % UInt64.ofNat blockSize).toUInt32
  else UInt32.ofNat blockSize

/-- The loop of `ComputeBlockHashes` from its `call`-th block on. -/
def computeBlockHashesFrom (ops : HashOps) (manifest : HashManifest) :
    (call : Nat) → List Nat → List BlockHashEntry → Bool × List BlockHashEntry
  | _, [], hashes => (true, hashes)
  | call, idx :: rest, hashes =>
      match manifest.entries[idx]? with
      | none => computeBlockHashesFrom ops manifest (call + 1) rest hashes
      | some entry =>
          match ops.readAt call entry.offset (rehashSize manifest idx) with
          | none => (false, hashes)
          | some data =>
              match ops.computeBlockHash call data with
              | none => (false, hashes)
              | some hash =>
                  computeBlockHashesFrom ops manifest (call + 1) rest
                    (hashes ++ [{ blockIndex := UInt64.ofNat idx, offset := entry.offset, hash }])

/-- `ComputeBlockHashes`, with the list it fills. -/
def computeBlockHashes (ops : HashOps) (manifest : HashManifest) (blockIndexes : List Nat) :
    Bool × List BlockHashEntry :=
  if ops.ready then computeBlockHashesFrom ops manifest 0 blockIndexes [] else (false, [])

/-- The `call`-th block `idx` can be read and hashed. -/
def Rehashes (ops : HashOps) (manifest : HashManifest) (call idx : Nat) : Prop :=
  ∃ entry data, manifest.entries[idx]? = some entry ∧
    ops.readAt call entry.offset (rehashSize manifest idx) = some data ∧
    (ops.computeBlockHash call data).isSome

/-- The turn of a block that is read and hashed. -/
theorem computeBlockHashesFrom_cons {ops : HashOps} {manifest : HashManifest} {call idx : Nat}
    {entry : BlockHashEntry} {data : Bytes} {hash : Hash}
    (hentry : manifest.entries[idx]? = some entry)
    (hread : ops.readAt call entry.offset (rehashSize manifest idx) = some data)
    (hhash : ops.computeBlockHash call data = some hash) (rest : List Nat)
    (hashes : List BlockHashEntry) :
    computeBlockHashesFrom ops manifest call (idx :: rest) hashes
      = computeBlockHashesFrom ops manifest (call + 1) rest
          (hashes ++ [{ blockIndex := UInt64.ofNat idx, offset := entry.offset, hash }]) := by
  rw [computeBlockHashesFrom, hentry]
  dsimp only
  rw [hread]
  dsimp only
  rw [hhash]

/-- The turns of a list: the first, and the others one later. -/
theorem forall_turns_cons_iff {P : Nat → Nat → Prop} {call idx : Nat} {rest : List Nat} :
    (∀ k i, (idx :: rest)[k]? = some i → P (call + k) i) ↔
      P call idx ∧ ∀ k i, rest[k]? = some i → P (call + 1 + k) i := by
  refine ⟨fun h => ⟨h 0 idx rfl, fun k i hk => ?_⟩, fun ⟨h0, h⟩ k i hk => ?_⟩
  · have := h (k + 1) i hk
    rwa [Nat.add_assoc, Nat.add_comm 1 k]
  · cases k with
    | zero => cases hk; exact h0
    | succ k =>
        have := h k i hk
        rwa [Nat.add_assoc, Nat.add_comm 1 k] at this

theorem computeBlockHashesFrom_length_le (ops : HashOps) (manifest : HashManifest) (call : Nat)
    (idxs : List Nat) (hashes : List BlockHashEntry) :
    (computeBlockHashesFrom ops manifest call idxs hashes).2.length
      ≤ hashes.length + idxs.length := by
  induction idxs generalizing call hashes with
  | nil => exact Nat.le_refl _
  | cons idx rest ih =>
      rw [computeBlockHashesFrom, List.length_cons]
      split
      · exact (ih _ _).trans (by omega)
      · split
        · exact Nat.le_add_right _ _
        · split
          · exact Nat.le_add_right _ _
          · refine (ih _ _).trans ?_
            rw [List.length_append, List.length_singleton]
            omega

/-- The loop collects one hash for each block exactly when it can hash them all. -/
theorem computeBlockHashesFrom_length_eq_iff (ops : HashOps) (manifest : HashManifest)
    (call : Nat) (idxs : List Nat) (hashes : List BlockHashEntry) :
    (computeBlockHashesFrom ops manifest call idxs hashes).2.length = hashes.length + idxs.length ↔
      ∀ k idx, idxs[k]? = some idx → Rehashes ops manifest (call + k) idx := by
  induction idxs generalizing call hashes with
  | nil => simp [computeBlockHashesFrom]
  | cons idx rest ih =>
      rw [forall_turns_cons_iff, computeBlockHashesFrom, List.length_cons]
      split
      · next hnone =>
        have hle := computeBlockHashesFrom_length_le ops manifest (call + 1) rest hashes
        refine ⟨fun h => absurd h (by omega), fun ⟨⟨e, d, he, _⟩, _⟩ => ?_⟩
        rw [hnone] at he
        cases he
      · next entry hentry =>
        split
        · next hread =>
          refine ⟨fun h => absurd h (by simp), fun ⟨⟨e, d, he, hd, _⟩, _⟩ => ?_⟩
          rw [hentry, Option.some.injEq] at he
          rw [← he, hread] at hd
          cases hd
        · next data hread =>
          split
          · next hhash =>
            refine ⟨fun h => absurd h (by simp), fun ⟨⟨e, d, he, hd, hs⟩, _⟩ => ?_⟩
            rw [hentry, Option.some.injEq] at he
            rw [← he, hread, Option.some.injEq] at hd
            rw [← hd, hhash] at hs
            cases hs
          · next hash hhash =>
            have h0 : Rehashes ops manifest call idx :=
              ⟨entry, data, hentry, hread, by rw [hhash]; rfl⟩
            have hrest := ih (call + 1)
              (hashes ++ [{ blockIndex := UInt64.ofNat idx, offset := entry.offset, hash }])
            rw [List.length_append, List.length_singleton, Nat.add_assoc,
              Nat.add_comm 1 rest.length] at hrest
            exact hrest.trans (and_iff_right h0).symm

/-- **When the list of hashes is complete.** -/
theorem computeBlockHashes_length_eq_iff {ops : HashOps} {manifest : HashManifest}
    {idxs : List Nat} (hne : idxs ≠ []) :
    (computeBlockHashes ops manifest idxs).2.length = idxs.length ↔
      ops.ready = true ∧ ∀ k idx, idxs[k]? = some idx → Rehashes ops manifest k idx := by
  have h := computeBlockHashesFrom_length_eq_iff ops manifest 0 idxs []
  simp only [List.length_nil, Nat.zero_add] at h
  rw [computeBlockHashes]
  split
  · next hready => rw [h]; exact ⟨fun hk => ⟨hready, hk⟩, And.right⟩
  · next hready =>
    refine ⟨fun hlen => absurd ?_ hne, fun hk => absurd hk.1 hready⟩
    exact List.length_eq_zero_iff.mp hlen.symm

end Go2Cbt.Client
