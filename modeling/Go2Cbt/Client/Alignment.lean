import Go2Cbt.Client.BlockHasher

/-!
# Client — listed blocks and their hashes

`UpdateIncrementalBlocks` takes the list of changed blocks and the list of their hashes side by
side.  `ComputeBlockHashes` leaves a hash out for a block past the manifest, and stops at the
first failure, so the second list can be shorter.  `update_aligned`: the update is then refused,
and otherwise every listed block gets its own hash.
-/

namespace Go2Cbt.Client

open BlockStateManager

/-- `hash` is what the `call`-th turn of `ComputeBlockHashes` computes for block `idx`. -/
def HashOf (ops : HashOps) (manifest : HashManifest) (call idx : Nat) (hash : Hash) : Prop :=
  ∃ entry data, manifest.entries[idx]? = some entry ∧
    ops.readAt call entry.offset (rehashSize manifest idx) = some data ∧
    ops.computeBlockHash call data = some hash

section

variable {ops : HashOps} {manifest : HashManifest}

/-- The turns that hash their blocks leave each hash at the place of its block. -/
theorem computeBlockHashesFrom_of_rehashes {call : Nat} {idxs : List Nat}
    {hashes : List BlockHashEntry}
    (h : ∀ k idx, idxs[k]? = some idx → Rehashes ops manifest (call + k) idx) :
    ∃ new, (computeBlockHashesFrom ops manifest call idxs hashes).2 = hashes ++ new ∧
      ∀ k idx, idxs[k]? = some idx → ∃ entry, new[k]? = some entry ∧
        HashOf ops manifest (call + k) idx entry.hash := by
  induction idxs generalizing call hashes with
  | nil => exact ⟨[], (List.append_nil _).symm, fun k idx hk => by cases hk⟩
  | cons idx rest ih =>
      obtain ⟨⟨entry, data, hentry, hread, hsome⟩, hrest⟩ := forall_turns_cons_iff.mp h
      obtain ⟨hash, hhash⟩ := Option.isSome_iff_exists.mp hsome
      obtain ⟨new, hnew, hall⟩ := ih hrest
      refine ⟨{ blockIndex := UInt64.ofNat idx, offset := entry.offset, hash } :: new, ?_, ?_⟩
      · rw [computeBlockHashesFrom_cons hentry hread hhash, hnew, List.append_assoc,
          List.singleton_append]
      · intro k i hk
        cases k with
        | zero =>
            cases hk
            exact ⟨_, rfl, entry, data, hentry, hread, hhash⟩
        | succ k =>
            obtain ⟨e, he, hhashOf⟩ := hall k i hk
            exact ⟨e, he, by rwa [Nat.add_assoc, Nat.add_comm 1 k] at hhashOf⟩

/-- A complete list holds the hash of each listed block at the place of the block. -/
theorem computeBlockHashes_aligned {idxs : List Nat}
    (h : (computeBlockHashes ops manifest idxs).2.length = idxs.length) {k idx : Nat}
    (hk : idxs[k]? = some idx) :
    ∃ entry, (computeBlockHashes ops manifest idxs).2[k]? = some entry ∧
      HashOf ops manifest k idx entry.hash := by
  have hne : idxs ≠ [] := by
    rintro rfl
    cases hk
  obtain ⟨hready, hall⟩ := (computeBlockHashes_length_eq_iff hne).mp h
  have hturns : ∀ k idx, idxs[k]? = some idx → Rehashes ops manifest (0 + k) idx := by
    intro k idx hk
    rw [Nat.zero_add]
    exact hall k idx hk
  obtain ⟨new, hnew, hnewAll⟩ := computeBlockHashesFrom_of_rehashes hturns
  obtain ⟨entry, hentry, hhash⟩ := hnewAll k idx hk
  rw [Nat.zero_add] at hhash
  rw [computeBlockHashes, if_pos hready, hnew, List.nil_append]
  exact ⟨entry, hentry, hhash⟩

end

/-! ### The counter of the update -/

theorem length_updateIncrementalBlock (versionId : UInt64) (st : List BlockState × Nat)
    (p : Nat × BlockHashEntry) :
    (updateIncrementalBlock versionId st p).1.length = st.1.length := by
  rw [updateIncrementalBlock]
  split
  · rfl
  · exact List.length_modify _ _ _

/-- The loop counts the listed blocks that exist. -/
theorem count_foldl_update (versionId : UInt64) (pairs : List (Nat × BlockHashEntry))
    (st : List BlockState × Nat) :
    (pairs.foldl (updateIncrementalBlock versionId) st).2
      = st.2 + pairs.countP fun p => p.1 < st.1.length := by
  induction pairs generalizing st with
  | nil => rfl
  | cons p pairs ih =>
      rw [List.foldl_cons, ih, length_updateIncrementalBlock, List.countP_cons]
      have hone : (updateIncrementalBlock versionId st p).2
          = st.2 + if p.1 < st.1.length then 1 else 0 := by
        rw [updateIncrementalBlock]
        by_cases hp : p.1 < st.1.length
        · rw [if_neg (not_le.mpr hp), if_pos hp]
        · rw [if_pos (not_lt.mp hp), if_neg hp]
          rfl
      rw [hone]
      simp only [decide_eq_true_iff]
      omega

/-- What an update with as many hashes as blocks leaves of the versions. -/
theorem versions_updateIncrementalBlocks {m : BlockStateManager} {versionId : UInt64}
    {idxs : List Nat} {hashes : List BlockHashEntry} (h : m.UpdateAccepted versionId idxs hashes) :
    (m.updateIncrementalBlocks versionId idxs hashes).1 = true ∧
      (m.updateIncrementalBlocks versionId idxs hashes).2.versions
        = m.versions.modify versionId.toNat fun ver =>
            { ver with
              changedBlocks := UInt64.ofNat (idxs.countP fun idx => idx < m.blocks.length)
              ackedBlocks := 0 } := by
  obtain ⟨hlen, hblocks, hver⟩ := h
  obtain ⟨ver, hver⟩ := Option.isSome_iff_exists.mp hver
  have hcount : ((idxs.zip hashes).foldl (updateIncrementalBlock versionId)
      (m.blocks.map BlockState.unchanged, 0)).2 = idxs.countP fun idx => idx < m.blocks.length := by
    rw [count_foldl_update, Nat.zero_add, List.length_map]
    have hmap : (idxs.zip hashes).map Prod.fst = idxs := List.map_fst_zip hlen.le
    calc (idxs.zip hashes).countP (fun p => p.1 < m.blocks.length)
        = ((idxs.zip hashes).map Prod.fst).countP fun idx => idx < m.blocks.length := by
          rw [List.countP_map]
          rfl
      _ = idxs.countP fun idx => idx < m.blocks.length := by rw [hmap]
  rw [updateIncrementalBlocks, if_neg (not_not.mpr hlen), if_neg hblocks, hver]
  dsimp only
  rw [hcount]
  exact ⟨rfl, rfl⟩

/-- What an incremental update with a list of blocks is to leave of a manager. -/
structure Aligned (ops : HashOps) (manifest : HashManifest) (versionId : UInt64)
    (idxs : List Nat) (m m' : BlockStateManager) : Prop where
  listed : ∀ idx ∈ idxs, ∀ b, m.blocks[idx]? = some b →
    ∃ call hash, idxs[call]? = some idx ∧ HashOf ops manifest call idx hash ∧
      m'.blocks[idx]? = some { b with hash, versionId, ack := .pending, changed := true }
  other : ∀ i, i ∉ idxs → m'.blocks[i]? = m.blocks[i]?.map BlockState.unchanged
  version : m'.versions = m.versions.modify versionId.toNat fun ver =>
    { ver with
      changedBlocks := UInt64.ofNat (idxs.countP fun idx => idx < m.blocks.length)
      ackedBlocks := 0 }

/-- **An incremental update is aligned or refused**, wherever reading or hashing stops. -/
theorem update_aligned (ops : HashOps) (manifest : HashManifest) (m : BlockStateManager)
    (versionId : UInt64) (idxs : List Nat) :
    let r := m.updateIncrementalBlocks versionId idxs (computeBlockHashes ops manifest idxs).2
    r = (false, m) ∨ r.1 = true ∧ Aligned ops manifest versionId idxs m r.2 := by
  intro r
  by_cases hacc : m.UpdateAccepted versionId idxs (computeBlockHashes ops manifest idxs).2
  · obtain ⟨hok, hversions⟩ := versions_updateIncrementalBlocks hacc
    have hblock := getElem?_updateIncrementalBlocks hacc
    refine .inr ⟨hok, fun idx hidx b hb => ?_, fun i hi => ?_, hversions⟩
    · -- the last pair for the block
      obtain ⟨p, hp⟩ := Option.isSome_iff_exists.mp ((find?_zip_isSome_iff hacc.1 idx).mpr hidx)
      have hpidx := List.find?_some hp
      rw [decide_eq_true_iff] at hpidx
      obtain ⟨call, hcall⟩ := List.getElem?_of_mem (List.mem_reverse.mp (List.mem_of_find?_eq_some hp))
      obtain ⟨hidxAt, hhashAt⟩ := List.getElem?_zip_eq_some.mp hcall
      rw [hpidx] at hidxAt
      obtain ⟨entry, hentry, hhash⟩ := computeBlockHashes_aligned hacc.1.symm hidxAt
      rw [hentry, Option.some.injEq] at hhashAt
      refine ⟨call, entry.hash, hidxAt, hhash, (hblock idx).trans ?_⟩
      rw [hb, Option.map_some, updatedBlock, hp, hhashAt]
      rfl
    · refine (hblock i).trans ?_
      have hnone : (idxs.zip (computeBlockHashes ops manifest idxs).2).reverse.find?
          (fun p => p.1 = i) = none := by
        rw [← Option.not_isSome_iff_eq_none, find?_zip_isSome_iff hacc.1]
        exact hi
      congr 1
      funext b
      rw [updatedBlock, hnone]
  · exact .inl (updateIncrementalBlocks_of_not_accepted hacc)

end Go2Cbt.Client
