import Go2Cbt.Client.Operations

/-!
# Client — the acknowledged count of a version

`SetBlockAck` and its two batch forms add to `AckedBlocks` when a block becomes acknowledged, and
never take away.  `counted_iff_keepsAcknowledged` gives the sequences of calls after which the
field is still the number of acknowledged blocks: those that never take a block out of
`Acknowledged`.
-/

namespace Go2Cbt.Client.BlockStateManager

open Transition

/-- A new version with its blocks: `CreateVersion` and then `InitFullBlocksEmpty`, or
`InitFullBlocks` on a manifest, for the same total. -/
def startVersion (m : BlockStateManager) (type : List UInt16)
    (snapshotTime now totalBlocks totalSize : UInt64) (manifest : Option (List BlockHashEntry)) :
    BlockStateManager :=
  let created := m.createVersion type snapshotTime now totalBlocks totalSize
  match manifest with
  | none => (created.2.initFullBlocksEmpty created.1.versionId totalBlocks).2
  | some entries => (created.2.initFullBlocks created.1.versionId totalBlocks entries).2

/-- A call that sets statuses, with its status. -/
def setAck (m : BlockStateManager) (c : AckCall × NamedStatus) : BlockStateManager :=
  c.1.apply c.2.1 m

/-- The count of a version is the number of its acknowledged blocks, and within its total. -/
def Counted (versionId : UInt64) (m : BlockStateManager) : Prop :=
  ∃ ver, m.versions.find? versionId.toNat = some ver ∧
    ver.ackedBlocks.toNat
      = m.blocks.countP (fun b => b.versionId = versionId ∧ b.ack = .acknowledged) ∧
    ver.ackedBlocks ≤ ver.totalBlocks

/-- The call takes no block out of `Acknowledged`. -/
def KeepsAcknowledged (m : BlockStateManager) (c : AckCall × NamedStatus) : Prop :=
  c.2.1 = .acknowledged ∨
    ∀ i b, c.1.Sets m.blocks.length i → m.blocks[i]? = some b → b.ack ≠ .acknowledged

/-! ### One block -/

section OneBlock

variable {m : BlockStateManager} {blockIndex : UInt64} {old : BlockState} {status : AckStatus}

/-- Taking a block out of `Acknowledged`. -/
theorem acknowledgedCount_setBlockAck_lt (hold : m.blocks[blockIndex.toNat]? = some old)
    (hack : old.ack = .acknowledged) (hstatus : status ≠ .acknowledged) :
    (m.setBlockAck blockIndex status).2.acknowledgedCount < m.acknowledgedCount := by
  obtain ⟨hlt, rfl⟩ := List.getElem?_eq_some_iff.mp hold
  have hpos : 0 < m.blocks.countP fun bs => bs.ack = .acknowledged :=
    List.countP_pos_iff.mpr ⟨_, List.getElem_mem hlt, decide_eq_true hack⟩
  rw [setBlockAck, hold]
  simp only [acknowledgedCount, List.countP_set hlt, hack, hstatus, decide_true, decide_false,
    Bool.false_eq_true, if_true, if_false, Nat.add_zero]
  omega

theorem acknowledgedCount_setBlockAck_le (hstatus : status ≠ .acknowledged) :
    (m.setBlockAck blockIndex status).2.acknowledgedCount ≤ m.acknowledgedCount := by
  cases hold : m.blocks[blockIndex.toNat]? with
  | none =>
      rw [setBlockAck, hold]
  | some old =>
      by_cases hack : old.ack = .acknowledged
      · exact (acknowledgedCount_setBlockAck_lt hold hack hstatus).le
      · rw [acknowledgedCount_setBlockAck hold hack, if_neg hstatus]
        exact le_rfl

/-- Only a new acknowledgement touches the versions. -/
theorem versions_setBlockAck_of_ne (hstatus : status ≠ .acknowledged) :
    (m.setBlockAck blockIndex status).2.versions = m.versions := by
  rw [setBlockAck]
  split
  · rfl
  · exact if_neg fun h => hstatus h.2

/-- Acknowledging an acknowledged block again changes nothing but the flag. -/
theorem setBlockAck_again (hold : m.blocks[blockIndex.toNat]? = some old)
    (hack : old.ack = .acknowledged) :
    (m.setBlockAck blockIndex .acknowledged).2 = { m with dirty := true } := by
  obtain ⟨hlt, rfl⟩ := List.getElem?_eq_some_iff.mp hold
  have hset : m.blocks.set blockIndex.toNat { m.blocks[blockIndex.toNat] with ack := .acknowledged }
      = m.blocks := by
    rw [← hack]
    exact List.set_getElem_self hlt
  rw [setBlockAck, hold]
  dsimp only
  rw [hset, if_neg fun h => h.1 hack]

end OneBlock

/-! ### The version whose blocks these are -/

/-- The blocks are those of one version, as many as its total. -/
structure OneVersion (versionId total : UInt64) (m : BlockStateManager) : Prop where
  count : m.blocks.length = total.toNat
  owner : ∀ b ∈ m.blocks, b.versionId = versionId
  version : ∃ ver, m.versions.find? versionId.toNat = some ver ∧ ver.totalBlocks = total

/-- Its count agrees with the blocks. -/
def CountAgrees (versionId : UInt64) (m : BlockStateManager) : Prop :=
  ∀ ver, m.versions.find? versionId.toNat = some ver →
    ver.ackedBlocks.toNat = m.acknowledgedCount

section Version

variable {versionId total : UInt64} {m : BlockStateManager}

theorem OneVersion.counted_iff (h : OneVersion versionId total m) :
    Counted versionId m ↔ CountAgrees versionId m := by
  obtain ⟨ver, hver, htotal⟩ := h.version
  have hcount : m.blocks.countP (fun b => b.versionId = versionId ∧ b.ack = .acknowledged)
      = m.acknowledgedCount := by
    refine List.countP_congr fun b hb => ?_
    simp only [h.owner b hb, true_and]
  have hle : m.acknowledgedCount ≤ total.toNat := h.count ▸ List.countP_le_length
  rw [Counted, hcount]
  constructor
  · rintro ⟨ver', hver', hacked, -⟩ ver'' hver''
    rw [hver'] at hver''
    exact Option.some.inj hver'' ▸ hacked
  · intro hagrees
    refine ⟨ver, hver, hagrees ver hver, ?_⟩
    rw [UInt64.le_iff_toNat_le, hagrees ver hver, htotal]
    exact hle

theorem OneVersion.setBlockAck (h : OneVersion versionId total m) (blockIndex : UInt64)
    (status : AckStatus) : OneVersion versionId total (m.setBlockAck blockIndex status).2 := by
  rw [BlockStateManager.setBlockAck]
  split
  · exact h
  · next old hold =>
    refine ⟨List.length_set.trans h.count, fun b hb => ?_, ?_⟩
    · rcases List.mem_or_eq_of_mem_set hb with hmem | rfl
      · exact h.owner b hmem
      · exact h.owner old (List.mem_of_getElem? hold)
    · obtain ⟨ver, hver, htotal⟩ := h.version
      dsimp only
      split
      · rw [SortedMap.find?_modify]
        split
        · exact ⟨{ ver with ackedBlocks := ver.ackedBlocks + 1 },
            by rw [hver, Option.map_some], htotal⟩
        · exact ⟨ver, hver, htotal⟩
      · exact ⟨ver, hver, htotal⟩

/-- **One status.**  The count stays right unless a block leaves `Acknowledged`. -/
theorem countAgrees_setBlockAck (h : OneVersion versionId total m)
    (hagrees : CountAgrees versionId m) {blockIndex : UInt64} {status : AckStatus}
    (hkeeps : status = .acknowledged ∨
      ∀ b, m.blocks[blockIndex.toNat]? = some b → b.ack ≠ .acknowledged) :
    CountAgrees versionId (m.setBlockAck blockIndex status).2 := by
  cases hold : m.blocks[blockIndex.toNat]? with
  | none =>
      rw [BlockStateManager.setBlockAck, hold]
      exact hagrees
  | some old =>
      by_cases hack : old.ack = .acknowledged
      · have hstatus : status = .acknowledged :=
          hkeeps.resolve_right fun hnone => hnone old hold hack
        rw [hstatus, setBlockAck_again hold hack]
        exact hagrees
      · have howner := h.owner old (List.mem_of_getElem? hold)
        have hversions := versions_setBlockAck hold hack status
        have hcount := acknowledgedCount_setBlockAck hold hack status
        have hle : (m.setBlockAck blockIndex status).2.acknowledgedCount ≤ total.toNat :=
          (h.setBlockAck blockIndex status).count ▸ List.countP_le_length
        have hlt := total.toNat_lt
        obtain ⟨ver, hver, -⟩ := h.version
        have hacked := hagrees ver hver
        rw [howner, hver, Option.map_some] at hversions
        intro ver' hver'
        rw [hversions, Option.some.injEq] at hver'
        rw [← hver', hcount]
        dsimp only
        split
        · next hstatus =>
          rw [if_pos hstatus] at hcount
          rw [UInt64.toNat_add, hacked, UInt64.toNat_one]
          exact Nat.mod_eq_of_lt (by omega)
        · rw [UInt64.add_zero, hacked, Nat.add_zero]

end Version

/-! ### Lists of blocks -/

section Lists

variable {versionId total : UInt64} {m : BlockStateManager} {status : AckStatus}

theorem OneVersion.setBlockAckList (h : OneVersion versionId total m) (idxs : List UInt64) :
    OneVersion versionId total (m.setBlockAckList idxs status) :=
  foldl_preserves (P := OneVersion versionId total)
    (fun _ idx hs => hs.setBlockAck idx status) h idxs

/-- A status other than `Acknowledged` leaves the versions. -/
theorem versions_setBlockAckList_of_ne (hstatus : status ≠ .acknowledged) (idxs : List UInt64) :
    (m.setBlockAckList idxs status).versions = m.versions :=
  foldl_preserves (P := fun s : BlockStateManager => s.versions = m.versions)
    (fun _ _ hs => (versions_setBlockAck_of_ne hstatus).trans hs) rfl idxs

theorem acknowledgedCount_setBlockAckList_le (hstatus : status ≠ .acknowledged)
    (idxs : List UInt64) : (m.setBlockAckList idxs status).acknowledgedCount ≤ m.acknowledgedCount :=
  foldl_preserves (P := fun s : BlockStateManager => s.acknowledgedCount ≤ m.acknowledgedCount)
    (fun _ _ hs => (acknowledgedCount_setBlockAck_le hstatus).trans hs) le_rfl idxs

/-- A block that is not named before stays as it is for the rest of the list. -/
theorem acknowledgedCount_setBlockAckList_lt (hstatus : status ≠ .acknowledged)
    {idxs : List UInt64}
    (h : ∃ idx ∈ idxs, ∃ b, m.blocks[idx.toNat]? = some b ∧ b.ack = .acknowledged) :
    (m.setBlockAckList idxs status).acknowledgedCount < m.acknowledgedCount := by
  induction idxs generalizing m with
  | nil =>
      obtain ⟨idx, hidx, -⟩ := h
      exact absurd hidx List.not_mem_nil
  | cons idx idxs ih =>
      have htail : m.setBlockAckList (idx :: idxs) status
          = (m.setBlockAck idx status).2.setBlockAckList idxs status := rfl
      rw [htail]
      obtain ⟨j, hj, b, hb, hack⟩ := h
      by_cases hsame : idx.toNat = j.toNat
      · rw [← hsame] at hb
        exact (acknowledgedCount_setBlockAckList_le hstatus idxs).trans_lt
          (acknowledgedCount_setBlockAck_lt hb hack hstatus)
      · have hmem : j ∈ idxs := by
          refine (List.mem_cons.mp hj).resolve_left fun heq => hsame ?_
          rw [heq]
        refine (ih ⟨j, hmem, b, ?_, hack⟩).trans_le (acknowledgedCount_setBlockAck_le hstatus)
        rw [getElem?_setBlockAck_ne m status hsame]
        exact hb

/-- The statuses of a list, one after the other. -/
theorem countAgrees_setBlockAckList (h : OneVersion versionId total m)
    (hagrees : CountAgrees versionId m) {idxs : List UInt64}
    (hkeeps : status = .acknowledged ∨
      ∀ idx ∈ idxs, ∀ b, m.blocks[idx.toNat]? = some b → b.ack ≠ .acknowledged) :
    CountAgrees versionId (m.setBlockAckList idxs status) := by
  induction idxs generalizing m with
  | nil => exact hagrees
  | cons idx idxs ih =>
      refine ih (h.setBlockAck idx status)
        (countAgrees_setBlockAck h hagrees (hkeeps.imp_right fun hall => hall idx List.mem_cons_self))
        ?_
      by_cases hstatus : status = .acknowledged
      · exact .inl hstatus
      · refine .inr fun j hj b hb => ?_
        have hall := hkeeps.resolve_left hstatus
        by_cases hsame : idx.toNat = j.toNat
        · rw [← hsame, getElem?_setBlockAck_self, Option.map_eq_some_iff] at hb
          obtain ⟨old, -, rfl⟩ := hb
          exact hstatus
        · rw [getElem?_setBlockAck_ne m status hsame] at hb
          exact hall j (List.mem_cons_of_mem idx hj) b hb

end Lists

/-! ### Sequences of calls -/

section Calls

variable {versionId total : UInt64} {m : BlockStateManager}

theorem OneVersion.setAck (h : OneVersion versionId total m) (c : AckCall × NamedStatus) :
    OneVersion versionId total (m.setAck c) := by
  obtain ⟨dirty, heq⟩ := apply_ackCall c.1 c.2.1 m
  rw [BlockStateManager.setAck, heq]
  have hlist : OneVersion versionId total
      (m.setBlockAckList (c.1.indexes m.blocks.length) c.2.1) := h.setBlockAckList _
  exact ⟨hlist.count, hlist.owner, hlist.version⟩

/-- **One call.** -/
theorem countAgrees_setAck_iff (h : OneVersion versionId total m)
    (hagrees : CountAgrees versionId m) (c : AckCall × NamedStatus) :
    CountAgrees versionId (m.setAck c) ↔ KeepsAcknowledged m c := by
  obtain ⟨dirty, heq⟩ := apply_ackCall c.1 c.2.1 m
  have hflag : CountAgrees versionId (m.setAck c) ↔
      CountAgrees versionId (m.setBlockAckList (c.1.indexes m.blocks.length) c.2.1) := by
    rw [BlockStateManager.setAck, heq]
    exact Iff.rfl
  rw [hflag]
  constructor
  · intro hafter
    by_contra hlost
    rw [KeepsAcknowledged, not_or] at hlost
    obtain ⟨hstatus, hlost⟩ := hlost
    push Not at hlost
    obtain ⟨i, b, ⟨idx, hidx, hi⟩, hb, hack⟩ := hlost
    have hfewer := acknowledgedCount_setBlockAckList_lt (m := m) hstatus
      ⟨idx, hidx, b, by rw [hi]; exact hb, hack⟩
    obtain ⟨ver, hver, -⟩ := h.version
    have hsame := hafter ver (by rw [versions_setBlockAckList_of_ne hstatus]; exact hver)
    have hbefore := hagrees ver hver
    omega
  · intro hkeeps
    refine countAgrees_setBlockAckList h hagrees (hkeeps.imp_right fun hall idx hidx b hb => ?_)
    exact hall idx.toNat b ⟨idx, hidx, rfl⟩ hb

/-- What a new version starts with. -/
theorem oneVersion_startVersion (m : BlockStateManager) (type : List UInt16)
    (snapshotTime now totalBlocks totalSize : UInt64) (manifest : Option (List BlockHashEntry)) :
    OneVersion m.nextVersionId totalBlocks
        (m.startVersion type snapshotTime now totalBlocks totalSize manifest) ∧
      CountAgrees m.nextVersionId
        (m.startVersion type snapshotTime now totalBlocks totalSize manifest) := by
  obtain ⟨hash, heq⟩ : ∃ hash : Nat → Hash,
      m.startVersion type snapshotTime now totalBlocks totalSize manifest
        = let created := m.createVersion type snapshotTime now totalBlocks totalSize
          { created.2 with
            totalBlocks := totalBlocks
            blocks := (List.range totalBlocks.toNat).map fun i =>
              fullBlock m.nextVersionId (hash i) i
            versions := created.2.versions.modify m.nextVersionId.toNat fun ver =>
              { ver with changedBlocks := totalBlocks }
            dirty := true } := by
    have hver : (m.createVersion type snapshotTime now totalBlocks totalSize).2.versions.find?
        m.nextVersionId.toNat
          = some (m.createVersion type snapshotTime now totalBlocks totalSize).1 :=
      SortedMap.find?_insert_self _ _ _
    cases manifest with
    | none =>
        refine ⟨fun _ => .zero, ?_⟩
        rw [startVersion]
        dsimp only
        rw [initFullBlocksEmpty]
        dsimp only [createVersion] at hver ⊢
        rw [hver]
    | some entries =>
        refine ⟨fun i => (entries[i]?.map BlockHashEntry.hash).getD .zero, ?_⟩
        rw [startVersion]
        dsimp only
        rw [initFullBlocks]
        dsimp only [createVersion] at hver ⊢
        rw [hver]
  rw [heq]
  dsimp only [createVersion]
  have hfind : ((m.versions.insert m.nextVersionId.toNat
        (m.createVersion type snapshotTime now totalBlocks totalSize).1).modify
          m.nextVersionId.toNat fun ver => { ver with changedBlocks := totalBlocks }).find?
            m.nextVersionId.toNat
      = some { (m.createVersion type snapshotTime now totalBlocks totalSize).1 with
          changedBlocks := totalBlocks } := by
    rw [SortedMap.find?_modify, if_pos rfl, SortedMap.find?_insert_self, Option.map_some]
  refine ⟨⟨?_, fun b hb => ?_, ⟨_, hfind, rfl⟩⟩, fun ver hver => ?_⟩
  · rw [List.length_map, List.length_range]
  · obtain ⟨i, -, rfl⟩ := List.mem_map.mp hb
    rfl
  · have hnone : ∀ i ∈ List.range totalBlocks.toNat,
        ¬ ((fun b : BlockState => decide (b.ack = .acknowledged)) ∘
          fun i => fullBlock m.nextVersionId (hash i) i) i = true := fun i _ => by
      rw [Function.comp, fullBlock]
      exact Bool.false_ne_true
    rw [acknowledgedCount, List.countP_map, List.countP_eq_zero.mpr hnone]
    have hsome := hfind.symm.trans hver
    rw [Option.some.injEq] at hsome
    rw [← hsome]
    rfl

/-- **When the count stays right**, for every sequence of calls after a new version. -/
theorem counted_iff_keepsAcknowledged (m : BlockStateManager) (type : List UInt16)
    (snapshotTime now totalBlocks totalSize : UInt64) (manifest : Option (List BlockHashEntry))
    (calls : List (AckCall × NamedStatus)) :
    let started := m.startVersion type snapshotTime now totalBlocks totalSize manifest
    (∀ cs, cs <+: calls → Counted m.nextVersionId (cs.foldl setAck started)) ↔
      ∀ cs c, cs ++ [c] <+: calls → KeepsAcknowledged (cs.foldl setAck started) c := by
  intro started
  obtain ⟨hone, hagrees⟩ :=
    oneVersion_startVersion m type snapshotTime now totalBlocks totalSize manifest
  have hall : ∀ cs : List (AckCall × NamedStatus),
      OneVersion m.nextVersionId totalBlocks (cs.foldl setAck started) :=
    foldl_preserves (P := OneVersion m.nextVersionId totalBlocks) (fun _ c hs => hs.setAck c) hone
  have hrun : (∀ cs, cs <+: calls →
      OneVersion m.nextVersionId totalBlocks (cs.foldl setAck started) ∧
        CountAgrees m.nextVersionId (cs.foldl setAck started)) ↔
      ∀ cs c, cs ++ [c] <+: calls → KeepsAcknowledged (cs.foldl setAck started) c :=
    forall_prefix_iff
      (P := fun s => OneVersion m.nextVersionId totalBlocks s ∧ CountAgrees m.nextVersionId s)
      (fun s c hs => by
        rw [and_iff_right (hs.1.setAck c)]
        exact countAgrees_setAck_iff hs.1 hs.2 c) ⟨hone, hagrees⟩ calls
  rw [← hrun]
  refine forall₂_congr fun cs _ => ?_
  rw [and_iff_right (hall cs)]
  exact (hall cs).counted_iff

end Calls

/-- **A count that is too high**: a version of one block, which is acknowledged, fails, and is
acknowledged again. -/
theorem retried_block_counted_twice :
    let started := new.startVersion [] 0 0 1 1048576 none
    let calls : List (AckCall × NamedStatus) :=
      [(.one 0, ⟨.acknowledged, trivial⟩), (.one 0, ⟨.failed, trivial⟩),
        (.one 0, ⟨.acknowledged, trivial⟩)]
    ((calls.foldl setAck started).versions.find? 0).map VersionRecord.ackedBlocks = some 2 ∧
      ((calls.foldl setAck started).versions.find? 0).map VersionRecord.totalBlocks = some 1 ∧
      ¬ Counted 0 (calls.foldl setAck started) := by
  have hver : ((([(.one 0, ⟨.acknowledged, trivial⟩), (.one 0, ⟨.failed, trivial⟩),
      (.one 0, ⟨.acknowledged, trivial⟩)] : List (AckCall × NamedStatus)).foldl setAck
        (new.startVersion [] 0 0 1 1048576 none)).versions.find? 0).map
          (fun ver => (ver.ackedBlocks, ver.totalBlocks)) = some (2, 1) := by
    decide +kernel
  obtain ⟨ver, hfind, hvalues⟩ := Option.map_eq_some_iff.mp hver
  rw [Prod.mk.injEq] at hvalues
  refine ⟨?_, ?_, ?_⟩
  · rw [hfind, Option.map_some, hvalues.1]
  · rw [hfind, Option.map_some, hvalues.2]
  · rintro ⟨ver', hfind', -, hle⟩
    have hsame : ver = ver' := Option.some.inj (hfind.symm.trans hfind')
    rw [← hsame, hvalues.1, hvalues.2] at hle
    exact absurd hle (by decide)

end Go2Cbt.Client.BlockStateManager
