import Go2Cbt.Client.StateFile

/-!
# Client — saving and loading the block state

`Save` sums the first 36 bytes of the header and `Load` all 64 with the checksum zeroed, and a
record holds all but four bytes of the hash.  `roundTrips_iff_survivesSave` says for which of the
states that the operations can reach a saved file still gives the state back.
-/

namespace Go2Cbt.Client.BlockStateManager

open LittleEndian

variable (slack : Nat → Vector UInt8 4)

/-! ### The two loops -/

theorem readFile_append {a b : Bytes} {n : Nat} (h : a.length = n) :
    readFile n (a ++ b) = (a, b) := by
  rw [readFile, List.take_left' h, List.drop_left' h]

/-- The record loop gives back every record. -/
theorem readBlocks_records {blocks : List BlockState} (hnamed : ∀ b ∈ blocks, b.ack.Named) (i : Nat)
    (rest : Bytes) :
    readBlocks slack blocks.length i (blocks.flatMap blockRecord ++ rest)
      = ((blocks.zipIdx i).map fun p => p.1.reread (slack p.2), rest) := by
  induction blocks generalizing i with
  | nil => rfl
  | cons b blocks ih =>
      have hread := readFile_append (b := blocks.flatMap blockRecord ++ rest) (length_blockRecord b)
      rw [List.length_cons, readBlocks, List.flatMap_cons, List.append_assoc, hread]
      dsimp only
      rw [length_blockRecord, if_neg (Nat.lt_irrefl _),
        ih (fun c hc => hnamed c (List.mem_cons_of_mem b hc)),
        deserializeBlock_blockRecord (hnamed b List.mem_cons_self)]
      rfl

/-- An entry of the version table as a load gives it back. -/
def storedEntry (e : Nat × VersionRecord) : Nat × VersionRecord :=
  (e.1, { e.2 with versionType := storedType e.2.versionType })

/-- The row loop gives back the rows it is told to read. -/
theorem readVersions_rows {es : List (Nat × VersionRecord)}
    (hsorted : es.Pairwise fun a b => a.1 < b.1) (hkey : ∀ e ∈ es, e.2.versionId.toNat = e.1)
    {left : Nat} (hleft : left ≤ es.length) {table : SortedMap Nat VersionRecord × UInt64}
    (hbelow : ∀ a ∈ table.1.entries, ∀ e ∈ es, a.1 < e.1) :
    (readVersions left (es.flatMap fun e => versionRow e.2) table).1.entries
      = table.1.entries ++ (es.take left).map storedEntry := by
  induction es generalizing left table with
  | nil =>
      rw [Nat.le_zero.mp hleft, List.take_nil, List.map_nil, List.append_nil]
      rfl
  | cons e es ih =>
      cases left with
      | zero => rw [List.take_zero, List.map_nil, List.append_nil]; rfl
      | succ left =>
          obtain ⟨he, hes⟩ := List.pairwise_cons.mp hsorted
          have hid : e.2.versionId.toNat = e.1 := hkey e List.mem_cons_self
          have hread := readFile_append (b := es.flatMap fun e => versionRow e.2)
            (length_versionRow e.2)
          rw [readVersions, List.flatMap_cons, hread]
          dsimp only
          rw [length_versionRow, if_neg (Nat.lt_irrefl _), readVersion_versionRow]
          dsimp only
          rw [hid]
          have hinsert := SortedMap.entries_insert_of_gt
            ({ e.2 with versionType := storedType e.2.versionType } : VersionRecord)
            fun a ha => hbelow a ha e List.mem_cons_self
          rw [ih hes (fun x hx => hkey x (List.mem_cons_of_mem e hx)) (Nat.le_of_succ_le_succ hleft)]
          · rw [hinsert, List.take_succ_cons, List.map_cons, List.append_assoc]
            rfl
          · intro a ha x hx
            rw [hinsert] at ha
            rcases List.mem_append.mp ha with ha | ha
            · exact hbelow a ha x (List.mem_cons_of_mem e hx)
            · rw [List.mem_singleton.mp ha]
              exact he x hx

/-- After the row loop the next version id is past every id, if none is the last one there is. -/
theorem lt_readVersions_next {es : List (Nat × VersionRecord)}
    (hkey : ∀ e ∈ es, e.2.versionId.toNat = e.1) (hsmall : ∀ e ∈ es, e.1 + 1 < 2 ^ 64)
    (left : Nat) {table : SortedMap Nat VersionRecord × UInt64}
    (hnext : ∀ a ∈ table.1.entries, a.1 < table.2.toNat) :
    let read := readVersions left (es.flatMap fun e => versionRow e.2) table
    ∀ a ∈ read.1.entries, a.1 < read.2.toNat := by
  induction es generalizing left table with
  | nil => cases left <;> exact hnext
  | cons e es ih =>
      cases left with
      | zero => exact hnext
      | succ left =>
          have hid : e.2.versionId.toNat = e.1 := hkey e List.mem_cons_self
          have hread := readFile_append (b := es.flatMap fun e => versionRow e.2)
            (length_versionRow e.2)
          rw [readVersions, List.flatMap_cons, hread]
          dsimp only
          rw [length_versionRow, if_neg (Nat.lt_irrefl _), readVersion_versionRow]
          refine ih (fun x hx => hkey x (List.mem_cons_of_mem e hx))
            (fun x hx => hsmall x (List.mem_cons_of_mem e hx)) left ?_
          intro a ha
          dsimp only at ha ⊢
          have hbig : e.1 + 1 < 2 ^ 64 := hsmall e List.mem_cons_self
          have hsucc : (e.2.versionId + 1).toNat = e.1 + 1 := by
            rw [UInt64.toNat_add, hid]
            exact Nat.mod_eq_of_lt hbig
          have hmem := SortedMap.mem_insertEntries ha
          split
          · next hge =>
            have hge' : table.2.toNat ≤ e.1 := hid ▸ UInt64.le_iff_toNat_le.mp hge
            rw [hsucc]
            rcases hmem with rfl | hold
            · exact hid ▸ Nat.lt_succ_self _
            · exact (hnext a hold).trans_le (hge'.trans (Nat.le_succ _))
          · next hlt =>
            rcases hmem with rfl | hold
            · exact UInt64.lt_iff_toNat_lt.mp (UInt64.not_le.mp hlt)
            · exact hnext a hold

/-! ### The header -/

theorem length_headerFields (m : BlockStateManager) : m.headerFields.length = 36 := by
  simp [headerFields]

theorem length_stateHeader (m : BlockStateManager) (crc : UInt32) :
    (m.stateHeader crc).length = stateHeaderSize := by
  rw [stateHeader, List.length_append, List.length_append, length_headerFields, length_ofU32,
    List.length_replicate]
  rfl

/-- The checksums that `Save` writes and `Load` expects. -/
theorem checksums (m : BlockStateManager) (crc : UInt32) :
    (m.stateHeader crc).take 36 = m.headerFields ∧
      (m.stateHeader crc).take 36 ++ List.replicate 4 0 ++ (m.stateHeader crc).drop 40
        = m.headerFields ++ List.replicate 28 0 := by
  have hfront : (m.stateHeader crc).take 36 = m.headerFields := by
    rw [stateHeader, List.append_assoc]
    exact List.take_left' (length_headerFields m)
  refine ⟨hfront, ?_⟩
  have hback : (m.stateHeader crc).drop 40 = List.replicate 24 0 := by
    rw [stateHeader]
    refine List.drop_left' ?_
    rw [List.length_append, length_headerFields, length_ofU32]
  rw [hfront, hback, List.append_assoc]
  rfl

theorem stateFile_eq (m : BlockStateManager) :
    m.stateFile = m.stateHeader (computeCrc32 m.headerFields)
      ++ (m.blocks.flatMap blockRecord ++ m.versions.entries.flatMap fun e => versionRow e.2) := by
  rw [stateFile, (checksums m 0).1, List.append_assoc]
  exact congrArg _ (List.drop_left' (length_stateHeader m 0))

/-- The fields that `Load` reads out of a saved header. -/
theorem stateHeader_fields (m : BlockStateManager) (crc : UInt32) :
    u32 (m.stateHeader crc) 0 = stateFileMagic ∧ u32 (m.stateHeader crc) 8 = m.devNo ∧
      u32 (m.stateHeader crc) 12 = UInt32.ofNat blockRecordSize ∧
      u64 (m.stateHeader crc) 24 = m.totalBlocks ∧
      u32 (m.stateHeader crc) 32 = UInt32.ofNat m.versions.size ∧
      u32 (m.stateHeader crc) 36 = crc := by
  refine ⟨?_, ?_, ?_, ?_, ?_, ?_⟩ <;>
    simp [stateHeader, headerFields, u32_head, u32_skip, u64_head, u64_skip]

/-! ### Loading what was saved -/

/-- What the operations keep, and a load relies on. -/
structure Sound (devNo : UInt32) (m : BlockStateManager) : Prop where
  initialized : m.initialized = true
  devNo : m.devNo = devNo
  count : m.blocks.length = m.totalBlocks.toNat
  block : ∀ b ∈ m.blocks, b.offset = b.blockIndex * UInt64.ofNat blockSize ∧ b.ack.Named
  version : ∀ e ∈ m.versions.entries, e.2.versionId.toNat = e.1 ∧ e.2.versionType.length ≤ 15
  dense : m.versions.size < 2 ^ 64 → m.nextVersionId.toNat = m.versions.size ∧
    ∀ e ∈ m.versions.entries, e.1 < m.nextVersionId.toNat

/-- The checksum that `Save` writes is the one that `Load` computes. -/
def ChecksumAgrees (m : BlockStateManager) : Prop :=
  computeCrc32 m.headerFields = computeCrc32 (m.headerFields ++ List.replicate 28 0)

/-- **A load of a saved file.**  Without the checksum, only the total is taken over. -/
theorem load_stateFile {m : BlockStateManager} (hcount : m.blocks.length = m.totalBlocks.toNat)
    (hnamed : ∀ b ∈ m.blocks, b.ack.Named) (n : BlockStateManager) :
    let table := readVersions (m.versions.size % 2 ^ 32)
      (m.versions.entries.flatMap fun e => versionRow e.2) (.empty, 0)
    (m.ChecksumAgrees → load slack (some m.stateFile) n
      = (true,
          { n with
            totalBlocks := m.totalBlocks
            devNo := m.devNo
            blocks := m.blocks.zipIdx.map fun p => p.1.reread (slack p.2)
            versions := table.1
            nextVersionId := table.2 })) ∧
      (¬ m.ChecksumAgrees →
        load slack (some m.stateFile) n = (false, { n with totalBlocks := m.totalBlocks })) := by
  intro table
  obtain ⟨hmagic, hdevNo, hrecord, htotal, hversions, hcrc⟩ :=
    stateHeader_fields m (computeCrc32 m.headerFields)
  have hread := readFile_append
    (b := m.blocks.flatMap blockRecord ++ m.versions.entries.flatMap fun e => versionRow e.2)
    (length_stateHeader m (computeCrc32 m.headerFields))
  have hvalid : ¬ (stateFileMagic ≠ stateFileMagic ∨
      UInt32.ofNat blockRecordSize ≠ UInt32.ofNat blockRecordSize) :=
    fun hbad => hbad.elim (absurd rfl) (absurd rfl)
  have hblocks := readBlocks_records slack hnamed 0
    (m.versions.entries.flatMap fun e => versionRow e.2)
  rw [hcount] at hblocks
  have hleft : (UInt32.ofNat m.versions.size).toNat = m.versions.size % 2 ^ 32 :=
    UInt32.toNat_ofNat'
  rw [load, stateFile_eq, hread]
  dsimp only
  rw [length_stateHeader, if_neg (Nat.lt_irrefl _), hcrc, (checksums m _).2, hmagic, hrecord,
    if_neg hvalid, htotal, hversions, hdevNo, hblocks, hleft, ChecksumAgrees]
  exact ⟨fun hsum => if_neg (not_not.mpr hsum), fun hsum => if_pos hsum⟩

/-- **What a new manager makes of a saved file.** -/
theorem initializeFrom_stateFile {devNo : UInt32} {m : BlockStateManager} (h : Sound devNo m) :
    ((initializeFrom slack (some m.stateFile) devNo).1 = true ↔ m.ChecksumAgrees) ∧
      (m.ChecksumAgrees →
        let r := (initializeFrom slack (some m.stateFile) devNo).2
        r.totalBlocks = m.totalBlocks ∧
          r.blocks = m.blocks.zipIdx.map (fun p => p.1.reread (slack p.2)) ∧
          r.versions.entries
            = (m.versions.entries.take (m.versions.size % 2 ^ 32)).map storedEntry ∧
          ((∀ e ∈ m.versions.entries, e.1 + 1 < 2 ^ 64) →
            ∀ a ∈ r.versions.entries, a.1 < r.nextVersionId.toNat)) := by
  obtain ⟨hloads, hrefuses⟩ := load_stateFile slack h.count (fun b hb => (h.block b hb).2)
    { new with devNo := devNo, initialized := true }
  rw [initializeFrom]
  by_cases hsum : m.ChecksumAgrees
  · rw [hloads hsum]
    refine ⟨iff_of_true rfl hsum, fun _ => ?_⟩
    have hle : m.versions.size % 2 ^ 32 ≤ m.versions.entries.length := Nat.mod_le _ _
    have hkey : ∀ e ∈ m.versions.entries, e.2.versionId.toNat = e.1 :=
      fun e he => (h.version e he).1
    refine ⟨rfl, rfl, ?_, fun hsmall => ?_⟩
    · exact readVersions_rows m.versions.sorted hkey hle
        (fun a ha => absurd ha List.not_mem_nil)
    · exact lt_readVersions_next hkey hsmall _ (fun a ha => absurd ha List.not_mem_nil)
  · rw [hrefuses hsum]
    exact ⟨iff_of_false Bool.false_ne_true hsum, fun hagrees => absurd hagrees hsum⟩

/-! ### The states the operations reach -/

/-- The states of a manager for a fresh directory.  Types have up to 15 units, and a status is
one of the enumeration. -/
inductive Reached (devNo : UInt32) : BlockStateManager → Prop
  | fresh : Reached devNo (initializeFrom slack none devNo).2
  | createVersion {m} (h : Reached devNo m) (type : List UInt16)
      (snapshotTime now totalBlocks totalSize : UInt64) (htype : type.length ≤ 15) :
      Reached devNo (m.createVersion type snapshotTime now totalBlocks totalSize).2
  | initFullBlocks {m} (h : Reached devNo m) (versionId totalBlocks : UInt64)
      (entries : List BlockHashEntry) :
      Reached devNo (m.initFullBlocks versionId totalBlocks entries).2
  | initFullBlocksEmpty {m} (h : Reached devNo m) (versionId totalBlocks : UInt64) :
      Reached devNo (m.initFullBlocksEmpty versionId totalBlocks).2
  | setBlockHash {m} (h : Reached devNo m) (blockIndex : UInt64) (hash : Hash) :
      Reached devNo (m.setBlockHash blockIndex hash).2
  | updateIncrementalBlocks {m} (h : Reached devNo m) (versionId : UInt64)
      (changedIndexes : List Nat) (hashes : List BlockHashEntry) :
      Reached devNo (m.updateIncrementalBlocks versionId changedIndexes hashes).2
  | setBlockAck {m} (h : Reached devNo m) (blockIndex : UInt64) (status : AckStatus)
      (hstatus : status.Named) : Reached devNo (m.setBlockAck blockIndex status).2
  | setBlockAckList {m} (h : Reached devNo m) (blockIndexes : List UInt64) (status : AckStatus)
      (hstatus : status.Named) : Reached devNo (m.setBlockAckList blockIndexes status)
  | setBlockAckRange {m} (h : Reached devNo m) (startBlock count : UInt64) (status : AckStatus)
      (hstatus : status.Named) : Reached devNo (m.setBlockAckRange startBlock count status)

/-- What a load relies on of one block. -/
def Storable (b : BlockState) : Prop :=
  b.offset = b.blockIndex * UInt64.ofNat blockSize ∧ b.ack.Named

section Sound

variable {devNo : UInt32} {m : BlockStateManager}

theorem sound_createVersion (h : Sound devNo m) {type : List UInt16}
    (htype : type.length ≤ 15) (snapshotTime now totalBlocks totalSize : UInt64) :
    Sound devNo (m.createVersion type snapshotTime now totalBlocks totalSize).2 where
  initialized := h.initialized
  devNo := h.devNo
  count := h.count
  block := h.block
  version := SortedMap.forall_insert ⟨rfl, htype⟩ h.version
  dense := by
    intro hsize
    have hle : m.versions.size ≤ _ := SortedMap.size_le_insert m.versions
      m.nextVersionId.toNat (m.createVersion type snapshotTime now totalBlocks totalSize).1
    obtain ⟨hnext, hbelow⟩ := h.dense (hle.trans_lt hsize)
    have hentries : (m.createVersion type snapshotTime now totalBlocks totalSize).2.versions.entries
        = m.versions.entries ++ [_] := SortedMap.entries_insert_of_gt _ hbelow
    have hgrown : (m.createVersion type snapshotTime now totalBlocks totalSize).2.versions.size
        = m.versions.size + 1 := by
      rw [SortedMap.size, hentries, List.length_append]
      rfl
    have hsucc : (m.nextVersionId + 1).toNat = m.versions.size + 1 := by
      rw [UInt64.toNat_add, hnext]
      exact Nat.mod_eq_of_lt (hgrown ▸ hsize)
    refine ⟨hsucc.trans hgrown.symm, fun e he => ?_⟩
    change e.1 < (m.nextVersionId + 1).toNat
    rw [hsucc]
    rw [hentries] at he
    rcases List.mem_append.mp he with hold | hnew
    · exact (hbelow e hold).trans (hnext ▸ Nat.lt_succ_self _)
    · rw [List.mem_singleton.mp hnew]
      exact hnext ▸ Nat.lt_succ_self _

/-- Operations that replace the blocks, and change versions in place. -/
theorem Sound.update (h : Sound devNo m) {totalBlocks : UInt64} {blocks : List BlockState}
    (hcount : blocks.length = totalBlocks.toNat) (hblock : ∀ b ∈ blocks, Storable b) (k : Nat)
    {f : VersionRecord → VersionRecord}
    (hf : ∀ ver, (f ver).versionId = ver.versionId ∧ (f ver).versionType = ver.versionType)
    (dirty : Bool) :
    Sound devNo
      { m with totalBlocks, blocks, versions := m.versions.modify k f, dirty } where
  initialized := h.initialized
  devNo := h.devNo
  count := hcount
  block := hblock
  version := SortedMap.forall_modify
    (fun e he => by rw [(hf e.2).1, (hf e.2).2]; exact he) h.version
  dense := by
    rw [SortedMap.size_modify]
    intro hsize
    obtain ⟨hnext, hbelow⟩ := h.dense hsize
    exact ⟨hnext, SortedMap.forall_modify (fun _ he => he) hbelow⟩

/-- Operations that only replace the blocks. -/
theorem Sound.replace (h : Sound devNo m) {blocks : List BlockState}
    (hcount : blocks.length = m.totalBlocks.toNat) (hblock : ∀ b ∈ blocks, Storable b)
    (dirty : Bool) : Sound devNo { m with blocks, dirty } where
  initialized := h.initialized
  devNo := h.devNo
  count := hcount
  block := hblock
  version := h.version
  dense := h.dense

theorem storable_fullBlock (versionId : UInt64) (hash : Hash) (i : Nat) :
    Storable (fullBlock versionId hash i) := ⟨rfl, trivial⟩

theorem sound_initFullBlocks (h : Sound devNo m) (versionId totalBlocks : UInt64)
    (entries : List BlockHashEntry) :
    Sound devNo (m.initFullBlocks versionId totalBlocks entries).2 := by
  rw [initFullBlocks]
  split
  · exact h
  · refine h.update (f := fun ver => { ver with changedBlocks := totalBlocks })
      (by rw [List.length_map, List.length_range]) (fun b hb => ?_) _ (fun _ => ⟨rfl, rfl⟩) true
    obtain ⟨i, -, rfl⟩ := List.mem_map.mp hb
    exact storable_fullBlock _ _ _

theorem sound_initFullBlocksEmpty (h : Sound devNo m) (versionId totalBlocks : UInt64) :
    Sound devNo (m.initFullBlocksEmpty versionId totalBlocks).2 := by
  rw [initFullBlocksEmpty]
  split
  · exact h
  · refine h.update (f := fun ver => { ver with changedBlocks := totalBlocks })
      (by rw [List.length_map, List.length_range]) (fun b hb => ?_) _ (fun _ => ⟨rfl, rfl⟩) true
    obtain ⟨i, -, rfl⟩ := List.mem_map.mp hb
    exact storable_fullBlock _ _ _

theorem storable_modify {blocks : List BlockState} (hblocks : ∀ b ∈ blocks, Storable b) (i : Nat)
    {f : BlockState → BlockState} (hf : ∀ b, Storable b → Storable (f b)) :
    ∀ b ∈ blocks.modify i f, Storable b := by
  intro b hb
  obtain ⟨j, hj, rfl⟩ := List.mem_iff_getElem.mp hb
  rw [List.getElem_modify]
  split
  · exact hf _ (hblocks _ (List.getElem_mem _))
  · exact hblocks _ (List.getElem_mem _)

theorem sound_setBlockHash (h : Sound devNo m) (blockIndex : UInt64) (hash : Hash) :
    Sound devNo (m.setBlockHash blockIndex hash).2 := by
  rw [setBlockHash]
  split
  · exact h
  · have hall := storable_modify h.block blockIndex.toNat
      (f := fun bs => { bs with hash := hash }) fun _ hb => hb
    exact h.replace ((List.length_modify _ _ _).trans h.count) hall true

theorem sound_updateIncrementalBlocks (h : Sound devNo m) (versionId : UInt64)
    (changedIndexes : List Nat) (hashes : List BlockHashEntry) :
    Sound devNo (m.updateIncrementalBlocks versionId changedIndexes hashes).2 := by
  have hloop : ∀ (pairs : List (Nat × BlockHashEntry)) (st : List BlockState × Nat),
      (∀ b ∈ st.1, Storable b) →
        (pairs.foldl (updateIncrementalBlock versionId) st).1.length = st.1.length ∧
          ∀ b ∈ (pairs.foldl (updateIncrementalBlock versionId) st).1, Storable b := by
    intro pairs
    induction pairs with
    | nil => exact fun _ hst => ⟨rfl, hst⟩
    | cons p pairs ih =>
        intro st hst
        rw [List.foldl_cons]
        have hstep : (updateIncrementalBlock versionId st p).1.length = st.1.length ∧
            ∀ b ∈ (updateIncrementalBlock versionId st p).1, Storable b := by
          rw [updateIncrementalBlock]
          split
          · exact ⟨rfl, hst⟩
          · exact ⟨List.length_modify _ _ _,
              storable_modify hst _ fun _ hb => ⟨hb.1, trivial⟩⟩
        obtain ⟨hlen, hall⟩ := ih _ hstep.2
        exact ⟨hlen.trans hstep.1, hall⟩
  rw [updateIncrementalBlocks]
  split
  · exact h
  · split
    · exact h
    · split
      · exact h
      · obtain ⟨hlen, hall⟩ := hloop (changedIndexes.zip hashes)
          (m.blocks.map BlockState.unchanged, 0) (fun b hb => by
            obtain ⟨b', hb', rfl⟩ := List.mem_map.mp hb
            exact ⟨(h.block b' hb').1, trivial⟩)
        rw [List.length_map] at hlen
        exact h.update
          (f := fun ver => { ver with changedBlocks := UInt64.ofNat _, ackedBlocks := 0 })
          (hlen.trans h.count) hall _ (fun _ => ⟨rfl, rfl⟩) true

theorem sound_setBlockAck (h : Sound devNo m) (blockIndex : UInt64) {status : AckStatus}
    (hstatus : status.Named) : Sound devNo (m.setBlockAck blockIndex status).2 := by
  rw [setBlockAck]
  split
  · exact h
  · next old hold =>
    have hcount : (m.blocks.set blockIndex.toNat { old with ack := status }).length
        = m.totalBlocks.toNat := List.length_set.trans h.count
    have hblock : ∀ b ∈ m.blocks.set blockIndex.toNat { old with ack := status }, Storable b := by
      intro b hb
      rcases List.mem_or_eq_of_mem_set hb with hmem | rfl
      · exact h.block b hmem
      · exact ⟨(h.block old (List.mem_of_getElem? hold)).1, hstatus⟩
    split
    · exact h.update (f := fun ver => { ver with ackedBlocks := ver.ackedBlocks + 1 }) hcount hblock
        _ (fun _ => ⟨rfl, rfl⟩) true
    · exact h.replace hcount hblock true

theorem sound_setBlockAckList {status : AckStatus} (hstatus : status.Named)
    (blockIndexes : List UInt64) (h : Sound devNo m) :
    Sound devNo (m.setBlockAckList blockIndexes status) := by
  rw [setBlockAckList]
  induction blockIndexes generalizing m with
  | nil => exact h
  | cons i rest ih => exact ih (sound_setBlockAck h i hstatus)

theorem sound_setBlockAckRange (h : Sound devNo m) (startBlock count : UInt64)
    {status : AckStatus} (hstatus : status.Named) :
    Sound devNo (m.setBlockAckRange startBlock count status) := by
  rw [setBlockAckRange_eq]
  have hlist := sound_setBlockAckList hstatus ((List.range' startBlock.toNat
    (min (startBlock + count).toNat m.blocks.length - startBlock.toNat)).map UInt64.ofNat) h
  exact hlist.replace hlist.count hlist.block true

/-- **Every state that the operations reach is sound.** -/
theorem Reached.sound (h : Reached slack devNo m) : Sound devNo m := by
  induction h with
  | fresh =>
      exact
        { initialized := rfl
          devNo := rfl
          count := rfl
          block := fun _ hb => absurd hb List.not_mem_nil
          version := fun _ he => absurd he List.not_mem_nil
          dense := fun _ => ⟨rfl, fun _ he => absurd he List.not_mem_nil⟩ }
  | createVersion _ type snapshotTime now totalBlocks totalSize htype ih =>
      exact sound_createVersion ih htype _ _ _ _
  | initFullBlocks _ versionId totalBlocks entries ih => exact sound_initFullBlocks ih _ _ _
  | initFullBlocksEmpty _ versionId totalBlocks ih => exact sound_initFullBlocksEmpty ih _ _
  | setBlockHash _ blockIndex hash ih => exact sound_setBlockHash ih _ _
  | updateIncrementalBlocks _ versionId changedIndexes hashes ih =>
      exact sound_updateIncrementalBlocks ih _ _ _
  | setBlockAck _ blockIndex status hstatus ih => exact sound_setBlockAck ih _ hstatus
  | setBlockAckList _ blockIndexes status hstatus ih => exact sound_setBlockAckList hstatus _ ih
  | setBlockAckRange _ startBlock count status hstatus ih =>
      exact sound_setBlockAckRange ih _ _ hstatus

end Sound

/-! ### When a saved state comes back -/

/-- A new manager for the same directory and disk loads the saved file and has the same blocks
and versions, with its next version id past them all. -/
structure RoundTrips (devNo : UInt32) (m : BlockStateManager) : Prop where
  loads : (initializeFrom slack m.save.2.1 devNo).1 = true
  totalBlocks : (initializeFrom slack m.save.2.1 devNo).2.totalBlocks = m.totalBlocks
  blocks : (initializeFrom slack m.save.2.1 devNo).2.blocks = m.blocks
  versions : (initializeFrom slack m.save.2.1 devNo).2.versions = m.versions
  next : ∀ e ∈ m.versions.entries,
    e.1 < (initializeFrom slack m.save.2.1 devNo).2.nextVersionId.toNat

/-- The states that come back: both checksums of the header agree, the last four bytes of every
hash are those that lie behind the record buffer, no type contains a zero, and the versions can
be counted on 32 bits. -/
structure SurvivesSave (m : BlockStateManager) : Prop where
  checksum : m.ChecksumAgrees
  hashes : ∀ i b, m.blocks[i]? = some b → b.hash.bytes.drop 28 = (slack i).toList
  types : ∀ e ∈ m.versions.entries, (0 : UInt16) ∉ e.2.versionType
  count : m.versions.size < 2 ^ 32

theorem reread_eq_iff {b : BlockState} (h : Storable b) (tail : Vector UInt8 4) :
    b.reread tail = b ↔ b.hash.bytes.drop 28 = tail.toList := by
  constructor
  · intro heq
    have hbytes : b.hash.bytes.take 28 ++ tail.toList = b.hash.bytes :=
      congrArg (fun c : BlockState => c.hash.bytes) heq
    conv at hbytes => rhs; rw [← List.take_append_drop 28 b.hash.bytes]
    exact (List.append_cancel_left hbytes).symm
  · intro htail
    have hhash : (b.reread tail).hash = b.hash := by
      obtain ⟨index, offset, ⟨bytes, hbytes⟩, version, ack, changed⟩ := b
      simp only [BlockState.reread, Hash.mk.injEq]
      rw [← htail]
      exact List.take_append_drop 28 bytes
    have hoffset : (b.reread tail).offset = b.offset := h.1.symm
    calc b.reread tail
        = { b with offset := (b.reread tail).offset, hash := (b.reread tail).hash } := rfl
      _ = b := by rw [hhash, hoffset]

theorem map_reread_eq_iff {blocks : List BlockState} (h : ∀ b ∈ blocks, Storable b) :
    (blocks.zipIdx.map fun p => p.1.reread (slack p.2)) = blocks ↔
      ∀ i b, blocks[i]? = some b → b.hash.bytes.drop 28 = (slack i).toList := by
  have hget : ∀ (i : Nat) (b : BlockState), blocks[i]? = some b →
      (blocks.zipIdx.map fun p => p.1.reread (slack p.2))[i]? = some (b.reread (slack i)) := by
    intro i b hb
    rw [List.getElem?_map, List.getElem?_zipIdx, hb, Nat.zero_add]
    rfl
  constructor
  · intro heq i b hb
    have hsame := (hget i b hb).symm.trans (heq ▸ hb)
    exact (reread_eq_iff (h b (List.mem_of_getElem? hb)) _).mp (Option.some.inj hsame)
  · intro hall
    refine List.ext_getElem? fun i => ?_
    cases hb : blocks[i]? with
    | none =>
        rw [List.getElem?_eq_none_iff] at hb ⊢
        simpa using hb
    | some b =>
        rw [hget i b hb, (reread_eq_iff (h b (List.mem_of_getElem? hb)) _).mpr (hall i b hb)]

theorem storedEntry_eq_iff {e : Nat × VersionRecord} (hlen : e.2.versionType.length ≤ 15) :
    storedEntry e = e ↔ (0 : UInt16) ∉ e.2.versionType := by
  rw [← storedType_eq_iff hlen]
  constructor
  · exact fun heq => congrArg (fun x : Nat × VersionRecord => x.2.versionType) heq
  · intro htype
    rw [storedEntry, htype]

theorem map_storedEntry_eq_iff {es : List (Nat × VersionRecord)}
    (h : ∀ e ∈ es, e.2.versionType.length ≤ 15) (n : Nat) :
    (es.take (es.length % n)).map storedEntry = es ↔
      es.length % n = es.length ∧ ∀ e ∈ es, (0 : UInt16) ∉ e.2.versionType := by
  constructor
  · intro heq
    have hlen := congrArg List.length heq
    rw [List.length_map, List.length_take, Nat.min_eq_left (Nat.mod_le _ _)] at hlen
    refine ⟨hlen, fun e he => (storedEntry_eq_iff (h e he)).mp ?_⟩
    rw [hlen, List.take_length] at heq
    conv at heq => rhs; rw [← List.map_id es]
    exact List.map_inj_left.mp heq e he
  · rintro ⟨hlen, htypes⟩
    rw [hlen, List.take_length]
    conv => rhs; rw [← List.map_id es]
    exact List.map_congr_left fun e he => (storedEntry_eq_iff (h e he)).mpr (htypes e he)

/-- **A saved state comes back exactly when it survives the save.** -/
theorem roundTrips_iff_survivesSave {devNo : UInt32} {m : BlockStateManager}
    (h : Reached slack devNo m) : RoundTrips slack devNo m ↔ SurvivesSave slack m := by
  have hsound := h.sound
  have hfile : m.save.2.1 = some m.stateFile := by
    rw [save, if_pos hsound.initialized]
  obtain ⟨hloads, hcontents⟩ := initializeFrom_stateFile slack hsound
  have htypes : ∀ e ∈ m.versions.entries, e.2.versionType.length ≤ 15 :=
    fun e he => (hsound.version e he).2
  have hmod : m.versions.size % 2 ^ 32 = m.versions.size ↔ m.versions.size < 2 ^ 32 :=
    ⟨fun heq => heq ▸ Nat.mod_lt _ (by decide), Nat.mod_eq_of_lt⟩
  rw [← hfile] at hloads hcontents
  constructor
  · rintro ⟨hload, -, hblocks, hversions, -⟩
    have hsum := hloads.mp hload
    obtain ⟨-, hblocks', hversions', -⟩ := hcontents hsum
    have hentries := hversions'.symm.trans (congrArg SortedMap.entries hversions)
    obtain ⟨hcount, hzero⟩ := (map_storedEntry_eq_iff htypes (2 ^ 32)).mp hentries
    exact
      { checksum := hsum
        hashes := (map_reread_eq_iff slack hsound.block).mp (hblocks'.symm.trans hblocks)
        types := hzero
        count := hmod.mp hcount }
  · rintro ⟨hsum, hhashes, hzero, hcount⟩
    obtain ⟨htotal, hblocks, hversions, hnext⟩ := hcontents hsum
    obtain ⟨hlast, hbelow⟩ := hsound.dense (hcount.trans (by decide))
    have hentries : (initializeFrom slack m.save.2.1 devNo).2.versions.entries
        = m.versions.entries :=
      hversions.trans ((map_storedEntry_eq_iff htypes (2 ^ 32)).mpr ⟨hmod.mpr hcount, hzero⟩)
    have hsmall : ∀ e ∈ m.versions.entries, e.1 + 1 < 2 ^ 64 := by
      intro e he
      have hlt := hbelow e he
      omega
    exact
      { loads := hloads.mpr hsum
        totalBlocks := htotal
        blocks := hblocks.trans ((map_reread_eq_iff slack hsound.block).mpr hhashes)
        versions := SortedMap.ext_entries hentries
        next := fun e he => hnext hsmall e (hentries ▸ he) }

/-- The units of `FULL`. -/
def fullType : List UInt16 := [70, 85, 76, 76]

/-- A manager with one version and one block of it, for the disk of the given number. -/
def oneBlockState (devNo : UInt32) : BlockStateManager :=
  let created := (initializeFrom (fun _ => .replicate 4 0) none devNo).2.createVersion fullType 0 0 1
    (UInt64.ofNat blockSize)
  (created.2.initFullBlocksEmpty created.1.versionId 1).2

theorem reached_oneBlockState (devNo : UInt32) :
    Reached (fun _ => .replicate 4 0) devNo (oneBlockState devNo) :=
  .initFullBlocksEmpty (.createVersion .fresh fullType 0 0 1 (UInt64.ofNat blockSize) (by decide))
    0 1

/-- A disk number for which the two checksums agree by chance. -/
theorem roundTrips_iff_survivesSave_oneBlock :
    RoundTrips (fun _ => .replicate 4 0) 341339237 (oneBlockState 341339237) := by
  refine (roundTrips_iff_survivesSave (fun _ => .replicate 4 0)
    (reached_oneBlockState 341339237)).mpr ?_
  exact
    { checksum := by unfold ChecksumAgrees; decide +kernel
      hashes := fun i b hb => by
        cases i with
        | zero => cases hb; rfl
        | succ i => cases hb
      types := by decide +kernel
      count := by decide +kernel }

/-- **A state that is lost.**  Disk 0 with one version and no block yet is saved, and the file is
refused. -/
theorem saved_state_refused :
    let created := (initializeFrom (fun _ => .replicate 4 0) none 0).2.createVersion fullType 0 0 0 0
    created.2.save.1 = true ∧
      (initializeFrom (fun _ => .replicate 4 0) created.2.save.2.1 0).1 = false := by
  decide +kernel

end Go2Cbt.Client.BlockStateManager
