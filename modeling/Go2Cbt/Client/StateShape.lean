import Go2Cbt.Client.Operations

/-!
# Client — the shape of the block states

Every operation indexes the block array by block number and the version table by version id.
`Shaped` says that both are laid out so.  The operations keep it while the version ids and the
offsets fit 64 bits; `Load` takes over whatever a file with a good header says.

`shaped_iff_fits` gives, for every sequence of calls, the files and the arguments for which each
state is `Shaped`.  `load_refused_iff` gives the refused files that leave a trace.
-/

namespace Go2Cbt.Client

open LittleEndian Transition

namespace BlockStateManager

/-! ### The loops of a load, on any bytes -/

/-- The record loop decodes record after record, as far as the file goes. -/
theorem getElem?_readBlocks (slack : Nat → Vector UInt8 4) (left i : Nat) (rest : Bytes)
    (k : Nat) :
    (readBlocks slack left i rest).1[k]?
      = if k < left ∧ blockRecordSize * (k + 1) ≤ rest.length then
          some (deserializeBlock ((rest.drop (blockRecordSize * k)).take blockRecordSize
            ++ (slack (i + k)).toList))
        else none := by
  induction left generalizing i rest k with
  | zero => rw [if_neg (by omega)]; rfl
  | succ left ih =>
      have hlen : (rest.take blockRecordSize).length = min blockRecordSize rest.length :=
        List.length_take
      rw [readBlocks, readFile]
      dsimp only
      split
      · next hshort =>
        rw [if_neg]
        · rfl
        · rw [hlen] at hshort
          have hone : blockRecordSize * 1 ≤ blockRecordSize * (k + 1) :=
            Nat.mul_le_mul_left _ (by omega)
          omega
      · next hfull =>
        rw [hlen] at hfull
        cases k with
        | zero => rw [if_pos (by omega)]; rfl
        | succ k =>
            have hrest : (rest.drop blockRecordSize).length = rest.length - blockRecordSize :=
              List.length_drop
            have hindex : i + 1 + k = i + (k + 1) := by omega
            have hoff : blockRecordSize + blockRecordSize * k = blockRecordSize * (k + 1) := by
              rw [Nat.mul_succ, Nat.add_comm]
            have hnext : blockRecordSize * (k + 1 + 1)
                = blockRecordSize * (k + 1) + blockRecordSize := Nat.mul_succ _ _
            rw [List.getElem?_cons_succ, ih, hrest, List.drop_drop, hoff, hindex]
            refine if_congr ?_ rfl rfl
            omega

theorem length_readBlocks_eq_iff (slack : Nat → Vector UInt8 4) (left i : Nat) (rest : Bytes) :
    (readBlocks slack left i rest).1.length = left ↔ blockRecordSize * left ≤ rest.length := by
  have hle : (readBlocks slack left i rest).1.length ≤ left := by
    rw [← List.getElem?_eq_none_iff, getElem?_readBlocks, if_neg (by omega)]
  cases left with
  | zero => simp only [Nat.mul_zero, Nat.zero_le, iff_true]; omega
  | succ left =>
      have hlast : left < (readBlocks slack (left + 1) i rest).1.length ↔
          blockRecordSize * (left + 1) ≤ rest.length := by
        rw [← not_iff_not, not_lt, ← List.getElem?_eq_none_iff, getElem?_readBlocks]
        by_cases hfit : blockRecordSize * (left + 1) ≤ rest.length
        · rw [if_pos ⟨Nat.lt_succ_self _, hfit⟩]
          exact iff_of_false (Option.some_ne_none _) (not_not.mpr hfit)
        · rw [if_neg fun h => hfit h.2]
          exact iff_of_true rfl hfit
      rw [← hlast]
      omega

/-- What the record loop leaves of a file that holds every record. -/
theorem rest_readBlocks (slack : Nat → Vector UInt8 4) {left : Nat} (i : Nat) {rest : Bytes}
    (h : blockRecordSize * left ≤ rest.length) :
    (readBlocks slack left i rest).2 = rest.drop (blockRecordSize * left) := by
  induction left generalizing i rest with
  | zero => rfl
  | succ left ih =>
      rw [Nat.mul_succ] at h ⊢
      have hlen : ¬ (rest.take blockRecordSize).length < blockRecordSize := by
        rw [List.length_take]; omega
      have hrest : (rest.drop blockRecordSize).length = rest.length - blockRecordSize :=
        List.length_drop
      rw [readBlocks, readFile]
      dsimp only
      rw [if_neg hlen, ih (i + 1) (by omega), List.drop_drop, Nat.add_comm]

/-- The id in the row that comes next. -/
theorem versionId_readVersion (rest : Bytes) :
    (readVersion (rest.take versionRowSize)).versionId = u64 rest 0 := by
  have hwindow : u64 ((rest.drop 0).take versionRowSize) 0 = u64 rest (0 + 0) :=
    u64_window (by decide)
  exact hwindow

/-- The row loop stores each row under its own id, as far as the file goes. -/
theorem isSome_readVersions (left : Nat) (rest : Bytes)
    (table : SortedMap Nat VersionRecord × UInt64) (k : Nat) :
    ((readVersions left rest table).1.find? k).isSome = true ↔
      (table.1.find? k).isSome = true ∨
        ∃ j < left, versionRowSize * (j + 1) ≤ rest.length ∧
          (u64 rest (versionRowSize * j)).toNat = k := by
  induction left generalizing rest table with
  | zero => simp [readVersions]
  | succ left ih =>
      have hlen : (rest.take versionRowSize).length = min versionRowSize rest.length :=
        List.length_take
      have hrest : (rest.drop versionRowSize).length = rest.length - versionRowSize :=
        List.length_drop
      have hmul : ∀ j, versionRowSize * (j + 1) = versionRowSize + versionRowSize * j :=
        fun j => by rw [Nat.mul_succ, Nat.add_comm]
      rw [readVersions, readFile]
      dsimp only
      split
      · next hshort =>
        rw [hlen] at hshort
        refine (or_iff_left ?_).symm
        rintro ⟨j, -, hfit, -⟩
        rw [hmul] at hfit
        omega
      · next hfull =>
        rw [hlen] at hfull
        have hshift : ∀ j, u64 (rest.drop versionRowSize) (versionRowSize * j)
            = u64 rest (versionRowSize * (j + 1)) := by
          intro j
          rw [u64_drop, hmul]
        rw [ih, SortedMap.find?_insert, versionId_readVersion]
        simp only [hshift, hrest]
        constructor
        · rintro (hins | ⟨j, hj, hfit, hk⟩)
          · split at hins
            · next hk => exact .inr ⟨0, by omega, by omega, hk.symm⟩
            · exact .inl hins
          · exact .inr ⟨j + 1, by omega, by rw [hmul]; omega, hk⟩
        · rintro (hold | ⟨j, hj, hfit, hk⟩)
          · refine .inl ?_
            split
            · rfl
            · exact hold
          · cases j with
            | zero =>
                rw [Nat.mul_zero] at hk
                exact .inl (by rw [if_pos hk.symm]; rfl)
            | succ j => exact .inr ⟨j, by omega, by rw [hmul] at hfit; omega, hk⟩

/-- **What the row loop keeps** of a table whose entries are stored under their ids. -/
theorem keyed_readVersions (left : Nat) (rest : Bytes)
    {table : SortedMap Nat VersionRecord × UInt64}
    (h : ∀ e ∈ table.1.entries, e.2.versionId.toNat = e.1) :
    ∀ e ∈ (readVersions left rest table).1.entries, e.2.versionId.toNat = e.1 := by
  induction left generalizing rest table with
  | zero => exact h
  | succ left ih =>
      rw [readVersions]
      dsimp only
      split
      · exact h
      · exact ih _ (SortedMap.forall_insert rfl h)

/-- After the row loop the next version id is past every id, if none is the last one there is. -/
theorem below_readVersions {left : Nat} {rest : Bytes}
    {table : SortedMap Nat VersionRecord × UInt64}
    (hsmall : ∀ j < left, versionRowSize * (j + 1) ≤ rest.length →
      (u64 rest (versionRowSize * j)).toNat + 1 < 2 ^ 64)
    (h : ∀ e ∈ table.1.entries, e.1 < table.2.toNat) :
    ∀ e ∈ (readVersions left rest table).1.entries,
      e.1 < (readVersions left rest table).2.toNat := by
  induction left generalizing rest table with
  | zero => exact h
  | succ left ih =>
      have hlen : (rest.take versionRowSize).length = min versionRowSize rest.length :=
        List.length_take
      have hrest : (rest.drop versionRowSize).length = rest.length - versionRowSize :=
        List.length_drop
      rw [readVersions, readFile]
      dsimp only
      split
      · exact h
      · next hfull =>
        rw [hlen] at hfull
        refine ih (fun j hj hfit => ?_) ?_
        · rw [u64_drop, Nat.add_comm versionRowSize, ← Nat.mul_succ]
          refine hsmall (j + 1) (by omega) ?_
          rw [Nat.mul_succ]
          omega
        · have hbig := hsmall 0 (by omega) (by omega)
          rw [Nat.mul_zero] at hbig
          rw [versionId_readVersion]
          have hsucc : (u64 rest 0 + 1).toNat = (u64 rest 0).toNat + 1 := by
            rw [UInt64.toNat_add]
            exact Nat.mod_eq_of_lt hbig
          intro e he
          dsimp only at he ⊢
          rcases SortedMap.mem_insertEntries he with rfl | hold
          · split
            · rw [hsucc]; exact Nat.lt_succ_self _
            · next hlt => exact UInt64.lt_iff_toNat_lt.mp (UInt64.not_le.mp hlt)
          · split
            · next hge =>
              have := UInt64.le_iff_toNat_le.mp hge
              have := h e hold
              omega
            · exact h e hold

/-! ### What a load does -/

/-- The total in the header of a file. -/
def fileTotal (content : Bytes) : Nat := (u64 content 24).toNat

/-- The checks that `Load` makes of a header. -/
def HeaderAccepted (content : Bytes) : Prop :=
  u32 content 36
      = computeCrc32 (content.take 36 ++ List.replicate 4 0 ++ (content.drop 40).take 24) ∧
    u32 content 0 = stateFileMagic ∧ u32 content 12 = UInt32.ofNat blockRecordSize

instance (content : Bytes) : Decidable (HeaderAccepted content) := by
  unfold HeaderAccepted; infer_instance

/-- **A load of a file with a whole header.**  The total is taken over from any. -/
theorem load_of_header (slack : Nat → Vector UInt8 4) {content : Bytes}
    (h : stateHeaderSize ≤ content.length) (m : BlockStateManager) :
    load slack (some content) m
      = if HeaderAccepted content then
          let blocks := readBlocks slack (fileTotal content) 0 (content.drop stateHeaderSize)
          let table := readVersions (u32 content 32).toNat blocks.2 (.empty, 0)
          (true,
            { m with
              totalBlocks := u64 content 24
              devNo := u32 content 8
              blocks := blocks.1
              versions := table.1
              nextVersionId := table.2 })
        else (false, { m with totalBlocks := u64 content 24 }) := by
  have hlen : ¬ (content.take stateHeaderSize).length < stateHeaderSize := by
    rw [List.length_take]; omega
  have h32 : ∀ off, off + 4 ≤ stateHeaderSize →
      u32 (content.take stateHeaderSize) off = u32 content off := fun off hoff => by
    have hwindow : u32 ((content.drop 0).take stateHeaderSize) off = u32 content (0 + off) :=
      u32_window hoff
    rwa [List.drop_zero, Nat.zero_add] at hwindow
  have h64 : u64 (content.take stateHeaderSize) 24 = u64 content 24 := by
    have hwindow : u64 ((content.drop 0).take stateHeaderSize) 24 = u64 content (0 + 24) :=
      u64_window (by decide)
    exact hwindow
  have hsum : (content.take stateHeaderSize).take 36 ++ List.replicate 4 0
        ++ (content.take stateHeaderSize).drop 40
      = content.take 36 ++ List.replicate 4 0 ++ (content.drop 40).take 24 := by
    rw [List.take_take, List.drop_take]
    rfl
  rw [load, readFile]
  dsimp only
  rw [if_neg hlen, hsum, h32 36 (by decide), h32 0 (by decide), h32 8 (by decide),
    h32 12 (by decide), h32 32 (by decide), h64]
  by_cases hcrc : u32 content 36
      = computeCrc32 (content.take 36 ++ List.replicate 4 0 ++ (content.drop 40).take 24)
  · rw [if_neg (not_not.mpr hcrc)]
    by_cases hmagic : u32 content 0 ≠ stateFileMagic ∨
        u32 content 12 ≠ UInt32.ofNat blockRecordSize
    · have hnot : ¬ HeaderAccepted content := fun hacc =>
        hmagic.elim (fun hne => hne hacc.2.1) fun hne => hne hacc.2.2
      rw [if_pos hmagic, if_neg hnot]
    · rw [not_or, not_not, not_not] at hmagic
      have hacc : HeaderAccepted content := ⟨hcrc, hmagic⟩
      rw [if_neg (not_or.mpr ⟨not_not.mpr hmagic.1, not_not.mpr hmagic.2⟩), if_pos hacc]
      rfl
  · have hnot : ¬ HeaderAccepted content := fun hacc => hcrc hacc.1
    rw [if_pos hcrc, if_neg hnot]

/-- A load without a whole header. -/
theorem load_of_short (slack : Nat → Vector UInt8 4) {file : Option Bytes}
    (h : ∀ content, file = some content → content.length < stateHeaderSize)
    (m : BlockStateManager) : load slack file m = (false, m) := by
  cases file with
  | none => rfl
  | some content =>
      have hshort : (content.take stateHeaderSize).length < stateHeaderSize := by
        rw [List.length_take]
        have := h content rfl
        omega
      rw [load, readFile]
      dsimp only
      rw [if_pos hshort]

/-! ### A refused file -/

/-- What a load may not change when it refuses the file. -/
def SameState (m m' : BlockStateManager) : Prop :=
  m'.blocks = m.blocks ∧ m'.versions = m.versions ∧ m'.nextVersionId = m.nextVersionId ∧
    m'.totalBlocks = m.totalBlocks ∧ m'.devNo = m.devNo

/-- The file has no whole header, or its header gives the total that the manager has. -/
def GivesTotal (totalBlocks : UInt64) (file : Option Bytes) : Prop :=
  ∀ content, file = some content → stateHeaderSize ≤ content.length →
    u64 content 24 = totalBlocks

theorem load_refused {slack : Nat → Vector UInt8 4} {file : Option Bytes} {m : BlockStateManager}
    (h : (load slack file m).1 = false) :
    (SameState m (load slack file m).2 ↔ GivesTotal m.totalBlocks file) ∧
      (load slack file m).2.blocks = m.blocks ∧
      ((load slack file m).2.totalBlocks = m.totalBlocks ↔ GivesTotal m.totalBlocks file) := by
  by_cases hheader : ∃ content, file = some content ∧ stateHeaderSize ≤ content.length
  · obtain ⟨content, rfl, hlen⟩ := hheader
    rw [load_of_header slack hlen] at h ⊢
    by_cases hacc : HeaderAccepted content
    · rw [if_pos hacc] at h
      cases h
    · rw [if_neg hacc]
      have hgives : GivesTotal m.totalBlocks (some content) ↔ u64 content 24 = m.totalBlocks := by
        refine ⟨fun hall => hall content rfl hlen, fun heq c hc _ => ?_⟩
        cases hc
        exact heq
      refine ⟨?_, rfl, hgives.symm⟩
      rw [hgives]
      exact ⟨fun hsame => hsame.2.2.2.1, fun heq => ⟨rfl, rfl, rfl, heq, rfl⟩⟩
  · have hshort : ∀ content, file = some content → content.length < stateHeaderSize :=
      fun content hfile => not_le.mp fun hle => hheader ⟨content, hfile, hle⟩
    rw [load_of_short slack hshort]
    have hgives : GivesTotal m.totalBlocks file := fun content hfile hle =>
      absurd hle (not_le.mpr (hshort content hfile))
    exact ⟨iff_of_true ⟨rfl, rfl, rfl, rfl, rfl⟩ hgives, rfl, iff_of_true rfl hgives⟩

/-- **Which refused files leave no trace**, in any manager and in a new one. -/
theorem load_refused_iff {slack : Nat → Vector UInt8 4} {file : Option Bytes} :
    (∀ m, (load slack file m).1 = false →
      (SameState m (load slack file m).2 ↔ GivesTotal m.totalBlocks file)) ∧
    ∀ devNo, (initializeFrom slack file devNo).1 = false →
      ((initializeFrom slack file devNo).2.totalBlocks = 0 ∧
          (initializeFrom slack file devNo).2.blocks = [] ↔ GivesTotal 0 file) := by
  refine ⟨fun m h => (load_refused h).1, fun devNo h => ?_⟩
  obtain ⟨-, hblocks, htotal⟩ := load_refused h
  have hempty : (initializeFrom slack file devNo).2.blocks = [] := hblocks
  rw [and_iff_left hempty]
  exact htotal

/-- **A refused file that leaves a trace**: a header of zeros but for a total of 5. -/
theorem refused_file_sets_total :
    let file := some (List.replicate 24 0 ++ ofU64 5 ++ List.replicate 32 0)
    let loaded := initializeFrom (fun _ => .replicate 4 0) file 0
    loaded.1 = false ∧ loaded.2.totalBlocks = 5 ∧ loaded.2.blocks = [] := by
  decide +kernel

/-- A refused file of zeros leaves none. -/
theorem load_refused_iff_blank :
    let file := some (List.replicate 64 (0 : UInt8))
    SameState new (load (fun _ => .replicate 4 0) file new).2 ∧
      (initializeFrom (fun _ => .replicate 4 0) file 0).2.totalBlocks = 0 ∧
      (initializeFrom (fun _ => .replicate 4 0) file 0).2.blocks = [] := by
  intro file
  have hgives : GivesTotal 0 (some (List.replicate 64 0)) := by
    intro content hfile _
    cases hfile
    decide
  exact
    ⟨(load_refused_iff.1 new (by decide +kernel)).mpr hgives,
      (load_refused_iff.2 0 (by decide +kernel)).mpr hgives⟩

/-! ### The shape -/

/-- Entry `i` of the array is block `i`, with a status of the enumeration. -/
def Placed (blocks : List BlockState) : Prop :=
  ∀ i b, blocks[i]? = some b →
    b.blockIndex.toNat = i ∧ b.offset.toNat = i * blockSize ∧ b.ack.Named

/-- The array has an entry for each block, in place, and every version is stored under its own
id, below the next one. -/
structure Shaped (m : BlockStateManager) : Prop where
  count : m.blocks.length = m.totalBlocks.toNat
  placed : Placed m.blocks
  keyed : ∀ e ∈ m.versions.entries, e.2.versionId.toNat = e.1
  below : ∀ e ∈ m.versions.entries, e.1 < m.nextVersionId.toNat

/-- The id that `CreateVersion` takes is free. -/
theorem Shaped.unused {m : BlockStateManager} (h : Shaped m) :
    m.versions.find? m.nextVersionId.toNat = none := by
  rw [← Option.not_isSome_iff_eq_none, SortedMap.isSome_find?_iff]
  rintro ⟨e, he, heq⟩
  exact (h.below e he).ne heq

theorem shaped_new : Shaped new where
  count := rfl
  placed := fun _ _ hb => absurd hb (Option.some_ne_none _).symm
  keyed := fun _ he => absurd he List.not_mem_nil
  below := fun _ he => absurd he List.not_mem_nil

/-- Changes in place. -/
theorem Placed.changes {blocks blocks' : List BlockState} (h : Placed blocks)
    (hchanges : ChangesInPlace blocks blocks') : Placed blocks' := by
  obtain ⟨f, hget, hf⟩ := hchanges
  intro i b' hb'
  rw [hget, Option.map_eq_some_iff] at hb'
  obtain ⟨b, hb, rfl⟩ := hb'
  obtain ⟨hindex, hoffset, hnamed⟩ := h i b hb
  obtain ⟨hplace, hack⟩ := hf i b
  rw [BlockState.place, BlockState.place, Prod.mk.injEq] at hplace
  rw [hplace.1, hplace.2]
  refine ⟨hindex, hoffset, hack.elim (fun hsame => ?_) id⟩
  rw [hsame]
  exact hnamed

/-- The blocks of a full backup are in place as long as their offsets fit 64 bits. -/
theorem placed_fullBlocks_iff (versionId totalBlocks : UInt64) (hash : Nat → Hash) :
    Placed (fullBlocks versionId totalBlocks hash) ↔ totalBlocks.toNat ≤ 2 ^ 44 := by
  have hlt := totalBlocks.toNat_lt
  have hindex : ∀ i < totalBlocks.toNat, (UInt64.ofNat i).toNat = i := fun i hi => by
    rw [UInt64.toNat_ofNat']
    exact Nat.mod_eq_of_lt (hi.trans hlt)
  have hoffset : ∀ i < totalBlocks.toNat,
      (fullBlock versionId (hash i) i).offset.toNat = i * blockSize % 2 ^ 64 := fun i hi => by
    rw [fullBlock, UInt64.toNat_mul, hindex i hi, toNat_ofNat_blockSize]
  constructor
  · intro h
    by_contra hbig
    have hin : 2 ^ 44 < totalBlocks.toNat := not_le.mp hbig
    have hplace := (h (2 ^ 44) _ ((getElem?_fullBlocks _ _ _ _).trans (if_pos hin))).2.1
    rw [hoffset _ hin] at hplace
    exact absurd hplace (by decide)
  · intro hsmall i b hb
    rw [getElem?_fullBlocks, Option.ite_none_right_eq_some, Option.some.injEq] at hb
    obtain ⟨hi, rfl⟩ := hb
    refine ⟨hindex i hi, ?_, trivial⟩
    rw [hoffset i hi]
    refine Nat.mod_eq_of_lt ?_
    rw [blockSize_lit]
    omega

/-! ### What the operations keep -/

section Operations

variable {m : BlockStateManager}

theorem Shaped.of_blocks (h : Shaped m) {blocks : List BlockState}
    (hchanges : ChangesInPlace m.blocks blocks) (dirty : Bool) :
    Shaped { m with blocks, dirty } where
  count := hchanges.length_eq.trans h.count
  placed := h.placed.changes hchanges
  keyed := h.keyed
  below := h.below

theorem Shaped.modify (h : Shaped m) (k : Nat) {f : VersionRecord → VersionRecord}
    (hf : ∀ ver, (f ver).versionId = ver.versionId) :
    Shaped { m with versions := m.versions.modify k f } where
  count := h.count
  placed := h.placed
  keyed := SortedMap.forall_modify (fun e he => (congrArg UInt64.toNat (hf e.2)).trans he) h.keyed
  below := SortedMap.forall_modify (fun _ he => he) h.below

theorem shaped_setBlockHash (h : Shaped m) (blockIndex : UInt64) (hash : Hash) :
    Shaped (m.setBlockHash blockIndex hash).2 := by
  have hblocks := h.of_blocks (changesInPlace_setBlockHash m blockIndex hash) true
  by_cases hout : blockIndex.toNat ≥ m.blocks.length
  · rw [setBlockHash, if_pos hout]
    exact h
  · rw [setBlockHash, if_neg hout] at hblocks ⊢
    exact hblocks

theorem shaped_setBlockAck (h : Shaped m) (blockIndex : UInt64) (status : NamedStatus) :
    Shaped (m.setBlockAck blockIndex status.1).2 := by
  have hblocks := h.of_blocks (changesInPlace_setBlockAck m blockIndex status) true
  rw [setBlockAck] at hblocks ⊢
  split at hblocks
  · exact h
  · split
    · exact hblocks.modify _ fun _ => rfl
    · exact hblocks

theorem shaped_ackCall (h : Shaped m) (call : AckCall) (status : NamedStatus) :
    Shaped (call.apply status.1 m) := by
  obtain ⟨dirty, heq⟩ := apply_ackCall call status.1 m
  have hlist : Shaped (m.setBlockAckList (call.indexes m.blocks.length) status.1) :=
    foldl_preserves (P := Shaped)
      (fun (m : BlockStateManager) idx hs => shaped_setBlockAck hs idx status) h _
  rw [heq]
  exact ⟨hlist.count, hlist.placed, hlist.keyed, hlist.below⟩

theorem shaped_updateIncrementalBlocks (h : Shaped m) (versionId : UInt64)
    (changedIndexes : List Nat) (hashes : List BlockHashEntry) :
    Shaped (m.updateIncrementalBlocks versionId changedIndexes hashes).2 := by
  by_cases hacc : m.UpdateAccepted versionId changedIndexes hashes
  · have hblocks := h.of_blocks
      (changesInPlace_updateIncrementalBlocks m versionId changedIndexes hashes) true
    obtain ⟨hlen, hne, hver⟩ := hacc
    obtain ⟨ver, hver⟩ := Option.isSome_iff_exists.mp hver
    rw [updateIncrementalBlocks, if_neg (not_not.mpr hlen), if_neg hne, hver] at hblocks ⊢
    exact hblocks.modify versionId.toNat fun _ => rfl
  · rw [updateIncrementalBlocks_of_not_accepted hacc]
    exact h

/-- A new version keeps the shape as long as there is an id after it. -/
theorem shaped_createVersion_iff (h : Shaped m) (type : List UInt16)
    (snapshotTime now totalBlocks totalSize : UInt64) :
    Shaped (m.createVersion type snapshotTime now totalBlocks totalSize).2 ↔
      m.nextVersionId.toNat + 1 < 2 ^ 64 := by
  have hsucc : (m.nextVersionId + 1).toNat = (m.nextVersionId.toNat + 1) % 2 ^ 64 :=
    UInt64.toNat_add _ _
  constructor
  · intro hnew
    have hlt := m.nextVersionId.toNat_lt
    have hin : ∃ e ∈ (m.createVersion type snapshotTime now totalBlocks totalSize).2.versions.entries,
        e.1 = m.nextVersionId.toNat := by
      rw [← SortedMap.isSome_find?_iff, createVersion, SortedMap.find?_insert_self]
      rfl
    obtain ⟨e, he, hkey⟩ := hin
    have hbelow : e.1 < (m.nextVersionId + 1).toNat := hnew.below e he
    omega
  · intro hsmall
    have hnext : (m.nextVersionId + 1).toNat = m.nextVersionId.toNat + 1 :=
      hsucc.trans (Nat.mod_eq_of_lt hsmall)
    refine ⟨h.count, h.placed, SortedMap.forall_insert rfl h.keyed, ?_⟩
    refine SortedMap.forall_insert ?_ fun e he => ?_
    · exact (Nat.lt_succ_self _).trans_eq hnext.symm
    · exact (h.below e he).trans ((Nat.lt_succ_self _).trans_eq hnext.symm)

/-- Fresh blocks for a known version keep the shape as long as their offsets fit. -/
theorem shaped_fullBlocks_iff (h : Shaped m) (versionId totalBlocks : UInt64) (hash : Nat → Hash) :
    Shaped
        { m with
          totalBlocks := totalBlocks
          blocks := fullBlocks versionId totalBlocks hash
          versions := m.versions.modify versionId.toNat fun ver =>
            { ver with changedBlocks := totalBlocks }
          dirty := true } ↔ totalBlocks.toNat ≤ 2 ^ 44 := by
  rw [← placed_fullBlocks_iff versionId totalBlocks hash]
  have hver := h.modify versionId.toNat (f := fun ver => { ver with changedBlocks := totalBlocks })
    fun _ => rfl
  refine ⟨Shaped.placed, fun hplaced => ⟨?_, hplaced, hver.keyed, hver.below⟩⟩
  rw [fullBlocks, List.length_map, List.length_range]

theorem shaped_initFullBlocks_iff (h : Shaped m) (versionId totalBlocks : UInt64)
    (entries : List BlockHashEntry) :
    Shaped (m.initFullBlocks versionId totalBlocks entries).2 ↔
      ((m.versions.find? versionId.toNat).isSome = true → totalBlocks.toNat ≤ 2 ^ 44) := by
  rw [initFullBlocks]
  cases m.versions.find? versionId.toNat with
  | none => exact iff_of_true h fun hsome => absurd hsome Bool.false_ne_true
  | some ver =>
      rw [Option.isSome_some, forall_prop_of_true rfl]
      exact shaped_fullBlocks_iff h versionId totalBlocks _

theorem shaped_initFullBlocksEmpty_iff (h : Shaped m) (versionId totalBlocks : UInt64) :
    Shaped (m.initFullBlocksEmpty versionId totalBlocks).2 ↔
      ((m.versions.find? versionId.toNat).isSome = true → totalBlocks.toNat ≤ 2 ^ 44) := by
  rw [initFullBlocksEmpty]
  cases m.versions.find? versionId.toNat with
  | none => exact iff_of_true h fun hsome => absurd hsome Bool.false_ne_true
  | some ver =>
      rw [Option.isSome_some, forall_prop_of_true rfl]
      exact shaped_fullBlocks_iff h versionId totalBlocks fun _ => .zero

end Operations

/-! ### What a file must say -/

/-- Where the `i`-th record of a file starts; the rows start where record `fileTotal` would. -/
def recordAt (i : Nat) : Nat := stateHeaderSize + blockRecordSize * i

/-- A file whose records and rows have the shape: it holds all its records, in block order, with
statuses of the enumeration and offsets that fit 64 bits, and no row that it holds has the last
version id there is. -/
structure RecordsFit (content : Bytes) : Prop where
  held : recordAt (fileTotal content) ≤ content.length
  small : fileTotal content ≤ 2 ^ 44
  record : ∀ i < fileTotal content, (u64 content (recordAt i + 4)).toNat = i ∧
    (u32 content (recordAt i) >>> 1) &&& 0x07 ≤ 4
  row : ∀ j < (u32 content 32).toNat,
    recordAt (fileTotal content) + versionRowSize * (j + 1) ≤ content.length →
      (u64 content (recordAt (fileTotal content) + versionRowSize * j)).toNat + 1 < 2 ^ 64

/-- A file that a manager with `totalBlocks` blocks can be initialized from: a load that accepts
it finds the shape, and one that refuses it finds no other total. -/
def FileFits (totalBlocks : UInt64) (file : Option Bytes) : Prop :=
  ∀ content, file = some content → stateHeaderSize ≤ content.length →
    if HeaderAccepted content then RecordsFit content else u64 content 24 = totalBlocks

theorem named_ofCode_iff (code : UInt32) : (AckStatus.ofCode code).Named ↔ code ≤ 4 := by
  rw [AckStatus.ofCode]
  split
  · next h => rw [h]; exact iff_of_true trivial (by decide)
  · split
    · next h => rw [h]; exact iff_of_true trivial (by decide)
    · split
      · next h => rw [h]; exact iff_of_true trivial (by decide)
      · split
        · next h => rw [h]; exact iff_of_true trivial (by decide)
        · split
          · next h => rw [h]; exact iff_of_true trivial (by decide)
          · next h0 h1 h2 h3 h4 =>
            refine iff_of_false id fun hle => ?_
            rw [← UInt32.toNat_inj] at h0 h1 h2 h3 h4
            have hle' : code.toNat ≤ 4 := UInt32.le_iff_toNat_le.mp hle
            have hvalues : (0 : UInt32).toNat = 0 ∧ (1 : UInt32).toNat = 1 ∧
                (2 : UInt32).toNat = 2 ∧ (3 : UInt32).toNat = 3 ∧ (4 : UInt32).toNat = 4 := by
              decide
            omega

/-- The fields of the `i`-th record of a file that holds it. -/
theorem deserializeBlock_record {content : Bytes} {i : Nat}
    (h : recordAt (i + 1) ≤ content.length) (slack : Vector UInt8 4) :
    let b := deserializeBlock
      ((((content.drop stateHeaderSize).drop (blockRecordSize * i)).take blockRecordSize)
        ++ slack.toList)
    b.blockIndex = u64 content (recordAt i + 4) ∧
      b.offset = u64 content (recordAt i + 4) * UInt64.ofNat blockSize ∧
      b.ack = .ofCode ((u32 content (recordAt i) >>> 1) &&& 0x07) := by
  intro b
  have hnext : recordAt (i + 1) = recordAt i + blockRecordSize := by
    rw [recordAt, recordAt, Nat.mul_succ, Nat.add_assoc]
  have hlen : ((content.drop (recordAt i)).take blockRecordSize).length = blockRecordSize := by
    rw [List.length_take, List.length_drop]
    omega
  have hdata : b = deserializeBlock ((content.drop (recordAt i)).take blockRecordSize
      ++ slack.toList) := by
    rw [recordAt, ← List.drop_drop]
  have hindex : u64 ((content.drop (recordAt i)).take blockRecordSize ++ slack.toList) 4
      = u64 content (recordAt i + 4) := by
    rw [u64, field_append_left (by rw [hlen]; decide)]
    exact u64_window (by decide)
  have hflags : u32 ((content.drop (recordAt i)).take blockRecordSize ++ slack.toList) 0
      = u32 content (recordAt i) := by
    rw [u32, field_append_left (by rw [hlen]; decide)]
    exact u32_window (by decide)
  rw [hdata, deserializeBlock, hindex, hflags]
  exact ⟨rfl, rfl, rfl⟩

/-- The records of a file that holds them all are in place exactly when the file says so. -/
theorem placed_readBlocks_iff (slack : Nat → Vector UInt8 4) {content : Bytes}
    (hheld : recordAt (fileTotal content) ≤ content.length) :
    Placed (readBlocks slack (fileTotal content) 0 (content.drop stateHeaderSize)).1 ↔
      fileTotal content ≤ 2 ^ 44 ∧
        ∀ i < fileTotal content, (u64 content (recordAt i + 4)).toNat = i ∧
          (u32 content (recordAt i) >>> 1) &&& 0x07 ≤ 4 := by
  have hmono : ∀ i < fileTotal content, recordAt (i + 1) ≤ content.length := fun i hi =>
    (Nat.add_le_add_left (Nat.mul_le_mul_left _ hi) _).trans hheld
  have hget : ∀ i < fileTotal content,
      (readBlocks slack (fileTotal content) 0 (content.drop stateHeaderSize)).1[i]?
        = some (deserializeBlock
            ((((content.drop stateHeaderSize).drop (blockRecordSize * i)).take blockRecordSize)
              ++ (slack i).toList)) := fun i hi => by
    have hfit := hmono i hi
    rw [recordAt] at hfit
    rw [getElem?_readBlocks, if_pos ⟨hi, by rw [List.length_drop]; omega⟩, Nat.zero_add]
  have hoffset : ∀ {w : UInt64} {i : Nat}, w.toNat = i →
      (w * UInt64.ofNat blockSize).toNat = i * blockSize % 2 ^ 64 := fun hw => by
    rw [UInt64.toNat_mul, hw, toNat_ofNat_blockSize]
  constructor
  · intro h
    have hall : ∀ i < fileTotal content, (u64 content (recordAt i + 4)).toNat = i ∧
        (u32 content (recordAt i) >>> 1) &&& 0x07 ≤ 4 := fun i hi => by
      obtain ⟨hindex, -, hack⟩ := deserializeBlock_record (hmono i hi) (slack i)
      obtain ⟨hplace, -, hnamed⟩ := h i _ (hget i hi)
      rw [hack, named_ofCode_iff] at hnamed
      rw [hindex] at hplace
      exact ⟨hplace, hnamed⟩
    refine ⟨?_, hall⟩
    by_contra hbig
    have hin : 2 ^ 44 < fileTotal content := not_le.mp hbig
    obtain ⟨-, hoff, -⟩ := deserializeBlock_record (hmono _ hin) (slack (2 ^ 44))
    have hplace := (h _ _ (hget _ hin)).2.1
    rw [hoff, hoffset (hall _ hin).1] at hplace
    exact absurd hplace (by decide)
  · rintro ⟨hsmall, hall⟩ i b hb
    have hi : i < fileTotal content := by
      have hlt := (List.getElem?_eq_some_iff.mp hb).1
      rwa [(length_readBlocks_eq_iff slack _ 0 _).mpr] at hlt
      rw [List.length_drop]
      rw [recordAt] at hheld
      omega
    obtain ⟨hindex, hoff, hack⟩ := deserializeBlock_record (hmono i hi) (slack i)
    rw [hget i hi, Option.some.injEq] at hb
    rw [← hb, hindex, hoff, hack, named_ofCode_iff, hoffset (hall i hi).1]
    refine ⟨(hall i hi).1, Nat.mod_eq_of_lt ?_, (hall i hi).2⟩
    rw [blockSize_lit]
    omega

/-- The rows of a file keep the next version id past them exactly when none has the last id. -/
theorem below_readVersions_iff (left : Nat) (rest : Bytes) :
    (∀ e ∈ (readVersions left rest (.empty, 0)).1.entries,
        e.1 < (readVersions left rest (.empty, 0)).2.toNat) ↔
      ∀ j < left, versionRowSize * (j + 1) ≤ rest.length →
        (u64 rest (versionRowSize * j)).toNat + 1 < 2 ^ 64 := by
  refine ⟨fun h j hj hfit => ?_, fun h => below_readVersions h fun _ he => ?_⟩
  · have hin : ((readVersions left rest (.empty, 0)).1.find?
        (u64 rest (versionRowSize * j)).toNat).isSome = true :=
      (isSome_readVersions left rest _ _).mpr (.inr ⟨j, hj, hfit, rfl⟩)
    obtain ⟨e, he, hkey⟩ := SortedMap.isSome_find?_iff.mp hin
    have hlt := h e he
    have := (readVersions left rest (.empty, 0)).2.toNat_lt
    omega
  · exact absurd he List.not_mem_nil

/-- **A load keeps the shape exactly when the file fits.** -/
theorem shaped_load_iff {m : BlockStateManager} (h : Shaped m) (slack : Nat → Vector UInt8 4)
    (file : Option Bytes) :
    Shaped (load slack file m).2 ↔ FileFits m.totalBlocks file := by
  by_cases hheader : ∃ content, file = some content ∧ stateHeaderSize ≤ content.length
  · obtain ⟨content, rfl, hlen⟩ := hheader
    have hfits : FileFits m.totalBlocks (some content) ↔
        if HeaderAccepted content then RecordsFit content
        else u64 content 24 = m.totalBlocks := by
      refine ⟨fun hall => hall content rfl hlen, fun hone c hc _ => ?_⟩
      cases hc
      exact hone
    rw [hfits, load_of_header slack hlen]
    by_cases hacc : HeaderAccepted content
    · rw [if_pos hacc, if_pos hacc]
      dsimp only
      have hcount := length_readBlocks_eq_iff slack (fileTotal content) 0
        (content.drop stateHeaderSize)
      have hheld : blockRecordSize * fileTotal content ≤ (content.drop stateHeaderSize).length ↔
          recordAt (fileTotal content) ≤ content.length := by
        rw [List.length_drop, recordAt]
        omega
      rw [hheld] at hcount
      -- the rows start where the records end, once the file holds them all
      have hrows : recordAt (fileTotal content) ≤ content.length → ((∀ j < (u32 content 32).toNat,
          versionRowSize * (j + 1) ≤ ((content.drop stateHeaderSize).drop
            (blockRecordSize * fileTotal content)).length →
            (u64 ((content.drop stateHeaderSize).drop (blockRecordSize * fileTotal content))
              (versionRowSize * j)).toNat + 1 < 2 ^ 64) ↔
          ∀ j < (u32 content 32).toNat,
            recordAt (fileTotal content) + versionRowSize * (j + 1) ≤ content.length →
            (u64 content (recordAt (fileTotal content) + versionRowSize * j)).toNat + 1
              < 2 ^ 64) := by
        intro hle
        rw [List.drop_drop, List.length_drop]
        refine forall₂_congr fun j _ => ?_
        rw [u64_drop]
        refine imp_congr ?_ Iff.rfl
        rw [recordAt] at hle ⊢
        omega
      constructor
      · intro hs
        have hle := hcount.mp hs.count
        obtain ⟨hsmall, hrecord⟩ := (placed_readBlocks_iff slack hle).mp hs.placed
        have hbelow := (below_readVersions_iff _ _).mp hs.below
        rw [rest_readBlocks slack 0 (hheld.mpr hle)] at hbelow
        exact ⟨hle, hsmall, hrecord, (hrows hle).mp hbelow⟩
      · intro hfit
        refine ⟨hcount.mpr hfit.held,
          (placed_readBlocks_iff slack hfit.held).mpr ⟨hfit.small, hfit.record⟩,
          keyed_readVersions _ _ fun _ he => absurd he List.not_mem_nil,
          (below_readVersions_iff _ _).mpr ?_⟩
        rw [rest_readBlocks slack 0 (hheld.mpr hfit.held)]
        exact (hrows hfit.held).mpr hfit.row
    · rw [if_neg hacc, if_neg hacc]
      refine ⟨fun hs => ?_, fun heq => ⟨?_, h.placed, h.keyed, h.below⟩⟩
      · exact UInt64.toNat_inj.mp (hs.count.symm.trans h.count)
      · exact h.count.trans (congrArg UInt64.toNat heq.symm)
  · have hshort : ∀ content, file = some content → content.length < stateHeaderSize :=
      fun content hfile => not_le.mp fun hle => hheader ⟨content, hfile, hle⟩
    rw [load_of_short slack hshort]
    exact iff_of_true h fun content hfile hle => absurd hle (not_le.mpr (hshort content hfile))

/-! ### Every sequence of calls -/

/-- A public call that changes the manager: an operation, a save that succeeds, or `Initialize`
with the file that is there. -/
inductive Call where
  | operation (op : Operation)
  | save
  | initializeFrom (slack : Nat → Vector UInt8 4) (file : Option Bytes) (devNo : UInt32)

/-- The manager after a call. -/
def call (m : BlockStateManager) : Call → BlockStateManager
  | .operation op => m.apply op
  | .save => m.save.2.2
  | .initializeFrom slack file devNo => (load slack file { m with devNo, initialized := true }).2

/-- The calls that keep the shape: a new version leaves an id free after it, fresh blocks have
offsets that fit 64 bits, and a file fits. -/
def Fits (m : BlockStateManager) : Call → Prop
  | .operation (.createVersion ..) => m.nextVersionId.toNat + 1 < 2 ^ 64
  | .operation (.initFullBlocks versionId totalBlocks _) =>
      (m.versions.find? versionId.toNat).isSome = true → totalBlocks.toNat ≤ 2 ^ 44
  | .operation (.initFullBlocksEmpty versionId totalBlocks) =>
      (m.versions.find? versionId.toNat).isSome = true → totalBlocks.toNat ≤ 2 ^ 44
  | .initializeFrom _ file _ => FileFits m.totalBlocks file
  | _ => True

/-- One call. -/
theorem shaped_call_iff {m : BlockStateManager} (h : Shaped m) (c : Call) :
    Shaped (m.call c) ↔ Fits m c := by
  cases c with
  | save =>
      refine iff_of_true ?_ trivial
      rw [call, save]
      split
      · exact ⟨h.count, h.placed, h.keyed, h.below⟩
      · exact h
  | initializeFrom slack file devNo =>
      have hopened : Shaped { m with devNo, initialized := true } :=
        ⟨h.count, h.placed, h.keyed, h.below⟩
      exact shaped_load_iff hopened slack file
  | operation op =>
      cases op with
      | createVersion type snapshotTime now totalBlocks totalSize =>
          exact shaped_createVersion_iff h type snapshotTime now totalBlocks totalSize
      | initFullBlocks versionId totalBlocks entries =>
          exact shaped_initFullBlocks_iff h versionId totalBlocks entries
      | initFullBlocksEmpty versionId totalBlocks =>
          exact shaped_initFullBlocksEmpty_iff h versionId totalBlocks
      | setBlockHash blockIndex hash =>
          exact iff_of_true (shaped_setBlockHash h blockIndex hash) trivial
      | updateIncrementalBlocks versionId changedIndexes hashes =>
          exact iff_of_true (shaped_updateIncrementalBlocks h versionId changedIndexes hashes) trivial
      | setAck ack status => exact iff_of_true (shaped_ackCall h ack status) trivial

/-- **The shape along every sequence of calls**: each state has it, and leaves the next version
id free, exactly when each call fits. -/
theorem shaped_iff_fits (calls : List Call) :
    (∀ cs, cs <+: calls → Shaped (cs.foldl call new) ∧
        (cs.foldl call new).versions.find? (cs.foldl call new).nextVersionId.toNat = none) ↔
      ∀ cs c, cs ++ [c] <+: calls → Fits (cs.foldl call new) c := by
  have hrun : (∀ cs, cs <+: calls → Shaped (cs.foldl call new)) ↔
      ∀ cs c, cs ++ [c] <+: calls → Fits (cs.foldl call new) c :=
    forall_prefix_iff (P := Shaped) (fun m c h => shaped_call_iff h c) shaped_new calls
  refine Iff.trans ?_ hrun
  exact forall₂_congr fun cs _ => and_iff_left_of_imp Shaped.unused

/-- A file with a good checksum and one record, of block 7 with status 5. -/
def craftedFile : Bytes :=
  let header := ofU32 stateFileMagic ++ ofU32 stateFileVersion ++ ofU32 0
    ++ ofU32 (UInt32.ofNat blockRecordSize) ++ ofU64 (UInt64.ofNat blockSize) ++ ofU64 1 ++ ofU32 0
  header ++ ofU32 (computeCrc32 (header ++ List.replicate 28 0)) ++ List.replicate 24 0
    ++ ofU32 11 ++ ofU64 7 ++ List.replicate 36 0

/-- **A file that breaks the shape.** -/
theorem crafted_file_misplaces_block :
    ¬ Shaped (new.call (.initializeFrom (fun _ => .replicate 4 0) (some craftedFile) 0)) := by
  intro h
  have hblocks : (new.call (.initializeFrom (fun _ => .replicate 4 0) (some craftedFile) 0)).blocks
      = [{ blockIndex := 7, offset := 0x700000, hash := .zero, versionId := 0, ack := .unnamed 5,
           changed := true }] := by
    decide +kernel
  have hplace := (h.placed 0 _ (by rw [hblocks]; rfl)).1
  exact absurd hplace (by decide)

end BlockStateManager

end Go2Cbt.Client
