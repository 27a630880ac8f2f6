import Go2Cbt.Client.StateRoundTrip
import Go2Cbt.Client.StateShape

/-!
# Client — how long a block stays pending

A block that is to be sent stays in `GetPendingBlocks` across versions, other blocks' statuses
and a restart, until one of three things happens to it: it is acknowledged, an incremental update
does not list it, or a restart finds the saved file refused.  `pending_iff_keeps` is exact on
every sequence of operations, saves and restarts.
-/

namespace Go2Cbt.Client.BlockStateManager

open LittleEndian Transition

/-- What happens to a manager between two queries.  `reload` is a restart: the state is saved, and
a new manager for the same directory and disk is opened on the file. -/
inductive Event where
  | operation (op : Operation)
  | save
  | reload (slack : Nat → Vector UInt8 4)

/-- The manager that a restart opens, with what its load reports. -/
def reload (m : BlockStateManager) (slack : Nat → Vector UInt8 4) : Bool × BlockStateManager :=
  initializeFrom slack m.save.2.1 m.devNo

/-- The manager after an event. -/
def event (m : BlockStateManager) : Event → BlockStateManager
  | .operation op => m.apply op
  | .save => m.save.2.2
  | .reload slack => (m.reload slack).2

/-- Block `i` is in `GetPendingBlocks`. -/
def Pending (m : BlockStateManager) (i : Nat) : Prop :=
  ∃ b ∈ m.getPendingBlocks, m.blocks[i]? = some b

/-- The events that leave block `i` pending. -/
def Keeps (m : BlockStateManager) (i : Nat) : Event → Prop
  | .operation (.setAck call status) =>
      status.1 = .acknowledged → ¬ call.Sets m.blocks.length i
  | .operation (.updateIncrementalBlocks versionId changedIndexes hashes) =>
      m.UpdateAccepted versionId changedIndexes hashes → i ∈ changedIndexes
  | .operation (.initFullBlocks versionId totalBlocks _) =>
      (m.versions.find? versionId.toNat).isSome = true → i < totalBlocks.toNat
  | .operation (.initFullBlocksEmpty versionId totalBlocks) =>
      (m.versions.find? versionId.toNat).isSome = true → i < totalBlocks.toNat
  | .reload slack => (m.reload slack).1 = true
  | _ => True

/-- Pending by the entry itself. -/
theorem pending_iff {m : BlockStateManager} {i : Nat} :
    Pending m i ↔ ∃ b, m.blocks[i]? = some b ∧ b.needsUpload = true := by
  constructor
  · rintro ⟨b, hb, hget⟩
    exact ⟨b, hget, (List.mem_filter.mp hb).2⟩
  · rintro ⟨b, hget, hneeds⟩
    exact ⟨b, List.mem_filter.mpr ⟨List.mem_of_getElem? hget, hneeds⟩, hget⟩

/-- Pending after each entry was changed by itself. -/
theorem pending_of_getElem? {m m' : BlockStateManager} {i : Nat} {b : BlockState}
    {f : BlockState → BlockState} (hget : m'.blocks[i]? = m.blocks[i]?.map f)
    (hb : m.blocks[i]? = some b) : Pending m' i ↔ (f b).needsUpload = true := by
  rw [pending_iff, hget, hb, Option.map_some]
  constructor
  · rintro ⟨c, hc, hneeds⟩
    rw [Option.some.inj hc]
    exact hneeds
  · exact fun hneeds => ⟨_, rfl, hneeds⟩

/-! ### What a saved file can hold -/

/-- The array is within the total and its statuses fit the bits of a record, so that a file holds
all of it. -/
structure Readable (m : BlockStateManager) : Prop where
  within : m.blocks.length ≤ m.totalBlocks.toNat
  coded : ∀ b ∈ m.blocks, b.ack.Coded

theorem readable_apply {m : BlockStateManager} (h : Readable m) (op : Operation) :
    Readable (m.apply op) := by
  rcases blocks_apply m op with ⟨versionId, totalBlocks, hash, hblocks, htotal⟩ | ⟨htotal, hchanges⟩
  · refine ⟨?_, fun b hb => ?_⟩
    · rw [hblocks, htotal, fullBlocks, List.length_map, List.length_range]
    · rw [hblocks] at hb
      obtain ⟨i, -, rfl⟩ := List.mem_map.mp hb
      exact ⟨0, by decide, rfl⟩
  · refine ⟨?_, fun b' hb' => ?_⟩
    · rw [hchanges.length_eq, htotal]
      exact h.within
    · obtain ⟨f, hget, hf⟩ := hchanges
      obtain ⟨i, hi⟩ := List.getElem?_of_mem hb'
      rw [hget, Option.map_eq_some_iff] at hi
      obtain ⟨b, hb, rfl⟩ := hi
      rcases (hf i b).2 with hsame | hnamed
      · rw [hsame]
        exact h.coded b (List.mem_of_getElem? hb)
      · exact hnamed.coded

/-- A load into a manager without blocks gives a readable one. -/
theorem readable_initializeFrom (slack : Nat → Vector UInt8 4) (file : Option Bytes)
    (devNo : UInt32) : Readable (initializeFrom slack file devNo).2 := by
  have hempty : ∀ m : BlockStateManager, m.blocks = [] → Readable m := fun m hm =>
    ⟨by rw [hm]; exact Nat.zero_le _, fun b hb => by rw [hm] at hb; cases hb⟩
  rw [initializeFrom]
  by_cases hheader : ∃ content, file = some content ∧ stateHeaderSize ≤ content.length
  · obtain ⟨content, rfl, hlen⟩ := hheader
    rw [load_of_header slack hlen]
    split
    · refine ⟨?_, fun b hb => ?_⟩
      · dsimp only
        rw [← List.getElem?_eq_none_iff, getElem?_readBlocks,
          if_neg fun hin => Nat.lt_irrefl _ hin.1]
      · obtain ⟨i, hi⟩ := List.getElem?_of_mem hb
        rw [getElem?_readBlocks, Option.ite_none_right_eq_some, Option.some.injEq] at hi
        obtain ⟨-, rfl⟩ := hi
        refine ⟨_, ?_, rfl⟩
        rw [UInt32.lt_iff_toNat_lt, UInt32.toNat_and]
        exact Nat.and_lt_two_pow (n := 3) _ (by decide)
    · exact hempty _ rfl
  · rw [load_of_short slack fun content hfile => not_le.mp fun hle => hheader ⟨content, hfile, hle⟩]
    exact hempty _ rfl

theorem readable_event {m : BlockStateManager} (h : Readable m) (e : Event) :
    Readable (m.event e) := by
  cases e with
  | operation op => exact readable_apply h op
  | save =>
      rw [event, save]
      split
      · exact ⟨h.within, h.coded⟩
      · exact h
  | reload slack => exact readable_initializeFrom _ _ _

/-- What a load that accepts a file reads of a block whose record the file holds. -/
theorem getElem?_load {slack : Nat → Vector UInt8 4} {content : Bytes}
    (hlen : stateHeaderSize ≤ content.length) {m : BlockStateManager}
    (hacc : (load slack (some content) m).1 = true) {i : Nat} (htotal : i < fileTotal content)
    (hread : blockRecordSize * (i + 1) ≤ (content.drop stateHeaderSize).length) :
    (load slack (some content) m).2.blocks[i]?
      = some (deserializeBlock
          (((content.drop stateHeaderSize).drop (blockRecordSize * i)).take blockRecordSize
            ++ (slack (0 + i)).toList)) := by
  rw [load_of_header slack hlen] at hacc ⊢
  split at hacc
  · next haccepted =>
    rw [if_pos haccepted]
    exact (getElem?_readBlocks _ _ _ _ _).trans (if_pos ⟨htotal, hread⟩)
  · cases hacc

/-- What the file of a manager says, as far as the records are concerned. -/
theorem stateFile_records (m : BlockStateManager) :
    ∃ content, m.stateFile = content ∧ stateHeaderSize ≤ content.length ∧
      fileTotal content = m.totalBlocks.toNat ∧
      content.drop stateHeaderSize
        = m.blocks.flatMap blockRecord ++ m.versions.entries.flatMap fun e => versionRow e.2 := by
  have hcontent := stateFile_eq m
  obtain ⟨-, -, -, htotal, -, -⟩ := stateHeader_fields m (computeCrc32 m.headerFields)
  have hheader := length_stateHeader m (computeCrc32 m.headerFields)
  generalize m.stateHeader (computeCrc32 m.headerFields) = header at hcontent htotal hheader
  refine ⟨_, hcontent, ?_, ?_, List.drop_left' hheader⟩
  · rw [List.length_append, hheader]
    exact Nat.le_add_right _ _
  · rw [fileTotal, u64, field_append_left (by rw [hheader]; decide)]
    exact congrArg UInt64.toNat htotal

/-- **A restart reads every block back** with its flag and its status, if the file is accepted. -/
theorem getElem?_reload {m : BlockStateManager} (h : Readable m) {slack : Nat → Vector UInt8 4}
    (hacc : (m.reload slack).1 = true) {i : Nat} {b : BlockState} (hb : m.blocks[i]? = some b) :
    ∃ b', (m.reload slack).2.blocks[i]? = some b' ∧ b'.changed = b.changed ∧ b'.ack = b.ack := by
  have hinit : m.initialized = true := by
    by_contra hnot
    rw [reload, save, if_neg hnot] at hacc
    cases hacc
  obtain ⟨content, hfile, hlen, htotal, hbody⟩ := stateFile_records m
  have hsaved : m.save.2.1 = some content := by rw [save, if_pos hinit, hfile]
  rw [reload, hsaved, initializeFrom] at hacc ⊢
  have hi := (List.getElem?_eq_some_iff.mp hb).1
  have hread : blockRecordSize * (i + 1) ≤ (content.drop stateHeaderSize).length := by
    rw [hbody, List.length_append, length_flatMap_of_length length_blockRecord]
    exact (Nat.mul_le_mul_left _ hi).trans (Nat.le_add_right _ _)
  refine ⟨_, getElem?_load hlen hacc (htotal ▸ hi.trans_le h.within) hread, ?_⟩
  rw [hbody, take_drop_flatMap length_blockRecord hb, deserializeBlock, u32_blockRecord]
  have hflags := flags_of_coded (h.coded b (List.mem_of_getElem? hb))
  exact ⟨hflags.2, hflags.1⟩

/-! ### One event -/

/-- Pending in a new full backup. -/
theorem pending_of_fullBlocks {m : BlockStateManager} {versionId totalBlocks : UInt64}
    {hash : Nat → Hash} (h : m.blocks = fullBlocks versionId totalBlocks hash) (i : Nat) :
    Pending m i ↔ i < totalBlocks.toNat := by
  rw [pending_iff, h, getElem?_fullBlocks]
  constructor
  · rintro ⟨b, hb, -⟩
    exact (Option.ite_none_right_eq_some.mp hb).1
  · exact fun hi => ⟨_, if_pos hi, rfl⟩

/-- **One event**: a pending block stays pending exactly when the event keeps it. -/
theorem pending_event_iff {m : BlockStateManager} (h : Readable m) {i : Nat} (hp : Pending m i)
    (e : Event) : Pending (m.event e) i ↔ Keeps m i e := by
  obtain ⟨b, hb, hneeds⟩ := pending_iff.mp hp
  obtain ⟨hchanged, hack⟩ : b.changed = true ∧ b.ack ≠ .acknowledged := by
    rwa [BlockState.needsUpload, Bool.and_eq_true, decide_eq_true_iff] at hneeds
  cases e with
  | save =>
      refine iff_of_true ?_ trivial
      rw [event, save]
      split <;> exact hp
  | reload slack =>
      rw [event, Keeps]
      constructor
      · intro hafter
        by_contra hrefused
        obtain ⟨c, hc, -⟩ := pending_iff.mp hafter
        have hempty : (m.reload slack).2.blocks = [] :=
          (load_refused (Bool.eq_false_iff.mpr hrefused)).2.1
        rw [hempty] at hc
        cases hc
      · intro hacc
        obtain ⟨b', hb', hchanged', hack'⟩ := getElem?_reload h hacc hb
        refine pending_iff.mpr ⟨b', hb', ?_⟩
        rw [BlockState.needsUpload, hchanged', hack']
        exact hneeds
  | operation op =>
      cases op with
      | createVersion => exact iff_of_true hp trivial
      | initFullBlocks versionId totalBlocks entries =>
          rw [event, apply, initFullBlocks, Keeps]
          cases m.versions.find? versionId.toNat with
          | none => exact iff_of_true hp fun hsome => Bool.noConfusion hsome
          | some ver => exact (pending_of_fullBlocks rfl i).trans ⟨fun hi _ => hi, fun hi => hi rfl⟩
      | initFullBlocksEmpty versionId totalBlocks =>
          rw [event, apply, initFullBlocksEmpty, Keeps]
          cases m.versions.find? versionId.toNat with
          | none => exact iff_of_true hp fun hsome => Bool.noConfusion hsome
          | some ver =>
              exact (pending_of_fullBlocks rfl i).trans ⟨fun hi _ => hi, fun hi => hi rfl⟩
      | setBlockHash blockIndex hash =>
          refine iff_of_true ?_ trivial
          have hget : (m.setBlockHash blockIndex hash).2.blocks[i]? = m.blocks[i]?.map fun c =>
              if blockIndex.toNat = i then { c with hash := hash } else c := by
            rw [blocks_setBlockHash, List.getElem?_modify]
            rfl
          refine (pending_of_getElem? hget hb).mpr ?_
          split <;> exact hneeds
      | updateIncrementalBlocks versionId changedIndexes hashes =>
          rw [event, apply, Keeps]
          by_cases hacc : m.UpdateAccepted versionId changedIndexes hashes
          · rw [forall_prop_of_true hacc,
              pending_of_getElem? (getElem?_updateIncrementalBlocks hacc i) hb,
              needsUpload_updatedBlock]
            exact find?_zip_isSome_iff hacc.1 i
          · rw [updateIncrementalBlocks_of_not_accepted hacc]
            exact iff_of_true hp fun hyes => absurd hyes hacc
      | setAck call status =>
          rw [event, apply, Keeps, pending_of_getElem? (getElem?_ackCall call status.1 m i) hb]
          by_cases hsets : call.Sets m.blocks.length i
          · rw [if_pos hsets, BlockState.needsUpload, hchanged, Bool.true_and, decide_eq_true_iff]
            exact ⟨fun hne heq => absurd heq hne, fun hnot heq => hnot heq hsets⟩
          · rw [if_neg hsets]
            exact iff_of_true hneeds fun _ => hsets

/-- **How long a block stays pending**, from any reachable state, whatever file the manager was
opened on. -/
theorem pending_iff_keeps (slack : Nat → Vector UInt8 4) (file : Option Bytes) (devNo : UInt32)
    (before events : List Event) (i : Nat)
    (hp : Pending (before.foldl event (initializeFrom slack file devNo).2) i) :
    (∀ es, es <+: events →
        Pending (es.foldl event (before.foldl event (initializeFrom slack file devNo).2)) i) ↔
      ∀ es e, es ++ [e] <+: events →
        Keeps (es.foldl event (before.foldl event (initializeFrom slack file devNo).2)) i e := by
  have hreadable : Readable (before.foldl event (initializeFrom slack file devNo).2) :=
    foldl_preserves (P := Readable) (fun _ e hs => readable_event hs e)
      (readable_initializeFrom slack file devNo) before
  generalize before.foldl event (initializeFrom slack file devNo).2 = m at hp hreadable ⊢
  have hall : ∀ es : List Event, Readable (es.foldl event m) :=
    foldl_preserves (P := Readable) (fun _ e hs => readable_event hs e) hreadable
  have hrun : (∀ es, es <+: events → Readable (es.foldl event m) ∧ Pending (es.foldl event m) i) ↔
      ∀ es e, es ++ [e] <+: events → Keeps (es.foldl event m) i e :=
    forall_prefix_iff (P := fun s => Readable s ∧ Pending s i)
      (fun s e hs =>
        (and_iff_right (readable_event hs.1 e)).trans (pending_event_iff hs.1 hs.2 e))
      ⟨hreadable, hp⟩ events
  rw [← hrun]
  exact forall₂_congr fun es _ => (and_iff_right (hall es)).symm

/-- A full backup of one block on a fresh directory. -/
def oneBlockEvents : List Event :=
  [.operation (.createVersion fullType 0 0 1 1048576), .operation (.initFullBlocksEmpty 0 1)]

theorem pending_oneBlock (slack : Nat → Vector UInt8 4) :
    Pending (oneBlockEvents.foldl event (initializeFrom slack none 0).2) 0 :=
  pending_iff.mpr ⟨fullBlock 0 .zero 0, rfl, rfl⟩

/-- The block is still pending after it was sent, and skipped. -/
theorem pending_iff_keeps_skipped :
    Pending (([.operation (.setAck (.one 0) ⟨.sent, trivial⟩),
        .operation (.setAck (.one 0) ⟨.skipped, trivial⟩)] : List Event).foldl event
      (oneBlockEvents.foldl event (initializeFrom (fun _ => .replicate 4 0) none 0).2)) 0 := by
  refine (pending_iff_keeps _ _ _ oneBlockEvents _ 0 (pending_oneBlock _)).mpr
    (fun es e hprefix => ?_) _ List.prefix_rfl
  have hmem := hprefix.subset (List.mem_append_right es (List.mem_singleton_self e))
  rw [List.mem_cons, List.mem_singleton] at hmem
  rcases hmem with rfl | rfl <;> exact fun hstatus => AckStatus.noConfusion hstatus

/-- **A pending block that is dropped without an acknowledgement**: the next incremental version
does not list it. -/
theorem pending_dropped_by_update :
    let m := oneBlockEvents.foldl event (initializeFrom (fun _ => .replicate 4 0) none 0).2
    let events : List Event :=
      [.operation (.createVersion [] 0 0 1 1048576), .operation (.updateIncrementalBlocks 1 [] [])]
    Pending m 0 ∧ (∀ e ∈ events, ∀ call status, e ≠ .operation (.setAck call status)) ∧
      ¬ Pending (events.foldl event m) 0 := by
  refine ⟨pending_oneBlock _, fun e he call status heq => ?_, ?_⟩
  · rw [heq, List.mem_cons, List.mem_singleton] at he
    rcases he with he | he <;> cases he
  · rintro ⟨b, hb, -⟩
    exact absurd (List.ne_nil_of_mem hb) (not_not.mpr (by decide +kernel))

end Go2Cbt.Client.BlockStateManager
