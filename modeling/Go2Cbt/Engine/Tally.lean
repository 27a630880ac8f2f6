import Go2Cbt.Engine.Accounting

/-!
# Engine — what the pipeline records

The callback records each acknowledgement in the block states and counts it.  As each block is
acknowledged once, the count, the number of acknowledged blocks and the count in the version
record are one number (`Records`).  With the accounts of the window this gives what a transfer
reports when it has awaited every acknowledgement (`pipeline_accounts`).
-/

namespace Go2Cbt.Engine

open Go2Cbt.Client Go2Cbt.Protocol

variable {σ : Type}

/-- The block whose acknowledgement was read and not recorded. -/
def Receiver.unset : Receiver → List UInt64
  | .setAck ack => [ack.blockIndex]
  | _ => []

/-- Whether a success was recorded and not counted. -/
def Receiver.recorded : Receiver → Nat
  | .count ack => if ack.status = 0 then 1 else 0
  | _ => 0

/-- The blocks in flight whose acknowledgement has not been recorded. -/
def Pipeline.unsettled (s : Pipeline σ) (acks : List AckBody) : List UInt64 :=
  s.receiver.unset ++ (acks.map AckBody.blockIndex ++ s.outgoing.map blockIndexOf)

theorem Pipeline.unsettled_sublist (s : Pipeline σ) (acks : List AckBody) :
    (s.unsettled acks).Sublist (s.flight acks) := by
  refine List.Sublist.append ?_ (List.Sublist.refl _)
  cases s.receiver with
  | setAck ack => exact List.Sublist.refl _
  | count ack => exact List.nil_sublist _
  | release ack => exact List.nil_sublist _
  | wait => exact List.Sublist.refl _
  | decrement released => exact List.Sublist.refl _
  | stopped => exact List.Sublist.refl _

/-- What the block states and the version have to do with the acknowledgements. -/
structure Records (job : Job) (versionId : UInt64) (s : Pipeline σ) (acks : List AckBody) :
    Prop where
  length : s.manager.blocks.length = job.totalBlocks.toNat
  version : ∀ bs ∈ s.manager.blocks, bs.versionId = versionId
  settled : ∀ (b : UInt64) (bs : BlockState), s.manager.blocks[b.toNat]? = some bs →
    bs.ack = .acknowledged → b.toNat < s.sender.next ∧ b ∉ s.unsettled acks
  count : s.ackedCount + s.receiver.recorded = s.manager.acknowledgedCount
  record : ∃ ver, s.manager.versions.find? versionId.toNat = some ver ∧
    ver.ackedBlocks.toNat = s.manager.acknowledgedCount

namespace Records

variable {job : Job} {versionId : UInt64} {out : Outside σ} {s t : Pipeline σ}
  {acks acks' : List AckBody}

/-- Nothing is recorded. -/
theorem keep (h : Records job versionId s acks) (hmanager : t.manager = s.manager)
    (hcount : t.ackedCount + t.receiver.recorded = s.ackedCount + s.receiver.recorded)
    (hnext : s.sender.next ≤ t.sender.next)
    (hunsettled : ∀ b ∈ t.unsettled acks', b ∈ s.unsettled acks ∨ s.sender.next ≤ b.toNat) :
    Records job versionId t acks' where
  length := hmanager ▸ h.length
  version := hmanager ▸ h.version
  settled b bs hb hack := by
    rw [hmanager] at hb
    obtain ⟨hlt, hnot⟩ := h.settled b bs hb hack
    refine ⟨hlt.trans_le hnext, fun hmem => ?_⟩
    rcases hunsettled b hmem with hmem | hle
    · exact hnot hmem
    · exact absurd hlt (not_lt.mpr hle)
  count := by rw [hcount, hmanager, h.count]
  record := hmanager ▸ h.record

/-- A hash is written. -/
theorem setBlockHash (h : Records job versionId s acks) (blockIndex : UInt64) (hash : Hash) :
    Records job versionId { s with manager := (s.manager.setBlockHash blockIndex hash).2 }
      acks where
  length := by
    dsimp only
    rw [BlockStateManager.blocks_setBlockHash, List.length_modify]
    exact h.length
  version bs hbs := by
    dsimp only at hbs
    rw [BlockStateManager.blocks_setBlockHash] at hbs
    obtain ⟨i, hi⟩ := List.getElem?_of_mem hbs
    rw [List.getElem?_modify] at hi
    obtain ⟨old, hold, rfl⟩ := Option.map_eq_some_iff.mp hi
    have hversion := h.version old (List.mem_of_getElem? hold)
    split
    · exact hversion
    · exact hversion
  settled b bs hb hack := by
    have hsame := s.manager.ack_setBlockHash blockIndex hash b.toNat
    rw [hb] at hsame
    obtain ⟨old, hold, heq⟩ := Option.map_eq_some_iff.mp hsame.symm
    exact h.settled b old hold (heq.trans hack)
  count := by
    dsimp only
    rw [BlockStateManager.acknowledgedCount_setBlockHash]
    exact h.count
  record := by
    dsimp only
    rw [BlockStateManager.acknowledgedCount_setBlockHash, BlockStateManager.versions_setBlockHash]
    exact h.record

/-- **The callback records an acknowledgement**, of a block that was not recorded before. -/
theorem setAck (h : Records job versionId s acks) (ha : Accounts job s acks) {ack : AckBody}
    (hr : s.receiver = .setAck ack) :
    Records job versionId
      { s with
        manager := (s.manager.setBlockAck ack.blockIndex (ackStatusOf ack)).2
        receiver := .count ack } acks := by
  have hmem : ack.blockIndex ∈ s.unsettled acks := by
    rw [Pipeline.unsettled, hr]
    exact List.mem_cons_self
  have hlt : ack.blockIndex.toNat < s.manager.blocks.length := by
    have hnext := ha.flight_lt ((s.unsettled_sublist acks).subset hmem)
    rw [h.length]
    exact hnext.trans_le ha.next_le
  have hold := List.getElem?_eq_getElem hlt
  have hversion := h.version _ (List.getElem_mem hlt)
  -- a block whose answer is still to be recorded is not acknowledged
  have hpending : s.manager.blocks[ack.blockIndex.toNat].ack ≠ .acknowledged :=
    fun hack => (h.settled ack.blockIndex _ hold hack).2 hmem
  have hnodup := ha.flight_nodup.sublist (s.unsettled_sublist acks)
  have hrest : s.unsettled acks
      = ack.blockIndex :: (acks.map AckBody.blockIndex ++ s.outgoing.map blockIndexOf) := by
    rw [Pipeline.unsettled, hr]
    rfl
  have hcount := BlockStateManager.acknowledgedCount_setBlockAck hold hpending (ackStatusOf ack)
  exact
    { length := by
        dsimp only
        rw [BlockStateManager.blocks_setBlockAck, List.length_modify]
        exact h.length
      version := fun bs hbs => by
        dsimp only at hbs
        rw [BlockStateManager.blocks_setBlockAck] at hbs
        obtain ⟨i, hi⟩ := List.getElem?_of_mem hbs
        rw [List.getElem?_modify] at hi
        obtain ⟨old, hold, rfl⟩ := Option.map_eq_some_iff.mp hi
        have hversion := h.version old (List.mem_of_getElem? hold)
        split
        · exact hversion
        · exact hversion
      settled := fun b bs hb hack => by
        dsimp only at hb ⊢
        by_cases hbb : ack.blockIndex = b
        · -- its number is unsettled once, and that once is used up
          subst hbb
          refine ⟨ha.flight_lt ((s.unsettled_sublist acks).subset hmem), fun hmem' => ?_⟩
          rw [hrest] at hnodup
          exact (List.nodup_cons.mp hnodup).1 hmem'
        · rw [BlockStateManager.getElem?_setBlockAck_ne _ _
            fun heq => hbb (UInt64.toNat_inj.mp heq)] at hb
          obtain ⟨hlt, hnot⟩ := h.settled b bs hb hack
          exact ⟨hlt, fun hmem' => hnot (hrest ▸ List.mem_cons_of_mem _ hmem')⟩
      count := by
        have hbefore := h.count
        rw [hr] at hbefore
        simp only [Receiver.recorded, hcount, ackStatusOf_eq_acknowledged_iff] at hbefore ⊢
        omega
      record := by
        obtain ⟨ver, hver, hacked⟩ := h.record
        have hversions := BlockStateManager.versions_setBlockAck hold hpending (ackStatusOf ack)
        rw [hversion, hver] at hversions
        refine ⟨_, hversions, ?_⟩
        have hbound : (s.manager.setBlockAck ack.blockIndex (ackStatusOf ack)).2.acknowledgedCount
            ≤ job.totalBlocks.toNat := by
          rw [← h.length, ← List.length_modify (fun bs => { bs with ack := ackStatusOf ack })
            s.manager.blocks ack.blockIndex.toNat, ← BlockStateManager.blocks_setBlockAck]
          exact List.countP_le_length
        have htotal := job.totalBlocks.toNat_lt
        rw [hcount] at hbound
        dsimp only
        rw [hcount]
        split
        · next hstatus =>
          rw [if_pos hstatus] at hbound
          -- the sum does not wrap: it counts blocks of the job
          rw [UInt64.toNat_add, hacked]
          exact Nat.mod_eq_of_lt (lt_of_le_of_lt hbound htotal)
        · rw [UInt64.add_zero]
          exact hacked }

/-- A step of the sending loop that changes no block state. -/
theorem sends (h : Records job versionId s acks) (hmanager : t.manager = s.manager)
    (hacked : t.ackedCount = s.ackedCount) (hreceiver : t.receiver = s.receiver)
    (hnext : s.sender.next ≤ t.sender.next) (houtgoing : t.outgoing = s.outgoing) :
    Records job versionId t acks := by
  refine h.keep hmanager (by rw [hacked, hreceiver]) hnext fun b hb => .inl ?_
  rw [Pipeline.unsettled, hreceiver, houtgoing] at hb
  exact hb

end Records

/-- **Every step keeps the records.** -/
theorem records_step {job : Job} {versionId : UInt64} {out : Outside σ} {s t : Pipeline σ}
    {p : Party} {acks acks' : List AckBody} (hout : out.AnswersNext s) (ha : Accounts job s acks)
    (ha' : Accounts job t acks') (h : Records job versionId s acks) (hst : Step job out s p t) :
    Records job versionId t acks' := by
  have hsame : t.incoming = s.incoming → acks' = acks := fun heq =>
    Frames.unique ha'.frames (heq ▸ ha.frames)
  cases hst with
  | finish hs _ | abort hs _ _ | timeout hs _ _ _ | awaited hs _ | interrupted hs _ _
  | giveUp hs _ _ | acquire hs _ _ _ | bind hs | readFails hs _ | hashFails hs _ _ | read hs _ _
  | sendFails hs _ | abandon hs | fail hs =>
      rw [hsame rfl]
      exact h.sends rfl rfl rfl (by rw [hs]; exact le_rfl) rfl
  | count hs =>
      rw [hsame rfl]
      exact h.sends rfl rfl rfl (by rw [hs]; exact le_rfl) rfl
  | skip hs =>
      rw [hsame rfl]
      exact h.sends rfl rfl rfl (by rw [hs]; exact Nat.le_succ _) rfl
  | @compressFails i k blockData hash hs _ =>
      rw [hsame rfl]
      exact (h.setBlockHash (UInt64.ofNat i) hash).sends rfl rfl rfl (by rw [hs]; exact le_rfl) rfl
  | @compress i k blockData compressed hash hs _ =>
      rw [hsame rfl]
      exact (h.setBlockHash (UInt64.ofNat i) hash).sends rfl rfl rfl (by rw [hs]; exact le_rfl) rfl
  | @send i k m hs _ =>
      rw [hsame rfl]
      have hm := ha.message i k m hs
      obtain ⟨hnumber, -⟩ := ha.current_notMem (k := k) (b := UInt64.ofNat i) (by rw [hs]; rfl)
      refine h.keep rfl rfl (by rw [hs]; exact Nat.le_succ _) fun b hb => ?_
      rw [Pipeline.unsettled] at hb
      simp only [List.map_append, List.map_cons, List.map_nil, ← List.append_assoc] at hb
      -- only the block that is sent becomes unsettled, and it is behind `next`
      rcases List.mem_append.mp hb with hb | hb
      · refine .inl ?_
        rw [Pipeline.unsettled, ← List.append_assoc]
        exact hb
      · refine .inr ?_
        rw [List.mem_singleton.mp hb, hm, hnumber, hs]
        exact le_rfl
  | join hs hr =>
      rw [hsame rfl]
      -- the receiving thread is joined between two answers
      have hidle : s.receiver.recorded = 0 ∧ s.receiver.unset = [] := by
        rcases hr with hr | hr
        · rw [hr]
          exact ⟨rfl, rfl⟩
        · rw [hr]
          exact ⟨rfl, rfl⟩
      refine h.keep rfl (by rw [hidle.1]; rfl) (by rw [hs]; exact le_rfl) fun b hb => .inl ?_
      rw [Pipeline.unsettled, hidle.2]
      exact hb
  | @receive ack hr hread hblock =>
      obtain ⟨rest, rfl, -, hnext⟩ := ha.read hr hread
      rw [Frames.unique ha'.frames hnext.frames]
      refine h.keep rfl (by rw [hr]; rfl) le_rfl fun b hb => .inl ?_
      rw [Pipeline.unsettled, hr]
      exact hb
  | receiveError hr hread hblock =>
      obtain ⟨rest, -, hlt, -⟩ := ha.read hr hread
      have htotal := job.totalBlocks.toNat_lt
      rw [hblock] at hlt
      exact absurd hlt (not_lt.mpr (Nat.le_of_lt_succ htotal))
  | receiveBad hr _ | receiveFails hr _ =>
      rw [hsame rfl]
      refine h.keep rfl (by rw [hr]; rfl) le_rfl fun b hb => .inl ?_
      rw [Pipeline.unsettled, hr]
      exact hb
  | setAck hr =>
      rw [hsame rfl]
      exact h.setAck ha hr
  | countAck hr =>
      rw [hsame rfl]
      refine h.keep rfl ?_ le_rfl fun b hb => .inl ?_
      · rw [hr]
        rfl
      · rw [Pipeline.unsettled, hr]
        exact hb
  | release hr | decrement hr =>
      rw [hsame rfl]
      refine h.keep rfl (by rw [hr]; rfl) le_rfl fun b hb => .inl ?_
      rw [Pipeline.unsettled, hr]
      exact hb
  | serve hserve =>
      obtain ⟨m, ack, hqueue, hframe, hblock⟩ := hout _ _ _ hserve
      rw [Frames.unique ha'.frames (ha.frames.snoc hframe)]
      refine h.keep rfl rfl le_rfl fun b hb => .inl ?_
      rw [Pipeline.unsettled, hqueue, List.map_cons, ← hblock]
      rw [Pipeline.unsettled, List.map_append, List.append_assoc] at hb
      exact hb

/-! ### Every reachable state -/

theorem Records.start (job : Job) (windowSize : Nat) (m : BlockStateManager)
    (snapshotTime now : UInt64) (server : σ) :
    Records job m.nextVersionId
      (.start windowSize (prepare m snapshotTime now job.totalBlocks job.totalSize).2 server)
      [] := by
  have hblocks : (Pipeline.start windowSize
      (prepare m snapshotTime now job.totalBlocks job.totalSize).2 server).manager.blocks
        = (List.range job.totalBlocks.toNat).map
            (BlockStateManager.fullBlock m.nextVersionId .zero) :=
    blocks_prepare m snapshotTime now job.totalBlocks job.totalSize
  have hcount : (Pipeline.start windowSize
      (prepare m snapshotTime now job.totalBlocks job.totalSize).2
        server).manager.acknowledgedCount = 0 := by
    rw [BlockStateManager.acknowledgedCount, hblocks, List.countP_map]
    exact List.countP_eq_zero.mpr fun i _ => Bool.false_ne_true
  exact
    { length := by rw [hblocks, List.length_map, List.length_range]
      version := fun bs hbs => by
        rw [hblocks] at hbs
        obtain ⟨i, -, rfl⟩ := List.mem_map.mp hbs
        rfl
      settled := fun b bs hb hack => by
        rw [hblocks, List.getElem?_map] at hb
        obtain ⟨i, -, rfl⟩ := Option.map_eq_some_iff.mp hb
        cases hack
      count := hcount.symm
      record := by
        obtain ⟨ver, hver, hacked⟩ := versions_prepare m snapshotTime now job.totalBlocks
          job.totalSize
        exact ⟨ver, hver, by rw [hcount, hacked]; rfl⟩ }

section Reached

variable {job : Job} {out : Outside σ} {windowSize : Nat} {m : BlockStateManager}
  {snapshotTime now : UInt64} {server : σ} {s : Pipeline σ}

/-- **The accounts and the records hold in every reachable state**, with any invariant that says
that the server answers next. -/
theorem accounts_with {Q : Pipeline σ → List AckBody → Prop}
    (hstart : Q (.start windowSize
      (prepare m snapshotTime now job.totalBlocks job.totalSize).2 server) [])
    (hnext : ∀ s acks, Accounts job s acks → Q s acks → out.AnswersNext s)
    (hstep : ∀ s p t acks acks', Accounts job s acks → Accounts job t acks' →
      Records job m.nextVersionId s acks → Q s acks → Step job out s p t → Q t acks')
    (h : Reached job out (.start windowSize
      (prepare m snapshotTime now job.totalBlocks job.totalSize).2 server) s) :
    ∃ acks, Accounts job s acks ∧ Records job m.nextVersionId s acks ∧ Q s acks := by
  refine Transition.Reachable.invariant
    (P := fun s => ∃ acks, Accounts job s acks ∧ Records job m.nextVersionId s acks ∧ Q s acks)
    ?_ ?_ h
  · rintro s rfl
    exact ⟨[], .start .., .start .., hstart⟩
  · rintro s p t ⟨acks, ha, hr, hq⟩ hst
    have hanswers := hnext s acks ha hq
    obtain ⟨acks', ha'⟩ := accounts_step hanswers ha hst
    exact ⟨acks', ha', records_step hanswers ha ha' hr hst,
      hstep s p t acks acks' ha ha' hr hq hst⟩

theorem length_releaseSlot (window : List Slot) (b : UInt64) :
    (releaseSlot window b).2.length = window.length := by
  rw [releaseSlot]
  split
  · rfl
  · exact List.length_modify ..

/-- The window keeps its size. -/
theorem length_window_of_reached {init : Pipeline σ} (h : Reached job out init s) :
    s.window.length = init.window.length := by
  refine Transition.Reachable.invariant (P := fun s => s.window.length = init.window.length)
    ?_ ?_ h
  · rintro s rfl
    rfl
  · intro s p t hs hst
    rw [← hs]
    cases hst
    case acquire => exact List.length_modify ..
    case bind => exact List.length_modify ..
    case skip => exact List.length_modify ..
    case abandon => exact List.length_modify ..
    case release => exact length_releaseSlot ..
    all_goals rfl

end Reached

/-- What the counters say when every acknowledgement was awaited. -/
theorem Records.totals {job : Job} {versionId : UInt64} {s : Pipeline σ} {acks : List AckBody}
    (hr : Records job versionId s acks) (ha : Accounts job s acks) {total : Nat}
    (hdone : s.sender = .done total true) :
    s.ackedCount + s.failedCount = s.sentCount ∧
      s.stats.sentBlocks + s.stats.skippedBlocks = total ∧
      s.stats.ackedBlocks = s.manager.acknowledgedCount ∧
      ∃ ver, s.manager.versions.find? versionId.toNat = some ver ∧
        ver.ackedBlocks.toNat = s.stats.ackedBlocks := by
  -- Nothing is in flight any more, so that everything that was sent was counted.
  have hzero := ha.awaited _ (.inr hdone)
  have hinFlight := ha.inFlight
  have hcounted := ha.counted
  have hturns := ha.turns
  have hsent := ha.sent
  have hcount := hr.count
  obtain ⟨ver, hver, hacked⟩ := hr.record
  rw [hdone] at hinFlight hturns hsent
  simp only [Pipeline.flight, List.length_append, List.length_map, Sender.uncounted, Sender.pos]
    at hinFlight hturns hsent
  have hpending : s.receiver.pending.length = 0 := by omega
  have hidle : s.receiver.uncounted = 0 ∧ s.receiver.recorded = 0 := by
    cases hrec : s.receiver <;> rw [hrec] at hpending <;> first
      | exact ⟨rfl, rfl⟩
      | cases hpending
  rw [hidle.2, Nat.add_zero] at hcount
  exact ⟨by omega, hturns, hcount, ver, hver, hacked.trans hcount.symm⟩

/-- **The window and the counters of a pipelined transfer**, in every order of its steps.  The
blocks in flight are those that were sent and whose acknowledgement has not been handled, in the
order they were sent.  Each owns one slot of its own, and the callback frees the slot of its block.
When the loop has gone over all blocks and every acknowledgement was awaited, every block is
accounted for. -/
theorem pipeline_accounts {out : Outside σ} (hout : out.AnswersEach) (job : Job)
    (windowSize : Nat) (m : BlockStateManager) (snapshotTime now : UInt64) (server : σ)
    {s : Pipeline σ}
    (h : Reached job out (.start windowSize
      (prepare m snapshotTime now job.totalBlocks job.totalSize).2 server) s) :
    s.window.countP Slot.inUse ≤ windowSize ∧
    (∃ acks handled, Frames s.incoming acks ∧
      s.sent.map blockIndexOf = handled ++ s.flight acks ∧
      (∀ b ∈ s.flight acks, ∃! k, ownerIn s.window s.sender.binding k = some b) ∧
      ∀ b ∈ s.flight acks, ∀ c ∈ s.flight acks, ∀ k,
        ownerIn s.window s.sender.binding k = some b →
          ownerIn s.window s.sender.binding k = some c → b = c) ∧
    (∀ ack, s.receiver = .release ack →
      ∃ k, ownerIn s.window s.sender.binding k = some ack.blockIndex ∧
        releaseSlot s.window ack.blockIndex = (true, freeSlot s.window k)) ∧
    (s.sender = .done job.totalBlocks.toNat true →
      s.ackedCount + s.failedCount = s.sentCount ∧
        s.stats.sentBlocks + s.stats.skippedBlocks = job.totalBlocks.toNat ∧
        s.stats.ackedBlocks = s.manager.acknowledgedCount ∧
        ∃ ver, s.manager.versions.find? m.nextVersionId.toNat = some ver ∧
          ver.ackedBlocks.toNat = s.stats.ackedBlocks) := by
  obtain ⟨acks, ha, hr, -⟩ := accounts_with (Q := fun _ _ => True) trivial
    (fun _ _ _ _ _ _ _ => hout _ _ _ _ _) (fun _ _ _ _ _ _ _ _ _ _ => trivial) h
  refine ⟨?_, ?_, fun ack hack => ha.releaseSlot_eq hack, fun hdone => hr.totals ha hdone⟩
  · have hlength := length_window_of_reached h
    rw [show (Pipeline.start windowSize _ server).window.length = windowSize from
      List.length_replicate] at hlength
    exact hlength ▸ List.countP_le_length
  · obtain ⟨handled, hfifo⟩ := ha.fifo
    refine ⟨acks, handled, ha.frames, hfifo, fun b hb => ha.window.held.existsUnique (.inl hb), ?_⟩
    intro b _ c _ k hb hc
    exact Option.some.inj (hb.symm.trans hc)

/-! ### A transfer in which nothing fails -/

/-- Between two blocks, with a window of one slot: nothing is on its way and nothing has failed. -/
structure Quiet (s : Pipeline σ) (i : Nat) : Prop where
  sender : s.sender = .turn i
  receiver : s.receiver = .wait
  window : ∃ b, s.window = [{ inUse := false, blockIndex := b }]
  inFlightCount : s.inFlightCount = 0
  pipelineError : s.pipelineError = false
  outgoing : s.outgoing = []
  incoming : s.incoming = []

/-- Block `i` is read, compressed and sent, and the server answers it with `ack`. -/
structure Exchanges (job : Job) (out : Outside σ) (i : Nat) (server : σ) (ack : AckBody)
    (server' : σ) : Prop where
  block : ack.blockIndex = UInt64.ofNat i
  calls : ∃ data hash compressed frame,
    out.readFile (UInt64.ofNat i * UInt64.ofNat Go2Cbt.blockSize) (job.blockSize i) (some data) ∧
      out.computeBlockHash data (some hash) ∧ out.compress data (some compressed) ∧
      out.sendBlockNoWait (job.message i compressed hash) true ∧
      out.serve server [job.message i compressed hash] frame server' [] ∧ IsAckFrame frame ack

theorem quiet_start (m : BlockStateManager) (server : σ) : Quiet (.start 1 m server) 0 where
  sender := rfl
  receiver := rfl
  window := ⟨0, rfl⟩
  inFlightCount := rfl
  pipelineError := rfl
  outgoing := rfl
  incoming := rfl

/-- One block.  Its acknowledgement is handled before it is counted. -/
theorem Quiet.exchange {job : Job} {out : Outside σ} {init s : Pipeline σ} {i : Nat} (h : Quiet s i)
    (hs : Reached job out init s) (hi : i < job.totalBlocks.toNat) {ack : AckBody} {server' : σ}
    (hex : Exchanges job out i s.server ack server') :
    ∃ t, Reached job out init t ∧ Quiet t (i + 1) ∧ t.server = server' ∧
      t.skippedCount = s.skippedCount ∧ t.received = s.received ++ [ack] := by
  obtain ⟨hblock, data, hash, compressed, frame, hread, hhash, hcompress, hsend, hserve, hframe⟩ :=
    hex
  obtain ⟨window, inFlightCount, acked, failed, error, manager, sender, sent, skipped, failedBlocks,
    total, receiver, outgoing, incoming, server, sentMessages, received⟩ := s
  obtain ⟨rfl, rfl, ⟨b, rfl⟩, rfl, rfl, rfl, rfl⟩ := h
  obtain ⟨index, status, devNo, ackHash⟩ := ack
  obtain rfl : index = UInt64.ofNat i := hblock
  have hindex : UInt64.ofNat i ≠ connectionError := by
    intro heq
    have hmod := congrArg UInt64.toNat heq
    rw [Accounts.toNat_ofNat hi] at hmod
    have hlt := job.totalBlocks.toNat_lt
    have hlast : connectionError.toNat = 2 ^ 64 - 1 := rfl
    omega
  have h₁ : Transition.Reachable (Step job out) (· = init) _ :=
    hs.next (.acquire (k := 0) rfl hi rfl rfl)
  have h₂ := (h₁.next (.bind rfl)).next (.read rfl hread hhash)
  have h₃ := ((h₂.next (.compress rfl hcompress)).next (.send rfl hsend)).next (.serve hserve)
  have h₄ := h₃.next (.receive rfl
    (((congrArg readAck (List.append_nil frame)).symm.trans (readAck_frame hframe [])) :) hindex)
  have h₅ := ((h₄.next (.setAck rfl)).next (.countAck rfl)).next (.release rfl)
  have h₆ := (h₅.next (.count rfl)).next (.decrement rfl)
  have hslot : releaseSlot [{ inUse := true, blockIndex := UInt64.ofNat i }] (UInt64.ofNat i)
      = (true, [{ inUse := false, blockIndex := UInt64.ofNat i }]) := by
    simp [releaseSlot]
  refine ⟨_, h₆, ⟨rfl, rfl, ⟨UInt64.ofNat i, congrArg Prod.snd hslot⟩, ?_, rfl, rfl, ?_⟩, rfl, rfl,
    rfl⟩
  · exact congrArg (fun r : Bool × List Slot => (0 : Int) + 1 - if r.1 then 1 else 0) hslot
  · exact List.drop_of_length_le hframe.length_eq.le

/-- **A disk can be backed up**, if every block is answered. -/
theorem allBlocks_reached {job : Job} {out : Outside σ} (m : BlockStateManager)
    (snapshotTime now : UInt64) {server : Nat → σ} {ack : Nat → AckBody}
    (hex : ∀ i < job.totalBlocks.toNat, Exchanges job out i (server i) (ack i) (server (i + 1))) :
    ∃ s, Reached job out
        (.start 1 (prepare m snapshotTime now job.totalBlocks job.totalSize).2 (server 0)) s ∧
      s.sender = .done job.totalBlocks.toNat true ∧ s.skippedCount = 0 ∧
      s.received = (List.range job.totalBlocks.toNat).map ack := by
  have hturns : ∀ n ≤ job.totalBlocks.toNat, ∃ s, Reached job out
      (.start 1 (prepare m snapshotTime now job.totalBlocks job.totalSize).2 (server 0)) s ∧
        Quiet s n ∧ s.server = server n ∧ s.skippedCount = 0 ∧
        s.received = (List.range n).map ack := by
    intro n hn
    induction n with
    | zero => exact ⟨_, ⟨_, [], rfl, .nil _⟩, quiet_start _ _, rfl, rfl, rfl⟩
    | succ n ih =>
        obtain ⟨s, hs, hquiet, hserver, hskipped, hreceived⟩ := ih (Nat.le_of_succ_le hn)
        obtain ⟨t, ht, hquiet', hserver', hskipped', hreceived'⟩ :=
          hquiet.exchange hs hn (hserver ▸ hex n hn)
        refine ⟨t, ht, hquiet', hserver', hskipped'.trans hskipped, ?_⟩
        rw [hreceived', hreceived, List.range_succ, List.map_append, List.map_singleton]
  obtain ⟨s, hs, hquiet, -, hskipped, hreceived⟩ := hturns _ (le_refl _)
  have h₁ := (hs.next (.finish hquiet.sender rfl)).next (.awaited rfl hquiet.inFlightCount.le)
  exact ⟨_, h₁.next (.join rfl (.inl hquiet.receiver)), rfl, hskipped, hreceived⟩

/-- The answer that a message was taken. -/
def okAck (m : ClientMessage) : Bytes :=
  (MsgHeader.mk protocolMagic MessageType.ack.code 0 0).bytes
    ++ (AckBody.mk (blockIndexOf m) 0 0 .zero).bytes

theorem isAckFrame_okAck (m : ClientMessage) :
    IsAckFrame (okAck m) (AckBody.mk (blockIndexOf m) 0 0 .zero) :=
  ⟨_, rfl, rfl, rfl⟩

/-- Nothing fails, and the server acknowledges every block. -/
def noFaults : Outside Unit where
  readFile _ _ r := r = some []
  computeBlockHash _ r := r = some .zero
  compress _ r := r = some []
  sendBlockNoWait _ sent := sent = true
  timesOut := False
  receiveFails := False
  serve _ queue reply _ queue' := ∃ m, queue = m :: queue' ∧ reply = okAck m

theorem answersEach_noFaults : noFaults.AnswersEach := by
  rintro _ _ _ _ _ ⟨m, hqueue, rfl⟩
  exact ⟨m, _, hqueue, isAckFrame_okAck m, rfl⟩

theorem exchanges_noFaults (job : Job) (i : Nat) :
    Exchanges job noFaults i () (AckBody.mk (UInt64.ofNat i) 0 0 .zero) () where
  block := rfl
  calls := ⟨_, _, _, _, rfl, rfl, rfl, rfl, ⟨_, rfl, rfl⟩, isAckFrame_okAck _⟩

/-- A disk of two megabytes. -/
def twoMegabytes : Job := { devNo := 0, versionId := 0, totalBlocks := 2, totalSize := 2097152 }

theorem twoMegabytes_accounts :
    ∃ s : Pipeline Unit, s.sender = .done 2 true ∧ s.ackedCount + s.failedCount = s.sentCount ∧
      s.stats.sentBlocks + s.stats.skippedBlocks = 2 ∧
      s.stats.ackedBlocks = s.manager.acknowledgedCount := by
  obtain ⟨s, hs, hdone, -⟩ := allBlocks_reached .new 0 0 fun i _ =>
    exchanges_noFaults twoMegabytes i
  obtain ⟨hcount, hblocks, hacked, -⟩ :=
    (pipeline_accounts answersEach_noFaults twoMegabytes 1 .new 0 0 () hs).2.2.2 hdone
  exact ⟨s, hdone, hcount, hblocks, hacked⟩

end Go2Cbt.Engine
