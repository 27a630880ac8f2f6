import Go2Cbt.Engine.AckMatching
import Go2Cbt.Engine.CleanTransfer
import Go2Cbt.Engine.Tiling
import Go2Cbt.Link.InPlace

/-!
# Link — what is acknowledged is written: the pipeline

The acknowledgements that were read or are on their way back are those of the blocks that the
server has handled, and each with status 0 is of a block in its place.  No block is sent twice and
the blocks of a disk do not overlap, so that the blocks the server handles later leave it there
(`backed_step`).
-/

namespace Go2Cbt.Link

open Go2Cbt.Protocol Go2Cbt.Client Go2Cbt.Engine Go2Cbt.Server

/-- What the server has to do with the acknowledgements. -/
structure Backed (libs : Libs) (s : Pipeline Peer) (acks : List AckBody) : Prop where
  greeted : s.server.Greeted
  ready : ∀ i k m, s.sender = .send i k m → IsBlock m
  blocks : ∀ m ∈ s.outgoing, IsBlock m ∧ m ∈ s.sent
  written : ∀ ack, ack ∈ s.received ∨ ack ∈ acks → ack.status = 0 →
    ∃ m ∈ s.sent, blockIndexOf m = ack.blockIndex ∧ InPlace libs s.server.serving.files m
  recorded : ∀ (b : UInt64) (bs : BlockState), s.manager.blocks[b.toNat]? = some bs →
    bs.ack = .acknowledged → ∃ ack ∈ s.received, ack.blockIndex = b ∧ ack.status = 0
  pending : ∀ ack, s.receiver = .setAck ack → ack ∈ s.received

section Backed

variable {libs : Libs} {out : Outside Peer} {devNo versionId : UInt32} {totalSize : UInt64}
  {s t : Pipeline Peer} {acks acks' : List AckBody} {p : Party}

/-- The server answers what comes next. -/
theorem Backed.answersNext (hserve : out.serve = takes libs) (h : Backed libs s acks) :
    out.AnswersNext s := by
  intro reply st' queue' hst
  rw [hserve] at hst
  obtain ⟨⟨-, m, hqueue, rfl, rfl⟩, hsend⟩ := hst
  obtain ⟨-, ack, hanswer, hblock, -⟩ := answer_block libs h.greeted
    (h.blocks m (hqueue ▸ List.mem_cons_self)).1 (hsend m (hqueue ▸ rfl))
  exact ⟨m, ack, hqueue, hanswer ▸ ⟨_, rfl, rfl, rfl⟩, hblock⟩

/-- The steps of the client that neither send, read nor record. -/
theorem Backed.keep (h : Backed libs s acks) (hserver : t.server = s.server)
    (houtgoing : t.outgoing = s.outgoing) (hsent : t.sent = s.sent)
    (hreceived : t.received = s.received)
    (hmanager : ∀ i : Nat,
      t.manager.blocks[i]?.map BlockState.ack = s.manager.blocks[i]?.map BlockState.ack)
    (hready : ∀ i k m, t.sender = .send i k m → IsBlock m)
    (hpending : ∀ ack, t.receiver = .setAck ack → s.receiver = .setAck ack) :
    Backed libs t acks where
  greeted := hserver ▸ h.greeted
  ready := hready
  blocks := by
    rw [houtgoing, hsent]
    exact h.blocks
  written := by
    rw [hreceived, hsent, hserver]
    exact h.written
  recorded := by
    intro b bs hbs hacked
    have hsame := hmanager b.toNat
    rw [hbs] at hsame
    obtain ⟨old, hold, heq⟩ := Option.map_eq_some_iff.mp hsame.symm
    rw [hreceived]
    exact h.recorded b old hold (heq.trans hacked)
  pending := fun ack hack => hreceived ▸ h.pending ack (hpending ack hack)

/-- The block that the server handles next is none of those whose acknowledgements are there. -/
theorem notMem_of_outgoing (ha : Accounts (Job.full devNo versionId totalSize) s acks)
    (hanswered : Answered s acks) {m : ClientMessage} {queue : List ClientMessage}
    (hqueue : s.outgoing = m :: queue) {ack : AckBody} (hack : ack ∈ s.received ∨ ack ∈ acks) :
    placeOf (blockIndexOf m) ≠ ack.blockIndex.toNat ∧ ack.blockIndex.toNat < 2 ^ 44 := by
  have hfifo := hanswered.fifo
  rw [← List.append_assoc, ← List.map_append, hqueue] at hfifo
  have htotal := totalBlocks_full_lt devNo versionId totalSize
  have hlt : ∀ b ∈ s.sent.map blockIndexOf, b.toNat < 2 ^ 44 := by
    intro b hb
    obtain ⟨m', hm', rfl⟩ := List.mem_map.mp hb
    exact ((ha.below m' hm').trans_le ha.next_le).trans htotal
  have hmem : ack.blockIndex ∈ (s.received ++ acks).map AckBody.blockIndex :=
    List.mem_map_of_mem (List.mem_append.mpr hack)
  have hm : blockIndexOf m ∈ s.sent.map blockIndexOf := by
    rw [hfifo]
    exact List.mem_append_right _ List.mem_cons_self
  have hack' : ack.blockIndex ∈ s.sent.map blockIndexOf := by
    rw [hfifo]
    exact List.mem_append_left _ hmem
  have hnodup := ha.nodup
  rw [hfifo, List.nodup_append] at hnodup
  refine ⟨fun heq => ?_, hlt _ hack'⟩
  rw [placeOf, Nat.mod_eq_of_lt (hlt _ hm)] at heq
  exact hnodup.2.2 _ hmem _ List.mem_cons_self (UInt64.toNat_inj.mp heq).symm

/-- **Every step keeps the acknowledged blocks in their places**, whoever takes it. -/
theorem backed_step (hserve : out.serve = takes libs)
    (ha : Accounts (Job.full devNo versionId totalSize) s acks)
    (ha' : Accounts (Job.full devNo versionId totalSize) t acks') (hanswered : Answered s acks)
    (h : Backed libs s acks) (hst : Step (Job.full devNo versionId totalSize) out s p t) :
    Backed libs t acks' := by
  have hsame : t.incoming = s.incoming → acks' = acks := fun heq =>
    Frames.unique ha'.frames (heq ▸ ha.frames)
  have hack := hst.ack_eq
  cases hst with
  | finish _ _ | abort _ _ _ | timeout _ _ _ _ | acquire _ _ _ _ | bind _ | readFails _ _
  | hashFails _ _ _ | read _ _ _ | sendFails _ _ | count _ | skip _ | abandon _ | fail _
  | awaited _ _ | interrupted _ _ _ | giveUp _ _ _ =>
      -- steps of the sending loop: the records and the written blocks stay
      rw [hsame rfl]
      exact h.keep rfl rfl rfl rfl (fun _ => rfl) (fun _ _ _ hs => Sender.noConfusion hs)
        fun _ hr => hr
  | join _ _ =>
      rw [hsame rfl]
      exact h.keep rfl rfl rfl rfl (fun _ => rfl) (fun _ _ _ hs => Sender.noConfusion hs)
        fun _ hr => Receiver.noConfusion hr
  | compressFails _ _ =>
      rw [hsame rfl]
      exact h.keep rfl rfl rfl rfl (fun i => s.manager.ack_setBlockHash _ _ i)
        (fun _ _ _ hs => Sender.noConfusion hs) fun _ hr => hr
  | compress _ _ =>
      rw [hsame rfl]
      refine h.keep rfl rfl rfl rfl (fun i => s.manager.ack_setBlockHash _ _ i) ?_ fun _ hr => hr
      rintro i k m ⟨⟩
      exact trivial
  | @send i k m hs _ =>
      rw [hsame rfl]
      refine
        { greeted := h.greeted
          ready := fun _ _ _ hs => Sender.noConfusion hs
          blocks := fun m' hm' => ?_
          written := fun ack hack hstatus => ?_
          recorded := h.recorded
          pending := h.pending }
      · rcases List.mem_append.mp hm' with hm' | hm'
        · exact ⟨(h.blocks m' hm').1, List.mem_append_left _ (h.blocks m' hm').2⟩
        · rw [List.mem_singleton.mp hm']
          exact ⟨h.ready i k m hs, List.mem_append_right _ (List.mem_singleton_self m)⟩
      · obtain ⟨m', hm', hblock, hplace⟩ := h.written ack hack hstatus
        exact ⟨m', List.mem_append_left _ hm', hblock, hplace⟩
  | @receive ack hr hread _ =>
      -- the answer that is read moves from those on their way to those received
      obtain ⟨rest, rfl, -, hnext⟩ := ha.read hr hread
      rw [Frames.unique ha'.frames hnext.frames]
      refine
        { greeted := h.greeted
          ready := h.ready
          blocks := h.blocks
          written := fun ack' hack' => h.written ack' ?_
          recorded := fun b bs hbs hacked => ?_
          pending := fun ack' hack' => ?_ }
      · simpa [or_assoc] using hack'
      · obtain ⟨ack', hack', hrest⟩ := h.recorded b bs hbs hacked
        exact ⟨ack', List.mem_append_left _ hack', hrest⟩
      · cases hack'
        exact List.mem_append_right _ (List.mem_singleton_self _)
  | receiveError hr hread hblock =>
      -- no server answers for a block behind the last one
      obtain ⟨rest, -, hlt, -⟩ := ha.read hr hread
      have htotal := (Job.full devNo versionId totalSize).totalBlocks.toNat_lt
      rw [hblock] at hlt
      exact absurd hlt (not_lt.mpr (Nat.le_of_lt_succ htotal))
  | receiveBad _ _ | receiveFails _ _ | countAck _ | release _ | decrement _ =>
      rw [hsame rfl]
      exact h.keep rfl rfl rfl rfl (fun _ => rfl) h.ready fun _ hr => Receiver.noConfusion hr
  | @setAck ack hr =>
      rw [hsame rfl]
      refine
        { greeted := h.greeted
          ready := h.ready
          blocks := h.blocks
          written := h.written
          recorded := fun b bs hbs hacked => ?_
          pending := fun _ hr => Receiver.noConfusion hr }
      dsimp only at hbs
      -- the callback records one block, the one of the answer at hand
      by_cases hb : ack.blockIndex = b
      · subst hb
        rw [BlockStateManager.getElem?_setBlockAck_self] at hbs
        obtain ⟨old, -, rfl⟩ := Option.map_eq_some_iff.mp hbs
        exact ⟨ack, h.pending ack hr, rfl, ackStatusOf_eq_acknowledged_iff.mp hacked⟩
      · rw [BlockStateManager.getElem?_setBlockAck_ne _ _ fun h => hb (UInt64.toNat_inj.mp h)]
          at hbs
        exact h.recorded b bs hbs hacked
  | serve hst =>
      -- the block at the front is new, so that no written block is touched
      rw [hserve] at hst
      obtain ⟨⟨-, m, hqueue, rfl, rfl⟩, hsend⟩ := hst
      have hsendable := hsend m (hqueue ▸ rfl)
      obtain ⟨hm, hmsent⟩ := h.blocks m (hqueue ▸ List.mem_cons_self)
      obtain ⟨hgreeted, ack, hanswer, hblock, hplace⟩ :=
        answer_block libs h.greeted hm hsendable
      have hframe : IsAckFrame (s.server.answer libs m) ack := hanswer ▸ ⟨_, rfl, rfl, rfl⟩
      rw [Frames.unique ha'.frames (ha.frames.snoc hframe)]
      refine
        { greeted := hgreeted
          ready := h.ready
          blocks := fun m' hm' => h.blocks m' (hqueue ▸ List.mem_cons_of_mem m hm')
          written := fun ack' hack' hstatus => ?_
          recorded := h.recorded
          pending := h.pending }
      have hcases : (ack' ∈ s.received ∨ ack' ∈ acks) ∨ ack' = ack := by
        simpa [or_assoc] using hack'
      rcases hcases with hold | rfl
      · obtain ⟨m', hm', hblock', hplace'⟩ := h.written ack' hold hstatus
        obtain ⟨hne, hlt⟩ := notMem_of_outgoing ha hanswered hqueue hold
        rw [← hblock'] at hne hlt
        exact ⟨m', hm', hblock', hplace'.handle hlt h.greeted hm hsendable hne⟩
      · have hlt := (ha.below m hmsent).trans_le ha.next_le
        exact ⟨m, hmsent, hblock.symm,
          hplace hstatus (hlt.trans (totalBlocks_full_lt devNo versionId totalSize))⟩

/-- The accounts hold in every reachable state, and what is acknowledged is backed. -/
theorem backed_of_reached {windowSize : Nat} {m : BlockStateManager} {snapshotTime now : UInt64}
    {server : Peer} (hserve : out.serve = takes libs) (hserver : server.Greeted)
    (h : Reached (Job.full devNo versionId totalSize) out (.start windowSize
      (prepare m snapshotTime now (Job.full devNo versionId totalSize).totalBlocks totalSize).2
        server) s) :
    ∃ acks, Accounts (Job.full devNo versionId totalSize) s acks ∧ Answered s acks ∧
      Backed libs s acks := by
  refine Transition.Reachable.invariant (P := fun s => ∃ acks,
    Accounts (Job.full devNo versionId totalSize) s acks ∧ Answered s acks ∧ Backed libs s acks)
    ?_ ?_ h
  · rintro s rfl
    refine ⟨[], .start .., ⟨rfl, fun _ _ hs => Sender.noConfusion hs⟩, ?_⟩
    exact
      { greeted := hserver
        ready := fun _ _ _ hs => Sender.noConfusion hs
        blocks := fun _ hm => absurd hm List.not_mem_nil
        written := fun _ hack _ => absurd hack (by simp [Pipeline.start])
        recorded := fun _ bs hbs hacked =>
          absurd hacked (ack_prepare m snapshotTime now _ totalSize bs (List.mem_of_getElem? hbs))
        pending := fun _ hr => Receiver.noConfusion hr }
  · rintro s p t ⟨acks, ha, hanswered, hbacked⟩ hst
    have hanswers := hbacked.answersNext hserve
    obtain ⟨acks', ha'⟩ := accounts_step hanswers ha hst
    exact ⟨acks', ha', answered_step hanswers ha ha' hanswered hst,
      backed_step hserve ha ha' hanswered hbacked hst⟩

/-- **A block that the client has recorded as acknowledged is in its place.** -/
theorem inPlace_of_recorded {windowSize : Nat} {m : BlockStateManager} {snapshotTime now : UInt64}
    {server : Peer} (hserve : out.serve = takes libs) (hserver : server.Greeted)
    (h : Reached (Job.full devNo versionId totalSize) out (.start windowSize
      (prepare m snapshotTime now (Job.full devNo versionId totalSize).totalBlocks totalSize).2
        server) s)
    {b : UInt64} {bs : BlockState} (hbs : s.manager.blocks[b.toNat]? = some bs)
    (hacked : bs.ack = .acknowledged) :
    ∃ m ∈ s.sent, blockIndexOf m = b ∧ InPlace libs s.server.serving.files m := by
  obtain ⟨acks, -, -, hbacked⟩ := backed_of_reached hserve hserver h
  obtain ⟨ack, hack, rfl, hstatus⟩ := hbacked.recorded b bs hbs hacked
  exact hbacked.written ack (.inl hack) hstatus

end Backed

end Go2Cbt.Link
