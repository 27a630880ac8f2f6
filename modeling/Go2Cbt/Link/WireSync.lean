import Go2Cbt.Link.OverWire

/-!
# Link — the bytes on the way: the synchronous transfer

`TransferBlocks` over the bytes of `Wire`.  The client waits for every answer, yet what has arrived
of an answer is still any part of it, and once the connection has failed the messages that are on
their way may still be handled.  The transfer does what it does with whole messages, and the other
way round (`sync_wire_refines`), so that what is acknowledged is in its place, and what the files
hold was on the disk (`sync_safe_over_wire`).
-/

namespace Go2Cbt.Link

open Go2Cbt.Protocol Go2Cbt.Client Go2Cbt.Engine Go2Cbt.Server

/-- The synchronous transfer over bytes, seen with whole messages. -/
def syncSeenAs (c : Synchronous Wire) (pending : List ClientMessage) (live : Bool) :
    Synchronous Peer :=
  { manager := c.manager
    connected := c.connected
    point := c.point
    outgoing := pending ++ c.outgoing
    incoming := c.incoming ++ c.server.answers
    server := { serving := c.server.host.view.state, live }
    sent := c.sent
    acknowledged := c.acknowledged }

/-- The state of the transfer over bytes, and what it is with whole messages. -/
def SyncSeen (c : Synchronous Wire) (a : Synchronous Peer) : Prop :=
  ∃ pending live, a = syncSeenAs c pending live ∧ Passing c.server c.outgoing pending live ∧
    c.point.AtHand ClientMessage.Sendable

theorem transferSize_le (totalBlocks : UInt64) (place : UInt64 × UInt64) :
    (transferSize totalBlocks place).toNat ≤ blockSize := by
  rw [transferSize]
  split
  · next hshort =>
    have hlt := UInt64.lt_iff_toNat_lt.mp hshort.2
    rw [UInt64.toNat_toUInt32]
    exact (Nat.mod_le _ _).trans hlt.le
  · exact le_rfl

section Simulation

variable {libs : Libs} {σ : Type} {out : Outside σ} {job : SyncJob}

variable (out job) in
/-- Messages that are handled are served one by one. -/
theorem sync_run_of_handles {p p' : Peer} {handled : List ClientMessage} {reply : Bytes}
    (h : Handles libs p handled reply p') (a : Synchronous Peer) (queue : List ClientMessage) :
    ∃ bs, Transition.Run (SyncStep job (out.servedBy (takes libs)))
      { a with outgoing := handled ++ queue, server := p } bs
      { a with outgoing := queue, server := p', incoming := a.incoming ++ reply } := by
  induction h generalizing a with
  | nil p =>
      refine ⟨[], ?_⟩
      rw [List.append_nil]
      exact .nil _
  | @cons p p' m ms reply hlive hm h ih =>
      obtain ⟨bs, hrun⟩ := ih { a with incoming := a.incoming ++ p.answer libs m }
      refine ⟨.server :: bs, .cons (t := { a with
        outgoing := ms ++ queue, server := p.handle libs m,
        incoming := a.incoming ++ p.answer libs m }) ?_ ?_⟩
      · refine SyncStep.serve ⟨⟨hlive, m, rfl, rfl, rfl⟩, fun m' hm' => ?_⟩
        cases hm'
        exact hm
      · dsimp only at hrun
        rw [List.append_assoc] at hrun
        exact hrun

/-- One step of the client is one step. -/
theorem syncSeen_of_step {c c' : Synchronous Wire} {pending : List ClientMessage} {live : Bool}
    {p : Party}
    (hst : SyncStep job (out.servedBy (takes libs)) (syncSeenAs c pending live) p
      (syncSeenAs c' pending live))
    (h : Passing c'.server c'.outgoing pending live)
    (hprepared : c'.point.AtHand ClientMessage.Sendable) :
    ∃ bs a, Transition.Run (SyncStep job (out.servedBy (takes libs)))
        (syncSeenAs c pending live) bs a ∧
      SyncSeen c' a :=
  ⟨[p], _, .cons hst (.nil _), pending, live, rfl, h, hprepared⟩

/-- **What happens on the way is a run of the server.** -/
theorem syncSeen_of_move {c : Synchronous Wire} {pending : List ClientMessage} {live : Bool}
    (h : Passing c.server c.outgoing pending live)
    (hprepared : c.point.AtHand ClientMessage.Sendable)
    {reply : Bytes} {w : Wire} {queue : List ClientMessage}
    (hmove : WireMove libs c.server c.outgoing reply w queue) :
    ∃ bs a, Transition.Run (SyncStep job (out.servedBy (takes libs)))
        (syncSeenAs c pending live) bs a ∧
      SyncSeen { c with outgoing := queue, incoming := c.incoming ++ reply, server := w } a := by
  obtain ⟨handled, answer, pending', p', hhandles, hqueue, hserving, hbytes, hpassing⟩ :=
    h.move hmove
  obtain ⟨bs, hrun⟩ :=
    sync_run_of_handles out job hhandles (syncSeenAs c pending live) (pending' ++ queue)
  rw [← hqueue] at hrun
  refine ⟨bs, _, hrun, pending', p'.live, ?_, hpassing, hprepared⟩
  obtain ⟨serving, live'⟩ := p'
  obtain rfl : serving = _ := hserving
  dsimp only [syncSeenAs]
  rw [List.append_assoc, hbytes, List.append_assoc]

/-- The client reads what it would read with whole messages. -/
theorem readAck_syncSeen (c : Synchronous Wire) (h : readAck c.incoming ≠ .more) :
    readAck (c.incoming ++ c.server.answers) = readAck c.incoming ∧
      ∀ ack, readAck c.incoming = .ack ack → headerSize + ackBodySize ≤ c.incoming.length :=
  readAck_append _ h

/-- What the client drops, it drops whatever follows. -/
theorem drop_seen {c : Synchronous Wire} {n : Nat} (h : n ≤ c.incoming.length) :
    c.incoming.drop n ++ c.server.answers = (c.incoming ++ c.server.answers).drop n :=
  (List.drop_append_of_le_length h).symm

theorem headerSize_le_of_bad {bs : Bytes} (h : readAck bs = .bad) : headerSize ≤ bs.length := by
  rw [readAck] at h
  split at h
  · cases h
  · omega

/-- **The transfer over bytes does what the transfer with whole messages does.** -/
theorem sync_wire_simulates (hcompact : Compact out) :
    Transition.Simulates (SyncStep job (out.servedBy (WireMove libs)))
      (SyncStep job (out.servedBy (takes libs))) SyncSeen := by
  rintro c p c' a ⟨pending, live, rfl, h, hprepared⟩ hst
  cases hst with
  | readFails hp hread => exact syncSeen_of_step (.readFails hp hread) h trivial
  | compressFails hp hread hcompress =>
      exact syncSeen_of_step (.compressFails hp hread hcompress) h trivial
  | compress hp hread hcompress =>
      exact syncSeen_of_step (.compress hp hread hcompress) h
        (hcompact _ _ _ _ (transferSize_le _ _) hread hcompress)
  | exhausted hp hretry => exact syncSeen_of_step (.exhausted hp hretry) h trivial
  | unconnected hp hretry hlost =>
      rw [hp] at hprepared
      exact syncSeen_of_step (.unconnected hp hretry hlost) h hprepared
  | sendFails hp hretry hconnected hsend =>
      rw [hp] at hprepared
      exact syncSeen_of_step (.sendFails hp hretry hconnected hsend) h hprepared
  | send hp hretry hconnected hsend =>
      rw [hp] at hprepared
      refine syncSeen_of_step (p := .sender) ?_ (h.send hprepared) hprepared
      dsimp only [syncSeenAs]
      rw [← List.append_assoc pending]
      exact .send hp hretry hconnected hsend
  | receiveFails hp hfails =>
      rw [hp] at hprepared
      exact syncSeen_of_step (.receiveFails hp hfails) h hprepared
  | receiveBad hp hread =>
      rw [hp] at hprepared
      obtain ⟨hread', -⟩ := readAck_syncSeen c (hread ▸ nofun)
      refine syncSeen_of_step (p := .sender) ?_ h hprepared
      dsimp only [syncSeenAs, Synchronous.fail]
      rw [drop_seen (headerSize_le_of_bad hread)]
      exact .receiveBad hp (hread'.trans hread)
  | refused hp hread hstatus =>
      rw [hp] at hprepared
      obtain ⟨hread', hlength⟩ := readAck_syncSeen c (hread ▸ nofun)
      refine syncSeen_of_step (p := .sender) ?_ h hprepared
      dsimp only [syncSeenAs, Synchronous.fail]
      rw [drop_seen (hlength _ hread)]
      exact .refused hp (hread'.trans hread) hstatus
  | accepted hp hread hstatus =>
      obtain ⟨hread', hlength⟩ := readAck_syncSeen c (hread ▸ nofun)
      refine syncSeen_of_step (p := .sender) ?_ h trivial
      dsimp only [syncSeenAs]
      rw [drop_seen (hlength _ hread)]
      exact .accepted hp (hread'.trans hread) hstatus
  | serve hmove => exact syncSeen_of_move h hprepared hmove

/-- A transfer on an idle connection reaches only states that one with whole messages reaches. -/
theorem sync_reached_seen (hcompact : Compact out) {w : Wire} (hidle : Idle w)
    {m : BlockStateManager} {c : Synchronous Wire}
    (h : SyncReached job (out.servedBy (WireMove libs)) (.start m w) c) :
    ∃ a, SyncReached job (out.servedBy (takes libs)) (.start m (peerOf w.host)) a ∧ SyncSeen c a := by
  have hinit : ∀ c, c = Synchronous.start m w →
      ∃ a, a = Synchronous.start m (peerOf w.host) ∧ SyncSeen c a := by
    rintro c rfl
    refine ⟨_, rfl, [], true, ?_, hidle.passing, trivial⟩
    rw [syncSeenAs, Synchronous.start, Synchronous.start]
    dsimp only
    rw [hidle.answers]
    rfl
  exact (sync_wire_simulates hcompact).reachable hinit h

/-! ### The other way round -/

variable (job out) in
theorem syncStep_of_move {a : Synchronous Peer} {w w' : Wire} {reply : Bytes}
    {queue : List ClientMessage} (h : WireMove libs w a.outgoing reply w' queue) :
    SyncStep job (out.servedBy (WireMove libs)) (a.withServer w) .server
      (Synchronous.withServer { a with outgoing := queue, incoming := a.incoming ++ reply } w') :=
  .serve h

/-- The bytes do what the server does. -/
theorem sync_served {a : Synchronous Peer} {w : Wire} (h : Flushed w a.server) {reply : Bytes}
    {p : Peer} {queue : List ClientMessage} (hst : takes libs a.server a.outgoing reply p queue) :
    ∃ bs w', Transition.Run (SyncStep job (out.servedBy (WireMove libs))) (a.withServer w) bs
      (Synchronous.withServer
        { a with outgoing := queue, incoming := a.incoming ++ reply, server := p } w') ∧
        Flushed w' p := by
  obtain ⟨⟨hlive, m, hqueue, rfl, rfl⟩, hsend⟩ := hst
  have hm : m.Sendable := hsend m (hqueue ▸ rfl)
  obtain ⟨w₁, w₂, w', htransmit, hevent, harrive, hflushed⟩ :=
    moves_of_message libs h hlive hm queue
  refine ⟨[.server, .server, .server], w', ?_, hflushed⟩
  have hrun := Transition.Run.cons (syncStep_of_move out job (a := a) (hqueue ▸ htransmit))
    (.cons (syncStep_of_move out job hevent) (.cons (syncStep_of_move out job harrive) (.nil _)))
  dsimp only at hrun
  rw [List.append_nil, List.append_nil] at hrun
  exact hrun

/-- **The bytes do what is done with whole messages.** -/
theorem sync_simulates_wire :
    Transition.Simulates (SyncStep job (out.servedBy (takes libs)))
      (SyncStep job (out.servedBy (WireMove libs)))
      fun a c => ∃ w, c = a.withServer w ∧ Flushed w a.server := by
  rintro a p a' c ⟨w, rfl, h⟩ hst
  rcases hst.client_or_serve (WireMove libs) with
    ⟨hserver, hclient⟩ | ⟨reply, server, queue, hserve, -, rfl⟩
  · exact ⟨[p], _, .cons (hclient w) (.nil _), w, rfl, hserver ▸ h⟩
  · obtain ⟨bs, w', hrun, hflushed⟩ := sync_served h hserve
    exact ⟨bs, _, hrun, w', rfl, hflushed⟩

/-- **Every state with whole messages is reached over bytes**, with nothing left on the way. -/
theorem sync_reached_withServer {w : Wire} (hidle : Idle w) {m : BlockStateManager}
    {a : Synchronous Peer}
    (h : SyncReached job (out.servedBy (takes libs)) (.start m (peerOf w.host)) a) :
    ∃ w', SyncReached job (out.servedBy (WireMove libs)) (.start m w) (a.withServer w') ∧
      Flushed w' a.server := by
  have hinit : ∀ a, a = Synchronous.start m (peerOf w.host) →
      ∃ c, c = Synchronous.start m w ∧ ∃ w', c = a.withServer w' ∧ Flushed w' a.server := by
    rintro a rfl
    exact ⟨_, rfl, w, rfl, rfl, hidle.queued, hidle.toClient, fun _ => hidle⟩
  obtain ⟨c, hc, w', rfl, hflushed⟩ := sync_simulates_wire.reachable hinit h
  exact ⟨w', hc, hflushed⟩

/-- With nothing left on the way, the two see the same. -/
theorem syncSeenAs_withServer {a : Synchronous Peer} {w : Wire} (h : Flushed w a.server) :
    syncSeenAs (a.withServer w) [] a.server.live = a := by
  obtain ⟨hserving, hqueued, htoClient, -⟩ := h
  rw [syncSeenAs, Synchronous.withServer]
  dsimp only
  rw [Wire.answers, hserving, hqueued, htoClient, List.append_nil, List.append_nil,
    List.nil_append]

/-- **Over bytes the synchronous transfer does what it does with whole messages**: on a connection
that has answered the greeting, every state it reaches over bytes is seen as one that it reaches
with whole messages, and every state it reaches with these is reached over bytes too. -/
theorem sync_wire_refines (hcompact : Compact out) {w : Wire} (hconnected : Connected libs w)
    (m : BlockStateManager) :
    (∀ c, SyncReached job (out.servedBy (WireMove libs)) (.start m w) c →
      ∃ a, SyncReached job (out.servedBy (takes libs)) (.start m (peerOf w.host)) a ∧ SyncSeen c a) ∧
    ∀ a, SyncReached job (out.servedBy (takes libs)) (.start m (peerOf w.host)) a →
      ∃ c, SyncReached job (out.servedBy (WireMove libs)) (.start m w) c ∧
        syncSeenAs c [] a.server.live = a := by
  obtain ⟨hidle, -⟩ := hconnected.idle
  refine ⟨fun c h => sync_reached_seen hcompact hidle h, fun a h => ?_⟩
  obtain ⟨w', hreached, hflushed⟩ := sync_reached_withServer hidle h
  exact ⟨a.withServer w', hreached, syncSeenAs_withServer hflushed⟩

end Simulation

/-! ### An incremental backup of two blocks -/

/-- The block state of that disk: the two blocks have one hash there. -/
def oneTwoState : BlockStateManager := holding [entryOf 0 hashOfOneTwo, entryOf 1 hashOfOneTwo]

theorem peerOf_oneTwoWire : peerOf oneTwoWire.host = oneTwoServer := by
  rw [peerOf, flushed_oneTwo.serving, ← afterHello_oneTwo.greeted.1]

section Round

variable {blockIndex : UInt64} (hindex : blockIndex = 0 ∨ blockIndex = 1)
include hindex

/-- A whole block passes every check. -/
theorem accepts_oneTwo {data : Bytes} (hlength : data.length = blockSize) :
    Accepts oneTwoLibs (requestOf 0 blockIndex 1048576 (deflateOneTwo data) hashOfOneTwo 1)
      { fd := 3, sizeBytes := 2097152, path := "disk0.img" } data := by
  have hinflates := unhindered_oneTwo.inflates data hlength.le
  have hrange : blockIndex * UInt64.ofNat blockSize + (1048576 : UInt32).toUInt64
      ≤ (2097152 : UInt64) := by
    rcases hindex with rfl | rfl <;> decide
  generalize deflateOneTwo data = compressed at hinflates ⊢
  exact
    { device := unhindered_oneTwo.device
      size := show (1048576 : UInt32) ≠ 0 ∧ (1048576 : UInt32).toNat ≤ blockSize by decide
      range := hrange
      inflates := hinflates
      length := hlength
      hash := rfl }

/-- The block is acknowledged. -/
theorem oneTwo_recorded {init s : Synchronous Peer} {todo : List BlockState}
    (hs : Settled s (entryOf blockIndex hashOfOneTwo :: todo))
    (h : SyncReached twoBlocks oneTwoOutside init s) :
    ∃ t, SyncReached twoBlocks oneTwoOutside init t ∧ Settled t todo ∧
      t.manager = (s.manager.setBlockAck blockIndex .acknowledged).2 := by
  let data := oneTwoDisk.slice (blockIndex * UInt64.ofNat blockSize).toNat blockSize
  have hlength : data.length = blockSize := Image.length_slice ..
  have hsend := unhindered_oneTwo.shrinks data hlength.le
  have hlt : blockIndex.toNat < 2 ^ 43 := by
    rcases hindex with rfl | rfl <;> decide
  obtain ⟨hserver, -, ack, hanswer, -, hstatus⟩ := handle_accepted oneTwoLibs hs.greeted hsend
    (accepts_oneTwo hindex hlength) (fun _ => rfl) hlt
  have hmessage := message_entryOf hindex hashOfOneTwo (deflateOneTwo data)
  have hread : oneTwoOutside.readFile (entryOf blockIndex hashOfOneTwo).offset
      (transferSize twoBlocks.totalBlocks (entryOf blockIndex hashOfOneTwo).place) (some data) := by
    rw [transferSize_entryOf hindex]
    exact congrArg (fun size => some (oneTwoDisk.slice _ size)) (by decide)
  have hserve : oneTwoOutside.serve s.server
      [twoBlocks.message (entryOf blockIndex hashOfOneTwo) (deflateOneTwo data)] (ackMessage ack)
      (s.server.handle oneTwoLibs
        (.block 0 blockIndex 1048576 (deflateOneTwo data) hashOfOneTwo 1)) [] := by
    rw [hmessage]
    exact ⟨⟨hs.greeted.1, _, rfl, hanswer.symm, rfl⟩, fun m hm => Option.some.inj hm ▸ hsend⟩
  obtain ⟨t, ht, hsettled, hmanager, -⟩ :=
    hs.recorded h (by decide) hread rfl rfl hserve hstatus hserver
  exact ⟨t, ht, hsettled, hmanager⟩

end Round

/-- Both blocks are acknowledged, over bytes. -/
theorem oneTwo_sync_over_wire :
    ∃ c, SyncReached twoBlocks (oneTwoOutside.servedBy (WireMove oneTwoLibs))
        (.start oneTwoState oneTwoWire) c ∧
      ∀ k < 2, ∃ bs, c.manager.blocks[k]? = some bs ∧ bs.ack = .acknowledged := by
  have hstart : Settled (.start oneTwoState oneTwoServer)
      [entryOf 0 hashOfOneTwo, entryOf 1 hashOfOneTwo] :=
    ⟨rfl, rfl, rfl, rfl, afterHello_oneTwo.greeted⟩
  obtain ⟨s, hs, hsettled, hmanager⟩ := oneTwo_recorded (.inl rfl) hstart ⟨_, _, rfl, .nil _⟩
  obtain ⟨t, ht, -, hmanager'⟩ := oneTwo_recorded (.inr rfl) hsettled hs
  rw [← peerOf_oneTwoWire] at ht
  obtain ⟨w', hc, -⟩ := sync_reached_withServer connected_oneTwo.idle.1 ht
  refine ⟨_, hc, fun k hk => ?_⟩
  change ∃ bs, t.manager.blocks[k]? = some bs ∧ bs.ack = .acknowledged
  rw [hmanager', hmanager]
  match k with
  | 0 => exact ⟨_, rfl, rfl⟩
  | 1 => exact ⟨_, rfl, rfl⟩

theorem sync_wire_refines_oneTwo :
    ∃ c a, SyncSeen c a ∧
      (∀ k < 2, ∃ bs, c.manager.blocks[k]? = some bs ∧ bs.ack = .acknowledged) ∧
      SyncReached twoBlocks (oneTwoOutside.servedBy (takes oneTwoLibs))
        (.start oneTwoState (peerOf oneTwoWire.host)) a := by
  obtain ⟨c, hc, hacked⟩ := oneTwo_sync_over_wire
  obtain ⟨a, ha, hseen⟩ :=
    (sync_wire_refines compact_oneTwo connected_oneTwo oneTwoState).1 c hc
  exact ⟨c, a, hseen, hacked, ha⟩

/-! ### What is proved with whole messages -/

/-- **Over bytes, what an incremental backup has acknowledged is in its place, and the bytes of a
file come from the disk**, if its entries are in place. -/
theorem sync_safe_over_wire {libs : Libs} {σ : Type} {out : Outside σ} (hcompact : Compact out)
    {w : Wire} (hconnected : Connected libs w) {job : SyncJob} {m : BlockStateManager}
    (hplaced : BlockStateManager.Placed m.blocks) {c : Synchronous Wire}
    (h : SyncReached job (out.servedBy (WireMove libs)) (.start m w) c) :
    (∀ (k : Nat) (bs : BlockState), c.manager.blocks[k]? = some bs → bs.ack = .acknowledged →
      (∃ bs₀, m.blocks[k]? = some bs₀ ∧ bs₀.ack = .acknowledged) ∨
        ∃ message ∈ c.sent, (blockIndexOf message).toNat = k ∧
          InPlace libs c.server.host.files message) ∧
    (Faithful libs out → Traceable libs out job.devNo w.host.files c.server.host.files) := by
  obtain ⟨hidle, hgreeted⟩ := hconnected.idle
  obtain ⟨a, ha, pending, live, rfl, -⟩ := sync_reached_seen hcompact hidle h
  constructor
  · exact fun k bs hbs hacked =>
      sync_inPlace_of_recorded rfl hgreeted hplaced ha hbs hacked
  · exact fun hcodec => sync_traceable_of_reached rfl hcodec
      (fun b hb => offsetFits_of_placed hplaced hb) hgreeted ha

theorem sync_safe_over_wire_oneTwo :
    ∃ c : Synchronous Wire,
      (∀ k < 2, ∃ message ∈ c.sent, (blockIndexOf message).toNat = k ∧
        InPlace oneTwoLibs c.server.host.files message) ∧
      Traceable oneTwoLibs oneTwoOutside 0 oneTwoWire.host.files c.server.host.files := by
  obtain ⟨c, hc, hacked⟩ := oneTwo_sync_over_wire
  obtain ⟨hwritten, htraceable⟩ :=
    sync_safe_over_wire compact_oneTwo connected_oneTwo (placed_holding _ _) hc
  refine ⟨c, fun k hk => ?_, htraceable faithful_oneTwo⟩
  obtain ⟨bs, hbs, hack⟩ := hacked k hk
  refine (hwritten k bs hbs hack).resolve_left ?_
  -- at the start both are pending
  rintro ⟨bs₀, hbs₀, hacked₀⟩
  match k with
  | 0 =>
      cases hbs₀
      cases hacked₀
  | 1 =>
      cases hbs₀
      cases hacked₀

end Go2Cbt.Link
