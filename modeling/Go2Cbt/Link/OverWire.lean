import Go2Cbt.Link.Provenance
import Go2Cbt.Link.Wire

/-!
# Link — what holds over bytes

The bytes can also do whatever `Peer` does: a message that is on its way arrives whole, and so does
its answer (`served`).  So the transfer over bytes and the one with whole messages reach the same
states (`wire_refines`), and what was proved of these is proved of bytes that come as they like
(`safe_over_wire`).
-/

namespace Go2Cbt.Link

open Go2Cbt.Protocol Go2Cbt.Client Go2Cbt.Engine Go2Cbt.Server MessageParser

/-! ### A socket that takes everything -/

/-- `send` takes all it is offered. -/
def takesAll : SendSide := fun _ len => .sent (len - 1 + 1)

theorem keepsOpen_takesAll : KeepsOpen takesAll := fun _ _ => .inr ⟨_, rfl⟩

theorem readable_handleConnWritableFrom_of_empty {s : Host} (send : SendSide)
    (h : s.sendBuf.readable = []) (fuel : Nat) :
    (handleConnWritableFrom send fuel s).sendBuf.readable = [] := by
  have hzero : ¬ s.sendBuf.readableBytes > 0 := by
    rw [← RingBuffer.length_readable, h]
    exact Nat.lt_irrefl 0
  cases fuel with
  | zero => exact h
  | succ fuel =>
      rw [handleConnWritableFrom, if_neg hzero]
      dsimp only
      rw [RingBuffer.readable_compact, h]

/-- Nothing stays queued. -/
theorem readable_handleConnWritable (s : Host) :
    (handleConnWritable takesAll s).sendBuf.readable = [] := by
  rw [handleConnWritable, handleConnWritableFrom]
  split
  · next hpos =>
    rw [takesAll]
    dsimp only
    refine readable_handleConnWritableFrom_of_empty _ ?_ _
    dsimp only
    rw [RingBuffer.readable_consume]
    refine List.drop_of_length_le ?_
    rw [RingBuffer.length_readable]
    omega
  · next hzero =>
    dsimp only
    rw [RingBuffer.readable_compact]
    refine List.eq_nil_of_length_eq_zero ?_
    rw [RingBuffer.length_readable]
    omega

theorem keeps_flushed (libs : Libs) : Keeps libs takesAll fun s => s.sendBuf.readable = [] where
  recvBuf _ _ h := h
  deliver s h _ _ := by
    rw [deliver]
    generalize react libs s.session s.files (tryParse s.recvBuf.readable) = reaction
    obtain ⟨session, files, ack, closes⟩ := reaction
    have hanswered : (answer takesAll ack
        { s with
          session
          files
          delivered := s.delivered ++ [tryParse s.recvBuf.readable] }).sendBuf.readable = [] := by
      cases ack with
      | none => exact h
      | some ack =>
          rw [answer, enqueueAck, tryArmWrite]
          split
          · exact readable_handleConnWritable _
          · next hzero =>
            refine List.eq_nil_of_length_eq_zero ?_
            rw [RingBuffer.length_readable]
            exact Nat.eq_zero_of_not_pos hzero
    cases closes <;> exact hanswered
  writable s _ _ := readable_handleConnWritable s
  close _ h := h

/-! ### A message that arrives whole -/

theorem length_bytes_le {m : ClientMessage} (hm : m.Sendable) : m.bytes.length ≤ recvBufSize := by
  have hle := bodyLen_le (bodyLen_bytes hm [])
  have hsizes : maxMessageSize ≤ recvBufSize := by decide
  rw [m.bytes_eq, List.length_append, length_msgHeader]
  omega

section Bytes

variable {libs : Libs}

variable (libs) in
/-- The bytes of one message, with nothing before them. -/
theorem feed_message {p : Peer} {m : ClientMessage} (hm : m.Sendable) (items : List ParseResult) :
    let r := Framing.feed frames (respond libs)
      { state := p.serving, rest := [], live := true, items } m.bytes
    r.state = (p.handle libs m).serving ∧ r.live = (p.handle libs m).live ∧
      (r.live = true → r.rest = []) := by
  have hnext := frames_next_bytes hm []
  rw [List.append_nil] at hnext
  rw [Framing.feed, Framing.Receiver.push, List.nil_append, Framing.drain_of_next rfl hnext,
    Framing.Receiver.take, List.drop_length, Peer.handle]
  dsimp only
  cases (respond libs p.serving (.ok (parsed m))).2 with
  | true =>
      rw [Framing.drain_of_settled (.inr rfl)]
      exact ⟨rfl, rfl, fun _ => rfl⟩
  | false =>
      rw [Framing.drain_of_settled (.inl rfl)]
      exact ⟨rfl, rfl, fun hlive => Bool.noConfusion hlive⟩

/-- The connection does what `p` does, and nothing is on the way back. -/
structure Flushed (w : Wire) (p : Peer) : Prop where
  serving : w.host.view.state = p.serving
  queued : w.host.sendBuf.readable = []
  toClient : w.toClient = []
  goesOn : p.live = true → Idle w

/-- The bytes of a message arrive at once. -/
theorem fits_of_idle {w : Wire} (h : Idle w) {m : ClientMessage} (hm : m.Sendable) :
    (IoEvent.readable (.received m.bytes)).Fits w.host := by
  obtain ⟨hpos, hlen⟩ := h.quiet.tidy
  have hzero : w.host.recvBuf.readableBytes = 0 := by
    rw [← RingBuffer.length_readable, h.received]
    rfl
  refine ⟨?_, ?_⟩
  · rw [m.bytes_eq]
    refine List.append_ne_nil_of_left_ne_nil (List.ne_nil_of_length_pos ?_) _
    rw [length_msgHeader]
    decide
  · rw [RingBuffer.makeRoom_of_readPos hpos, RingBuffer.writableBytes_of_readPos hpos, hzero, hlen]
    exact length_bytes_le hm

variable (libs) in
/-- **A message whose bytes come at once is answered at once.** -/
theorem flushed_event {w : Wire} {p : Peer} (h : Flushed w p) (hlive : p.live = true)
    {m : ClientMessage} (hm : m.Sendable) :
    let host := handleEvent libs takesAll (.readable (.received m.bytes)) w.host
    Flushed { host, toServer := [], toClient := [] } (p.handle libs m) ∧
      host.sent = w.host.sent ++ p.answer libs m := by
  intro host
  have hidle := h.goesOn hlive
  have hfits := fits_of_idle hidle hm
  have hstart : w.host.view
      = { state := p.serving, rest := [], live := true, items := w.host.delivered } := by
    rw [← h.serving, ← hidle.received, ← hidle.alive]
    rfl
  obtain ⟨hfollows, -⟩ := handleEvent_follows takesAll libs (.readable (.received m.bytes))
    hidle.alive hidle.quiet hfits
  have hview : host.view = Framing.feed frames (respond libs)
      { state := p.serving, rest := [], live := true, items := w.host.delivered } m.bytes := by
    rw [← hstart]
    rcases hfollows with hview | ⟨hfails, -⟩
    · exact hview
    · exact absurd keepsOpen_takesAll hfails
  obtain ⟨hstate, hlives, hrest⟩ := feed_message libs (p := p) hm w.host.delivered
  rw [← hview] at hstate hlives hrest
  have hqueued : host.sendBuf.readable = [] :=
    (keeps_flushed libs).handleEvent _ hidle.queued hidle.alive
  refine ⟨⟨hstate, hqueued, rfl, fun hgo => ?_⟩, ?_⟩
  · have hhost : host.view.live = true := hlives.trans hgo
    exact ⟨hhost, quiet_handleEvent takesAll libs _ hidle.alive hidle.quiet hfits, hrest hhost,
      hqueued, rfl, rfl⟩
  · -- nothing is queued before or after it, so that the output is what was sent
    have hout := congrArg Serving.output hstate
    have hbefore : p.serving.output = w.host.sent := by
      rw [← h.serving, Host.view, h.queued, List.append_nil]
    have hafter : host.view.state.output = host.sent := by
      rw [Host.view, hqueued, List.append_nil]
    rw [← hafter, hout, ← hbefore]
    rfl

variable (libs) in
/-- **A message on its way arrives whole, and so does its answer.** -/
theorem moves_of_message {w : Wire} {p : Peer} (h : Flushed w p) (hlive : p.live = true)
    {m : ClientMessage} (hm : m.Sendable) (queue : List ClientMessage) :
    ∃ w₁ w₂ w', WireMove libs w (m :: queue) [] w₁ queue ∧ WireMove libs w₁ queue [] w₂ queue ∧
      WireMove libs w₂ queue (p.answer libs m) w' queue ∧ Flushed w' (p.handle libs m) := by
  have hidle := h.goesOn hlive
  obtain ⟨hflushed, hsent⟩ := flushed_event libs h hlive hm
  have hpossible : IoEvent.Possible { w with toServer := w.toServer ++ m.bytes } []
      (.readable (.received m.bytes)) := by
    refine ⟨?_, fun data hdata => ?_⟩
    · dsimp only
      rw [hidle.toServer, List.append_nil]
      rfl
    · cases hdata
      exact fits_of_idle hidle hm
  refine ⟨_, _, _, .transmit, @WireMove.event libs _ _ takesAll _ _ hidle.alive hpossible,
    .arrive ?_, hflushed⟩
  · dsimp only
    rw [h.toClient, hsent, List.drop_left, List.append_nil]
    rfl

variable {σ : Type} {out : Outside σ} {job : Job}

variable (job out) in
theorem step_of_move {a : Pipeline Peer} {w w' : Wire} {reply : Bytes} {queue : List ClientMessage}
    (h : WireMove libs w a.outgoing reply w' queue) :
    Step job (out.servedBy (WireMove libs)) (a.withServer w) .server
      (Pipeline.withServer { a with outgoing := queue, incoming := a.incoming ++ reply } w') :=
  .serve h

/-- The bytes do what the server does. -/
theorem served {a : Pipeline Peer} {w : Wire} (h : Flushed w a.server) {reply : Bytes} {p : Peer}
    {queue : List ClientMessage} (hst : takes libs a.server a.outgoing reply p queue) :
    ∃ bs w', Transition.Run (Step job (out.servedBy (WireMove libs))) (a.withServer w) bs
      (Pipeline.withServer
        { a with outgoing := queue, incoming := a.incoming ++ reply, server := p } w') ∧
        Flushed w' p := by
  obtain ⟨⟨hlive, m, hqueue, rfl, rfl⟩, hsend⟩ := hst
  have hm : m.Sendable := hsend m (hqueue ▸ rfl)
  obtain ⟨w₁, w₂, w', htransmit, hevent, harrive, hflushed⟩ :=
    moves_of_message libs h hlive hm queue
  refine ⟨[.server, .server, .server], w', ?_, hflushed⟩
  have hrun := Transition.Run.cons (step_of_move out job (a := a) (hqueue ▸ htransmit))
    (.cons (step_of_move out job hevent) (.cons (step_of_move out job harrive) (.nil _)))
  dsimp only at hrun
  rw [List.append_nil, List.append_nil] at hrun
  exact hrun

/-- **The bytes do what is done with whole messages.** -/
theorem simulates_wire :
    Transition.Simulates (Step job (out.servedBy (takes libs)))
      (Step job (out.servedBy (WireMove libs)))
      fun a c => ∃ w, c = a.withServer w ∧ Flushed w a.server := by
  rintro a p a' c ⟨w, rfl, h⟩ hst
  rcases hst.client_or_serve (WireMove libs) with
    ⟨hserver, hclient⟩ | ⟨reply, server, queue, hserve, -, rfl⟩
  · exact ⟨[p], _, .cons (hclient w) (.nil _), w, rfl, hserver ▸ h⟩
  · obtain ⟨bs, w', hrun, hflushed⟩ := served h hserve
    exact ⟨bs, _, hrun, w', rfl, hflushed⟩

/-- **Every state with whole messages is reached over bytes**, with nothing left on the way. -/
theorem reached_withServer {w : Wire} (hidle : Idle w) {windowSize : Nat} {m : BlockStateManager}
    {a : Pipeline Peer}
    (h : Reached job (out.servedBy (takes libs)) (.start windowSize m (peerOf w.host)) a) :
    ∃ w', Reached job (out.servedBy (WireMove libs)) (.start windowSize m w) (a.withServer w') ∧
      Flushed w' a.server := by
  have hinit : ∀ a, a = Pipeline.start windowSize m (peerOf w.host) →
      ∃ c, c = Pipeline.start windowSize m w ∧ ∃ w', c = a.withServer w' ∧ Flushed w' a.server := by
    rintro a rfl
    exact ⟨_, rfl, w, rfl, rfl, hidle.queued, hidle.toClient, fun _ => hidle⟩
  obtain ⟨c, hc, w', rfl, hflushed⟩ := simulates_wire.reachable hinit h
  exact ⟨w', hc, hflushed⟩

/-- With nothing left on the way, the two see the same. -/
theorem seenAs_withServer {a : Pipeline Peer} {w : Wire} (h : Flushed w a.server) :
    seenAs (a.withServer w) [] a.server.live = a := by
  obtain ⟨hserving, hqueued, htoClient, -⟩ := h
  rw [seenAs, Pipeline.withServer]
  dsimp only
  rw [Wire.answers, hserving, hqueued, htoClient, List.append_nil, List.append_nil,
    List.nil_append]

/-! ### What holds over bytes -/

/-- The connection when `Connect` returns true: the bytes of a greeting have arrived, and an answer
with status 0 has been sent and read. -/
structure Connected (libs : Libs) (w : Wire) : Prop where
  greeting : ∃ files send events versionId devNo totalBlocks totalSize versionType ack,
    KeepsOpen send ∧
      Cuts libs send (wire [.hello versionId devNo totalBlocks totalSize versionType]) events
        (.accept files) ∧
      (Peer.accept files).answer libs (.hello versionId devNo totalBlocks totalSize versionType)
        = ackMessage ack ∧ ack.status = 0 ∧
      w.host = (receive libs send events (.accept files)).1
  queued : w.host.sendBuf.readable = []
  toServer : w.toServer = []
  toClient : w.toClient = []

/-- **After the greeting the connection is idle.** -/
theorem Connected.idle {w : Wire} (h : Connected libs w) :
    Idle w ∧ (peerOf w.host).Greeted := by
  obtain ⟨files, send, events, versionId, devNo, totalBlocks, totalSize, versionType, ack, hopen,
    hcuts, hanswer, hstatus, hhost⟩ := h.greeting
  have hgreeted := greeted_of_answer libs files hanswer hstatus
  obtain ⟨hview, hquiet⟩ := receive_view hopen libs (quiet_accept files) hcuts.2
  have hbytes : wire [.hello versionId devNo totalBlocks totalSize versionType]
      = (ClientMessage.hello versionId devNo totalBlocks totalSize versionType).bytes :=
    List.flatMap_singleton _ _
  rw [hcuts.1, hbytes, view_accept] at hview
  obtain ⟨hstate, hlives, hrest⟩ := feed_message libs (p := Peer.accept files)
    (m := .hello versionId devNo totalBlocks totalSize versionType) trivial []
  rw [← hhost] at hquiet hview
  change w.host.view.push _ = Framing.feed frames (respond libs)
    { state := (Peer.accept files).serving, rest := [], live := true, items := [] } _ at hview
  rw [← hview] at hstate hlives hrest
  have halive : w.host.alive = true := hlives.trans hgreeted.1
  refine ⟨⟨halive, hquiet, (List.append_eq_nil_iff.mp (hrest halive)).1, h.queued, h.toServer,
    h.toClient⟩, rfl, ?_⟩
  have hstate' : w.host.view.state = ((Peer.accept files).handle libs
      (.hello versionId devNo totalBlocks totalSize versionType)).serving := hstate
  rw [peerOf, hstate']
  exact hgreeted.2

/-- **Over bytes the transfer does what it does with whole messages**: on a connection that has
answered the greeting, every state it reaches over bytes is seen as one that it reaches with whole
messages, and every state it reaches with these is reached over bytes too. -/
theorem wire_refines (hcompact : Compact out) {w : Wire} (hconnected : Connected libs w)
    (windowSize : Nat) (m : BlockStateManager) :
    (∀ c, Reached job (out.servedBy (WireMove libs)) (.start windowSize m w) c →
      ∃ a, Reached job (out.servedBy (takes libs)) (.start windowSize m (peerOf w.host)) a ∧
        Seen job out c a) ∧
    ∀ a, Reached job (out.servedBy (takes libs)) (.start windowSize m (peerOf w.host)) a →
      ∃ c, Reached job (out.servedBy (WireMove libs)) (.start windowSize m w) c ∧
        seenAs c [] a.server.live = a := by
  obtain ⟨hidle, -⟩ := hconnected.idle
  refine ⟨fun c h => reached_seen hcompact hidle h, fun a h => ?_⟩
  obtain ⟨w', hreached, hflushed⟩ := reached_withServer hidle h
  exact ⟨a.withServer w', hreached, seenAs_withServer hflushed⟩

end Bytes

/-! ### A transfer of two bytes -/

theorem idle_accept (files : Files) :
    Idle { host := .accept files, toServer := [], toClient := [] } where
  alive := rfl
  quiet := quiet_accept files
  received := RingBuffer.readable_new _
  queued := RingBuffer.readable_new _
  toServer := rfl
  toClient := rfl

/-- The connection when the greeting for that disk has arrived at once. -/
def oneTwoWire : Wire :=
  { host := handleEvent oneTwoLibs takesAll (.readable (.received
      (ClientMessage.hello 1 0 (Job.full 0 1 1048578).totalBlocks 1048578 [70, 85, 76, 76]).bytes))
      (.accept blankFiles)
    toServer := []
    toClient := [] }

theorem flushed_oneTwo : Flushed oneTwoWire oneTwoServer := by
  have hidle := idle_accept blankFiles
  have hstart : Flushed { host := .accept blankFiles, toServer := [], toClient := [] }
      (.accept blankFiles) :=
    { serving := rfl
      queued := hidle.queued
      toClient := rfl
      goesOn := fun _ => hidle }
  exact (flushed_event oneTwoLibs hstart rfl
    (m := .hello 1 0 (Job.full 0 1 1048578).totalBlocks 1048578 [70, 85, 76, 76]) trivial).1

theorem connected_oneTwo : Connected oneTwoLibs oneTwoWire where
  greeting := by
    obtain ⟨ack, hanswer, hstatus⟩ := answer_oneTwo
    have hfits := fits_of_idle (idle_accept blankFiles)
      (m := .hello 1 0 (Job.full 0 1 1048578).totalBlocks 1048578 [70, 85, 76, 76]) trivial
    refine ⟨blankFiles, takesAll, [.readable (.received
      (ClientMessage.hello 1 0 (Job.full 0 1 1048578).totalBlocks 1048578
        [70, 85, 76, 76]).bytes)], 1, 0, _, 1048578, [70, 85, 76, 76], ack, keepsOpen_takesAll,
      ⟨?_, fun _ => ⟨hfits, trivial⟩⟩, hanswer, hstatus, rfl⟩
    rw [wire, List.flatMap_singleton, List.flatMap_singleton]
    rfl
  queued := flushed_oneTwo.queued
  toServer := rfl
  toClient := rfl

theorem compact_oneTwo : Compact oneTwoOutside := by
  intro offset size data compressed hsize hread hcompress
  have hdata : data = oneTwoDisk.slice offset.toNat size.toNat := Option.some.inj hread
  have hcompressed : compressed = deflateOneTwo data := Option.some.inj hcompress
  rw [hcompressed]
  refine unhindered_oneTwo.shrinks data ?_
  rw [hdata, Image.length_slice]
  exact hsize

/-- It is done over bytes. -/
theorem oneTwo_over_wire :
    ∃ c, Reached (Job.full 0 1 1048578) (oneTwoOutside.servedBy (WireMove oneTwoLibs))
        (.start 1 (prepare .new 0 0 (Job.full 0 1 1048578).totalBlocks 1048578).2 oneTwoWire) c ∧
      c.sender = .done 2 true := by
  obtain ⟨s, hs, hdone⟩ := oneTwo_reached
  have hpeer : peerOf oneTwoWire.host = oneTwoServer := by
    rw [peerOf, flushed_oneTwo.serving, ← afterHello_oneTwo.greeted.1]
  have hstart : Reached (Job.full 0 1 1048578) (oneTwoOutside.servedBy (takes oneTwoLibs))
      (.start 1 (prepare .new 0 0 (Job.full 0 1 1048578).totalBlocks 1048578).2
        (peerOf oneTwoWire.host)) s := hpeer ▸ hs
  have hidle : Idle oneTwoWire := connected_oneTwo.idle.1
  obtain ⟨w', hc, -⟩ := reached_withServer hidle hstart
  exact ⟨_, hc, hdone⟩

theorem wire_refines_oneTwo :
    ∃ c : Pipeline Wire, c.sender = .done 2 true ∧
      ∃ a, Seen (Job.full 0 1 1048578) oneTwoOutside c a ∧
        Reached (Job.full 0 1 1048578) (oneTwoOutside.servedBy (takes oneTwoLibs)) (.start 1
          (prepare .new 0 0 (Job.full 0 1 1048578).totalBlocks 1048578).2
          (peerOf oneTwoWire.host)) a := by
  obtain ⟨c, hc, hdone⟩ := oneTwo_over_wire
  obtain ⟨a, ha, hseen⟩ := (wire_refines compact_oneTwo connected_oneTwo 1 _).1 c hc
  exact ⟨c, hdone, a, hseen, ha⟩

/-! ### What is proved with whole messages -/

/-- **Over bytes, what is recorded as acknowledged is in its place, and the bytes of a file come
from the disk**: in every state of a pipelined transfer on a connection, however its bytes are cut
and whatever fails. -/
theorem safe_over_wire {libs : Libs} {σ : Type} {out : Outside σ} (hcompact : Compact out)
    {w : Wire} (hconnected : Connected libs w) :
    (∀ (devNo versionId : UInt32) (totalSize snapshotTime now : UInt64) (windowSize : Nat)
      (m : BlockStateManager) (c : Pipeline Wire),
      Reached (Job.full devNo versionId totalSize) (out.servedBy (WireMove libs)) (.start windowSize
        (prepare m snapshotTime now (Job.full devNo versionId totalSize).totalBlocks totalSize).2 w)
        c →
      ∀ (b : UInt64) (bs : BlockState), c.manager.blocks[b.toNat]? = some bs →
        bs.ack = .acknowledged →
          ∃ m ∈ c.sent, blockIndexOf m = b ∧ InPlace libs c.server.host.files m) ∧
    (Faithful libs out → ∀ (job : Job) (windowSize : Nat) (m : BlockStateManager)
      (c : Pipeline Wire), Reached job (out.servedBy (WireMove libs)) (.start windowSize m w) c →
        Traceable libs out job.devNo w.host.files c.server.host.files) := by
  obtain ⟨hidle, hgreeted⟩ := hconnected.idle
  constructor
  · intro devNo versionId totalSize snapshotTime now windowSize m c h b bs hbs hacked
    obtain ⟨a, ha, pending, live, rfl, -⟩ := reached_seen hcompact hidle h
    exact inPlace_of_recorded rfl hgreeted ha hbs hacked
  · intro hcodec job windowSize m c h
    obtain ⟨a, ha, pending, live, rfl, -⟩ := reached_seen hcompact hidle h
    exact traceable_of_reached rfl hcodec hgreeted ha

theorem safe_over_wire_oneTwo :
    ∃ c : Pipeline Wire, c.sender = .done 2 true ∧
      (∀ (b : UInt64) (bs : BlockState), c.manager.blocks[b.toNat]? = some bs →
        bs.ack = .acknowledged →
          ∃ m ∈ c.sent, blockIndexOf m = b ∧ InPlace oneTwoLibs c.server.host.files m) ∧
      Traceable oneTwoLibs oneTwoOutside 0 oneTwoWire.host.files c.server.host.files := by
  obtain ⟨c, hc, hdone⟩ := oneTwo_over_wire
  have hsafe := safe_over_wire compact_oneTwo connected_oneTwo
  exact ⟨c, hdone, hsafe.1 0 1 1048578 0 0 1 .new c hc, hsafe.2 faithful_oneTwo _ 1 _ c hc⟩

end Go2Cbt.Link
