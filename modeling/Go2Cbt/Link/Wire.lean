import Go2Cbt.Lib.Simulation
import Go2Cbt.Link.Written

/-!
# Link — the bytes on the way

`Peer` takes whole messages and gives whole answers.  Below that are bytes: the client's messages
reach the server's socket in pieces that `recv` hands over as they come, the send loop gets rid of
an answer in as many calls as the socket wants, and the pieces arrive at the client at any time.
Either end may find that the connection has failed; what has then got out of the message that the
client was sending is left out, for it never makes up a message.

Seen from the client none of this shows: the transfer over these bytes does what it does with
`Peer` (`wire_simulates`), so that what was proved with `Peer` holds over the bytes.
-/

namespace Go2Cbt.Link

open Go2Cbt.Protocol Go2Cbt.Client Go2Cbt.Engine Go2Cbt.Server MessageParser

/-- A connection of the server with the bytes that are on their way to it and from it. -/
structure Wire where
  host : Host
  toServer : Bytes
  toClient : Bytes

/-- The event is one for which the bytes are there, and the room. -/
def IoEvent.Possible (w : Wire) (rest : Bytes) (e : IoEvent) : Prop :=
  w.toServer = e.data ++ rest ∧
    ∀ data, e = .readable (.received data) →
      data ≠ [] ∧ data.length ≤ w.host.recvBuf.makeRoom.writableBytes

/-- What happens between the client and the handlers of the server. -/
inductive WireMove (libs : Libs) :
    Wire → List ClientMessage → Bytes → Wire → List ClientMessage → Prop where
  | transmit {w : Wire} {m : ClientMessage} {queue : List ClientMessage} :
      WireMove libs w (m :: queue) [] { w with toServer := w.toServer ++ m.bytes } queue
  | event {w : Wire} {queue : List ClientMessage} {send : SendSide} {e : IoEvent} {rest : Bytes}
      (halive : w.host.alive = true) (hpossible : IoEvent.Possible w rest e) :
      WireMove libs w queue []
        { host := handleEvent libs send e w.host
          toServer := rest
          toClient := w.toClient
            ++ (handleEvent libs send e w.host).sent.drop w.host.sent.length }
        queue
  | arrive {w : Wire} {queue : List ClientMessage} {reply rest : Bytes}
      (h : w.toClient = reply ++ rest) :
      WireMove libs w queue reply { w with toClient := rest } queue

/-! ### What the server does with the messages -/

/-- Messages handled one after the other, with the bytes that answer them. -/
inductive Handles (libs : Libs) : Peer → List ClientMessage → Bytes → Peer → Prop where
  | nil (p : Peer) : Handles libs p [] [] p
  | cons {p p' : Peer} {m : ClientMessage} {ms : List ClientMessage} {reply : Bytes}
      (hlive : p.live = true) (hm : m.Sendable) (h : Handles libs (p.handle libs m) ms reply p') :
      Handles libs p (m :: ms) (p.answer libs m ++ reply) p'

theorem Handles.output_eq {libs : Libs} {p p' : Peer} {ms : List ClientMessage} {reply : Bytes}
    (h : Handles libs p ms reply p') : p'.serving.output = p.serving.output ++ reply := by
  induction h with
  | nil p => exact (List.append_nil _).symm
  | cons _ _ _ ih =>
      rw [ih, ← List.append_assoc]
      rfl

/-- The server behind a connection that is open. -/
def peerOf (s : Host) : Peer := { serving := s.view.state, live := true }

section Events

variable {libs : Libs} {send : SendSide}

/-- **What the parser decides on is the next message.** -/
theorem tryParse_wire {bs rest : Bytes} {pending : List ClientMessage}
    (hwire : bs ++ rest = wire pending) (hsend : ∀ m ∈ pending, m.Sendable)
    (hdecided : tryParse bs ≠ .needMore) :
    ∃ m ms, pending = m :: ms ∧ tryParse bs = .ok (parsed m) ∧
      bs.drop (tryParse bs).consumed ++ rest = wire ms := by
  cases pending with
  | nil =>
      have hnil : bs = [] := (List.append_eq_nil_iff.mp hwire).1
      exact absurd (hnil ▸ rfl) hdecided
  | cons m ms =>
      have hm := hsend m List.mem_cons_self
      have hbytes : bs ++ rest = m.bytes ++ wire ms := hwire.trans List.flatMap_cons
      have hparse : tryParse bs = .ok (parsed m) := by
        rw [← tryParse_append rest hdecided, hbytes, tryParse_bytes hm]
      have hnext : frames.next bs = some (tryParse bs, (tryParse bs).consumed) := if_neg hdecided
      have hle := frames.le hnext
      have hlength : (tryParse bs).consumed = m.bytes.length := by
        have hwhole := frames.stable rest hnext
        rw [hbytes, frames_next_bytes hm] at hwhole
        exact (Prod.mk.inj (Option.some.inj hwhole)).2.symm
      refine ⟨m, ms, rfl, hparse, ?_⟩
      have hdrop := congrArg (List.drop (tryParse bs).consumed) hbytes
      rw [List.drop_append_of_le_length hle, hlength, List.drop_left] at hdrop
      rw [hlength]
      exact hdrop

variable (libs send) in
/-- **The message loop handles messages**, and leaves the bytes of those that are not all there. -/
theorem processMessagesFrom_handles (fuel : Nat) {s : Host} (halive : s.alive = true)
    {rest : Bytes} {pending : List ClientMessage}
    (hwire : s.recvBuf.readable ++ rest = wire pending) (hsend : ∀ m ∈ pending, m.Sendable) :
    ∃ handled left reply p', pending = handled ++ left ∧ Handles libs (peerOf s) handled reply p' ∧
      p'.serving = (processMessagesFrom libs send fuel s).view.state ∧
      ((processMessagesFrom libs send fuel s).alive = true → p'.live = true ∧
        (processMessagesFrom libs send fuel s).recvBuf.readable ++ rest = wire left) := by
  induction fuel generalizing s pending with
  | zero => exact ⟨[], pending, [], peerOf s, rfl, .nil _, rfl, fun _ => ⟨rfl, hwire⟩⟩
  | succ fuel ih =>
      rw [processMessagesFrom]
      split
      · exact ⟨[], pending, [], peerOf s, rfl, .nil _, rfl, fun _ => ⟨rfl, hwire⟩⟩
      · next hdecided =>
        obtain ⟨m, ms, rfl, hparse, hrest⟩ := tryParse_wire hwire hsend hdecided
        obtain ⟨hm, hms⟩ := List.forall_mem_cons.mp hsend
        obtain ⟨hview, hrecv⟩ := deliver_view libs send (tryParse s.recvBuf.readable) s
        have halive' := alive_deliver libs send (tryParse s.recvBuf.readable) s
        rw [hparse] at hview hrecv halive' hrest ⊢
        have hstate : (deliver libs send (.ok (parsed m)) s).view.state
            = ((peerOf s).handle libs m).serving := congrArg Framing.Receiver.state hview
        dsimp only
        split
        · next hgo =>
          have hlive : ((peerOf s).handle libs m).live = true := by
            rw [halive', Bool.and_eq_true, Bool.and_eq_true] at hgo
            exact hgo.1.2
          have hnext : (((deliver libs send (.ok (parsed m)) s).recvBuf.consume
              (ParseResult.ok (parsed m)).consumed).compact).readable ++ rest = wire ms := by
            rw [RingBuffer.readable_compact, RingBuffer.readable_consume, hrecv]
            exact hrest
          obtain ⟨handled, left, reply, p', rfl, hhandles, hserving, hopen⟩ :=
            ih (s := { deliver libs send (.ok (parsed m)) s with
                recvBuf := ((deliver libs send (.ok (parsed m)) s).recvBuf.consume
                  (ParseResult.ok (parsed m)).consumed).compact }) hgo hnext hms
          have hpeer : peerOf { deliver libs send (.ok (parsed m)) s with
              recvBuf := ((deliver libs send (.ok (parsed m)) s).recvBuf.consume
                (ParseResult.ok (parsed m)).consumed).compact } = (peerOf s).handle libs m := by
            have hboth : (peerOf s).handle libs m
                = { serving := ((peerOf s).handle libs m).serving, live := true } := by rw [← hlive]
            rw [hboth, ← hstate]
            rfl
          rw [hpeer] at hhandles
          exact ⟨m :: handled, left, (peerOf s).answer libs m ++ reply, p', rfl,
            .cons rfl hm hhandles, hserving, hopen⟩
        · next hgone =>
          exact ⟨[m], ms, (peerOf s).answer libs m ++ [], (peerOf s).handle libs m, rfl,
            .cons rfl hm (.nil _), hstate.symm, fun hopen => absurd hopen hgone⟩

/-- What an event has made of the connection and of the bytes that are still on their way to it. -/
structure Handled (libs : Libs) (s s' : Host) (rest : Bytes) (pending : List ClientMessage)
    (handled left : List ClientMessage) (reply : Bytes) (p' : Peer) : Prop where
  split : pending = handled ++ left
  handles : Handles libs (peerOf s) handled reply p'
  serving : p'.serving = s'.view.state
  goesOn : s'.alive = true → p'.live = true ∧ s'.recvBuf.readable ++ rest = wire left ∧ s'.Quiet

/-- Nothing is handled. -/
theorem handled_none {s s' : Host} {rest : Bytes} {pending : List ClientMessage}
    (hstate : s'.view.state = s.view.state)
    (hopen : s'.alive = true → s'.recvBuf.readable ++ rest = wire pending ∧ s'.Quiet) :
    Handled libs s s' rest pending [] pending [] (peerOf s) where
  split := rfl
  handles := .nil _
  serving := hstate.symm
  goesOn halive := ⟨rfl, hopen halive⟩

/-- The parser has been called. -/
theorem handled_processMessages {s s' : Host} {rest : Bytes} {pending : List ClientMessage}
    (halive : s'.alive = true) (hstate : s'.view.state = s.view.state)
    (hwire : s'.recvBuf.readable ++ rest = wire pending) (hsend : ∀ m ∈ pending, m.Sendable)
    (hquiet : (processMessages libs send s').alive = true → (processMessages libs send s').Quiet) :
    ∃ handled left reply p',
      Handled libs s (processMessages libs send s') rest pending handled left reply p' := by
  obtain ⟨handled, left, reply, p', hsplit, hhandles, hserving, hopen⟩ :=
    processMessagesFrom_handles libs send (s'.recvBuf.readableBytes + 1) halive
      hwire hsend
  have hpeer : peerOf s' = peerOf s := by rw [peerOf, peerOf, hstate]
  rw [hpeer] at hhandles
  exact ⟨handled, left, reply, p', hsplit, hhandles, hserving, fun hgo =>
    ⟨(hopen hgo).1, (hopen hgo).2, hquiet hgo⟩⟩

variable (libs send) in
/-- **An event handles the messages that have arrived.** -/
theorem handleEvent_handled {w : Wire} {e : IoEvent} {rest : Bytes} (halive : w.host.alive = true)
    (hquiet : w.host.Quiet) (hpossible : IoEvent.Possible w rest e)
    {pending : List ClientMessage} (hwire : w.host.recvBuf.readable ++ w.toServer = wire pending)
    (hsend : ∀ m ∈ pending, m.Sendable) :
    ∃ handled left reply p',
      Handled libs w.host (handleEvent libs send e w.host) rest pending handled left reply p' := by
  obtain ⟨hdata, hfits⟩ := hpossible
  have hpos := writableBytes_pos hquiet halive
  have hclosed : e.data = [] → ∃ handled left reply p',
      Handled libs w.host (closeConn w.host) rest pending handled left reply p' := fun _ =>
    ⟨[], pending, [], peerOf w.host, handled_none rfl fun hopen => Bool.noConfusion hopen⟩
  cases e with
  | hangup => exact hclosed rfl
  | writable =>
      have hspec := handleConnWritableFrom_spec send (w.host.sendBuf.readableBytes + 1) w.host
      refine ⟨[], pending, [], peerOf w.host, handled_none
        (congrArg Framing.Receiver.state hspec.1 :) fun _ =>
          ⟨?_, quiet_handleEvent send libs .writable halive hquiet trivial⟩⟩
      rw [handleEvent, handleConnWritable, hspec.2, ← hwire, hdata]
      rfl
  | readable outcome =>
      cases outcome with
      | peerClosed =>
          rw [handleEvent, handleConnReadable, RingBuffer.writeFromFd_of_room hquiet.tidy.1 hpos]
          exact hclosed rfl
      | failed =>
          rw [handleEvent, handleConnReadable, RingBuffer.writeFromFd_of_room hquiet.tidy.1 hpos]
          exact hclosed rfl
      | again =>
          have hafter := quiet_handleEvent send libs (.readable .again) halive hquiet trivial
          rw [handleEvent, handleConnReadable,
            RingBuffer.writeFromFd_of_room hquiet.tidy.1 hpos] at hafter ⊢
          refine handled_processMessages halive rfl ?_ hsend fun _ => hafter
          rw [← hwire, hdata]
          rfl
      | received data =>
          obtain ⟨hne, hroom⟩ := hfits data rfl
          have hafter := quiet_handleEvent send libs (.readable (.received data)) halive hquiet
            ⟨hne, hroom⟩
          obtain ⟨b, data, rfl⟩ := List.exists_cons_of_ne_nil hne
          rw [RingBuffer.makeRoom_of_readPos hquiet.tidy.1] at hroom
          rw [handleEvent, handleConnReadable,
            RingBuffer.writeFromFd_received hquiet.tidy.1 hpos hroom] at hafter ⊢
          refine handled_processMessages halive rfl ?_ hsend fun _ => hafter
          rw [← hwire, hdata]
          dsimp only
          rw [RingBuffer.readable_writeFrom, List.append_assoc]
          rfl

variable (send) in
/-- Bytes that the socket has taken stay taken. -/
theorem prefix_handleConnWritableFrom (fuel : Nat) (s : Host) :
    s.sent <+: (handleConnWritableFrom send fuel s).sent := by
  induction fuel generalizing s with
  | zero => exact List.prefix_rfl
  | succ fuel ih =>
      rw [handleConnWritableFrom]
      dsimp only
      split
      · cases send s.sends s.sendBuf.readableBytes with
        | sent n =>
            cases n with
            | zero => exact List.prefix_rfl
            | succ n =>
                exact (List.prefix_append _ _).trans (ih
                  { s with
                    sends := s.sends + 1
                    sendBuf := s.sendBuf.consume (n + 1)
                    sent := s.sent ++ s.sendBuf.readable.take (n + 1) })
        | again => exact List.prefix_rfl
        | failed => exact List.prefix_rfl
      · exact List.prefix_rfl

theorem keeps_sentBefore (libs : Libs) (send : SendSide) (sent : Bytes) :
    Keeps libs send fun s => sent <+: s.sent where
  recvBuf _ _ h := h
  deliver s h _ _ := by
    rw [deliver]
    generalize react libs s.session s.files (tryParse s.recvBuf.readable) = reaction
    obtain ⟨session, files, ack, closes⟩ := reaction
    have hanswered : sent <+: (answer send ack
        { s with
          session
          files
          delivered := s.delivered ++ [tryParse s.recvBuf.readable] }).sent := by
      cases ack with
      | none => exact h
      | some ack =>
          rw [answer, enqueueAck, tryArmWrite]
          split
          · exact h.trans (prefix_handleConnWritableFrom send _
              { s with
                session
                files
                delivered := s.delivered ++ [tryParse s.recvBuf.readable]
                sendBuf := s.sendBuf.writeFrom (ackMessage ack) })
          · exact h
    cases closes <;> exact hanswered
  writable s h _ := h.trans (prefix_handleConnWritableFrom send _ s)
  close _ h := h

end Events

/-! ### Reading while bytes still arrive -/

theorem ackBody_append {bs : Bytes} (more : Bytes) (h : ackBodySize ≤ bs.length) :
    AckBody.ofBytes (bs ++ more) = AckBody.ofBytes bs := by
  rw [ackBodySize] at h
  have hhash : hashField (bs ++ more) 16 = hashField bs 16 := by
    simp only [hashField, Hash.mk.injEq]
    rw [List.drop_append_of_le_length (by omega), List.takeD_eq_take _ (by simp; omega),
      List.takeD_eq_take _ (by simp; omega), List.take_append_of_le_length (by simp; omega)]
  simp only [AckBody.ofBytes, LittleEndian.u32, LittleEndian.u64, hhash]
  rw [LittleEndian.field_append_left (by omega), LittleEndian.field_append_left (by omega),
    LittleEndian.field_append_left (by omega)]

/-- **What the client reads, it reads whatever follows.** -/
theorem readAck_append {bs : Bytes} (more : Bytes) (h : readAck bs ≠ .more) :
    readAck (bs ++ more) = readAck bs ∧
      ∀ ack, readAck bs = .ack ack → headerSize + ackBodySize ≤ bs.length := by
  have hheader : ¬ bs.length < headerSize := fun hlt => h (if_pos hlt)
  have hheader' : ¬ (bs ++ more).length < headerSize := by
    rw [List.length_append]
    omega
  rw [readAck, if_neg hheader] at h
  rw [readAck, readAck, if_neg hheader, if_neg hheader', msgHeader_append more (not_lt.mp hheader)]
  dsimp only at h ⊢
  split
  · exact ⟨rfl, fun _ hack => AckRead.noConfusion hack⟩
  · next hmagic =>
    rw [if_neg hmagic] at h
    split
    · exact ⟨rfl, fun _ hack => AckRead.noConfusion hack⟩
    · next htype =>
      rw [if_neg htype] at h
      have hbody : ¬ bs.length < headerSize + ackBodySize := fun hlt => h (if_pos hlt)
      have hbody' : ¬ (bs ++ more).length < headerSize + ackBodySize := by
        rw [List.length_append]
        omega
      rw [if_neg hbody, if_neg hbody', List.drop_append_of_le_length (by omega),
        ackBody_append more (by rw [List.length_drop]; omega)]
      exact ⟨rfl, fun _ _ => not_lt.mp hbody⟩

/-! ### What happens on the way -/

/-- These are the messages that have not been handled, as long as the connection is there. -/
structure Passing (w : Wire) (queue pending : List ClientMessage) (live : Bool) : Prop where
  goesOn : w.host.alive = true → live = true ∧
    w.host.recvBuf.readable ++ w.toServer = wire pending ∧ w.host.Quiet
  pending : ∀ m ∈ pending, m.Sendable
  queued : ∀ m ∈ queue, m.Sendable

/-- What is to come from the server. -/
def Wire.answers (w : Wire) : Bytes := w.toClient ++ w.host.sendBuf.readable

/-- The client sends. -/
theorem Passing.send {w : Wire} {queue pending : List ClientMessage} {live : Bool}
    (h : Passing w queue pending live) {m : ClientMessage} (hm : m.Sendable) :
    Passing w (queue ++ [m]) pending live where
  goesOn := h.goesOn
  pending := h.pending
  queued m' hm' := by
    rcases List.mem_append.mp hm' with hm' | hm'
    · exact h.queued m' hm'
    · rw [List.mem_singleton.mp hm']
      exact hm

/-- **What happens on the way is the server at work on messages**, and none of its bytes get lost. -/
theorem Passing.move {libs : Libs} {w w' : Wire} {queue queue' pending : List ClientMessage}
    {live : Bool} {reply : Bytes} (h : Passing w queue pending live)
    (hmove : WireMove libs w queue reply w' queue') :
    ∃ handled answer pending' p',
      Handles libs { serving := w.host.view.state, live } handled answer p' ∧
      pending ++ queue = handled ++ (pending' ++ queue') ∧
      p'.serving = w'.host.view.state ∧
      w.answers ++ answer = reply ++ w'.answers ∧
      Passing w' queue' pending' p'.live := by
  cases hmove with
  | @transmit m queue' =>
      -- the message is still on its way
      obtain ⟨hm, hqueue⟩ := List.forall_mem_cons.mp h.queued
      refine ⟨[], [], pending ++ [m], _, .nil _, ?_, rfl, List.append_nil _, ?_⟩
      · rw [List.nil_append, List.append_assoc, List.singleton_append]
      · refine ⟨fun halive => ?_, fun m' hm' => ?_, hqueue⟩
        · obtain ⟨hlive, hwire, hquiet⟩ := h.goesOn halive
          refine ⟨hlive, ?_, hquiet⟩
          dsimp only
          rw [← List.append_assoc, hwire, wire, wire, List.flatMap_append, List.flatMap_singleton]
        · rcases List.mem_append.mp hm' with hm' | hm'
          · exact h.pending m' hm'
          · rw [List.mem_singleton.mp hm']
            exact hm
  | @event queue send e rest halive hpossible =>
      obtain ⟨rfl, hwire, hquiet⟩ := h.goesOn halive
      obtain ⟨handled, left, answer, p', hhandled⟩ := handleEvent_handled libs send halive
        hquiet hpossible hwire h.pending
      refine ⟨handled, answer, left, p', hhandled.handles, ?_, hhandled.serving, ?_,
        hhandled.goesOn, fun m hm => ?_, h.queued⟩
      · rw [hhandled.split, List.append_assoc]
      · -- what the socket has taken and what is queued are the answers
        obtain ⟨new, hnew⟩ := (keeps_sentBefore libs send w.host.sent).handleEvent e
          List.prefix_rfl halive
        have houtput := hhandled.handles.output_eq
        rw [hhandled.serving] at houtput
        change (handleEvent libs send e w.host).sent
            ++ (handleEvent libs send e w.host).sendBuf.readable
          = (w.host.sent ++ w.host.sendBuf.readable) ++ answer at houtput
        rw [← hnew, List.append_assoc, List.append_assoc] at houtput
        have hbytes := List.append_cancel_left houtput
        dsimp only [Wire.answers]
        rw [← hnew, List.drop_left, List.nil_append, List.append_assoc, List.append_assoc, hbytes]
      · exact h.pending m (hhandled.split ▸ List.mem_append_right _ hm)
  | @arrive queue reply rest hbytes =>
      refine ⟨[], [], pending, _, .nil _, rfl, rfl, ?_, h.goesOn, h.pending, h.queued⟩
      rw [List.append_nil, Wire.answers, hbytes, List.append_assoc]
      rfl

/-- A connection with nothing on its way and nothing in its buffers. -/
structure Idle (w : Wire) : Prop where
  alive : w.host.alive = true
  quiet : w.host.Quiet
  received : w.host.recvBuf.readable = []
  queued : w.host.sendBuf.readable = []
  toServer : w.toServer = []
  toClient : w.toClient = []

/-- Nothing is on its way. -/
theorem Idle.passing {w : Wire} (h : Idle w) : Passing w [] [] true where
  goesOn _ := by
    refine ⟨rfl, ?_, h.quiet⟩
    rw [h.received, h.toServer]
    rfl
  pending _ hm := absurd hm List.not_mem_nil
  queued _ hm := absurd hm List.not_mem_nil

theorem Idle.answers {w : Wire} (h : Idle w) : w.answers = [] := by
  rw [Wire.answers, h.toClient, h.queued, List.append_nil]

/-! ### The simulation -/

/-- The transfer over bytes, seen with whole messages: those that have not been handled are on
their way, and so is every byte of the answers. -/
def seenAs (c : Pipeline Wire) (pending : List ClientMessage) (live : Bool) : Pipeline Peer :=
  { window := c.window
    inFlightCount := c.inFlightCount
    ackedCount := c.ackedCount
    failedCount := c.failedCount
    pipelineError := c.pipelineError
    manager := c.manager
    sender := c.sender
    sentCount := c.sentCount
    skippedCount := c.skippedCount
    failedBlocks := c.failedBlocks
    totalCompressed := c.totalCompressed
    receiver := c.receiver
    outgoing := pending ++ c.outgoing
    incoming := c.incoming ++ c.server.answers
    server := { serving := c.server.host.view.state, live }
    sent := c.sent
    received := c.received }

/-- What compressing a block yields can be sent. -/
def Compact {σ : Type} (out : Outside σ) : Prop :=
  ∀ offset size data compressed, size.toNat ≤ blockSize → out.readFile offset size (some data) →
    out.compress data (some compressed) → compressed.length ≤ 2 * blockSize

/-- What the sending loop has at hand was read, or can be sent. -/
def Prepared {σ : Type} (job : Job) (out : Outside σ) : Sender → Prop
  | .record i _ data _ =>
      out.readFile (UInt64.ofNat i * UInt64.ofNat blockSize) (job.blockSize i) (some data)
  | .send _ _ m => m.Sendable
  | _ => True

/-- The state of the transfer over bytes, with the messages that have not been handled. -/
structure Underway {σ : Type} (job : Job) (out : Outside σ) (c : Pipeline Wire)
    (pending : List ClientMessage) (live : Bool) : Prop where
  passing : Passing c.server c.outgoing pending live
  prepared : Prepared job out c.sender

/-- The state of the transfer over bytes, and what it is with whole messages. -/
def Seen {σ : Type} (job : Job) (out : Outside σ) (c : Pipeline Wire) (a : Pipeline Peer) : Prop :=
  ∃ pending live, a = seenAs c pending live ∧ Underway job out c pending live

/-- No block is longer than `BlockSize`. -/
theorem blockSize_le (job : Job) (i : Nat) : (job.blockSize i).toNat ≤ blockSize := by
  rw [Job.blockSize]
  split
  · next hshort =>
    have hlt := UInt64.lt_iff_toNat_lt.mp hshort.2.1
    rw [UInt64.toNat_toUInt32]
    exact (Nat.mod_le _ _).trans hlt.le
  · exact le_rfl

section Simulation

variable {libs : Libs} {σ : Type} {out : Outside σ} {job : Job}

/-- A step of the client that sends nothing. -/
theorem Underway.keep {c c' : Pipeline Wire} {pending : List ClientMessage} {live : Bool}
    (h : Underway job out c pending live) (hserver : c'.server = c.server)
    (houtgoing : c'.outgoing = c.outgoing) (hprepared : Prepared job out c'.sender) :
    Underway job out c' pending live where
  passing := by
    rw [hserver, houtgoing]
    exact h.passing
  prepared := hprepared

variable (out job) in
/-- Messages that are handled are served one by one. -/
theorem run_of_handles {p p' : Peer} {handled : List ClientMessage} {reply : Bytes}
    (h : Handles libs p handled reply p') (a : Pipeline Peer) (queue : List ClientMessage) :
    ∃ bs, Transition.Run (Step job (out.servedBy (takes libs)))
      { a with outgoing := handled ++ queue, server := p } bs
      { a with outgoing := queue, server := p', incoming := a.incoming ++ reply } := by
  induction h generalizing a with
  | nil p =>
      refine ⟨[], ?_⟩
      rw [List.append_nil]
      exact .nil _
  | @cons p p' m ms reply hlive hm h ih =>
      obtain ⟨bs, hrun⟩ := ih { a with incoming := a.incoming ++ p.answer libs m }
      refine ⟨.server :: bs, .cons (t := { a with
        outgoing := ms ++ queue, server := p.handle libs m,
        incoming := a.incoming ++ p.answer libs m }) ?_ ?_⟩
      · refine Step.serve ⟨⟨hlive, m, rfl, rfl, rfl⟩, fun m' hm' => ?_⟩
        cases hm'
        exact hm
      · dsimp only at hrun
        rw [List.append_assoc] at hrun
        exact hrun

/-- The client reads what it would read with whole messages. -/
theorem readAck_seen (c : Pipeline Wire) (pending : List ClientMessage) (live : Bool)
    (h : readAck c.incoming ≠ .more) :
    readAck (seenAs c pending live).incoming = readAck c.incoming ∧
      ∀ ack, readAck c.incoming = .ack ack → headerSize + ackBodySize ≤ c.incoming.length :=
  readAck_append _ h

/-- One step of the client is one step. -/
theorem seen_of_step {c c' : Pipeline Wire} {pending : List ClientMessage} {live : Bool} {p : Party}
    (hst : Step job (out.servedBy (takes libs)) (seenAs c pending live) p (seenAs c' pending live))
    (h : Underway job out c' pending live) :
    ∃ bs a, Transition.Run (Step job (out.servedBy (takes libs))) (seenAs c pending live) bs a ∧
      Seen job out c' a :=
  ⟨[p], _, .cons hst (.nil _), pending, live, rfl, h⟩

/-- **What happens on the way is a run of the server.** -/
theorem seen_of_move {c : Pipeline Wire} {pending : List ClientMessage} {live : Bool}
    (h : Underway job out c pending live) {reply : Bytes} {w : Wire} {queue : List ClientMessage}
    (hmove : WireMove libs c.server c.outgoing reply w queue) :
    ∃ bs a, Transition.Run (Step job (out.servedBy (takes libs))) (seenAs c pending live) bs a ∧
      Seen job out { c with outgoing := queue, incoming := c.incoming ++ reply, server := w } a := by
  obtain ⟨handled, answer, pending', p', hhandles, hqueue, hserving, hbytes, hpassing⟩ :=
    h.passing.move hmove
  obtain ⟨bs, hrun⟩ := run_of_handles out job hhandles (seenAs c pending live) (pending' ++ queue)
  rw [← hqueue] at hrun
  refine ⟨bs, _, hrun, pending', p'.live, ?_, hpassing, h.prepared⟩
  obtain ⟨serving, live'⟩ := p'
  obtain rfl : serving = _ := hserving
  dsimp only [seenAs]
  rw [List.append_assoc, hbytes, List.append_assoc]

/-- **The transfer over bytes does what the transfer with whole messages does.** -/
theorem wire_simulates (hcompact : Compact out) :
    Transition.Simulates (Step job (out.servedBy (WireMove libs))) (Step job (out.servedBy (takes libs)))
      (Seen job out) := by
  rintro c p c' a ⟨pending, live, rfl, h⟩ hst
  have hprepared := h.prepared
  cases hst with
  | finish hs hi => exact seen_of_step (.finish hs hi) (h.keep rfl rfl trivial)
  | abort hs hi herror => exact seen_of_step (.abort hs hi herror) (h.keep rfl rfl trivial)
  | timeout hs hi hnone htimesOut =>
      exact seen_of_step (.timeout hs hi hnone htimesOut) (h.keep rfl rfl trivial)
  | acquire hs hi herror hk =>
      exact seen_of_step (.acquire hs hi herror hk) (h.keep rfl rfl trivial)
  | bind hs => exact seen_of_step (.bind hs) (h.keep rfl rfl trivial)
  | readFails hs hread => exact seen_of_step (.readFails hs hread) (h.keep rfl rfl trivial)
  | hashFails hs hread hhash =>
      exact seen_of_step (.hashFails hs hread hhash) (h.keep rfl rfl trivial)
  | read hs hread hhash => exact seen_of_step (.read hs hread hhash) (h.keep rfl rfl hread)
  | compressFails hs hcompress =>
      exact seen_of_step (.compressFails hs hcompress) (h.keep rfl rfl trivial)
  | @compress i k data compressed hash hs hcompress =>
      rw [hs] at hprepared
      exact seen_of_step (.compress hs hcompress)
        (h.keep rfl rfl (hcompact _ _ data compressed (blockSize_le job i) hprepared hcompress))
  | @send i k m hs hsend =>
      rw [hs] at hprepared
      refine seen_of_step (p := .sender) ?_ ⟨h.passing.send hprepared, trivial⟩
      dsimp only [seenAs]
      rw [← List.append_assoc pending]
      exact .send hs hsend
  | sendFails hs hsend => exact seen_of_step (.sendFails hs hsend) (h.keep rfl rfl trivial)
  | count hs => exact seen_of_step (.count hs) (h.keep rfl rfl trivial)
  | skip hs => exact seen_of_step (.skip hs) (h.keep rfl rfl trivial)
  | abandon hs => exact seen_of_step (.abandon hs) (h.keep rfl rfl trivial)
  | fail hs => exact seen_of_step (.fail hs) (h.keep rfl rfl trivial)
  | awaited hs hzero => exact seen_of_step (.awaited hs hzero) (h.keep rfl rfl trivial)
  | interrupted hs hpos herror =>
      exact seen_of_step (.interrupted hs hpos herror) (h.keep rfl rfl trivial)
  | giveUp hs hpos htimesOut =>
      exact seen_of_step (.giveUp hs hpos htimesOut) (h.keep rfl rfl trivial)
  | join hs hr => exact seen_of_step (.join hs hr) (h.keep rfl rfl trivial)
  | receive hr hread hblock =>
      obtain ⟨hread', hlength⟩ := readAck_seen c pending live (hread ▸ nofun)
      refine seen_of_step (p := .receiver) ?_ (h.keep rfl rfl hprepared)
      dsimp only [seenAs]
      rw [← List.drop_append_of_le_length (hlength _ hread)]
      exact .receive hr (hread'.trans hread) hblock
  | receiveError hr hread hblock =>
      obtain ⟨hread', hlength⟩ := readAck_seen c pending live (hread ▸ nofun)
      refine seen_of_step (p := .receiver) ?_ (h.keep rfl rfl hprepared)
      dsimp only [seenAs]
      rw [← List.drop_append_of_le_length (hlength _ hread)]
      exact .receiveError hr (hread'.trans hread) hblock
  | receiveBad hr hread =>
      obtain ⟨hread', -⟩ := readAck_seen c pending live (hread ▸ nofun)
      exact seen_of_step (.receiveBad hr (hread'.trans hread)) (h.keep rfl rfl hprepared)
  | receiveFails hr hfails => exact seen_of_step (.receiveFails hr hfails) (h.keep rfl rfl hprepared)
  | setAck hr => exact seen_of_step (.setAck hr) (h.keep rfl rfl hprepared)
  | countAck hr => exact seen_of_step (.countAck hr) (h.keep rfl rfl hprepared)
  | release hr => exact seen_of_step (.release hr) (h.keep rfl rfl hprepared)
  | decrement hr => exact seen_of_step (.decrement hr) (h.keep rfl rfl hprepared)
  | serve hmove => exact seen_of_move h hmove

/-- A transfer on an idle connection reaches only states that one with whole messages reaches. -/
theorem reached_seen (hcompact : Compact out) {w : Wire} (hidle : Idle w) {windowSize : Nat}
    {m : BlockStateManager} {c : Pipeline Wire}
    (h : Reached job (out.servedBy (WireMove libs)) (.start windowSize m w) c) :
    ∃ a, Reached job (out.servedBy (takes libs)) (.start windowSize m (peerOf w.host)) a ∧
      Seen job out c a := by
  have hinit : ∀ c, c = Pipeline.start windowSize m w →
      ∃ a, a = Pipeline.start windowSize m (peerOf w.host) ∧ Seen job out c a := by
    rintro c rfl
    refine ⟨_, rfl, [], true, ?_, hidle.passing, trivial⟩
    rw [seenAs, Pipeline.start, Pipeline.start]
    dsimp only
    rw [hidle.answers]
    rfl
  exact (wire_simulates hcompact).reachable hinit h

end Simulation

end Go2Cbt.Link
