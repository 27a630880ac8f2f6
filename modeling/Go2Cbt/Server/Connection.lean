import Go2Cbt.Server.Handlers
import Go2Cbt.Server.RingBuffer
import Mathlib.Data.List.TakeDrop

/-!
# Server — one connection under the event loop

`HandleConnReadable`, `ProcessMessages`, `EnqueueAck` and `HandleConnWritable` of `Server.cpp`,
with both buffers.  The event loop calls them in any order; what `recv` and `send` report is
part of the events and of the socket.

The parser sees the stream in the pieces that `recv` hands over.  `receive_eq_of_cuts`: which
pieces these are makes no difference to what reaches the handlers, to the files, to the answers
and to what is left over, and the receive buffer is never full.
-/

namespace Go2Cbt.Server

open Go2Cbt.Protocol MessageParser

/-- `kRecvBufSize`. -/
def recvBufSize : Nat := 4 * 1024 * 1024

/-- `kSendBufSize`. -/
def sendBufSize : Nat := 256 * 1024

/-- What one call of `send` reports. -/
inductive SendOutcome where
  | sent (n : Nat)
  | again
  | failed
  deriving DecidableEq

/-- How `send` answers, by the number of the call and the bytes it is offered. -/
abbrev SendSide := Nat → Nat → SendOutcome

/-- One connection, the files, and what the model records besides: the calls of `send`, the
bytes they took, and what reached the handlers.  A connection that is not `alive` has been taken
out of `conns_`. -/
structure Host where
  session : Session
  recvBuf : RingBuffer
  sendBuf : RingBuffer
  alive : Bool
  files : Files
  sends : Nat
  sent : Bytes
  delivered : List ParseResult

/-- A connection just accepted. -/
def Host.accept (files : Files) : Host :=
  { session := .new
    recvBuf := .new recvBufSize
    sendBuf := .new sendBufSize
    alive := true
    files
    sends := 0
    sent := []
    delivered := [] }

/-- `CloseConn`. -/
def closeConn (s : Host) : Host := { s with alive := false }

/-- The loop of `HandleConnWritable`, for at most `fuel` calls of `send`. -/
def handleConnWritableFrom (send : SendSide) : (fuel : Nat) → Host → Host
  | 0, s => s
  | fuel + 1, s =>
      if s.sendBuf.readableBytes > 0 then
        let called := { s with sends := s.sends + 1 }
        match send s.sends s.sendBuf.readableBytes with
        | .sent 0 => closeConn called
        | .sent (n + 1) =>
            handleConnWritableFrom send fuel
              { called with
                sendBuf := s.sendBuf.consume (n + 1)
                sent := s.sent ++ s.sendBuf.readable.take (n + 1) }
        | .again => called
        | .failed => closeConn called
      else { s with sendBuf := s.sendBuf.compact }

/-- `HandleConnWritable`.  Every call of `send` but the last takes a byte at least. -/
def handleConnWritable (send : SendSide) (s : Host) : Host :=
  handleConnWritableFrom send (s.sendBuf.readableBytes + 1) s

/-- How the loop of `HandleConnWritable` ends. -/
inductive FlushEnd where
  | drained
  | blocked
  | failed
  deriving DecidableEq

/-- How it ends by what `send` answers, from a number of calls on and with `queued` bytes. -/
def flushEnd (send : SendSide) : (fuel call queued : Nat) → FlushEnd
  | 0, _, _ => .blocked
  | fuel + 1, call, queued =>
      if queued > 0 then
        match send call queued with
        | .sent 0 => .failed
        | .sent (n + 1) => flushEnd send fuel (call + 1) (queued - (n + 1))
        | .again => .blocked
        | .failed => .failed
      else .drained

/-- `TryArmWrite`. -/
def tryArmWrite (send : SendSide) (s : Host) : Host :=
  if s.sendBuf.readableBytes > 0 then handleConnWritable send s else s

/-- `EnqueueAck`, for a message laid out as bytes. -/
def enqueueAck (send : SendSide) (message : Bytes) (s : Host) : Host :=
  tryArmWrite send { s with sendBuf := s.sendBuf.writeFrom message }

/-- Enqueue the acknowledgement of a handler, if there is one. -/
def answer (send : SendSide) : Option AckBody → Host → Host
  | none, s => s
  | some ack, s => enqueueAck send (ackMessage ack) s

/-- A handler's effects on the connection. -/
def deliver (libs : Libs) (send : SendSide) (r : ParseResult) (s : Host) : Host :=
  let reaction := react libs s.session s.files r
  let answered := answer send reaction.ack
    { s with
      session := reaction.session
      files := reaction.files
      delivered := s.delivered ++ [r] }
  if reaction.closes then closeConn answered else answered

/-- The loop of `ProcessMessages`, for at most `fuel` decisions. -/
def processMessagesFrom (libs : Libs) (send : SendSide) : (fuel : Nat) → Host → Host
  | 0, s => s
  | fuel + 1, s =>
      if tryParse s.recvBuf.readable = .needMore then s
      else
        let r := tryParse s.recvBuf.readable
        let handled := deliver libs send r s
        if handled.alive then
          processMessagesFrom libs send fuel
            { handled with recvBuf := (handled.recvBuf.consume r.consumed).compact }
        else handled

/-- `ProcessMessages`.  Every decision but the last takes a byte at least. -/
def processMessages (libs : Libs) (send : SendSide) (s : Host) : Host :=
  processMessagesFrom libs send (s.recvBuf.readableBytes + 1) s

/-- One turn of the loop of `HandleConnReadable`. -/
def handleConnReadable (libs : Libs) (send : SendSide) (outcome : RecvOutcome) (s : Host) :
    Host :=
  let read := s.recvBuf.writeFromFd outcome
  let filled := { s with recvBuf := read.2 }
  match read.1 with
  | .recv (.received (_ :: _)) => processMessages libs send filled
  | .recv (.received []) | .recv .peerClosed => closeConn filled
  | .recv .again => processMessages libs send filled
  | .recv .failed | .noBufferSpace => closeConn filled

/-- What the event loop reports for a connection. -/
inductive IoEvent where
  | readable (outcome : RecvOutcome)
  | writable
  | hangup
  deriving DecidableEq

/-- The body of the loop of `Run`. -/
def handleEvent (libs : Libs) (send : SendSide) : IoEvent → Host → Host
  | .readable outcome, s => handleConnReadable libs send outcome s
  | .writable, s => handleConnWritable send s
  | .hangup, s => closeConn s

/-- The events of one connection in order, as long as it is there: its state after them, and the
events that never reached it. -/
def receive (libs : Libs) (send : SendSide) : List IoEvent → Host → Host × List IoEvent
  | [], s => (s, [])
  | e :: es, s => if s.alive then receive libs send es (handleEvent libs send e s) else (s, e :: es)

/-- The bytes an event brings. -/
def IoEvent.data : IoEvent → Bytes
  | .readable (.received data) => data
  | _ => []

/-- The bytes that have not been consumed: those in the buffer, and those that never got there. -/
def unconsumed (r : Host × List IoEvent) : Bytes :=
  r.1.recvBuf.readable ++ r.2.flatMap IoEvent.data

/-- A chunk is not empty and fits the room that `recv` is given; the other events are those that
leave the connection open. -/
def IoEvent.Fits (s : Host) : IoEvent → Prop
  | .readable (.received data) => data ≠ [] ∧ data.length ≤ s.recvBuf.makeRoom.writableBytes
  | .readable .again | .writable => True
  | _ => False

/-- Every event fits, as long as the connection is there. -/
def AllFit (libs : Libs) (send : SendSide) : List IoEvent → Host → Prop
  | [], _ => True
  | e :: es, s => s.alive = true → e.Fits s ∧ AllFit libs send es (handleEvent libs send e s)

/-- The events cut the stream into chunks that fit. -/
def Cuts (libs : Libs) (send : SendSide) (stream : Bytes) (events : List IoEvent) (s : Host) :
    Prop :=
  events.flatMap IoEvent.data = stream ∧ AllFit libs send events s

/-- The chunks as events. -/
def ofChunks (chunks : List Bytes) : List IoEvent := chunks.map fun c => .readable (.received c)

/-- No call of `send` closes the connection. -/
def KeepsOpen (send : SendSide) : Prop :=
  ∀ call len, send call len = .again ∨ ∃ n, send call len = .sent (n + 1)

/-! ### The connection as a receiver of parsed messages -/

/-- What the connection is, apart from where its bytes lie. -/
def Host.view (s : Host) : Framing.Receiver Serving ParseResult :=
  { state :=
      { session := s.session, files := s.files, output := s.sent ++ s.sendBuf.readable }
    rest := s.recvBuf.readable
    live := s.alive
    items := s.delivered }

/-- **Sending moves answered bytes to the socket, and closes the connection if it fails.** -/
theorem handleConnWritableFrom_spec (send : SendSide) (fuel : Nat) (s : Host) :
    (handleConnWritableFrom send fuel s).view
        = { s.view with
            live := s.alive
              && decide (flushEnd send fuel s.sends s.sendBuf.readableBytes ≠ .failed) } ∧
      (handleConnWritableFrom send fuel s).recvBuf = s.recvBuf := by
  induction fuel generalizing s with
  | zero =>
      refine ⟨?_, rfl⟩
      rw [flushEnd]
      simp [handleConnWritableFrom, Host.view]
  | succ fuel ih =>
      rw [handleConnWritableFrom, flushEnd]
      split
      · cases send s.sends s.sendBuf.readableBytes with
        | sent n =>
            cases n with
            | zero => exact ⟨by simp [closeConn, Host.view], rfl⟩
            | succ n =>
                obtain ⟨hview, hrecv⟩ := ih
                  { s with
                    sends := s.sends + 1
                    sendBuf := s.sendBuf.consume (n + 1)
                    sent := s.sent ++ s.sendBuf.readable.take (n + 1) }
                refine ⟨hview.trans ?_, hrecv⟩
                simp only [Host.view, RingBuffer.readable_consume,
                  RingBuffer.readableBytes_consume, List.append_assoc, List.take_append_drop]
        | again => exact ⟨by simp [Host.view], rfl⟩
        | failed => exact ⟨by simp [closeConn, Host.view], rfl⟩
      · exact ⟨by simp [Host.view], rfl⟩

/-- How the flush of an acknowledgement ends. -/
def ackEnd (send : SendSide) (message : Bytes) (s : Host) : FlushEnd :=
  flushEnd send (s.sendBuf.readableBytes + message.length + 1) s.sends
    (s.sendBuf.readableBytes + message.length)

theorem enqueueAck_spec (send : SendSide) (message : Bytes) (s : Host) :
    (enqueueAck send message s).view
        = { s.view with
            state := { s.view.state with output := s.view.state.output ++ message }
            live := s.alive && decide (ackEnd send message s ≠ .failed) } ∧
      (enqueueAck send message s).recvBuf = s.recvBuf := by
  have hqueued : ({ s with sendBuf := s.sendBuf.writeFrom message } : Host).view
      = { s.view with state := { s.view.state with output := s.view.state.output ++ message } } := by
    simp only [Host.view, RingBuffer.readable_writeFrom, List.append_assoc]
  rw [enqueueAck, tryArmWrite]
  split
  · obtain ⟨hview, hrecv⟩ := handleConnWritableFrom_spec send
      ((s.sendBuf.writeFrom message).readableBytes + 1)
      { s with sendBuf := s.sendBuf.writeFrom message }
    refine ⟨?_, hrecv⟩
    rw [handleConnWritable, hview, hqueued, ackEnd, ← RingBuffer.readableBytes_writeFrom]
  · next hempty =>
    refine ⟨?_, rfl⟩
    have hdrained : ackEnd send message s = .drained := by
      rw [ackEnd, ← RingBuffer.readableBytes_writeFrom, Nat.eq_zero_of_not_pos hempty]
      rfl
    rw [hqueued, hdrained]
    simp [Host.view]

/-- The flush of a reaction fails. -/
def Reaction.loses (send : SendSide) (s : Host) (r : Reaction) : Bool :=
  match r.ack with
  | none => false
  | some ack => ackEnd send (ackMessage ack) s = .failed

theorem answer_spec (send : SendSide) (r : Reaction) (s : Host) :
    (answer send r.ack s).view
        = { s.view with
            state := { s.view.state with output := s.view.state.output ++ r.reply }
            live := s.alive && !r.loses send s } ∧
      (answer send r.ack s).recvBuf = s.recvBuf := by
  rw [Reaction.reply, Reaction.loses]
  cases r.ack with
  | none =>
      refine ⟨?_, rfl⟩
      simp [answer, Host.view]
  | some ack =>
      obtain ⟨hview, hrecv⟩ := enqueueAck_spec send (ackMessage ack) s
      refine ⟨hview.trans ?_, hrecv⟩
      simp [Host.view]

/-- **A handler does what `respond` says**, and loses the connection if it cannot send. -/
theorem deliver_view (libs : Libs) (send : SendSide) (r : ParseResult) (s : Host) :
    (deliver libs send r s).view
        = { state := (respond libs s.view.state r).1
            rest := s.view.rest
            live := s.alive && (respond libs s.view.state r).2
              && !(react libs s.session s.files r).loses send s
            items := s.view.items ++ [r] } ∧
      (deliver libs send r s).recvBuf = s.recvBuf := by
  have hresponse : respond libs s.view.state r
      = ({ session := (react libs s.session s.files r).session
           files := (react libs s.session s.files r).files
           output := s.view.state.output ++ (react libs s.session s.files r).reply },
          !(react libs s.session s.files r).closes) := rfl
  rw [deliver, hresponse]
  generalize react libs s.session s.files r = reaction
  obtain ⟨hview, hrecv⟩ := answer_spec send reaction
    { s with
      session := reaction.session
      files := reaction.files
      delivered := s.delivered ++ [r] }
  dsimp only at hview hrecv ⊢
  cases reaction.closes with
  | false =>
      refine ⟨hview.trans ?_, hrecv⟩
      rw [Bool.not_false, Bool.and_true]
      rfl
  | true =>
      refine ⟨?_, hrecv⟩
      rw [Bool.not_true, Bool.and_false, Bool.false_and]
      exact congrArg (fun v : Framing.Receiver _ _ => { v with live := false }) hview

/-- A message leaves the connection open unless its handler closes it or cannot send. -/
theorem alive_deliver (libs : Libs) (send : SendSide) (r : ParseResult) (s : Host) :
    (deliver libs send r s).alive
      = (s.alive && !(react libs s.session s.files r).closes
        && !(react libs s.session s.files r).loses send s) :=
  congrArg Framing.Receiver.live (deliver_view libs send r s).1

/-- A socket that keeps the connection open never fails. -/
theorem flushEnd_ne_failed {send : SendSide} (hopen : KeepsOpen send) (fuel call queued : Nat) :
    flushEnd send fuel call queued ≠ .failed := by
  induction fuel generalizing call queued with
  | zero => exact FlushEnd.noConfusion
  | succ fuel ih =>
      rw [flushEnd]
      split
      · rcases hopen call queued with h | ⟨n, h⟩
        · rw [h]
          exact FlushEnd.noConfusion
        · rw [h]
          exact ih _ _
      · exact FlushEnd.noConfusion

theorem loses_eq_false {send : SendSide} (hopen : KeepsOpen send) (s : Host) (r : Reaction) :
    r.loses send s = false := by
  rw [Reaction.loses]
  split
  · rfl
  · exact decide_eq_false (flushEnd_ne_failed hopen _ _ _)

/-- The receive buffer keeps its size, and starts with the bytes that are left. -/
def Host.Tidy (s : Host) : Prop :=
  s.recvBuf.readPos = 0 ∧ s.recvBuf.buf.length = recvBufSize

/-- The connection is where the receiver is, or the socket failed it on the way. -/
def Follows (send : SendSide) (s : Host) (v : Framing.Receiver Serving ParseResult) : Prop :=
  s.view = v ∨ ¬ KeepsOpen send ∧ s.alive = false ∧ s.delivered <+: v.items

/-- **The message loop drains the receiver.** -/
theorem processMessagesFrom_follows (send : SendSide) (libs : Libs) (fuel : Nat) {s : Host}
    (hs : s.alive = true) (htidy : s.Tidy) :
    Follows send (processMessagesFrom libs send fuel s)
        (Framing.drainFrom frames (respond libs) fuel s.view) ∧
      (processMessagesFrom libs send fuel s).Tidy := by
  induction fuel generalizing s with
  | zero => exact ⟨.inl rfl, htidy⟩
  | succ fuel ih =>
      have hlive : s.view.live = true := hs
      rw [processMessagesFrom]
      split
      · next hmore =>
        refine ⟨.inl (Framing.drainFrom_of_settled (.inr ?_) _).symm, htidy⟩
        exact if_pos hmore
      · next hdecided =>
        have hnext : frames.next s.view.rest
            = some (tryParse s.recvBuf.readable, (tryParse s.recvBuf.readable).consumed) :=
          if_neg hdecided
        obtain ⟨hview, hrecv⟩ := deliver_view libs send (tryParse s.recvBuf.readable) s
        have hrest : (deliver libs send (tryParse s.recvBuf.readable) s).Tidy := by
          rw [Host.Tidy, hrecv]
          exact htidy
        have hlost := fun hopen : KeepsOpen send =>
          loses_eq_false hopen s (react libs s.session s.files (tryParse s.recvBuf.readable))
        rw [Framing.drainFrom_succ hlive hnext]
        dsimp only
        generalize (react libs s.session s.files (tryParse s.recvBuf.readable)).loses send s
          = lost at hview hlost
        rw [hs, Bool.true_and] at hview
        have halive : (deliver libs send (tryParse s.recvBuf.readable) s).alive
            = ((respond libs s.view.state (tryParse s.recvBuf.readable)).2 && !lost) :=
          congrArg Framing.Receiver.live hview
        generalize deliver libs send (tryParse s.recvBuf.readable) s = handled at *
        cases lost with
        | true =>
            -- The acknowledgement could not be sent, which the receiver does not see.
            rw [Bool.not_true, Bool.and_false] at halive
            rw [if_neg (by rw [halive]; exact Bool.false_ne_true)]
            refine ⟨.inr ⟨fun hopen => Bool.noConfusion (hlost hopen), halive, ?_⟩, hrest⟩
            have hitems : handled.delivered = (s.view.take (respond libs)
                (tryParse s.recvBuf.readable) (tryParse s.recvBuf.readable).consumed).items := by
              rw [Framing.Receiver.items_take]
              exact congrArg Framing.Receiver.items hview
            rw [hitems]
            exact Framing.items_prefix_drainFrom _ _
        | false =>
            rw [Bool.not_false, Bool.and_true] at halive hview
            cases hgo : (respond libs s.view.state (tryParse s.recvBuf.readable)).2 with
            | true =>
                rw [hgo] at halive
                rw [if_pos halive]
                have htake : ({ handled with
                      recvBuf := (handled.recvBuf.consume
                        (tryParse s.recvBuf.readable).consumed).compact } : Host).view
                    = s.view.take (respond libs) (tryParse s.recvBuf.readable)
                        (tryParse s.recvBuf.readable).consumed := by
                  have hfront : ∀ rb, ({ handled with recvBuf := rb } : Host).view
                      = { handled.view with rest := rb.readable } := fun _ => rfl
                  rw [hfront, hview, Framing.Receiver.take, if_pos hgo,
                    RingBuffer.readable_compact, RingBuffer.readable_consume, hrecv, hgo, ← hlive]
                  rfl
                rw [← htake]
                refine ih halive ⟨RingBuffer.readPos_compact _, ?_⟩
                rw [RingBuffer.length_buf_compact, RingBuffer.buf_consume]
                exact hrest.2
            | false =>
                rw [hgo] at halive
                rw [if_neg (by rw [halive]; exact Bool.false_ne_true)]
                refine ⟨.inl ?_, hrest⟩
                have htake : s.view.take (respond libs) (tryParse s.recvBuf.readable)
                    (tryParse s.recvBuf.readable).consumed = handled.view := by
                  rw [hview, Framing.Receiver.take, hgo]
                  rfl
                rw [htake, Framing.drainFrom_of_settled (.inl halive)]

/-! ### The receive buffer -/

/-- Between events: the buffer is tidy and the parser waits for more bytes. -/
structure Host.Quiet (s : Host) : Prop where
  tidy : s.Tidy
  settled : Framing.Settled frames s.view

theorem quiet_accept (files : Files) : (Host.accept files).Quiet :=
  { tidy := ⟨rfl, List.length_replicate⟩
    settled := .inr rfl }

/-- **What a waiting parser leaves in the buffer is shorter than the longest message**, so that
there is always room for a block. -/
theorem room_of_quiet {s : Host} (h : s.Quiet) (hs : s.alive = true) :
    blockSize ≤ s.recvBuf.writableBytes := by
  obtain ⟨hpos, hlen⟩ := h.tidy
  have hmore : tryParse s.recvBuf.readable = .needMore := by
    rcases h.settled with hdead | hnext
    · exact absurd (hs.symm.trans hdead) Bool.noConfusion
    · exact frames_next_eq_none_iff.mp hnext
  have hlt := length_lt_of_needMore hmore
  rw [RingBuffer.length_readable] at hlt
  rw [RingBuffer.writableBytes_of_readPos hpos, hlen]
  have hsizes : maxMessageSize + blockSize ≤ recvBufSize := by decide
  omega

theorem writableBytes_pos {s : Host} (h : s.Quiet) (hs : s.alive = true) :
    0 < s.recvBuf.writableBytes :=
  Nat.lt_of_lt_of_le (by decide) (room_of_quiet h hs)

/-- A chunk of at most a block fits. -/
theorem fits_of_length_le {s : Host} (h : s.Quiet) (hs : s.alive = true) {data : Bytes}
    (hne : data ≠ []) (hlen : data.length ≤ blockSize) :
    (IoEvent.readable (.received data)).Fits s := by
  refine ⟨hne, ?_⟩
  rw [RingBuffer.makeRoom_of_readPos h.tidy.1]
  exact hlen.trans (room_of_quiet h hs)

theorem processMessages_follows (send : SendSide) (libs : Libs) {s : Host} (hs : s.alive = true)
    (htidy : s.Tidy) :
    Follows send (processMessages libs send s) (Framing.drain frames (respond libs) s.view) ∧
      (processMessages libs send s).Tidy := by
  have h := processMessagesFrom_follows send libs (s.recvBuf.readableBytes + 1) hs htidy
  rw [← RingBuffer.length_readable] at h
  rw [processMessages, ← RingBuffer.length_readable]
  exact h

/-- **One event feeds its bytes to the receiver.** -/
theorem handleEvent_follows (send : SendSide) (libs : Libs) (e : IoEvent) {s : Host}
    (hs : s.alive = true) (h : s.Quiet) (hfits : e.Fits s) :
    Follows send (handleEvent libs send e s)
        (Framing.feed frames (respond libs) s.view e.data) ∧
      (handleEvent libs send e s).Tidy := by
  have hpos := writableBytes_pos h hs
  have hempty : Framing.feed frames (respond libs) s.view [] = s.view := by
    rw [Framing.feed, Framing.Receiver.push_nil, Framing.drain_of_settled h.settled]
  cases e with
  | writable =>
      obtain ⟨hview, hrecv⟩ := handleConnWritableFrom_spec send (s.sendBuf.readableBytes + 1) s
      have htidy : (handleConnWritable send s).Tidy := by
        rw [handleConnWritable, Host.Tidy, hrecv]
        exact h.tidy
      refine ⟨?_, htidy⟩
      rw [handleEvent, handleConnWritable, show IoEvent.data .writable = [] from rfl, hempty]
      by_cases hfails : flushEnd send (s.sendBuf.readableBytes + 1) s.sends
          s.sendBuf.readableBytes = .failed
      · rw [decide_eq_false (not_not.mpr hfails), Bool.and_false] at hview
        refine .inr ⟨fun hopen => flushEnd_ne_failed hopen _ _ _ hfails,
          congrArg Framing.Receiver.live hview, ?_⟩
        rw [show (handleConnWritableFrom send (s.sendBuf.readableBytes + 1) s).delivered
          = s.delivered from congrArg Framing.Receiver.items hview]
        exact List.prefix_rfl
      · rw [decide_eq_true hfails, Bool.and_true] at hview
        exact .inl hview
  | hangup => exact hfits.elim
  | readable outcome =>
      cases outcome with
      | peerClosed => exact hfits.elim
      | failed => exact hfits.elim
      | again =>
          obtain ⟨hfollows, htidy⟩ := processMessages_follows send libs hs h.tidy
          rw [handleEvent, handleConnReadable, RingBuffer.writeFromFd_of_room h.tidy.1 hpos]
          refine ⟨?_, htidy⟩
          rw [Framing.drain_of_settled h.settled] at hfollows
          rw [show IoEvent.data (.readable .again) = [] from rfl, hempty]
          exact hfollows
      | received bytes =>
          obtain ⟨b, rest, rfl⟩ := List.exists_cons_of_ne_nil hfits.1
          have hlen : (b :: rest).length ≤ s.recvBuf.writableBytes := by
            rw [← RingBuffer.makeRoom_of_readPos h.tidy.1]
            exact hfits.2
          have hpush : ({ s with recvBuf := s.recvBuf.writeFrom (b :: rest) } : Host).view
              = s.view.push (b :: rest) := by
            simp only [Host.view, Framing.Receiver.push, RingBuffer.readable_writeFrom]
          have htidy : ({ s with recvBuf := s.recvBuf.writeFrom (b :: rest) } : Host).Tidy :=
            ⟨h.tidy.1, (RingBuffer.length_buf_writeFrom hlen).trans h.tidy.2⟩
          rw [handleEvent, handleConnReadable, RingBuffer.writeFromFd_received h.tidy.1 hpos hlen]
          obtain ⟨hfollows, htidy'⟩ := processMessages_follows send libs
            (s := { s with recvBuf := s.recvBuf.writeFrom (b :: rest) }) hs htidy
          rw [hpush] at hfollows
          exact ⟨hfollows, htidy'⟩

/-- One event leaves the connection quiet. -/
theorem quiet_handleEvent (send : SendSide) (libs : Libs) (e : IoEvent) {s : Host}
    (hs : s.alive = true) (h : s.Quiet) (hfits : e.Fits s) :
    (handleEvent libs send e s).Quiet := by
  obtain ⟨hfollows, htidy⟩ := handleEvent_follows send libs e hs h hfits
  refine ⟨htidy, ?_⟩
  rcases hfollows with hview | ⟨-, hdead, -⟩
  · exact hview ▸ Framing.settled_drain _
  · exact .inl hdead

/-! ### The whole stream -/

/-- A connection that is gone receives nothing. -/
theorem receive_of_closed {libs : Libs} {send : SendSide} (events : List IoEvent) {s : Host}
    (hs : s.alive = false) : receive libs send events s = (s, events) := by
  cases events with
  | nil => rfl
  | cons e es => rw [receive, hs]; rfl

/-- **A run of events is the stream, fed at once**, unless the socket failed on the way.  What
the connection never received lies behind what it left. -/
theorem receive_follows (send : SendSide) (libs : Libs) {events : List IoEvent} {s : Host}
    (h : s.Quiet) (hfit : AllFit libs send events s) :
    ((receive libs send events s).1.view.push
          ((receive libs send events s).2.flatMap IoEvent.data)
        = Framing.feed frames (respond libs) s.view (events.flatMap IoEvent.data) ∨
      ¬ KeepsOpen send ∧ (receive libs send events s).1.alive = false ∧
        (receive libs send events s).1.delivered
          <+: (Framing.feed frames (respond libs) s.view (events.flatMap IoEvent.data)).items) ∧
      (receive libs send events s).1.Quiet := by
  induction events generalizing s with
  | nil =>
      refine ⟨.inl ?_, h⟩
      rw [receive, Framing.feed, List.flatMap_nil, Framing.Receiver.push_nil,
        Framing.drain_of_settled h.settled]
  | cons e es ih =>
      cases hs : s.alive with
      | false =>
          rw [receive_of_closed _ hs]
          exact ⟨.inl (Framing.drain_of_settled (.inl hs)).symm, h⟩
      | true =>
          obtain ⟨hfits, hrest⟩ := hfit hs
          have hquiet := quiet_handleEvent send libs e hs h hfits
          rw [receive, if_pos hs, List.flatMap_cons, ← Framing.feed_feed]
          rcases (handleEvent_follows send libs e hs h hfits).1 with hview | ⟨hfails, hdead, hpre⟩
          · rw [← hview]
            exact ih hquiet hrest
          · rw [receive_of_closed es hdead]
            exact ⟨.inr ⟨hfails, hdead, hpre.trans (Framing.items_prefix_feed _ _)⟩, hquiet⟩

/-- A socket that does not fail lets the whole stream in. -/
theorem receive_view {send : SendSide} (hopen : KeepsOpen send) (libs : Libs)
    {events : List IoEvent} {s : Host} (h : s.Quiet) (hfit : AllFit libs send events s) :
    (receive libs send events s).1.view.push ((receive libs send events s).2.flatMap IoEvent.data)
        = Framing.feed frames (respond libs) s.view (events.flatMap IoEvent.data) ∧
      (receive libs send events s).1.Quiet := by
  obtain ⟨hfollows, hquiet⟩ := receive_follows send libs h hfit
  refine ⟨?_, hquiet⟩
  rcases hfollows with hview | ⟨hfails, -⟩
  · exact hview
  · exact absurd hopen hfails

/-- Nothing is left over while the connection is there. -/
theorem receive_snd_of_alive (libs : Libs) (send : SendSide) (events : List IoEvent) {s : Host}
    (halive : (receive libs send events s).1.alive = true) :
    (receive libs send events s).2 = [] := by
  induction events generalizing s with
  | nil => rfl
  | cons e es ih =>
      rw [receive] at halive ⊢
      split
      · next hs => rw [if_pos hs] at halive; exact ih halive
      · next hs => rw [if_neg hs] at halive; exact absurd halive hs

theorem AllFit.take {libs : Libs} {send : SendSide} {events : List IoEvent} {s : Host}
    (h : AllFit libs send events s) (n : Nat) : AllFit libs send (events.take n) s := by
  induction events generalizing s n with
  | nil => rw [List.take_nil]; exact h
  | cons e es ih =>
      cases n with
      | zero => exact trivial
      | succ n => exact fun hs => ⟨(h hs).1, ih (h hs).2 n⟩

/-- Chunks of at most a block always fit. -/
theorem allFit_of_length_le (send : SendSide) (libs : Libs) {chunks : List Bytes}
    (hne : ∀ c ∈ chunks, c ≠ []) (hlen : ∀ c ∈ chunks, c.length ≤ blockSize)
    {s : Host} (h : s.Quiet) :
    AllFit libs send (ofChunks chunks) s := by
  induction chunks generalizing s with
  | nil => exact trivial
  | cons c cs ih =>
      intro hs
      have hfits := fits_of_length_le h hs (hne c List.mem_cons_self) (hlen c List.mem_cons_self)
      refine ⟨hfits, ih ?_ ?_ (quiet_handleEvent send libs _ hs h hfits)⟩
      · exact fun c' hc' => hne c' (List.mem_cons_of_mem c hc')
      · exact fun c' hc' => hlen c' (List.mem_cons_of_mem c hc')

/-- **The pieces of the stream make no difference**: the same decisions reach the handlers in the
same order, the connection is as open, the session, the files and the answers are the same, and
so is what was left unconsumed.  At no point does an open connection find its receive buffer
full. -/
theorem receive_eq_of_cuts (libs : Libs) {send₁ send₂ : SendSide} (hopen₁ : KeepsOpen send₁)
    (hopen₂ : KeepsOpen send₂) (files : Files) {stream : Bytes} {events₁ events₂ : List IoEvent}
    (hcuts₁ : Cuts libs send₁ stream events₁ (.accept files))
    (hcuts₂ : Cuts libs send₂ stream events₂ (.accept files)) :
    let r₁ := receive libs send₁ events₁ (.accept files)
    let r₂ := receive libs send₂ events₂ (.accept files)
    r₁.1.delivered = r₂.1.delivered ∧ unconsumed r₁ = unconsumed r₂ ∧
      r₁.1.alive = r₂.1.alive ∧ (r₁.1.alive = true → r₁.1.recvBuf.readable = r₂.1.recvBuf.readable) ∧
      r₁.1.view.state = r₂.1.view.state ∧
      ∀ n outcome, (receive libs send₁ (events₁.take n) (.accept files)).1.alive = true →
        ((receive libs send₁ (events₁.take n) (.accept files)).1.recvBuf.writeFromFd outcome).1
          ≠ .noBufferSpace := by
  intro r₁ r₂
  have hstart := quiet_accept files
  have hview : r₁.1.view.push (r₁.2.flatMap IoEvent.data)
      = r₂.1.view.push (r₂.2.flatMap IoEvent.data) := by
    rw [(receive_view hopen₁ libs hstart hcuts₁.2).1, (receive_view hopen₂ libs hstart hcuts₂.2).1,
      hcuts₁.1, hcuts₂.1]
  have halive : r₁.1.alive = r₂.1.alive := congrArg Framing.Receiver.live hview
  have hleft : unconsumed r₁ = unconsumed r₂ := congrArg Framing.Receiver.rest hview
  refine ⟨congrArg Framing.Receiver.items hview, hleft, halive, fun hopen => ?_,
    (congrArg Framing.Receiver.state hview :), fun n outcome hopen => ?_⟩
  · have hleft₁ : r₁.2 = [] := receive_snd_of_alive libs send₁ events₁ hopen
    have hleft₂ : r₂.2 = [] := receive_snd_of_alive libs send₂ events₂ (halive ▸ hopen)
    rw [unconsumed, unconsumed, hleft₁, hleft₂] at hleft
    simpa only [List.flatMap_nil, List.append_nil] using hleft
  · have hquiet := (receive_view hopen₁ libs hstart (hcuts₁.2.take n)).2
    exact RingBuffer.writeFromFd_ne_noBufferSpace hquiet.tidy.1 (writableBytes_pos hquiet hopen)
      outcome

/-- No disks, and libraries that do next to nothing. -/
def noDisks : Libs where
  diskMap := .empty
  fileOf := id
  sha256 := fun _ => .zero
  uncompress2 := fun _ data => some data
  pwrite := fun _ len => some len

/-- A `BYE`. -/
def byeMessage : Bytes :=
  MsgHeader.bytes
    { magic := protocolMagic, type := MessageType.bye.code, devNo := 0, reserved := 0 }

/-- Empty files. -/
def noFiles : Files := { image := fun _ _ => 0, size := fun _ => 0, calls := [] }

theorem receive_eq_of_cuts_bye :
    (receive noDisks (fun _ _ => .again) (ofChunks [0 :: byeMessage]) (.accept noFiles)).1.delivered
        = (receive noDisks (fun _ len => .sent (len + 1)) (ofChunks [[0], byeMessage])
            (.accept noFiles)).1.delivered ∧
      unconsumed
          (receive noDisks (fun _ _ => .again) (ofChunks [0 :: byeMessage]) (.accept noFiles))
        = unconsumed
          (receive noDisks (fun _ len => .sent (len + 1)) (ofChunks [[0], byeMessage])
            (.accept noFiles)) := by
  have hopen₁ : KeepsOpen fun _ _ => .again := fun _ _ => .inl rfl
  have hopen₂ : KeepsOpen fun _ len => .sent (len + 1) := fun _ len => .inr ⟨len, rfl⟩
  have hcuts₁ : Cuts noDisks (fun _ _ => .again) (0 :: byeMessage) (ofChunks [0 :: byeMessage])
      (.accept noFiles) :=
    ⟨rfl, allFit_of_length_le _ noDisks (by decide) (by decide) (quiet_accept noFiles)⟩
  have hcuts₂ : Cuts noDisks (fun _ len => .sent (len + 1)) (0 :: byeMessage)
      (ofChunks [[0], byeMessage]) (.accept noFiles) :=
    ⟨rfl, allFit_of_length_le _ noDisks (by decide) (by decide) (quiet_accept noFiles)⟩
  obtain ⟨hdelivered, hleft, -⟩ :=
    receive_eq_of_cuts noDisks hopen₁ hopen₂ noFiles hcuts₁ hcuts₂
  exact ⟨hdelivered, hleft⟩

end Go2Cbt.Server
