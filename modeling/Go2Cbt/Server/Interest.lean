import Go2Cbt.Server.Closing
import Go2Cbt.Server.Devices
import Mathlib.Logic.Function.Basic

/-!
# Server — what epoll is asked to report

The functions of `Connection` once more, with the events that epoll reports for the descriptor:
`TryArmWrite` asks for `EPOLLOUT`, a send loop that has emptied the buffer takes that back, and
`CloseConn` removes the descriptor.  The connection is untouched by this (`host_handleReady`).

Whenever the event loop has control, the descriptor of every open connection is registered for
writability exactly if its send buffer holds bytes (`armed_run`): no acknowledgement is stranded,
and no idle connection wakes the loop.
-/

namespace Go2Cbt.Server

open Go2Cbt.Protocol MessageParser

/-- The events that the server asks epoll for. -/
inductive EpollEvent where
  | epollIn
  | epollOut
  | epollRdhup
  deriving DecidableEq

/-- A connection, and what its descriptor is registered for, if it is. -/
structure Watched where
  host : Host
  registered : Option (List EpollEvent)

namespace Watched

/-- `EpollAdd`. -/
def epollAdd (events : List EpollEvent) (w : Watched) : Watched :=
  { w with registered := some (events ++ [.epollRdhup]) }

/-- `EpollMod`, which changes nothing for a descriptor that is not registered. -/
def epollMod (events : List EpollEvent) (w : Watched) : Watched :=
  { w with registered := w.registered.map fun _ => events ++ [.epollRdhup] }

/-- What `HandleAccept` sets up for one connection. -/
def accept (files : Files) : Watched :=
  epollAdd [.epollIn] { host := .accept files, registered := none }

/-- `CloseConn`. -/
def closeConn (w : Watched) : Watched := { host := Server.closeConn w.host, registered := none }

/-- The loop of `HandleConnWritable`. -/
def handleConnWritableFrom (send : SendSide) : (fuel : Nat) → Watched → Watched
  | 0, w => w
  | fuel + 1, w =>
      let s := w.host
      if s.sendBuf.readableBytes > 0 then
        let called := { s with sends := s.sends + 1 }
        match send s.sends s.sendBuf.readableBytes with
        | .sent 0 => closeConn { w with host := called }
        | .sent (n + 1) =>
            handleConnWritableFrom send fuel
              { w with
                host :=
                  { called with
                    sendBuf := s.sendBuf.consume (n + 1)
                    sent := s.sent ++ s.sendBuf.readable.take (n + 1) } }
        | .again => { w with host := called }
        | .failed => closeConn { w with host := called }
      else
        let compacted := { w with host := { s with sendBuf := s.sendBuf.compact } }
        if compacted.host.sendBuf.readableBytes = 0 then compacted.epollMod [.epollIn]
        else compacted

/-- `HandleConnWritable`. -/
def handleConnWritable (send : SendSide) (w : Watched) : Watched :=
  handleConnWritableFrom send (w.host.sendBuf.readableBytes + 1) w

/-- `TryArmWrite`. -/
def tryArmWrite (send : SendSide) (w : Watched) : Watched :=
  if w.host.sendBuf.readableBytes > 0 then
    handleConnWritable send (w.epollMod [.epollIn, .epollOut])
  else w

/-- `EnqueueAck`. -/
def enqueueAck (send : SendSide) (message : Bytes) (w : Watched) : Watched :=
  tryArmWrite send
    { w with host := { w.host with sendBuf := w.host.sendBuf.writeFrom message } }

/-- Enqueue the acknowledgement of a handler, if there is one. -/
def answer (send : SendSide) : Option AckBody → Watched → Watched
  | none, w => w
  | some ack, w => enqueueAck send (ackMessage ack) w

/-- A handler's effects on the connection. -/
def deliver (libs : Libs) (send : SendSide) (r : ParseResult) (w : Watched) : Watched :=
  let reaction := react libs w.host.session w.host.files r
  let answered := answer send reaction.ack
    { w with
      host :=
        { w.host with
          session := reaction.session
          files := reaction.files
          delivered := w.host.delivered ++ [r] } }
  if reaction.closes then closeConn answered else answered

/-- The loop of `ProcessMessages`. -/
def processMessagesFrom (libs : Libs) (send : SendSide) : (fuel : Nat) → Watched → Watched
  | 0, w => w
  | fuel + 1, w =>
      if tryParse w.host.recvBuf.readable = .needMore then w
      else
        let r := tryParse w.host.recvBuf.readable
        let handled := deliver libs send r w
        if handled.host.alive then
          processMessagesFrom libs send fuel
            { handled with
              host :=
                { handled.host with
                  recvBuf := (handled.host.recvBuf.consume r.consumed).compact } }
        else handled

/-- `ProcessMessages`. -/
def processMessages (libs : Libs) (send : SendSide) (w : Watched) : Watched :=
  processMessagesFrom libs send (w.host.recvBuf.readableBytes + 1) w

/-- One turn of the loop of `HandleConnReadable`. -/
def readTurn (libs : Libs) (send : SendSide) (outcome : RecvOutcome) (w : Watched) : Watched :=
  let read := w.host.recvBuf.writeFromFd outcome
  let filled := { w with host := { w.host with recvBuf := read.2 } }
  match read.1 with
  | .recv (.received (_ :: _)) => processMessages libs send filled
  | .recv (.received []) | .recv .peerClosed => closeConn filled
  | .recv .again => processMessages libs send filled
  | .recv .failed | .noBufferSpace => closeConn filled

/-- Whether the turn read any bytes. -/
def readsBytes (outcome : RecvOutcome) (w : Watched) : Bool :=
  match (w.host.recvBuf.writeFromFd outcome).1 with
  | .recv (.received (_ :: _)) => true
  | _ => false

/-- `HandleConnReadable`, for what `recv` reports turn by turn.  It goes on after bytes that have
left the connection open. -/
def handleConnReadable (libs : Libs) (send : SendSide) : List RecvOutcome → Watched → Watched
  | [], w => w
  | outcome :: outcomes, w =>
      let turned := readTurn libs send outcome w
      if readsBytes outcome w ∧ turned.host.alive then
        handleConnReadable libs send outcomes turned
      else turned

end Watched

/-- What `epoll_wait` reports for a descriptor, and how the socket answers while the event is
handled. -/
structure Ready where
  error : Bool
  readable : Bool
  writable : Bool
  recv : List RecvOutcome
  send : SendSide

/-- What `Run` does with an event of a connection. -/
def Watched.handleReady (libs : Libs) (e : Ready) (w : Watched) : Watched :=
  if e.error then w.closeConn
  else
    let read := if e.readable then w.handleConnReadable libs e.send e.recv else w
    if read.host.alive then
      if e.writable then read.handleConnWritable e.send else read
    else read

/-- The event loop: the connections that are open, by descriptor, and the files. -/
structure Reactor where
  conns : Nat → Option Watched
  files : Files

/-- What wakes the event loop. -/
inductive Wake where
  | accepted (fd : Nat)
  | ready (fd : Nat) (e : Ready)

namespace Reactor

/-- The server just started. -/
def start (files : Files) : Reactor := { conns := fun _ => none, files }

/-- `CloseConn` has erased a connection that is not alive from `conns_`. -/
def settle (fd : Nat) (w : Watched) (r : Reactor) : Reactor :=
  { conns := Function.update r.conns fd (if w.host.alive then some w else none)
    files := w.host.files }

/-- One turn of the loop of `Run`. -/
def wake (libs : Libs) : Wake → Reactor → Reactor
  | .accepted fd, r =>
      { r with conns := Function.update r.conns fd (some (.accept r.files)) }
  | .ready fd e, r =>
      match r.conns fd with
      | none => r
      | some w => r.settle fd (({ w with host := { w.host with files := r.files } } :
          Watched).handleReady libs e)

/-- `Run`. -/
def run (libs : Libs) (wakes : List Wake) (r : Reactor) : Reactor :=
  wakes.foldl (fun r e => r.wake libs e) r

end Reactor

/-! ### The connection under the registration -/

namespace Watched

variable {libs : Libs} {send : SendSide}

theorem host_handleConnWritableFrom (fuel : Nat) (w : Watched) :
    (handleConnWritableFrom send fuel w).host
      = Server.handleConnWritableFrom send fuel w.host := by
  induction fuel generalizing w with
  | zero => rfl
  | succ fuel ih =>
      rw [handleConnWritableFrom, Server.handleConnWritableFrom]
      dsimp only
      split
      · cases send w.host.sends w.host.sendBuf.readableBytes with
        | sent n =>
            cases n with
            | zero => rfl
            | succ n => exact ih _
        | again => rfl
        | failed => rfl
      · split <;> rfl

theorem host_enqueueAck (message : Bytes) (w : Watched) :
    (enqueueAck send message w).host = Server.enqueueAck send message w.host := by
  rw [enqueueAck, tryArmWrite, Server.enqueueAck, Server.tryArmWrite]
  dsimp only
  split
  · exact host_handleConnWritableFrom _ _
  · rfl

theorem host_deliver (r : ParseResult) (w : Watched) :
    (deliver libs send r w).host = Server.deliver libs send r w.host := by
  rw [deliver, Server.deliver]
  generalize react libs w.host.session w.host.files r = reaction
  obtain ⟨session, files, ack, closes⟩ := reaction
  cases ack with
  | none => cases closes <;> rfl
  | some ack =>
      cases closes with
      | false => exact host_enqueueAck _ _
      | true => exact congrArg Server.closeConn (host_enqueueAck _ _)

theorem host_processMessagesFrom (fuel : Nat) (w : Watched) :
    (processMessagesFrom libs send fuel w).host
      = Server.processMessagesFrom libs send fuel w.host := by
  induction fuel generalizing w with
  | zero => rfl
  | succ fuel ih =>
      rw [processMessagesFrom, Server.processMessagesFrom]
      split
      · rfl
      · dsimp only
        rw [host_deliver]
        split
        · rw [ih]
        · exact host_deliver _ _

theorem host_readTurn (outcome : RecvOutcome) (w : Watched) :
    (readTurn libs send outcome w).host = Server.handleConnReadable libs send outcome w.host := by
  rw [readTurn, Server.handleConnReadable]
  dsimp only
  cases (w.host.recvBuf.writeFromFd outcome).1 with
  | noBufferSpace => rfl
  | recv reported =>
      cases reported with
      | received data =>
          cases data with
          | nil => rfl
          | cons byte data => exact host_processMessagesFrom _ _
      | peerClosed => rfl
      | again => exact host_processMessagesFrom _ _
      | failed => rfl

/-- More events for a connection that is still open. -/
theorem receive_append {events : List IoEvent} {s : Host}
    (halive : (receive libs send events s).1.alive = true) (more : List IoEvent) :
    receive libs send (events ++ more) s
      = receive libs send more (receive libs send events s).1 := by
  induction events generalizing s with
  | nil => rfl
  | cons e es ih =>
      rw [receive] at halive ⊢
      split at halive
      · next hopen =>
        rw [List.cons_append, receive, if_pos hopen, if_pos hopen]
        exact ih halive
      · next hclosed => exact absurd halive hclosed

/-- `HandleConnReadable` is a run of its turns. -/
theorem host_handleConnReadable (outcomes : List RecvOutcome) {w : Watched}
    (halive : w.host.alive = true) :
    ∃ turns, (handleConnReadable libs send outcomes w).host
      = (receive libs send turns w.host).1 := by
  induction outcomes generalizing w with
  | nil => exact ⟨[], rfl⟩
  | cons outcome outcomes ih =>
      have hturn : (receive libs send [.readable outcome] w.host).1
          = Server.handleConnReadable libs send outcome w.host := by
        rw [receive, if_pos halive, receive]
        rfl
      rw [handleConnReadable]
      split
      · next hgo =>
        obtain ⟨turns, hturns⟩ := ih hgo.2
        refine ⟨.readable outcome :: turns, ?_⟩
        rw [hturns, host_readTurn, receive, if_pos halive]
        rfl
      · exact ⟨[.readable outcome], (host_readTurn outcome w).trans hturn.symm⟩

/-- **An event of the loop is a run of the connection**: the registration decides nothing. -/
theorem host_handleReady (e : Ready) {w : Watched} (halive : w.host.alive = true) :
    ∃ events, (handleReady libs e w).host = (receive libs e.send events w.host).1 := by
  rw [handleReady]
  dsimp only
  split
  · refine ⟨[.hangup], ?_⟩
    rw [receive, if_pos halive, receive]
    rfl
  · obtain ⟨turns, hturns⟩ : ∃ turns,
        (if e.readable then w.handleConnReadable libs e.send e.recv else w).host
          = (receive libs e.send turns w.host).1 := by
      split
      · exact host_handleConnReadable e.recv halive
      · exact ⟨[], rfl⟩
    generalize (if e.readable then w.handleConnReadable libs e.send e.recv else w) = read at *
    split
    · next hopen =>
      split
      · refine ⟨turns ++ [.writable], ?_⟩
        rw [receive_append (by rw [← hturns]; exact hopen), ← hturns, receive, if_pos hopen,
          receive]
        exact host_handleConnWritableFrom _ _
      · exact ⟨turns, hturns⟩
    · exact ⟨turns, hturns⟩

/-- An event that one call of `recv` answers. -/
theorem host_handleReady_readable (libs : Libs) (send : SendSide) (outcome : RecvOutcome)
    {w : Watched} (halive : w.host.alive = true) :
    (handleReady libs
        { error := false, readable := true, writable := false, recv := [outcome], send } w).host
      = (receive libs send [.readable outcome] w.host).1 := by
  have hread : (handleConnReadable libs send [outcome] w).host
      = Server.handleConnReadable libs send outcome w.host := by
    rw [handleConnReadable, handleConnReadable, ite_self]
    exact host_readTurn outcome w
  rw [receive, if_pos halive, receive, handleReady]
  simp only [Bool.false_eq_true, if_false, if_true, ite_self]
  exact hread

/-! ### What a connection is registered for -/

/-- What the descriptor of a connection should be registered for. -/
def needed (s : Host) : List EpollEvent :=
  if s.sendBuf.readableBytes > 0 then [.epollIn, .epollOut, .epollRdhup]
  else [.epollIn, .epollRdhup]

/-- An open connection is registered for what it needs. -/
def Armed (w : Watched) : Prop := w.host.alive = true → w.registered = some (needed w.host)

/-- Enough for the send loop to leave an open connection armed: the descriptor is registered, and
for writability if there is something to send. -/
def Sending (w : Watched) : Prop :=
  ∃ events, w.registered = some events ∧
    (w.host.sendBuf.readableBytes > 0 → events = [.epollIn, .epollOut, .epollRdhup])

theorem needed_of_pos {s : Host} (h : s.sendBuf.readableBytes > 0) :
    needed s = [.epollIn, .epollOut, .epollRdhup] :=
  if_pos h

theorem needed_of_empty {s : Host} (h : s.sendBuf.readableBytes = 0) :
    needed s = [.epollIn, .epollRdhup] :=
  if_neg (Nat.not_lt.mpr (Nat.le_of_eq h))

theorem mem_needed_iff {s : Host} :
    EpollEvent.epollOut ∈ needed s ↔ 0 < s.sendBuf.readableBytes := by
  rw [needed]
  split
  · next h => exact iff_of_true (by decide) h
  · next h => exact iff_of_false (by decide) h

theorem armed_closeConn (w : Watched) : w.closeConn.Armed := fun h => Bool.noConfusion h

theorem armed_accept (files : Files) : (accept files).Armed := fun _ => rfl

/-- An armed connection may send. -/
theorem Armed.sending {w : Watched} (h : w.Armed) (halive : w.host.alive = true) : w.Sending :=
  ⟨needed w.host, h halive, needed_of_pos⟩

variable (libs send)

/-- **A send loop that runs to its end leaves an open connection armed**: it has sent everything
and takes `EPOLLOUT` back, or it is blocked and has not touched it. -/
theorem armed_handleConnWritableFrom (fuel : Nat) {w : Watched} (h : w.Sending)
    (hfuel : w.host.sendBuf.readableBytes < fuel) :
    (handleConnWritableFrom send fuel w).Armed := by
  induction fuel generalizing w with
  | zero => exact absurd hfuel (Nat.not_lt_zero _)
  | succ fuel ih =>
      obtain ⟨events, hregistered, hevents⟩ := h
      rw [handleConnWritableFrom]
      dsimp only
      split
      · next hpos =>
        have hout := hevents hpos
        subst hout
        cases send w.host.sends w.host.sendBuf.readableBytes with
        | sent n =>
            cases n with
            | zero => exact armed_closeConn _
            | succ n =>
                have hless := RingBuffer.readableBytes_consume w.host.sendBuf (n + 1)
                exact ih ⟨_, hregistered, fun _ => rfl⟩ (by dsimp only; omega)
        | again => exact fun _ => hregistered.trans (congrArg some (needed_of_pos hpos).symm)
        | failed => exact armed_closeConn _
      · next hdrained =>
        have hempty : w.host.sendBuf.compact.readableBytes = 0 := by
          rw [← RingBuffer.length_readable, RingBuffer.readable_compact,
            RingBuffer.length_readable]
          exact Nat.eq_zero_of_not_pos hdrained
        rw [if_pos hempty]
        intro _
        rw [epollMod, hregistered]
        exact congrArg some (needed_of_empty hempty).symm

theorem armed_handleConnWritable {w : Watched} (h : w.Armed) (halive : w.host.alive = true) :
    (handleConnWritable send w).Armed :=
  armed_handleConnWritableFrom send _ (h.sending halive) (Nat.lt_succ_self _)

/-- `TryArmWrite` asks for `EPOLLOUT` before it sends. -/
theorem armed_enqueueAck (message : Bytes) {w : Watched} (h : w.Armed)
    (halive : w.host.alive = true) : (enqueueAck send message w).Armed := by
  rw [enqueueAck, tryArmWrite]
  dsimp only
  split
  · refine armed_handleConnWritableFrom send _ ⟨_, ?_, fun _ => rfl⟩ (Nat.lt_succ_self _)
    rw [epollMod, h halive]
    rfl
  · next hnothing =>
    have hempty := Nat.eq_zero_of_not_pos hnothing
    have hbefore : w.host.sendBuf.readableBytes = 0 := by
      rw [RingBuffer.readableBytes_writeFrom] at hempty
      exact Nat.eq_zero_of_add_eq_zero_right hempty
    intro _
    rw [needed_of_empty hempty, ← needed_of_empty hbefore]
    exact h halive

theorem armed_deliver (r : ParseResult) {w : Watched} (h : w.Armed)
    (halive : w.host.alive = true) : (deliver libs send r w).Armed := by
  rw [deliver]
  generalize react libs w.host.session w.host.files r = reaction
  obtain ⟨session, files, ack, closes⟩ := reaction
  dsimp only
  have hanswered : (answer send ack
      { w with
        host :=
          { w.host with
            session
            files
            delivered := w.host.delivered ++ [r] } }).Armed := by
    cases ack with
    | none => exact h
    | some ack => exact armed_enqueueAck send _ h halive
  split
  · exact armed_closeConn _
  · exact hanswered

theorem armed_processMessagesFrom (fuel : Nat) {w : Watched} (h : w.Armed)
    (halive : w.host.alive = true) : (processMessagesFrom libs send fuel w).Armed := by
  induction fuel generalizing w with
  | zero => exact h
  | succ fuel ih =>
      rw [processMessagesFrom]
      split
      · exact h
      · have hhandled := armed_deliver libs send (tryParse w.host.recvBuf.readable) h halive
        dsimp only
        split
        · next hgo => exact ih hhandled hgo
        · exact hhandled

theorem armed_readTurn (outcome : RecvOutcome) {w : Watched} (h : w.Armed)
    (halive : w.host.alive = true) : (readTurn libs send outcome w).Armed := by
  have hfilled : ({ w with
      host := { w.host with recvBuf := (w.host.recvBuf.writeFromFd outcome).2 } } :
        Watched).Armed := h
  rw [readTurn]
  dsimp only
  split
  · exact armed_processMessagesFrom libs send _ hfilled halive
  · exact armed_closeConn _
  · exact armed_closeConn _
  · exact armed_processMessagesFrom libs send _ hfilled halive
  · exact armed_closeConn _
  · exact armed_closeConn _

theorem armed_handleConnReadable (outcomes : List RecvOutcome) {w : Watched} (h : w.Armed)
    (halive : w.host.alive = true) : (handleConnReadable libs send outcomes w).Armed := by
  induction outcomes generalizing w with
  | nil => exact h
  | cons outcome outcomes ih =>
      have hturned := armed_readTurn libs send outcome h halive
      rw [handleConnReadable]
      split
      · next hgo => exact ih hturned hgo.2
      · exact hturned

/-- **One event leaves the connection armed.** -/
theorem armed_handleReady (e : Ready) {w : Watched} (h : w.Armed) (halive : w.host.alive = true) :
    (handleReady libs e w).Armed := by
  have hread : (if e.readable then w.handleConnReadable libs e.send e.recv else w).Armed := by
    split
    · exact armed_handleConnReadable libs e.send _ h halive
    · exact h
  rw [handleReady]
  dsimp only
  generalize (if e.readable then w.handleConnReadable libs e.send e.recv else w) = read at *
  split
  · exact armed_closeConn _
  · split
    · next hopen =>
      split
      · exact armed_handleConnWritable e.send hread hopen
      · exact hread
    · exact hread

end Watched

/-! ### The event loop -/

namespace Reactor

/-- Every connection in `conns_` is open and armed. -/
def AllArmed (r : Reactor) : Prop :=
  ∀ fd w, r.conns fd = some w → w.host.alive = true ∧ w.Armed

theorem allArmed_update {r : Reactor} (h : r.AllArmed) (fd : Nat) {slot : Option Watched}
    (hslot : ∀ w, slot = some w → w.host.alive = true ∧ w.Armed) (files : Files) :
    AllArmed { conns := Function.update r.conns fd slot, files } :=
  (Function.forall_update_iff r.conns
    fun _ slot => ∀ w, slot = some w → w.host.alive = true ∧ w.Armed).mpr
    ⟨hslot, fun fd' _ => h fd'⟩

/-- **One turn of the event loop leaves every open connection armed.** -/
theorem allArmed_wake (libs : Libs) (e : Wake) {r : Reactor} (h : r.AllArmed) :
    (r.wake libs e).AllArmed := by
  cases e with
  | accepted fd =>
      refine allArmed_update h fd ?_ r.files
      intro w hw
      cases hw
      exact ⟨rfl, Watched.armed_accept _⟩
  | ready fd e =>
      rw [wake]
      split
      · exact h
      · next w hfd =>
        obtain ⟨halive, harmed⟩ := h fd w hfd
        have hlent : ({ w with host := { w.host with files := r.files } } : Watched).Armed := harmed
        have hhandled := Watched.armed_handleReady libs e hlent halive
        refine allArmed_update h fd ?_ _
        intro w' hw'
        split at hw'
        · next hopen =>
          cases hw'
          exact ⟨hopen, hhandled⟩
        · cases hw'

/-- **Whenever the event loop has control**, an open connection is registered for writability
exactly if its send buffer holds bytes. -/
theorem armed_run (libs : Libs) (wakes : List Wake) (files : Files) (fd : Nat) (w : Watched)
    (h : ((start files).run libs wakes).conns fd = some w) :
    0 < w.host.sendBuf.readableBytes ↔
      ∃ events, w.registered = some events ∧ EpollEvent.epollOut ∈ events := by
  have hall : ((start files).run libs wakes).AllArmed := by
    rw [run]
    refine List.foldlRecOn wakes _ ?_ fun r hr e _ => allArmed_wake libs e hr
    intro fd' w' hfd'
    cases hfd'
  obtain ⟨halive, harmed⟩ := hall fd w h
  rw [harmed halive, ← Watched.mem_needed_iff]
  constructor
  · exact fun hmem => ⟨_, rfl, hmem⟩
  · rintro ⟨events, hevents, hmem⟩
    cases hevents
    exact hmem

/-- The greeting arrives at once, and `send` would block. -/
def greeting : Ready :=
  { error := false
    readable := true
    writable := false
    recv := [.received (helloMessage 0)]
    send := fun _ _ => .again }

/-- The connection when it has taken that in. -/
def greetedHost : Host :=
  (receive (twoDisks fun _ len => some len) (fun _ _ => .again) (ofChunks [helloMessage 0])
    (.accept blankFiles)).1

/-- The service that it has got. -/
def greetedService : Framing.Receiver Serving ParseResult :=
  Framing.feed frames (respond (twoDisks fun _ len => some len))
    { state := .start blankFiles, rest := [], live := true, items := [] }
    ((ofChunks [helloMessage 0]).flatMap IoEvent.data)

theorem greetedService_answers :
    greetedService.live = true ∧ greetedService.state.output.length = 64 := by
  decide +kernel

/-- Its answer is queued. -/
theorem queued_greetedHost :
    greetedHost.alive = true ∧ greetedHost.sendBuf.readableBytes = 64 := by
  have hopen : KeepsOpen fun _ _ => .again := fun _ _ => .inl rfl
  have hlen : (helloMessage 0).length = 104 := by decide +kernel
  have hfit := allFit_of_length_le (fun _ _ => .again) (twoDisks fun _ len => some len)
    (List.forall_mem_singleton.mpr (List.ne_nil_of_length_eq_add_one hlen))
    (List.forall_mem_singleton.mpr (hlen.trans_le (by decide))) (quiet_accept blankFiles)
  have hview := (receive_view hopen _ (quiet_accept blankFiles) hfit).1
  rw [view_accept, ← greetedService, ← greetedHost] at hview
  obtain ⟨hlive, houtput⟩ := greetedService_answers
  have hsent : greetedHost.sent = [] :=
    (keeps_sent _).receive (ofChunks [helloMessage 0]) (s := .accept blankFiles) rfl
  rw [← output_of_view hview, hsent, List.nil_append, RingBuffer.length_readable] at houtput
  exact ⟨(alive_of_view hview).trans hlive, houtput⟩

/-- A connection that its first event leaves open. -/
theorem conns_accepted_ready {libs : Libs} {e : Ready} {files : Files} {w : Watched}
    (hw : (Watched.accept files).handleReady libs e = w) (halive : w.host.alive = true) (fd : Nat) :
    ((start files).run libs [.accepted fd, .ready fd e]).conns fd = some w := by
  rw [run, List.foldl_cons, List.foldl_cons, List.foldl_nil]
  simp only [wake, start, Function.update_self, settle]
  change (if ((Watched.accept files).handleReady libs e).host.alive then
    some ((Watched.accept files).handleReady libs e) else none) = some w
  rw [hw, if_pos halive]

/-- A greeting whose answer waits in the send buffer. -/
theorem armed_run_greeting :
    ∃ w, ((start blankFiles).run (twoDisks fun _ len => some len)
        [.accepted 5, .ready 5 greeting]).conns 5 = some w ∧
      0 < w.host.sendBuf.readableBytes ∧
      ∃ events, w.registered = some events ∧ EpollEvent.epollOut ∈ events := by
  obtain ⟨w, hw⟩ : ∃ w, (Watched.accept blankFiles).handleReady (twoDisks fun _ len => some len)
      greeting = w := ⟨_, rfl⟩
  have hhost : w.host = greetedHost := by
    rw [← hw]
    exact Watched.host_handleReady_readable _ _ _ rfl
  obtain ⟨halive, hqueued⟩ := queued_greetedHost
  rw [← hhost] at halive hqueued
  have hconn := conns_accepted_ready hw halive 5
  have hpos : 0 < w.host.sendBuf.readableBytes := by
    rw [hqueued]
    decide
  exact ⟨w, hconn, hpos, (armed_run _ _ _ 5 w hconn).mp hpos⟩

end Reactor

end Go2Cbt.Server
