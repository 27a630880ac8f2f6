import Go2Cbt.Server.Closing

/-!
# Server — the lifetime of a connection

`CloseConn` erases the `Conn` while references to it are on the stack.  The functions of
`Connection` once more, with a mark for every statement that reads or writes a field of the
`Conn`: `stale` records that one did after the erasure.

The marks change nothing else (`host_receive`).  An erased `Conn` is used exactly when a message
closes its connection: `ProcessMessages` asks `conns_` for `c.fd` after the handler
(`stale_receive_iff`).
-/

namespace Go2Cbt.Server

open Go2Cbt.Protocol MessageParser

/-- A connection, and whether its `Conn` was used after it had been erased. -/
structure Tracked where
  host : Host
  stale : Bool

namespace Tracked

/-- A statement that uses a field of the `Conn`. -/
def use (t : Tracked) : Tracked := { t with stale := t.stale || !t.host.alive }

/-- `CloseConn(c.fd)`. -/
def closeConn (t : Tracked) : Tracked := { t.use with host := Server.closeConn t.host }

/-- The loop of `HandleConnWritable`. -/
def handleConnWritableFrom (send : SendSide) : (fuel : Nat) → Tracked → Tracked
  | 0, t => t
  | fuel + 1, t =>
      let t := t.use
      let s := t.host
      if s.sendBuf.readableBytes > 0 then
        let called := { s with sends := s.sends + 1 }
        match send s.sends s.sendBuf.readableBytes with
        | .sent 0 => closeConn { t with host := called }
        | .sent (n + 1) =>
            handleConnWritableFrom send fuel
              (use { t with
                host :=
                  { called with
                    sendBuf := s.sendBuf.consume (n + 1)
                    sent := s.sent ++ s.sendBuf.readable.take (n + 1) } })
        | .again => use { t with host := called }
        | .failed => closeConn { t with host := called }
      else use { t with host := { s with sendBuf := s.sendBuf.compact } }

/-- `HandleConnWritable`. -/
def handleConnWritable (send : SendSide) (t : Tracked) : Tracked :=
  handleConnWritableFrom send (t.host.sendBuf.readableBytes + 1) t

/-- `TryArmWrite`. -/
def tryArmWrite (send : SendSide) (t : Tracked) : Tracked :=
  let t := t.use
  if t.host.sendBuf.readableBytes > 0 then handleConnWritable send t.use else t

/-- `EnqueueAck`. -/
def enqueueAck (send : SendSide) (message : Bytes) (t : Tracked) : Tracked :=
  let t := t.use
  tryArmWrite send
    (use { t with host := { t.host with sendBuf := t.host.sendBuf.writeFrom message } })

/-- What a handler does before it answers. -/
def apply (t : Tracked) (reaction : Reaction) (r : ParseResult) : Tracked :=
  use
    { t with
      host :=
        { t.host with
          session := reaction.session
          files := reaction.files
          delivered := t.host.delivered ++ [r] } }

/-- `HandleHello`.  After the acknowledgement it closes `c.fd`, or logs it. -/
def handleHello (libs : Libs) (send : SendSide) (msg : ParsedMessage) (t : Tracked) : Tracked :=
  let t := t.use
  let reaction := Server.handleHello libs msg.header msg.body t.host.session t.host.files
  let t := t.apply reaction (.ok msg)
  match reaction.ack with
  | none => t
  | some ack =>
      let t := enqueueAck send (ackMessage ack) t
      if reaction.closes then t.closeConn else t.use

/-- `HandleDataBlock`.  The acknowledgement is the last it does. -/
def handleDataBlock (libs : Libs) (send : SendSide) (msg : ParsedMessage) (t : Tracked) :
    Tracked :=
  let t := t.use
  let reaction := Server.handleDataBlock libs msg.header msg.body t.host.session t.host.files
  let t := t.apply reaction (.ok msg)
  match reaction.ack with
  | none => if reaction.closes then t.closeConn else t
  | some ack => enqueueAck send (ackMessage ack) t

/-- `HandleBye`.  After the acknowledgement it closes `c.fd`. -/
def handleBye (send : SendSide) (msg : ParsedMessage) (t : Tracked) : Tracked :=
  let t := t.use
  let reaction := Server.handleBye msg.header t.host.session t.host.files
  let t := t.apply reaction (.ok msg)
  closeConn (enqueueAck send (ackMessage (plainAck msg.header.devNo .ok)) t)

/-- The switch of `ProcessMessages`. -/
def handle (libs : Libs) (send : SendSide) (msg : ParsedMessage) (t : Tracked) : Tracked :=
  match MessageType.ofCode msg.header.type with
  | some .hello => handleHello libs send msg t
  | some .dataBlock => handleDataBlock libs send msg t
  | some .bye => handleBye send msg t
  | _ => t.apply (react libs t.host.session t.host.files (.ok msg)) (.ok msg)

/-- `Consume` and `Compact` on the receive buffer. -/
def consume (t : Tracked) (bytes : Nat) : Tracked :=
  use { t with host := { t.host with recvBuf := (t.host.recvBuf.consume bytes).compact } }

/-- The loop of `ProcessMessages`.  After a handler it looks `c.fd` up in `conns_`. -/
def processMessagesFrom (libs : Libs) (send : SendSide) : (fuel : Nat) → Tracked → Tracked
  | 0, t => t
  | fuel + 1, t =>
      let t := t.use
      match tryParse t.host.recvBuf.readable with
      | .needMore => t.use
      | .oversizeBlock diag =>
          closeConn
            (t.apply (react libs t.host.session t.host.files (.oversizeBlock diag))
              (.oversizeBlock diag))
      | .badMagic diag =>
          processMessagesFrom libs send fuel
            (consume
              (t.apply (react libs t.host.session t.host.files (.badMagic diag)) (.badMagic diag)) 1)
      | .invalidType diag =>
          processMessagesFrom libs send fuel
            (consume
              (t.apply (react libs t.host.session t.host.files (.invalidType diag))
                (.invalidType diag)) 1)
      | .ok msg =>
          let t := use (handle libs send msg t.use)
          if t.host.alive then
            processMessagesFrom libs send fuel (t.consume (headerSize + msg.body.length))
          else t

/-- `ProcessMessages`. -/
def processMessages (libs : Libs) (send : SendSide) (t : Tracked) : Tracked :=
  processMessagesFrom libs send (t.host.recvBuf.readableBytes + 1) t

/-- One turn of the loop of `HandleConnReadable`, which keeps `fd` in a variable of its own. -/
def handleConnReadable (libs : Libs) (send : SendSide) (outcome : RecvOutcome) (t : Tracked) :
    Tracked :=
  let t := t.use
  let read := t.host.recvBuf.writeFromFd outcome
  let filled := use { t with host := { t.host with recvBuf := read.2 } }
  match read.1 with
  | .recv (.received (_ :: _)) => processMessages libs send filled
  | .recv (.received []) | .recv .peerClosed => closeConn filled
  | .recv .again => processMessages libs send filled
  | .recv .failed | .noBufferSpace => closeConn filled

/-- The body of the loop of `Run`. -/
def handleEvent (libs : Libs) (send : SendSide) : IoEvent → Tracked → Tracked
  | .readable outcome, t => handleConnReadable libs send outcome t
  | .writable, t => handleConnWritable send t
  | .hangup, t => closeConn t

/-- The events of a connection. -/
def receive (libs : Libs) (send : SendSide) : List IoEvent → Tracked → Tracked
  | [], t => t
  | e :: es, t => if t.host.alive then receive libs send es (handleEvent libs send e t) else t

/-! ### What the marks say -/

section Marks

variable {libs : Libs} {send : SendSide} {t : Tracked}

/-- The marks of a `Conn` that is still there change nothing. -/
theorem use_of_alive (h : t.host.alive = true) : t.use = t := by
  rw [use, h, Bool.not_true, Bool.or_false]

theorem closeConn_of_alive (h : t.host.alive = true) :
    t.closeConn = { t with host := Server.closeConn t.host } := by
  rw [closeConn, use_of_alive h]

/-- `HandleConnWritable` returns when it has closed the connection. -/
theorem handleConnWritableFrom_of_alive (fuel : Nat) (h : t.host.alive = true) :
    handleConnWritableFrom send fuel t
      = { t with host := Server.handleConnWritableFrom send fuel t.host } := by
  induction fuel generalizing t with
  | zero => rfl
  | succ fuel ih =>
      rw [handleConnWritableFrom, Server.handleConnWritableFrom, use_of_alive h]
      dsimp only
      split
      · cases send t.host.sends t.host.sendBuf.readableBytes with
        | sent n =>
            cases n with
            | zero => exact closeConn_of_alive h
            | succ n =>
                dsimp only
                rw [use_of_alive (by exact h)]
                exact ih h
        | again => exact use_of_alive h
        | failed => exact closeConn_of_alive h
      · exact use_of_alive h

/-- Nothing in `EnqueueAck` follows the attempt to send. -/
theorem enqueueAck_of_alive (message : Bytes) (h : t.host.alive = true) :
    enqueueAck send message t = { t with host := Server.enqueueAck send message t.host } := by
  rw [enqueueAck, use_of_alive h]
  dsimp only
  rw [use_of_alive (by exact h), tryArmWrite, use_of_alive (by exact h), Server.enqueueAck,
    Server.tryArmWrite]
  dsimp only
  split
  · rw [use_of_alive (by exact h), handleConnWritable, Server.handleConnWritable]
    exact handleConnWritableFrom_of_alive _ h
  · rfl

theorem apply_of_alive (reaction : Reaction) (r : ParseResult) (h : t.host.alive = true) :
    t.apply reaction r
      = { t with
          host :=
            { t.host with
              session := reaction.session
              files := reaction.files
              delivered := t.host.delivered ++ [r] } } :=
  use_of_alive h

/-- The marks after a handler and the question to `conns_` that follows it. -/
def looked (t : Tracked) (s : Host) : Tracked := { host := s, stale := t.stale || !s.alive }

theorem use_eq_looked (s : Host) : use { t with host := s } = t.looked s := rfl

/-- A second mark says no more than the first. -/
theorem use_looked (s : Host) : (t.looked s).use = t.looked s := by
  rw [use, looked, Bool.or_assoc, Bool.or_self]

/-- To look at a connection just closed is to use an erased `Conn`. -/
theorem use_closeConn (s : Host) :
    use (closeConn { t with host := s }) = t.looked (Server.closeConn s) := by
  simp [use, closeConn, looked, Server.closeConn]

/-- A handler of `HandleDataBlock` that answers leaves the connection open. -/
theorem handleDataBlock_closes {msg : ParsedMessage} {c : Session} {files : Files} {ack : AckBody}
    (h : (Server.handleDataBlock libs msg.header msg.body c files).ack = some ack) :
    (Server.handleDataBlock libs msg.header msg.body c files).closes = false := by
  rw [Server.handleDataBlock] at h ⊢
  split at h
  · cases h
  · next hdone =>
    rw [if_neg hdone]
    split
    · rfl
    · dsimp only
      split <;> rfl

/-- A greeting that is not answered leaves the connection open. -/
theorem handleHello_closes {msg : ParsedMessage} {c : Session} {files : Files}
    (h : (Server.handleHello libs msg.header msg.body c files).ack = none) :
    (Server.handleHello libs msg.header msg.body c files).closes = false := by
  rw [Server.handleHello] at h ⊢
  split
  · rfl
  · next hdone =>
    rw [if_neg hdone] at h
    split at h
    · cases h
    · dsimp only at h
      split at h
      · cases h
      · split at h <;> cases h

/-- **A handler uses an erased `Conn` only where `ProcessMessages` will**: with the question that
follows it, the marks say whether the message has closed the connection. -/
theorem use_handle (msg : ParsedMessage) (h : t.host.alive = true) :
    (handle libs send msg t).use = t.looked (deliver libs send (.ok msg) t.host) := by
  rw [handle, deliver, react]
  cases htype : MessageType.ofCode msg.header.type with
  | none =>
      dsimp only
      rw [apply_of_alive _ _ h]
      exact use_eq_looked _
  | some ty =>
      cases ty with
      | hello =>
          dsimp only
          rw [handleHello, use_of_alive h]
          dsimp only
          rw [apply_of_alive _ _ h]
          cases hack : (Server.handleHello libs msg.header msg.body t.host.session
              t.host.files).ack with
          | none =>
              rw [handleHello_closes hack]
              exact use_eq_looked _
          | some ack =>
              dsimp only
              rw [enqueueAck_of_alive _ (by exact h)]
              cases (Server.handleHello libs msg.header msg.body t.host.session
                  t.host.files).closes with
              | false =>
                  exact use_looked _
              | true => exact use_closeConn _
      | dataBlock =>
          dsimp only
          rw [handleDataBlock, use_of_alive h]
          rw [apply_of_alive _ _ h]
          cases hack : (Server.handleDataBlock libs msg.header msg.body t.host.session
              t.host.files).ack with
          | none =>
              cases (Server.handleDataBlock libs msg.header msg.body t.host.session
                  t.host.files).closes with
              | false => exact use_eq_looked _
              | true => exact use_closeConn _
          | some ack =>
              dsimp only
              -- an answered block never closes the connection
              rw [enqueueAck_of_alive _ (by exact h), handleDataBlock_closes hack]
              exact use_eq_looked _
      | bye =>
          dsimp only
          rw [handleBye, use_of_alive h]
          rw [apply_of_alive _ _ h, enqueueAck_of_alive _ (by exact h)]
          exact use_closeConn _
      | ack =>
          dsimp only
          rw [apply_of_alive _ _ h]
          exact use_eq_looked _
      | error =>
          dsimp only
          rw [apply_of_alive _ _ h]
          exact use_eq_looked _

/-! ### The marks of a run -/

/-- A message that was handled closed its connection. -/
def ClosedByMessage (libs : Libs) (send : SendSide) (handled : List (Host × ParseResult)) : Prop :=
  ∃ u msg, (u, ParseResult.ok msg) ∈ handled ∧ (deliver libs send (.ok msg) u).alive = false

theorem closedByMessage_cons_iff {u : Host} {r : ParseResult} {rest : List (Host × ParseResult)} :
    ClosedByMessage libs send ((u, r) :: rest) ↔
      (∃ msg, r = .ok msg ∧ (deliver libs send (.ok msg) u).alive = false) ∨
        ClosedByMessage libs send rest := by
  constructor
  · rintro ⟨u', msg, hmem, hclosed⟩
    rcases List.mem_cons.mp hmem with heq | hmem
    · cases heq
      exact .inl ⟨msg, rfl, hclosed⟩
    · exact .inr ⟨u', msg, hmem, hclosed⟩
  · rintro (⟨msg, rfl, hclosed⟩ | ⟨u', msg, hmem, hclosed⟩)
    · exact ⟨u, msg, List.mem_cons_self, hclosed⟩
    · exact ⟨u', msg, List.mem_cons_of_mem _ hmem, hclosed⟩

theorem not_closedByMessage_nil : ¬ ClosedByMessage libs send [] :=
  fun ⟨_, _, h, _⟩ => absurd h List.not_mem_nil

/-- What the marks say of a stretch of a run. -/
structure Tells (libs : Libs) (send : SendSide) (stale : Bool) (s : Host)
    (handled : List (Host × ParseResult)) (t' : Tracked) : Prop where
  host : t'.host = s
  stale : t'.stale = true ↔ stale = true ∨ ClosedByMessage libs send handled

theorem tells_nil (s : Host) : Tells libs send t.stale s [] { t with host := s } where
  host := rfl
  stale := ⟨.inl, fun h => h.resolve_right not_closedByMessage_nil⟩

/-- A decision that leaves the connection open leaves no mark. -/
theorem Tells.cons {stale : Bool} {u s : Host} {r : ParseResult}
    {rest : List (Host × ParseResult)} {t' : Tracked} (h : Tells libs send stale s rest t')
    (hgo : (deliver libs send r u).alive = true) :
    Tells libs send stale s ((u, r) :: rest) t' where
  host := h.host
  stale := by
    rw [closedByMessage_cons_iff, h.stale]
    refine or_congr_right ⟨.inr, fun hclosed => hclosed.resolve_left ?_⟩
    rintro ⟨msg, rfl, hgone⟩
    exact absurd (hgo.symm.trans hgone) Bool.noConfusion

/-- The connection when `ProcessMessages` goes on. -/
def advanced (libs : Libs) (send : SendSide) (r : ParseResult) (s : Host) : Host :=
  { deliver libs send r s with
    recvBuf := ((deliver libs send r s).recvBuf.consume r.consumed).compact }

theorem consume_of_alive {s : Host} (bytes : Nat) (h : s.alive = true) :
    consume { t with host := s } bytes
      = { t with host := { s with recvBuf := (s.recvBuf.consume bytes).compact } } :=
  use_of_alive h

section Step

variable {r : ParseResult} {s : Host} (hr : tryParse s.recvBuf.readable = r) (hne : r ≠ .needMore)
include hr hne

/-- The loop of `ProcessMessages` goes on while the connection is there. -/
theorem processMessagesFrom_succ (fuel : Nat) (hgo : (deliver libs send r s).alive = true) :
    Server.processMessagesFrom libs send (fuel + 1) s
        = Server.processMessagesFrom libs send fuel (advanced libs send r s) ∧
      handledFrom libs send (fuel + 1) s
        = (s, r) :: handledFrom libs send fuel (advanced libs send r s) := by
  rw [Server.processMessagesFrom, handledFrom, hr, if_neg hne, if_neg hne]
  dsimp only
  rw [if_pos hgo, if_pos hgo]
  exact ⟨rfl, rfl⟩

theorem processMessagesFrom_last (fuel : Nat) (hgone : (deliver libs send r s).alive = false) :
    Server.processMessagesFrom libs send (fuel + 1) s = deliver libs send r s ∧
      handledFrom libs send (fuel + 1) s = [(s, r)] := by
  rw [Server.processMessagesFrom, handledFrom, hr, if_neg hne, if_neg hne]
  dsimp only
  rw [if_neg (by rw [hgone]; exact Bool.false_ne_true),
    if_neg (by rw [hgone]; exact Bool.false_ne_true)]
  exact ⟨rfl, rfl⟩

end Step

theorem processMessagesFrom_tells (fuel : Nat) (h : t.host.alive = true) :
    Tells libs send t.stale (Server.processMessagesFrom libs send fuel t.host)
      (handledFrom libs send fuel t.host) (processMessagesFrom libs send fuel t) := by
  induction fuel generalizing t with
  | zero => exact tells_nil t.host
  | succ fuel ih =>
      rw [processMessagesFrom, use_of_alive h]
      dsimp only
      cases hr : tryParse t.host.recvBuf.readable with
      | needMore =>
          dsimp only
          rw [Server.processMessagesFrom, handledFrom, if_pos hr, if_pos hr, use_of_alive h]
          exact tells_nil t.host
      | oversizeBlock diag =>
          have hgone : (deliver libs send (.oversizeBlock diag) t.host).alive = false := rfl
          obtain ⟨hrun, htrace⟩ := processMessagesFrom_last hr ParseResult.noConfusion fuel hgone
          dsimp only
          rw [hrun, htrace, apply_of_alive _ _ h, closeConn_of_alive (by exact h)]
          refine ⟨rfl, ?_⟩
          rw [closedByMessage_cons_iff]
          refine ⟨.inl, fun hclosed => hclosed.resolve_right ?_⟩
          rintro (⟨msg, heq, -⟩ | hnil)
          · cases heq
          · exact not_closedByMessage_nil hnil
      | badMagic diag =>
          have hgo : (deliver libs send (.badMagic diag) t.host).alive = true := h
          obtain ⟨hrun, htrace⟩ := processMessagesFrom_succ hr ParseResult.noConfusion fuel hgo
          have hrest := ih (t := { t with host := advanced libs send (.badMagic diag) t.host }) hgo
          dsimp only
          rw [hrun, htrace, apply_of_alive _ _ h, consume_of_alive _ (by exact h)]
          exact Tells.cons hrest hgo
      | invalidType diag =>
          have hgo : (deliver libs send (.invalidType diag) t.host).alive = true := h
          obtain ⟨hrun, htrace⟩ := processMessagesFrom_succ hr ParseResult.noConfusion fuel hgo
          have hrest := ih (t := { t with host := advanced libs send (.invalidType diag) t.host }) hgo
          dsimp only
          rw [hrun, htrace, apply_of_alive _ _ h, consume_of_alive _ (by exact h)]
          exact Tells.cons hrest hgo
      | ok msg =>
          dsimp only
          rw [use_of_alive h, use_handle msg h]
          rcases Bool.eq_false_or_eq_true (deliver libs send (.ok msg) t.host).alive with hgo | hgo
          · obtain ⟨hrun, htrace⟩ := processMessagesFrom_succ hr ParseResult.noConfusion fuel hgo
            have hrest := ih (t := { t with host := advanced libs send (.ok msg) t.host }) hgo
            have hlooked : t.looked (deliver libs send (.ok msg) t.host)
                = { t with host := deliver libs send (.ok msg) t.host } := by
              rw [looked, hgo, Bool.not_true, Bool.or_false]
            rw [hrun, htrace, hlooked, if_pos hgo, consume_of_alive _ hgo]
            exact Tells.cons hrest hgo
          · obtain ⟨hrun, htrace⟩ := processMessagesFrom_last hr ParseResult.noConfusion fuel hgo
            rw [hrun, htrace, looked, hgo, if_neg Bool.false_ne_true]
            refine ⟨rfl, iff_of_true (Bool.or_true _) (.inr ?_)⟩
            exact ⟨t.host, msg, List.mem_cons_self, hgo⟩

theorem handleEvent_tells (e : IoEvent) (h : t.host.alive = true) :
    Tells libs send t.stale (Server.handleEvent libs send e t.host)
      (handledOn libs send e t.host) (handleEvent libs send e t) := by
  cases e with
  | readable outcome =>
      rw [handleEvent, handleConnReadable, Server.handleEvent, Server.handleConnReadable, handledOn,
        use_of_alive h]
      dsimp only
      rw [use_of_alive (by exact h)]
      cases (t.host.recvBuf.writeFromFd outcome).1 with
      | noBufferSpace =>
          dsimp only
          rw [closeConn_of_alive (by exact h)]
          exact tells_nil _
      | recv outcome' =>
          cases outcome' with
          | received data =>
              cases data with
              | nil =>
                  dsimp only
                  rw [closeConn_of_alive (by exact h)]
                  exact tells_nil _
              | cons b data =>
                  exact processMessagesFrom_tells _
                    (t := { t with
                      host := { t.host with recvBuf := (t.host.recvBuf.writeFromFd outcome).2 } }) h
          | peerClosed =>
              dsimp only
              rw [closeConn_of_alive (by exact h)]
              exact tells_nil _
          | again =>
              exact processMessagesFrom_tells _
                (t := { t with
                  host := { t.host with recvBuf := (t.host.recvBuf.writeFromFd outcome).2 } }) h
          | failed =>
              dsimp only
              rw [closeConn_of_alive (by exact h)]
              exact tells_nil _
  | writable =>
      rw [handleEvent, handleConnWritable, handleConnWritableFrom_of_alive _ h]
      exact tells_nil _
  | hangup =>
      rw [handleEvent, closeConn_of_alive h]
      exact tells_nil _

theorem receive_tells (events : List IoEvent) (t : Tracked) :
    Tells libs send t.stale (Server.receive libs send events t.host).1
      (handledIn libs send events t.host) (receive libs send events t) := by
  induction events generalizing t with
  | nil => exact tells_nil t.host
  | cons e es ih =>
      rw [receive, Server.receive, handledIn]
      cases h : t.host.alive with
      | false => exact tells_nil t.host
      | true =>
          obtain ⟨hhost, hstale⟩ := @handleEvent_tells libs send t e h
          obtain ⟨hhost', hstale'⟩ := ih (handleEvent libs send e t)
          rw [hhost] at hhost' hstale'
          rw [if_pos rfl, if_pos rfl, if_pos rfl]
          refine ⟨hhost', hstale'.trans ?_⟩
          rw [hstale, or_assoc]
          refine or_congr_right ?_
          constructor
          · rintro (⟨u, msg, hmem, hclosed⟩ | ⟨u, msg, hmem, hclosed⟩)
            · exact ⟨u, msg, List.mem_append_left _ hmem, hclosed⟩
            · exact ⟨u, msg, List.mem_append_right _ hmem, hclosed⟩
          · rintro ⟨u, msg, hmem, hclosed⟩
            rcases List.mem_append.mp hmem with hmem | hmem
            · exact .inl ⟨u, msg, hmem, hclosed⟩
            · exact .inr ⟨u, msg, hmem, hclosed⟩

/-- **The marks are no part of the program.** -/
theorem host_receive (events : List IoEvent) (t : Tracked) :
    (receive libs send events t).host = (Server.receive libs send events t.host).1 :=
  (receive_tells events t).host

end Marks

/-- A connection just accepted. -/
def accept (files : Files) : Tracked := { host := .accept files, stale := false }

/-- **No `Conn` is used after it was erased exactly when no message closes its connection**: for
every run, no statement uses an erased `Conn` if and only if every message that is handled keeps
the connection, neither closing it itself nor losing it to a failed `send`. -/
theorem stale_receive_iff (libs : Libs) (send : SendSide) (files : Files)
    (events : List IoEvent) :
    (receive libs send events (accept files)).stale = false ↔
      ∀ u msg, (u, .ok msg) ∈ handledIn libs send events (.accept files) →
        (react libs u.session u.files (.ok msg)).closes = false ∧
          (react libs u.session u.files (.ok msg)).loses send u = false := by
  have hstale : (receive libs send events (accept files)).stale = true ↔
      ClosedByMessage libs send (handledIn libs send events (.accept files)) :=
    (receive_tells events (accept files)).stale.trans
      ⟨fun h => h.resolve_left Bool.false_ne_true, .inr⟩
  have hkeeps : Keeps libs send fun _ => True :=
    ⟨fun _ _ _ => trivial, fun _ _ _ _ => trivial, fun _ _ _ => trivial, fun _ _ => trivial⟩
  rw [← Bool.not_eq_true, hstale]
  constructor
  · intro hopen u msg hu
    have hu_alive := (hkeeps.handledIn events trivial hu).2.1
    have halive : (deliver libs send (.ok msg) u).alive = true := by
      by_contra hgone
      exact hopen ⟨u, msg, hu, Bool.not_eq_true _ ▸ hgone⟩
    rw [alive_deliver, hu_alive, Bool.true_and, Bool.and_eq_true, Bool.not_eq_true',
      Bool.not_eq_true'] at halive
    exact halive
  · rintro hall ⟨u, msg, hu, hgone⟩
    obtain ⟨hcloses, hloses⟩ := hall u msg hu
    rw [alive_deliver, (hkeeps.handledIn events trivial hu).2.1, hcloses, hloses] at hgone
    cases hgone

/-- After a goodbye `ProcessMessages` looks the erased connection up by its own `fd`. -/
theorem bye_uses_erased_conn :
    ¬ (receive noDisks (fun _ _ => .again) (ofChunks [byeMessage]) (accept noFiles)).stale
      = false := by
  obtain ⟨u, hu⟩ := bye_handled
  rw [Bool.not_eq_false]
  refine (receive_tells _ (accept noFiles)).stale.mpr (.inr ⟨u, byeParsed, hu, ?_⟩)
  have hcloses : (react noDisks u.session u.files (.ok byeParsed)).closes = true := rfl
  rw [alive_deliver, hcloses, Bool.not_true, Bool.and_false, Bool.false_and]

end Tracked

end Go2Cbt.Server
