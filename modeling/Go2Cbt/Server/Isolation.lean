import Go2Cbt.Lib.Separation
import Go2Cbt.Server.Answers
import Go2Cbt.Server.Interest
import Go2Cbt.Server.Retransmission

/-!
# Server — clients that do not disturb each other

The connections of the event loop share nothing but the files.  The blocks that they hand to
`Process`, in the order in which the loop gets to them, make the files what they are
(`files_run`).  When writes are whole, no answer depends on what the files hold, and a block
changes no file but the one of its device.  So a client gets the answers it would get if it were
the only one, and so does a file that only this client writes to (`isolated`).
-/

namespace Go2Cbt.Server

open Go2Cbt.Protocol MessageParser

/-! ### What a connection hands to `Process` -/

/-- The block of a message, if it carries one. -/
def blockOf (msg : ParsedMessage) : Option BlockRequest :=
  if MessageType.ofCode msg.header.type = some .dataBlock then some (.ofMessage msg) else none

/-- The blocks that the items of a connection hand to `Process`, after the items `before`. -/
def blocksAfter (libs : Libs) (before rs : List ParseResult) : List BlockRequest :=
  (owed libs before rs).filterMap blockOf

theorem blocksAfter_append (libs : Libs) (before rs : List ParseResult) (r : ParseResult) :
    blocksAfter libs before (rs ++ [r])
      = blocksAfter libs before rs ++ (owes libs (before ++ rs) r).filterMap blockOf := by
  rw [blocksAfter, owed_append, List.filterMap_append]
  rfl

theorem processAll_append (libs : Libs) (rs qs : List BlockRequest) (files : Files) :
    (processAll libs (rs ++ qs) files).2
      = (processAll libs qs (processAll libs rs files).2).2 := by
  induction rs generalizing files with
  | nil => rfl
  | cons r rs ih => exact ih _

/-- A greeting leaves the files as they are. -/
theorem files_handleHello (libs : Libs) (hdr : MsgHeader) (body : Bytes) (c : Session)
    (files : Files) : (handleHello libs hdr body c files).files = files := by
  rw [handleHello]
  dsimp only
  repeat' split
  all_goals rfl

/-- **What a message does to the files is done by its block.** -/
theorem files_react {libs : Libs} {c : Session} {before : List ParseResult}
    (hc : c.Knows libs before) (files : Files) {r : ParseResult} (hr : Parsed r) :
    (react libs c files r).files
      = (processAll libs ((owes libs before r).filterMap blockOf) files).2 := by
  cases r with
  | needMore => exact absurd rfl hr.1
  | badMagic diag => rfl
  | invalidType diag => rfl
  | oversizeBlock diag => rfl
  | ok msg =>
      rw [react, owes]
      cases htype : MessageType.ofCode msg.header.type with
      | none => rfl
      | some t =>
          cases t with
          | ack => rfl
          | error => rfl
          | bye =>
              have hnone : blockOf msg = none := if_neg (by rw [htype]; decide)
              simp only [List.filterMap_cons, hnone, List.filterMap_nil]
              rfl
          | hello =>
              have hnone : blockOf msg = none := if_neg (by rw [htype]; decide)
              dsimp only
              rw [files_handleHello]
              split
              · rfl
              · simp only [List.filterMap_cons, hnone, List.filterMap_nil]
                rfl
          | dataBlock =>
              have hsome : blockOf msg = some (.ofMessage msg) := if_pos htype
              dsimp only
              cases hdone : c.helloDone with
              | false =>
                  rw [handleDataBlock_early libs files hdone, ← hc.accepted, hdone]
                  rfl
              | true =>
                  rw [handleDataBlock_greeted libs hr files htype hdone, ← hc.accepted, hdone,
                    if_pos rfl]
                  simp only [List.filterMap_cons, hsome, List.filterMap_nil]
                  rfl

/-- Whatever the session, a message does nothing to the files, or what its block does. -/
theorem files_react_cases (libs : Libs) (c : Session) (msg : ParsedMessage) :
    (∀ files, (react libs c files (.ok msg)).files = files) ∨
      ∀ files, (react libs c files (.ok msg)).files
        = (processRequest libs (.ofMessage msg) files).2.2 := by
  simp only [react]
  split
  · exact .inl fun files => files_handleHello ..
  · simp only [handleDataBlock]
    split
    · exact .inl fun _ => rfl
    · split
      · exact .inl fun _ => rfl
      · split
        · exact .inl fun _ => rfl
        · exact .inr fun _ => rfl
  · exact .inl fun _ => rfl
  · exact .inl fun _ => rfl

/-- A connection has handed over blocks since it had these items and these files. -/
def Host.Processed (libs : Libs) (before : List ParseResult) (files : Files) (s : Host) : Prop :=
  ∃ rs, s.delivered = before ++ rs ∧
    s.files = (processAll libs (blocksAfter libs before rs) files).2 ∧
    (s.alive = true → s.session.Knows libs s.delivered)

theorem keeps_processed (libs : Libs) (send : SendSide) (before : List ParseResult)
    (files : Files) : Keeps libs send (Host.Processed libs before files) where
  recvBuf _ _ h := h
  deliver s h halive hdecided := by
    obtain ⟨rs, hdelivered, hfiles, hknows⟩ := h
    have hview := (deliver_view libs send (tryParse s.recvBuf.readable) s).1
    have hparsed : Parsed (tryParse s.recvBuf.readable) := ⟨hdecided, _, rfl⟩
    have hitems : (deliver libs send (tryParse s.recvBuf.readable) s).delivered
        = s.delivered ++ [tryParse s.recvBuf.readable] :=
      (congrArg Framing.Receiver.items hview :)
    refine ⟨rs ++ [tryParse s.recvBuf.readable], ?_, ?_, fun hopen => ?_⟩
    · rw [hitems, hdelivered, List.append_assoc]
    · have hafter : (deliver libs send (tryParse s.recvBuf.readable) s).files
          = (react libs s.session s.files (tryParse s.recvBuf.readable)).files :=
        (congrArg (fun v => v.state.files) hview :)
      rw [hafter, files_react (hknows halive) s.files hparsed, hfiles, hdelivered,
        blocksAfter_append, processAll_append]
    · have hsession : (deliver libs send (tryParse s.recvBuf.readable) s).session
          = (react libs s.session s.files (tryParse s.recvBuf.readable)).session :=
        (congrArg (fun v => v.state.session) hview :)
      have hgoes : (react libs s.session s.files (tryParse s.recvBuf.readable)).closes = false := by
        rw [alive_deliver, Bool.and_eq_true, Bool.and_eq_true] at hopen
        exact Bool.not_eq_true' _ ▸ hopen.1.2
      rw [hsession, hitems]
      exact (react_owes (hknows halive) s.files hparsed).2 hgoes
  writable s h halive := by
    obtain ⟨rs, hdelivered, hfiles, hknows⟩ := h
    have hview := (handleConnWritableFrom_spec send (s.sendBuf.readableBytes + 1) s).1
    have hitems : (handleConnWritable send s).delivered = s.delivered :=
      (congrArg Framing.Receiver.items hview :)
    have hsession : (handleConnWritable send s).session = s.session :=
      (congrArg (fun v => v.state.session) hview :)
    have hafter : (handleConnWritable send s).files = s.files :=
      (congrArg (fun v => v.state.files) hview :)
    refine ⟨rs, hitems.trans hdelivered, hafter.trans hfiles, fun _ => ?_⟩
    rw [hsession, hitems]
    exact hknows halive
  close s h := by
    obtain ⟨rs, hdelivered, hfiles, -⟩ := h
    exact ⟨rs, hdelivered, hfiles, fun hopen => Bool.noConfusion hopen⟩

/-- **One event of a connection hands over the blocks of its new items.** -/
theorem processed_handleReady (libs : Libs) (e : Ready) {w : Watched} (halive : w.host.alive = true)
    (hknows : w.host.session.Knows libs w.host.delivered) :
    (w.handleReady libs e).host.Processed libs w.host.delivered w.host.files := by
  obtain ⟨events, hevents⟩ :
      ∃ events, (w.handleReady libs e).host = (receive libs e.send events w.host).1 :=
    w.host_handleReady e halive
  rw [hevents]
  refine (keeps_processed libs e.send _ _).receive events ⟨[], ?_, rfl, fun _ => hknows⟩
  exact (List.append_nil _).symm

/-! ### The blocks of all connections -/

/-- The descriptor that a wake is about. -/
def Wake.fd : Wake → Nat
  | .accepted fd | .ready fd _ => fd

namespace Watched

/-- The files as the connection finds them. -/
def lend (files : Files) (w : Watched) : Watched := { w with host := { w.host with files } }

/-- The connection without the files. -/
def own (w : Watched) : Watched := w.lend noFiles

end Watched

/-- The event loop, with the blocks that the connections handed to `Process` and the descriptor that
each came from. -/
structure Recorded where
  reactor : Reactor
  processed : List (Nat × BlockRequest)

namespace Recorded

/-- The server just started. -/
def start (files : Files) : Recorded := { reactor := .start files, processed := [] }

/-- The blocks that a wake hands over. -/
def blocks (libs : Libs) : Wake → Reactor → List BlockRequest
  | .accepted _, _ => []
  | .ready fd e, r =>
      match r.conns fd with
      | none => []
      | some w =>
          blocksAfter libs w.host.delivered
            (((w.lend r.files).handleReady libs e).host.delivered.drop w.host.delivered.length)

/-- One turn of the loop of `Run`. -/
def wake (libs : Libs) (s : Recorded) (e : Wake) : Recorded :=
  { reactor := s.reactor.wake libs e
    processed := s.processed ++ (blocks libs e s.reactor).map fun b => (e.fd, b) }

/-- `Run`. -/
def run (libs : Libs) (wakes : List Wake) (s : Recorded) : Recorded := wakes.foldl (wake libs) s

/-- The record changes nothing. -/
theorem reactor_run (libs : Libs) (wakes : List Wake) (s : Recorded) :
    (s.run libs wakes).reactor = s.reactor.run libs wakes := by
  induction wakes generalizing s with
  | nil => rfl
  | cons e es ih => exact ih _

/-- The connections are open, their sessions know what they have been sent, and the files are what
the blocks made of them. -/
structure Accounted (libs : Libs) (files : Files) (s : Recorded) : Prop where
  conns : ∀ fd w, s.reactor.conns fd = some w →
    w.host.alive = true ∧ w.host.session.Knows libs w.host.delivered
  files : s.reactor.files = (processAll libs (s.processed.map Prod.snd) files).2

theorem accounted_wake {libs : Libs} {files : Files} {s : Recorded} (h : s.Accounted libs files)
    (e : Wake) : (s.wake libs e).Accounted libs files := by
  cases e with
  | accepted fd =>
      refine ⟨?_, ?_⟩
      · refine (Function.forall_update_iff s.reactor.conns fun _ slot =>
          ∀ w : Watched, slot = some w → w.host.alive = true ∧
            w.host.session.Knows libs w.host.delivered).mpr ⟨?_, fun fd' _ => h.conns fd'⟩
        rintro w hw
        cases hw
        exact ⟨rfl, rfl, fun _ => rfl⟩
      · rw [wake, blocks, List.map_nil, List.append_nil]
        exact h.files
  | ready fd e =>
      rw [wake, blocks, Reactor.wake]
      cases hfd : s.reactor.conns fd with
      | none =>
          dsimp only
          rw [List.map_nil, List.append_nil]
          exact h
      | some w =>
          obtain ⟨halive, hknows⟩ := h.conns fd w hfd
          obtain ⟨rs, hdelivered, hfiles, hknows'⟩ :=
            processed_handleReady libs e (w := w.lend s.reactor.files) halive hknows
          dsimp only
          rw [hdelivered, show (w.lend s.reactor.files).host.delivered = w.host.delivered from rfl,
            List.drop_left' rfl]
          refine ⟨?_, ?_⟩
          · refine (Function.forall_update_iff s.reactor.conns fun _ slot =>
              ∀ w : Watched, slot = some w → w.host.alive = true ∧
                w.host.session.Knows libs w.host.delivered).mpr ⟨?_, fun fd' _ => h.conns fd'⟩
            intro w' hw'
            split at hw'
            · next hopen =>
              cases hw'
              exact ⟨hopen, hknows' hopen⟩
            · cases hw'
          · rw [List.map_append, List.map_map, processAll_append, ← h.files]
            have hsnd : (Prod.snd ∘ fun b : BlockRequest => ((Wake.ready fd e).fd, b)) = id := rfl
            rw [hsnd, List.map_id]
            exact hfiles

theorem accounted_start (libs : Libs) (files : Files) : (start files).Accounted libs files where
  conns _ _ h := by cases h
  files := rfl

theorem accounted_run (libs : Libs) (files : Files) (wakes : List Wake) :
    ((start files).run libs wakes).Accounted libs files :=
  List.foldlRecOn wakes _ (accounted_start libs files) fun _ h e _ => accounted_wake h e

/-- **The files are what the blocks of all connections made of them**, in the order in which the
loop got to them. -/
theorem files_run (libs : Libs) (files : Files) (wakes : List Wake) :
    ((start files).run libs wakes).reactor.files
      = (processAll libs (((start files).run libs wakes).processed.map Prod.snd) files).2 :=
  (accounted_run libs files wakes).files

end Recorded

/-! ### A connection does not see the files -/

namespace Watched

variable {libs : Libs} {send : SendSide}

theorem own_handleConnWritableFrom (fuel : Nat) (w : Watched) :
    (handleConnWritableFrom send fuel w).own = handleConnWritableFrom send fuel w.own := by
  induction fuel generalizing w with
  | zero => rfl
  | succ fuel ih =>
      have hsend : send w.own.host.sends w.own.host.sendBuf.readableBytes
          = send w.host.sends w.host.sendBuf.readableBytes := rfl
      rw [handleConnWritableFrom, handleConnWritableFrom, hsend]
      dsimp only
      by_cases hpos : w.host.sendBuf.readableBytes > 0
      · rw [if_pos hpos, if_pos (show w.own.host.sendBuf.readableBytes > 0 from hpos)]
        cases send w.host.sends w.host.sendBuf.readableBytes with
        | sent n =>
            cases n with
            | zero => rfl
            | succ n => exact ih _
        | again => rfl
        | failed => rfl
      · rw [if_neg hpos, if_neg (show ¬ w.own.host.sendBuf.readableBytes > 0 from hpos)]
        by_cases hempty : w.host.sendBuf.compact.readableBytes = 0
        · rw [if_pos hempty, if_pos (show w.own.host.sendBuf.compact.readableBytes = 0 from hempty)]
          rfl
        · rw [if_neg hempty,
            if_neg (show ¬ w.own.host.sendBuf.compact.readableBytes = 0 from hempty)]
          rfl

variable (send) in
theorem own_answer (ack : Option AckBody) (w : Watched) :
    (answer send ack w).own = answer send ack w.own := by
  cases ack with
  | none => rfl
  | some ack =>
      rw [answer, answer, enqueueAck, enqueueAck, tryArmWrite, tryArmWrite]
      dsimp only
      by_cases hpos : (w.host.sendBuf.writeFrom (ackMessage ack)).readableBytes > 0
      · rw [if_pos hpos,
          if_pos (show (w.own.host.sendBuf.writeFrom (ackMessage ack)).readableBytes > 0 from hpos)]
        exact own_handleConnWritableFrom _ _
      · rw [if_neg hpos,
          if_neg (show ¬ (w.own.host.sendBuf.writeFrom (ackMessage ack)).readableBytes > 0 from
            hpos)]
        rfl

variable (hlibs : Reliable libs)
include hlibs

/-- **No answer depends on the files.** -/
theorem react_same (c : Session) (files files' : Files) (r : ParseResult) :
    (react libs c files r).session = (react libs c files' r).session ∧
      (react libs c files r).ack = (react libs c files' r).ack ∧
      (react libs c files r).closes = (react libs c files' r).closes := by
  cases r with
  | ok msg =>
      rw [react, react]
      split
      · rw [handleHello, handleHello]
        dsimp only
        repeat' split
        all_goals exact ⟨rfl, rfl, rfl⟩
      · rw [handleDataBlock, handleDataBlock]
        split
        · exact ⟨rfl, rfl, rfl⟩
        · split
          · exact ⟨rfl, rfl, rfl⟩
          · dsimp only
            split
            · exact ⟨rfl, rfl, rfl⟩
            · have hstatus : ∀ files, (processRequest libs (.ofMessage msg) files).1
                  = (BlockRequest.ofMessage msg).status libs := fun files =>
                (process_eq hlibs (.ofMessage msg) files).1
              have hack : ∀ files, (processRequest libs (.ofMessage msg) files).2.1
                  = (BlockRequest.ofMessage msg).ack ((BlockRequest.ofMessage msg).status libs) :=
                fun files => (processRequest_ack libs _ files).trans (by rw [hstatus])
              refine ⟨?_, congrArg some ((hack files).trans (hack files').symm), rfl⟩
              exact congrArg (c.count _) ((hstatus files).trans (hstatus files').symm)
      · exact ⟨rfl, rfl, rfl⟩
      · exact ⟨rfl, rfl, rfl⟩
  | _ => exact ⟨rfl, rfl, rfl⟩

variable (send) in
theorem own_deliver (r : ParseResult) (w : Watched) :
    (deliver libs send r w).own = (deliver libs send r w.own).own := by
  have hsame : (react libs w.host.session w.host.files r).session
        = (react libs w.own.host.session w.own.host.files r).session ∧
      (react libs w.host.session w.host.files r).ack
        = (react libs w.own.host.session w.own.host.files r).ack ∧
      (react libs w.host.session w.host.files r).closes
        = (react libs w.own.host.session w.own.host.files r).closes :=
    react_same hlibs w.host.session w.host.files noFiles r
  rw [deliver, deliver]
  generalize react libs w.host.session w.host.files r = reaction at *
  generalize react libs w.own.host.session w.own.host.files r = reaction' at *
  obtain ⟨session, files, ack, closes⟩ := reaction
  obtain ⟨session', files', ack', closes'⟩ := reaction'
  obtain ⟨rfl, rfl, rfl⟩ := hsame
  have hanswered := fun files : Files => own_answer send ack
    { w with
      host :=
        { w.host with
          session
          files
          delivered := w.host.delivered ++ [r] } }
  have hboth := (hanswered files).trans (hanswered files').symm
  cases closes with
  | true => exact congrArg closeConn hboth
  | false => exact hboth

omit hlibs in
theorem alive_eq_of_own {w w' : Watched} (h : w.own = w'.own) : w.host.alive = w'.host.alive :=
  (congrArg (fun v : Watched => v.host.alive) h :)

omit hlibs in
/-- What is the same without the files stays so. -/
theorem own_congr {f : Watched → Watched} (hf : ∀ w, (f w).own = (f w.own).own) {w w' : Watched}
    (h : w.own = w'.own) : (f w).own = (f w').own := by
  rw [hf w, h, ← hf w']

variable (send) in
theorem own_processMessagesFrom (fuel : Nat) (w : Watched) :
    (processMessagesFrom libs send fuel w).own
      = (processMessagesFrom libs send fuel w.own).own := by
  induction fuel generalizing w with
  | zero => rfl
  | succ fuel ih =>
      rw [processMessagesFrom, processMessagesFrom]
      by_cases hmore : tryParse w.host.recvBuf.readable = .needMore
      · rw [if_pos hmore, if_pos (show tryParse w.own.host.recvBuf.readable = .needMore from hmore)]
        rfl
      · rw [if_neg hmore,
          if_neg (show ¬ tryParse w.own.host.recvBuf.readable = .needMore from hmore)]
        have hhandled := own_deliver send hlibs (tryParse w.host.recvBuf.readable) w
        have halive : (deliver libs send (tryParse w.host.recvBuf.readable) w).host.alive
            = (deliver libs send (tryParse w.host.recvBuf.readable) w.own).host.alive :=
          alive_eq_of_own hhandled
        have hnext := own_congr
          (f := fun v => processMessagesFrom libs send fuel
            { v with
              host :=
                { v.host with
                  recvBuf := (v.host.recvBuf.consume
                    (tryParse w.host.recvBuf.readable).consumed).compact } })
          (fun v => ih _) hhandled
        dsimp only
        by_cases hgo : (deliver libs send (tryParse w.host.recvBuf.readable) w).host.alive = true
        · rw [if_pos hgo, if_pos (show (deliver libs send (tryParse w.own.host.recvBuf.readable)
            w.own).host.alive = true from halive ▸ hgo)]
          exact hnext
        · rw [if_neg hgo, if_neg (show ¬ (deliver libs send (tryParse w.own.host.recvBuf.readable)
            w.own).host.alive = true from halive ▸ hgo)]
          exact hhandled

variable (send) in
theorem own_readTurn (outcome : RecvOutcome) (w : Watched) :
    (readTurn libs send outcome w).own = (readTurn libs send outcome w.own).own := by
  have hfilled := own_processMessagesFrom send hlibs
    ((w.host.recvBuf.writeFromFd outcome).2.readableBytes + 1)
    { w with host := { w.host with recvBuf := (w.host.recvBuf.writeFromFd outcome).2 } }
  have hread : w.own.host.recvBuf.writeFromFd outcome = w.host.recvBuf.writeFromFd outcome := rfl
  rw [readTurn, readTurn]
  dsimp only
  rw [hread]
  cases (w.host.recvBuf.writeFromFd outcome).1 with
  | noBufferSpace => rfl
  | recv reported =>
      cases reported with
      | received data =>
          cases data with
          | nil => rfl
          | cons byte data => exact hfilled
      | peerClosed => rfl
      | again => exact hfilled
      | failed => rfl

theorem own_handleConnReadable (outcomes : List RecvOutcome) (w : Watched) :
    (handleConnReadable libs send outcomes w).own
      = (handleConnReadable libs send outcomes w.own).own := by
  induction outcomes generalizing w with
  | nil => rfl
  | cons outcome outcomes ih =>
      have hturned := own_readTurn send hlibs outcome w
      have hgoes : (readsBytes outcome w ∧ (readTurn libs send outcome w).host.alive)
          ↔ (readsBytes outcome w.own ∧ (readTurn libs send outcome w.own).host.alive) :=
        and_congr_right' (by rw [alive_eq_of_own hturned])
      rw [handleConnReadable, handleConnReadable]
      by_cases hgo : readsBytes outcome w ∧ (readTurn libs send outcome w).host.alive
      · rw [if_pos hgo, if_pos (hgoes.mp hgo)]
        exact own_congr ih hturned
      · rw [if_neg hgo, if_neg (fun h => hgo (hgoes.mpr h))]
        exact hturned

/-- **An event does the same to a connection, whatever the files hold.** -/
theorem own_handleReady (e : Ready) (w : Watched) :
    (handleReady libs e w).own = (handleReady libs e w.own).own := by
  have hread : (if e.readable then w.handleConnReadable libs e.send e.recv else w).own
      = (if e.readable then w.own.handleConnReadable libs e.send e.recv else w.own).own := by
    split
    · exact own_handleConnReadable hlibs e.recv w
    · rfl
  rw [handleReady, handleReady]
  dsimp only
  split
  · rfl
  · generalize (if e.readable then w.handleConnReadable libs e.send e.recv else w) = read at *
    generalize (if e.readable then w.own.handleConnReadable libs e.send e.recv else w.own) = read'
      at *
    rw [← alive_eq_of_own hread]
    split
    · split
      · exact own_congr (f := handleConnWritable e.send)
          (fun v => (own_handleConnWritableFrom _ v).trans
            (own_handleConnWritableFrom _ v.own).symm) hread
      · exact hread
    · exact hread

end Watched

/-! ### Alone -/

/-- The file that a block is for, if its device has one. -/
def BlockRequest.file (libs : Libs) (r : BlockRequest) : Option Nat :=
  (libs.diskMap.get r.devno).map fun bf => libs.fileOf bf.fd

section Alone

variable {libs : Libs} (hlibs : Reliable libs)
include hlibs

/-- What a client has of the server: its connection, and the blocks it has handed over. -/
def clientView (fd : Nat) (s : Recorded) : Option Watched × List (Nat × BlockRequest) :=
  ((s.reactor.conns fd).map Watched.own, s.processed.filter fun p => p.1 = fd)

/-- **Clients have nothing to do with each other.** -/
theorem separates_clients : Separates (Recorded.wake libs) Wake.fd clientView where
  other fd s e hne := by
    have hnone : ((Recorded.blocks libs e s.reactor).map fun b => (e.fd, b)).filter
        (fun p => p.1 = fd) = [] := by
      refine List.filter_eq_nil_iff.mpr fun p hp => ?_
      obtain ⟨b, -, rfl⟩ := List.mem_map.mp hp
      simpa using hne
    have hconns : (s.reactor.wake libs e).conns fd = s.reactor.conns fd := by
      cases e with
      | accepted fd' => exact Function.update_of_ne (Ne.symm hne) _ _
      | ready fd' e =>
          rw [Reactor.wake]
          split
          · rfl
          · exact Function.update_of_ne (Ne.symm hne) _ _
    rw [clientView, clientView, Recorded.wake]
    dsimp only
    rw [hconns, List.filter_append, hnone, List.append_nil]
  own s t e hview := by
    obtain ⟨hconn, hprocessed⟩ := Prod.mk.inj hview
    have hown : ∀ (bs : List BlockRequest), (bs.map fun b => (e.fd, b)).filter
        (fun p => p.1 = e.fd) = bs.map fun b => (e.fd, b) := by
      intro bs
      refine List.filter_eq_self.mpr fun p hp => ?_
      obtain ⟨b, -, rfl⟩ := List.mem_map.mp hp
      exact decide_eq_true rfl
    rw [clientView, clientView, Recorded.wake, Recorded.wake]
    dsimp only
    rw [List.filter_append, List.filter_append, hprocessed, hown, hown]
    cases e with
    | accepted fd =>
        refine Prod.ext ?_ rfl
        dsimp only [Reactor.wake, Wake.fd]
        rw [Function.update_self, Function.update_self]
        rfl
    | ready fd e =>
        rw [Reactor.wake, Reactor.wake, Recorded.blocks, Recorded.blocks]
        change (s.reactor.conns fd).map Watched.own = (t.reactor.conns fd).map Watched.own at hconn
        cases hs : s.reactor.conns fd with
        | none =>
            rw [hs] at hconn
            rw [Option.map_eq_none_iff.mp hconn.symm]
            dsimp only [Wake.fd]
            rw [hs, Option.map_eq_none_iff.mp hconn.symm]
        | some w =>
            rw [hs] at hconn
            obtain ⟨w', ht, hsame⟩ := Option.map_eq_some_iff.mp hconn.symm
            rw [ht]
            have hlent : (w.lend s.reactor.files).own = (w'.lend t.reactor.files).own := hsame.symm
            have hhandled : ((w.lend s.reactor.files).handleReady libs e).own
                = ((w'.lend t.reactor.files).handleReady libs e).own :=
              Watched.own_congr (Watched.own_handleReady hlibs e) hlent
            have hbefore : w.host.delivered = w'.host.delivered :=
              (congrArg (fun v : Watched => v.host.delivered) hsame.symm :)
            have hafter : ((w.lend s.reactor.files).handleReady libs e).host.delivered
                = ((w'.lend t.reactor.files).handleReady libs e).host.delivered :=
              (congrArg (fun v : Watched => v.host.delivered) hhandled :)
            refine Prod.ext ?_ ?_
            · dsimp only [Wake.fd, Reactor.settle]
              rw [Function.update_self, Function.update_self]
              change ((if ((w.lend s.reactor.files).handleReady libs e).host.alive
                  then some ((w.lend s.reactor.files).handleReady libs e) else none).map Watched.own)
                = ((if ((w'.lend t.reactor.files).handleReady libs e).host.alive
                  then some ((w'.lend t.reactor.files).handleReady libs e) else none).map
                    Watched.own)
              rw [Watched.alive_eq_of_own hhandled]
              split
              · exact congrArg some hhandled
              · rfl
            · dsimp only
              rw [hbefore, hafter]

/-- **A block changes no file but its own**, and what it makes of that depends on nothing else. -/
theorem rewrite_own (r : BlockRequest) :
    (∀ images, r.rewrite libs images = images) ∨
      ∃ file, r.file libs = some file ∧ ∃ g : Image → Image, ∀ images,
        r.rewrite libs images = Function.update images file (g (images file)) := by
  cases hcheck : r.check libs with
  | error status =>
      exact .inl fun images => congrArg Files.image (process_of_refused hcheck _).2.2
  | ok found =>
      have h := check_eq_ok_iff.mp hcheck
      cases hwrote : r.wrote libs found.2 (.holding fun _ _ => 0) with
      | none =>
          refine .inl fun images => ?_
          rw [wrote_eq hlibs r found.2 _ (.holding images)] at hwrote
          exact (process_of_write_failed h hwrote).2.1
      | some n =>
          have hfile : r.file libs = some (libs.fileOf found.1.fd) := by
            rw [BlockRequest.file, h.device]
            rfl
          refine .inr ⟨_, hfile, fun image => image.write r.offset.toNat (found.2.take n),
            fun images => ?_⟩
          rw [wrote_eq hlibs r found.2 _ (.holding images)] at hwrote
          exact (process_of_write h hwrote).2.1

/-- **Files have nothing to do with each other.** -/
theorem separates_files :
    Separates (fun images (r : BlockRequest) => r.rewrite libs images) (BlockRequest.file libs)
      fun file (images : Nat → Image) => file.map images where
  other file images r hne := by
    cases file with
    | none => rfl
    | some file =>
        rcases rewrite_own hlibs r with hsame | ⟨own, hown, g, hg⟩
        · rw [hsame]
        · rw [hg, Option.map_some, Option.map_some, Function.update_of_ne]
          rintro rfl
          exact hne hown
  own images images' r hview := by
    rcases rewrite_own hlibs r with hsame | ⟨own, hown, g, hg⟩
    · rw [hsame, hsame]
      exact hview
    · rw [hown, Option.map_some, Option.map_some] at hview ⊢
      rw [hg, hg, Function.update_self, Function.update_self, Option.some.inj hview]

/-- A file is what the blocks for it make of it. -/
theorem image_processAll (rs : List BlockRequest) (files : Files) (file : Nat) :
    (processAll libs rs files).2.image file
      = (processAll libs (rs.filter fun r => r.file libs = some file) files).2.image file := by
  rw [(processAll_eq hlibs rs files).2, (processAll_eq hlibs (rs.filter _) files).2]
  exact Option.some.inj ((separates_files hlibs).view_foldl (some file) rs
    (rfl : (some file).map files.image = (some file).map files.image))

omit hlibs in
/-- Blocks come from the wakes. -/
theorem fd_processed {fd : Nat} {wakes : List Wake} (hwakes : ∀ e ∈ wakes, e.fd = fd)
    (files : Files) : ∀ p ∈ ((Recorded.start files).run libs wakes).processed, p.1 = fd := by
  refine List.foldlRecOn wakes (motive := fun s : Recorded => ∀ p ∈ s.processed, p.1 = fd) _
    (fun p hp => absurd hp List.not_mem_nil) fun s h e he p hp => ?_
  rcases List.mem_append.mp hp with hp | hp
  · exact h p hp
  · obtain ⟨b, -, rfl⟩ := List.mem_map.mp hp
    exact hwakes e he

/-- **A client gets what it would get alone.**  In every run of the event loop, with any number of
clients and in every order of their events, the connection of a client, its answers among it, and
the blocks it has had processed are what they would be if nothing but its own events had happened;
and a file that no other client had a block for holds what it would hold then. -/
theorem isolated (wakes : List Wake) (files : Files) (fd : Nat) :
    let all := (Recorded.start files).run libs wakes
    let alone := (Recorded.start files).run libs (wakes.filter fun e => e.fd = fd)
    (all.reactor.conns fd).map Watched.own = (alone.reactor.conns fd).map Watched.own ∧
      (all.processed.filter fun p => p.1 = fd) = alone.processed ∧
      ∀ file, (∀ p ∈ all.processed, p.2.file libs = some file → p.1 = fd) →
        all.reactor.files.image file = alone.reactor.files.image file := by
  intro all alone
  obtain ⟨hconn, hfiltered⟩ := Prod.mk.inj
    ((separates_clients hlibs).view_foldl fd wakes (rfl : clientView fd (.start files) = _))
  have hown : (alone.processed.filter fun p => p.1 = fd) = alone.processed := by
    refine List.filter_eq_self.mpr fun p hp => decide_eq_true ?_
    refine fd_processed (fun e he => ?_) files p hp
    exact of_decide_eq_true (List.mem_filter.mp he).2
  have hprocessed : (all.processed.filter fun p => p.1 = fd) = alone.processed :=
    hfiltered.trans hown
  refine ⟨hconn, hprocessed, fun file hothers => ?_⟩
  -- the blocks for the file are all of this client
  have hblocks : (all.processed.map Prod.snd).filter (fun r => r.file libs = some file)
      = (alone.processed.map Prod.snd).filter (fun r => r.file libs = some file) := by
    rw [← hprocessed, List.filter_map, List.filter_map, List.filter_filter]
    refine congrArg (List.map Prod.snd) (List.filter_congr fun p hp => ?_)
    by_cases hfile : p.2.file libs = some file
    · simp [hfile, hothers p hp hfile]
    · simp [hfile]
  rw [Recorded.files_run, Recorded.files_run, image_processAll hlibs,
    image_processAll hlibs (alone.processed.map Prod.snd), hblocks]

end Alone

theorem reliable_twoDisks : Reliable (twoDisks fun _ len => some len) where
  whole _ _ := rfl
  separate devno devno' bf bf' h h' hfile := by
    have hfd : bf.fd = bf'.fd := hfile
    rw [get_twoDisks h, get_twoDisks h'] at hfd
    exact UInt32.toNat_inj.mp (Nat.add_right_cancel hfd)

/-- Two clients, the second of which hangs up. -/
theorem isolated_twoClients :
    let hangup : Ready :=
      { error := true, readable := false, writable := false, recv := [], send := fun _ _ => .again }
    let libs := twoDisks fun _ len => some len
    (((Recorded.start blankFiles).run libs
        [.accepted 5, .accepted 6, .ready 6 hangup]).reactor.conns 5).map Watched.own
      = (((Recorded.start blankFiles).run libs [.accepted 5]).reactor.conns 5).map Watched.own :=
  (isolated reliable_twoDisks _ blankFiles 5).1

end Go2Cbt.Server
