import Go2Cbt.Server.Connection
import Go2Cbt.Server.Writes

/-!
# Server — the service a connection gives

A connection handles the messages that the parser finds one after the other, until one of them
ends it or it is lost; nothing else of what the event loop does shows (`Served`).  Every run of
`receive` serves, whatever the socket does (`served_receive`), so that what holds of a service
holds of the connection.
-/

namespace Go2Cbt.Server

open Go2Cbt.Protocol MessageParser

/-! ### What holds along a run -/

/-- Nothing that the event loop does to a connection breaks `P`. -/
structure Keeps (libs : Libs) (send : SendSide) (P : Host → Prop) : Prop where
  recvBuf : ∀ s rb, P s → P { s with recvBuf := rb }
  deliver : ∀ s, P s → s.alive = true → tryParse s.recvBuf.readable ≠ .needMore →
    P (deliver libs send (tryParse s.recvBuf.readable) s)
  writable : ∀ s, P s → s.alive = true → P (handleConnWritable send s)
  close : ∀ s, P s → P (closeConn s)

section Keeps

variable {libs : Libs} {send : SendSide} {P : Host → Prop} (h : Keeps libs send P)
include h

theorem Keeps.processMessagesFrom (fuel : Nat) {s : Host} (hs : P s) (halive : s.alive = true) :
    P (processMessagesFrom libs send fuel s) := by
  induction fuel generalizing s with
  | zero => exact hs
  | succ fuel ih =>
      rw [Server.processMessagesFrom]
      split
      · exact hs
      · next hdecided =>
        have hhandled := h.deliver s hs halive hdecided
        dsimp only
        split
        · next hgo => exact ih (h.recvBuf _ _ hhandled) hgo
        · exact hhandled

theorem Keeps.handleEvent (e : IoEvent) {s : Host} (hs : P s) (halive : s.alive = true) :
    P (handleEvent libs send e s) := by
  cases e with
  | readable outcome =>
      rw [Server.handleEvent, handleConnReadable]
      have hfilled := h.recvBuf s (s.recvBuf.writeFromFd outcome).2 hs
      split
      · exact h.processMessagesFrom _ hfilled halive
      · exact h.close _ hfilled
      · exact h.close _ hfilled
      · exact h.processMessagesFrom _ hfilled halive
      · exact h.close _ hfilled
      · exact h.close _ hfilled
  | writable => exact h.writable s hs halive
  | hangup => exact h.close s hs

/-- **The invariant rule of a connection.** -/
theorem Keeps.receive (events : List IoEvent) {s : Host} (hs : P s) :
    P (receive libs send events s).1 := by
  induction events generalizing s with
  | nil => exact hs
  | cons e es ih =>
      rw [Server.receive]
      split
      · next halive => exact ih (h.handleEvent e hs halive)
      · exact hs

end Keeps

/-! ### The decisions of a run -/

/-- The decisions that `ProcessMessages` hands over, each with the connection that handled it. -/
def handledFrom (libs : Libs) (send : SendSide) : (fuel : Nat) → Host → List (Host × ParseResult)
  | 0, _ => []
  | fuel + 1, s =>
      if tryParse s.recvBuf.readable = .needMore then []
      else
        let r := tryParse s.recvBuf.readable
        let handled := deliver libs send r s
        (s, r) ::
          if handled.alive then
            handledFrom libs send fuel
              { handled with recvBuf := (handled.recvBuf.consume r.consumed).compact }
          else []

/-- Those of one event. -/
def handledOn (libs : Libs) (send : SendSide) : IoEvent → Host → List (Host × ParseResult)
  | .readable outcome, s =>
      let read := s.recvBuf.writeFromFd outcome
      let filled := { s with recvBuf := read.2 }
      match read.1 with
      | .recv (.received (_ :: _)) | .recv .again =>
          handledFrom libs send (filled.recvBuf.readableBytes + 1) filled
      | _ => []
  | .writable, _ | .hangup, _ => []

/-- Those of a run. -/
def handledIn (libs : Libs) (send : SendSide) : List IoEvent → Host → List (Host × ParseResult)
  | [], _ => []
  | e :: es, s =>
      if s.alive then handledOn libs send e s ++ handledIn libs send es (handleEvent libs send e s)
      else []

section Handled

variable {libs : Libs} {send : SendSide}

/-- Every handled decision met `P`, which the run keeps. -/
theorem Keeps.handledFrom {P : Host → Prop} (h : Keeps libs send P) (fuel : Nat) {s : Host}
    (hs : P s) (halive : s.alive = true) {u : Host} {r : ParseResult}
    (hu : (u, r) ∈ handledFrom libs send fuel s) :
    P u ∧ u.alive = true ∧ r ≠ .needMore ∧ tryParse u.recvBuf.readable = r := by
  induction fuel generalizing s with
  | zero => cases hu
  | succ fuel ih =>
      rw [Server.handledFrom] at hu
      split at hu
      · cases hu
      · next hdecided =>
        rcases List.mem_cons.mp hu with heq | hu
        · cases heq
          exact ⟨hs, halive, hdecided, rfl⟩
        · split at hu
          · next hgo =>
            have hnext := h.recvBuf _ ((Server.deliver libs send (tryParse s.recvBuf.readable)
              s).recvBuf.consume (tryParse s.recvBuf.readable).consumed).compact
              (h.deliver s hs halive hdecided)
            exact ih hnext hgo hu
          · cases hu

theorem Keeps.handledIn {P : Host → Prop} (h : Keeps libs send P) (events : List IoEvent)
    {s : Host} (hs : P s) {u : Host} {r : ParseResult}
    (hu : (u, r) ∈ handledIn libs send events s) :
    P u ∧ u.alive = true ∧ r ≠ .needMore ∧ tryParse u.recvBuf.readable = r := by
  induction events generalizing s with
  | nil => cases hu
  | cons e es ih =>
      rw [Server.handledIn] at hu
      split at hu
      · next halive =>
        rcases List.mem_append.mp hu with hu | hu
        · cases e with
          | readable outcome =>
              have hfilled := h.recvBuf s (s.recvBuf.writeFromFd outcome).2 hs
              rw [handledOn] at hu
              dsimp only at hu
              split at hu
              · exact h.handledFrom _ hfilled halive hu
              · exact h.handledFrom _ hfilled halive hu
              · cases hu
          | writable => cases hu
          | hangup => cases hu
        · exact ih (h.handleEvent e hs halive) hu
      · cases hu

/-- The message loop has handled these decisions, and one that closed the connection ended it. -/
theorem processMessagesFrom_handled (fuel : Nat) (s : Host) :
    (processMessagesFrom libs send fuel s).delivered
        = s.delivered ++ (handledFrom libs send fuel s).map Prod.snd ∧
      ∀ u r, (u, r) ∈ handledFrom libs send fuel s → (deliver libs send r u).alive = false →
        processMessagesFrom libs send fuel s = deliver libs send r u := by
  induction fuel generalizing s with
  | zero => exact ⟨(List.append_nil _).symm, fun _ _ h => absurd h List.not_mem_nil⟩
  | succ fuel ih =>
      rw [processMessagesFrom, Server.handledFrom]
      split
      · exact ⟨(List.append_nil _).symm, fun _ _ h => absurd h List.not_mem_nil⟩
      · have hitems : (deliver libs send (tryParse s.recvBuf.readable) s).delivered
            = s.delivered ++ [tryParse s.recvBuf.readable] :=
          (congrArg Framing.Receiver.items (deliver_view libs send _ s).1 :)
        dsimp only
        split
        · next hgo =>
          obtain ⟨hdelivered, hlast⟩ := ih
            { deliver libs send (tryParse s.recvBuf.readable) s with
              recvBuf := ((deliver libs send (tryParse s.recvBuf.readable) s).recvBuf.consume
                (tryParse s.recvBuf.readable).consumed).compact }
          refine ⟨?_, fun u r hu hclosed => ?_⟩
          · rw [hdelivered]
            dsimp only
            rw [hitems, List.map_cons, List.append_assoc, List.singleton_append]
          · rcases List.mem_cons.mp hu with heq | hu
            · cases heq
              exact absurd (hgo.symm.trans hclosed) Bool.noConfusion
            · exact hlast u r hu hclosed
        · refine ⟨hitems, fun u r hu _ => ?_⟩
          cases List.mem_singleton.mp hu
          rfl

theorem handleEvent_handled (e : IoEvent) (s : Host) :
    (handleEvent libs send e s).delivered
        = s.delivered ++ (handledOn libs send e s).map Prod.snd ∧
      ∀ u r, (u, r) ∈ handledOn libs send e s → (deliver libs send r u).alive = false →
        handleEvent libs send e s = deliver libs send r u := by
  cases e with
  | readable outcome =>
      rw [handleEvent, handleConnReadable, handledOn]
      dsimp only
      cases (s.recvBuf.writeFromFd outcome).1 with
      | noBufferSpace =>
          exact ⟨(List.append_nil _).symm, fun _ _ h => absurd h List.not_mem_nil⟩
      | recv outcome' =>
          cases outcome' with
          | received data =>
              cases data with
              | nil => exact ⟨(List.append_nil _).symm, fun _ _ h => absurd h List.not_mem_nil⟩
              | cons b data => exact processMessagesFrom_handled _ _
          | peerClosed =>
              exact ⟨(List.append_nil _).symm, fun _ _ h => absurd h List.not_mem_nil⟩
          | again => exact processMessagesFrom_handled _ _
          | failed => exact ⟨(List.append_nil _).symm, fun _ _ h => absurd h List.not_mem_nil⟩
  | writable =>
      refine ⟨?_, fun _ _ h => absurd h List.not_mem_nil⟩
      rw [handledOn, List.map_nil, List.append_nil]
      exact (congrArg Framing.Receiver.items (handleConnWritableFrom_spec send _ s).1 :)
  | hangup => exact ⟨(List.append_nil _).symm, fun _ _ h => absurd h List.not_mem_nil⟩

/-- **A run has handled these decisions**, and one that closed the connection ended it. -/
theorem receive_handled (events : List IoEvent) (s : Host) :
    (receive libs send events s).1.delivered
        = s.delivered ++ (handledIn libs send events s).map Prod.snd ∧
      ∀ u r, (u, r) ∈ handledIn libs send events s → (deliver libs send r u).alive = false →
        (receive libs send events s).1 = deliver libs send r u := by
  induction events generalizing s with
  | nil => exact ⟨(List.append_nil _).symm, fun _ _ h => absurd h List.not_mem_nil⟩
  | cons e es ih =>
      rw [receive, handledIn]
      split
      · obtain ⟨hdelivered, hlast⟩ := @handleEvent_handled libs send e s
        obtain ⟨hdelivered', hlast'⟩ := ih (handleEvent libs send e s)
        refine ⟨?_, fun u r hu hclosed => ?_⟩
        · rw [hdelivered', hdelivered, List.map_append, List.append_assoc]
        · rcases List.mem_append.mp hu with hu | hu
          · have hend := hlast u r hu hclosed
            have hgone : (handleEvent libs send e s).alive = false := by rw [hend, hclosed]
            rw [receive_of_closed es hgone, hend]
          · exact hlast' u r hu hclosed
      · exact ⟨(List.append_nil _).symm, fun _ _ h => absurd h List.not_mem_nil⟩

end Handled

/-! ### Messages from the parser -/

/-- The decision is one of the parser. -/
def Parsed (r : ParseResult) : Prop := r ≠ .needMore ∧ ∃ bs, tryParse bs = r

/-- The body of a parsed message has the length that `TryParse` worked out. -/
theorem bodyLen_of_ok {bs : Bytes} {msg : ParsedMessage} (h : tryParse bs = .ok msg) :
    bodyLen bs msg.header = .ok msg.body.length ∧
      bs.drop headerSize = msg.body ++ bs.drop (headerSize + msg.body.length) := by
  rw [tryParse] at h
  split at h
  · cases h
  · dsimp only at h
    split at h
    · cases h
    · cases hbody : bodyLen bs (MsgHeader.ofBytes bs) with
      | error early =>
          rw [hbody] at h
          exact absurd (hbody.trans (congrArg Except.error h)) bodyLen_ne_ok
      | ok len =>
          rw [hbody] at h
          dsimp only at h
          split at h
          · cases h
          · next hlong =>
            cases h
            dsimp only
            have hlen : (LittleEndian.field bs headerSize len).length = len := by
              rw [LittleEndian.length_field]
              omega
            refine ⟨hbody.trans (by rw [hlen]), ?_⟩
            rw [hlen, LittleEndian.field, ← List.drop_drop, List.take_append_drop]

theorem length_body_of_hello {msg : ParsedMessage} (h : Parsed (.ok msg))
    (htype : MessageType.ofCode msg.header.type = some .hello) :
    msg.body.length = helloBodySize := by
  obtain ⟨-, bs, hbs⟩ := h
  have hlen := (bodyLen_of_ok hbs).1
  rw [bodyLen, htype] at hlen
  exact (Except.ok.inj hlen).symm

/-- A parsed block has its header, and the compressed bytes that the header counts. -/
theorem length_body_of_dataBlock {msg : ParsedMessage} (h : Parsed (.ok msg))
    (htype : MessageType.ofCode msg.header.type = some .dataBlock) :
    msg.body.length
        = blockHeaderSize + (BlockHeader.ofBytes msg.body).compressedSize.toNat ∧
      (BlockHeader.ofBytes msg.body).compressedSize.toNat ≤ blockSize * 2 := by
  obtain ⟨-, bs, hbs⟩ := h
  obtain ⟨hlen, hdrop⟩ := bodyLen_of_ok hbs
  rw [bodyLen, htype] at hlen
  dsimp only at hlen
  split at hlen
  · cases hlen
  · split at hlen
    · cases hlen
    · next hsize =>
      have hbody := (Except.ok.inj hlen).symm
      have hheader : BlockHeader.ofBytes (bs.drop headerSize) = BlockHeader.ofBytes msg.body := by
        rw [hdrop]
        exact blockHeader_append _ (by rw [hbody]; exact Nat.le_add_right _ _)
      rw [hheader] at hbody hsize
      exact ⟨hbody, not_lt.mp hsize⟩

/-! ### What the handlers do -/

/-- `HandleHello` accepts the greeting: the device is registered and its file large enough. -/
def greets (libs : Libs) (msg : ParsedMessage) : Bool :=
  let hb := HelloBody.ofBytes msg.body
  match libs.diskMap.get hb.devNo with
  | none => false
  | some bf => hb.totalSize ≤ bf.sizeBytes

/-- The block a message carries, for `Process`. -/
def BlockRequest.ofMessage (msg : ParsedMessage) : BlockRequest :=
  let bh := BlockHeader.ofBytes msg.body
  { devno := msg.header.devNo
    header := bh
    payload := LittleEndian.field msg.body blockHeaderSize bh.compressedSize.toNat }

section Handlers

variable (libs : Libs) {msg : ParsedMessage} (h : Parsed (.ok msg)) {c : Session} (files : Files)

theorem handleHello_again (hdone : c.helloDone = true) :
    handleHello libs msg.header msg.body c files
      = { session := c, files, ack := none, closes := false } := by
  rw [handleHello, if_pos hdone]

include h

/-- A greeting that is accepted binds the session to the device it names. -/
theorem handleHello_accepts (htype : MessageType.ofCode msg.header.type = some .hello)
    (hdone : c.helloDone = false) (hgreets : greets libs msg = true) :
    handleHello libs msg.header msg.body c files
      = { session := { c with devno := (HelloBody.ofBytes msg.body).devNo, helloDone := true }
          files
          ack := some (plainAck (HelloBody.ofBytes msg.body).devNo .ok)
          closes := false } := by
  rw [handleHello, if_neg (by rw [hdone]; exact Bool.false_ne_true),
    if_neg (length_body_of_hello h htype).not_lt]
  rw [greets] at hgreets
  dsimp only at hgreets ⊢
  cases hdevice : libs.diskMap.get (HelloBody.ofBytes msg.body).devNo with
  | none => rw [hdevice] at hgreets; cases hgreets
  | some bf =>
      rw [hdevice] at hgreets
      exact if_neg (UInt64.not_lt.mpr (of_decide_eq_true hgreets))

/-- Any other first greeting is answered, and ends the connection. -/
theorem handleHello_rejects (htype : MessageType.ofCode msg.header.type = some .hello)
    (hdone : c.helloDone = false) (hgreets : greets libs msg = false) :
    ∃ status, status ≠ .ok ∧ handleHello libs msg.header msg.body c files
      = { session := c
          files
          ack := some (plainAck (HelloBody.ofBytes msg.body).devNo status)
          closes := true } := by
  rw [handleHello, if_neg (by rw [hdone]; exact Bool.false_ne_true),
    if_neg (length_body_of_hello h htype).not_lt]
  rw [greets] at hgreets
  dsimp only at hgreets ⊢
  cases hdevice : libs.diskMap.get (HelloBody.ofBytes msg.body).devNo with
  | none => exact ⟨.invalidDev, AckStatus.noConfusion, rfl⟩
  | some bf =>
      rw [hdevice] at hgreets
      exact ⟨.outOfRange, AckStatus.noConfusion,
        if_pos (UInt64.not_le.mp (of_decide_eq_false hgreets))⟩

omit libs files in
/-- **A block from the parser passes both size guards of `HandleDataBlock`.** -/
theorem guards_of_dataBlock (htype : MessageType.ofCode msg.header.type = some .dataBlock) :
    ¬ msg.body.length < blockHeaderSize ∧
      ¬ msg.body.length < (UInt32.ofNat blockHeaderSize
        + (BlockHeader.ofBytes msg.body).compressedSize).toNat := by
  obtain ⟨hlen, hsize⟩ := length_body_of_dataBlock h htype
  have hheader : (UInt32.ofNat blockHeaderSize).toNat = 52 := rfl
  have htotal : (UInt32.ofNat blockHeaderSize
      + (BlockHeader.ofBytes msg.body).compressedSize).toNat = msg.body.length := by
    rw [blockSize_eq] at hsize
    rw [UInt32.toNat_add, hheader, Nat.mod_eq_of_lt (by omega), hlen, blockHeaderSize]
  rw [htotal, hlen]
  exact ⟨not_lt.mpr (Nat.le_add_right _ _), lt_irrefl _⟩

/-- After a greeting every block goes to `Process` and its acknowledgement back. -/
theorem handleDataBlock_greeted (htype : MessageType.ofCode msg.header.type = some .dataBlock)
    (hdone : c.helloDone = true) :
    handleDataBlock libs msg.header msg.body c files
      = { session := c.count (BlockHeader.ofBytes msg.body)
            (processRequest libs (.ofMessage msg) files).1
          files := (processRequest libs (.ofMessage msg) files).2.2
          ack := some (processRequest libs (.ofMessage msg) files).2.1
          closes := false } := by
  obtain ⟨hheader, htotal⟩ := guards_of_dataBlock h htype
  rw [handleDataBlock, if_neg (by rw [hdone]; exact Bool.noConfusion), if_neg hheader]
  dsimp only
  rw [if_neg htotal]
  rfl

omit h in
theorem handleDataBlock_early (hdone : c.helloDone = false) :
    handleDataBlock libs msg.header msg.body c files
      = { session := c, files, ack := none, closes := true } := by
  rw [handleDataBlock, if_pos hdone]

end Handlers

/-! ### The service -/

/-- What a connection just accepted serves with. -/
def Serving.start (files : Files) : Serving := { session := .new, files, output := [] }

/-- A service: the decisions it handled, what it has made of its state, and whether it goes on. -/
inductive Served (libs : Libs) (files : Files) : List ParseResult → Serving → Bool → Prop where
  | start : Served libs files [] (.start files) true
  | handle {rs : List ParseResult} {st : Serving} (h : Served libs files rs st true)
      {r : ParseResult} (hr : Parsed r) :
      Served libs files (rs ++ [r]) (respond libs st r).1 (respond libs st r).2
  | lose {rs : List ParseResult} {st : Serving} {live : Bool} (h : Served libs files rs st live) :
      Served libs files rs st false

theorem view_accept (files : Files) :
    (Host.accept files).view
      = { state := .start files, rest := [], live := true, items := [] } := by
  simp [Host.accept, Host.view, Serving.start]

theorem delivered_of_view {s : Host} {more : Bytes} {v : Framing.Receiver Serving ParseResult}
    (h : s.view.push more = v) : s.delivered = v.items :=
  congrArg Framing.Receiver.items h

theorem alive_of_view {s : Host} {more : Bytes} {v : Framing.Receiver Serving ParseResult}
    (h : s.view.push more = v) : s.alive = v.live :=
  congrArg Framing.Receiver.live h

theorem output_of_view {s : Host} {more : Bytes} {v : Framing.Receiver Serving ParseResult}
    (h : s.view.push more = v) : s.sent ++ s.sendBuf.readable = v.state.output :=
  congrArg (fun v => v.state.output) h

/-- The service of a connection. -/
def Host.Serves (libs : Libs) (files : Files) (s : Host) : Prop :=
  Served libs files s.view.items s.view.state s.view.live

theorem keeps_serves (libs : Libs) (send : SendSide) (files : Files) :
    Keeps libs send (Host.Serves libs files) where
  recvBuf _ _ h := h
  deliver s h halive hdecided := by
    have hlive : s.view.live = true := halive
    rw [Host.Serves, hlive] at h
    have hserved := h.handle ⟨hdecided, s.recvBuf.readable, rfl⟩
    rw [Host.Serves, (deliver_view libs send _ s).1]
    dsimp only
    cases (react libs s.session s.files (tryParse s.recvBuf.readable)).loses send s with
    | false =>
        rw [halive, Bool.not_false, Bool.and_true, Bool.true_and]
        exact hserved
    | true =>
        rw [Bool.not_true, Bool.and_false]
        exact hserved.lose
  writable s h halive := by
    rw [Host.Serves, handleConnWritable, (handleConnWritableFrom_spec send _ s).1, halive]
    dsimp only
    cases decide (flushEnd send (s.sendBuf.readableBytes + 1) s.sends s.sendBuf.readableBytes
        ≠ .failed) with
    | false => exact h.lose
    | true =>
        have hlive : s.view.live = true := halive
        rw [Host.Serves, hlive] at h
        exact h
  close _ h := h.lose

/-- **Every run of the event loop serves.** -/
theorem served_receive (libs : Libs) (send : SendSide) (files : Files) (events : List IoEvent) :
    (receive libs send events (.accept files)).1.Serves libs files :=
  (keeps_serves libs send files).receive events .start

theorem Served.parsed {libs : Libs} {files : Files} {rs : List ParseResult} {st : Serving}
    {live : Bool} (h : Served libs files rs st live) : ∀ r ∈ rs, Parsed r := by
  induction h with
  | start => exact fun r hr => absurd hr List.not_mem_nil
  | handle _ hparsed ih =>
      intro r hr
      rcases List.mem_append.mp hr with hr | hr
      · exact ih r hr
      · rw [List.mem_singleton.mp hr]
        exact hparsed
  | lose _ ih => exact ih

end Go2Cbt.Server
