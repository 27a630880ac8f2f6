import Go2Cbt.Server.Answers

/-!
# Server — closing after an acknowledgement

A goodbye and a rejected greeting are answered, and then the connection is closed: what the one
attempt to send has left in the send buffer is lost.  The acknowledgements all reach the socket
exactly when it takes everything that is queued at that moment (`acks_handed_over_iff`).
-/

namespace Go2Cbt.Server

open Go2Cbt.Protocol MessageParser

/-- **The loop of `HandleConnWritable` empties the buffer exactly when the socket takes it all.** -/
theorem readable_eq_nil_iff_drained (send : SendSide) (fuel : Nat) (s : Host)
    (hfuel : s.sendBuf.readableBytes < fuel) :
    (handleConnWritableFrom send fuel s).sendBuf.readable = [] ↔
      flushEnd send fuel s.sends s.sendBuf.readableBytes = .drained := by
  induction fuel generalizing s with
  | zero => exact absurd hfuel (Nat.not_lt_zero _)
  | succ fuel ih =>
      have hempty : s.sendBuf.readable = [] ↔ s.sendBuf.readableBytes = 0 := by
        rw [← RingBuffer.length_readable, List.length_eq_zero_iff]
      rw [handleConnWritableFrom, flushEnd]
      split
      · next hpos =>
        have hqueued : s.sendBuf.readable ≠ [] := fun h => hpos.ne' (hempty.mp h)
        cases send s.sends s.sendBuf.readableBytes with
        | sent n =>
            cases n with
            | zero => exact iff_of_false hqueued FlushEnd.noConfusion
            | succ n =>
                dsimp only
                rw [← RingBuffer.readableBytes_consume]
                refine ih _ ?_
                dsimp only
                rw [RingBuffer.readableBytes_consume]
                omega
        | again => exact iff_of_false hqueued FlushEnd.noConfusion
        | failed => exact iff_of_false hqueued FlushEnd.noConfusion
      · next hpos =>
        refine iff_of_true ?_ rfl
        rw [RingBuffer.readable_compact]
        exact hempty.mpr (Nat.eq_zero_of_not_pos hpos)

/-- What a handler that answers leaves queued. -/
theorem deliver_readable_eq_nil_iff (libs : Libs) (send : SendSide) {r : ParseResult} {s : Host}
    {ack : AckBody} (hack : (react libs s.session s.files r).ack = some ack) :
    (deliver libs send r s).sendBuf.readable = [] ↔
      ackEnd send (ackMessage ack) s = .drained := by
  have hkept : (deliver libs send r s).sendBuf.readable
      = (enqueueAck send (ackMessage ack)
          { s with
            session := (react libs s.session s.files r).session
            files := (react libs s.session s.files r).files
            delivered := s.delivered ++ [r] }).sendBuf.readable := by
    rw [deliver, hack]
    cases (react libs s.session s.files r).closes <;> rfl
  have hpos : (s.sendBuf.writeFrom (ackMessage ack)).readableBytes > 0 := by
    rw [RingBuffer.readableBytes_writeFrom, length_ackMessage]
    exact Nat.add_pos_right _ (by decide)
  rw [hkept, enqueueAck, tryArmWrite, if_pos hpos, handleConnWritable,
    readable_eq_nil_iff_drained send _ _ (Nat.lt_succ_self _), ackEnd,
    RingBuffer.readableBytes_writeFrom]

/-- The connection handles `r`, answers it and closes. -/
structure ClosesWithAck (libs : Libs) (u : Host) (r : ParseResult) (ack : AckBody) : Prop where
  ack : (react libs u.session u.files r).ack = some ack
  closes : (react libs u.session u.files r).closes = true

/-- It does so for a goodbye and for a first greeting that it rejects. -/
theorem exists_closesWithAck_iff {libs : Libs} {u : Host} {msg : ParsedMessage}
    (h : Parsed (.ok msg)) :
    (∃ ack, ClosesWithAck libs u (.ok msg) ack) ↔
      MessageType.ofCode msg.header.type = some .bye ∨
        MessageType.ofCode msg.header.type = some .hello ∧ u.session.helloDone = false ∧
          greets libs msg = false := by
  constructor
  · rintro ⟨ack, hack, hcloses⟩
    cases htype : MessageType.ofCode msg.header.type with
    | none => rw [react, htype] at hcloses; cases hcloses
    | some t =>
        rw [react, htype] at hack hcloses
        cases t with
        | bye => exact .inl rfl
        | ack => cases hcloses
        | error => cases hcloses
        | dataBlock =>
            dsimp only at hack hcloses
            rcases Bool.eq_false_or_eq_true u.session.helloDone with hdone | hdone
            · rw [handleDataBlock_greeted libs h _ htype hdone] at hcloses
              cases hcloses
            · rw [handleDataBlock_early libs _ hdone] at hack
              cases hack
        | hello =>
            dsimp only at hack hcloses
            rcases Bool.eq_false_or_eq_true u.session.helloDone with hdone | hdone
            · rw [handleHello_again libs _ hdone] at hcloses
              cases hcloses
            · rcases Bool.eq_false_or_eq_true (greets libs msg) with hgreets | hgreets
              · rw [handleHello_accepts libs h _ htype hdone hgreets] at hcloses
                cases hcloses
              · exact .inr ⟨rfl, hdone, hgreets⟩
  · rintro (htype | ⟨htype, hdone, hgreets⟩)
    · refine ⟨plainAck msg.header.devNo .ok, ?_, ?_⟩
      · rw [react, htype]
        rfl
      · rw [react, htype]
        rfl
    · obtain ⟨status, -, hreaction⟩ := handleHello_rejects libs h u.files htype hdone hgreets
      refine ⟨plainAck (HelloBody.ofBytes msg.body).devNo status, ?_, ?_⟩
      · rw [react, htype]
        dsimp only
        rw [hreaction]
      · rw [react, htype]
        dsimp only
        rw [hreaction]

/-- All the acknowledgements that the messages are owed have been handed to the socket. -/
def HandedOver (libs : Libs) (s : Host) : Prop :=
  ∃ acks, List.Forall₂ Echoes (owed libs [] s.delivered) acks ∧ s.sent = acks.flatMap ackMessage

theorem length_flatMap_ackMessage (acks : List AckBody) :
    (acks.flatMap ackMessage).length = 64 * acks.length := by
  induction acks with
  | nil => rfl
  | cons ack acks ih =>
      rw [List.flatMap_cons, List.length_append, length_ackMessage, ih, List.length_cons]
      omega

/-- They have exactly when the send buffer is empty. -/
theorem handedOver_iff {libs : Libs} {files : Files} {s : Host} (h : s.Serves libs files) :
    HandedOver libs s ↔ s.sendBuf.readable = [] := by
  obtain ⟨acks, hechoes, houtput⟩ := h.answers.1
  have hbytes : s.sent ++ s.sendBuf.readable = acks.flatMap ackMessage := houtput
  constructor
  · rintro ⟨acks', hechoes', hsent⟩
    have hcount : acks'.length = acks.length := hechoes'.length_eq.symm.trans hechoes.length_eq
    have hlen := congrArg List.length hbytes
    rw [List.length_append, hsent, length_flatMap_ackMessage, length_flatMap_ackMessage,
      hcount] at hlen
    exact List.eq_nil_of_length_eq_zero (by omega)
  · intro hempty
    rw [hempty, List.append_nil] at hbytes
    exact ⟨acks, hechoes, hbytes⟩

/-- **Closing loses no acknowledgement exactly when the socket takes all that is queued**: for
every run of a connection, every acknowledgement reaches the socket whenever a message is
answered and closes the connection, if and only if each time the calls of `send` take the queue
and the last acknowledgement before one of them would block. -/
theorem acks_handed_over_iff (libs : Libs) (send : SendSide) (files : Files)
    (events : List IoEvent) :
    (∀ u r ack, (u, r) ∈ handledIn libs send events (.accept files) →
      ClosesWithAck libs u r ack → HandedOver libs (receive libs send events (.accept files)).1) ↔
    ∀ u r ack, (u, r) ∈ handledIn libs send events (.accept files) →
      ClosesWithAck libs u r ack → ackEnd send (ackMessage ack) u = .drained := by
  refine forall_congr' fun u => forall_congr' fun r => forall_congr' fun ack =>
    forall_congr' fun hu => forall_congr' fun hcloses => ?_
  have hclosed : (deliver libs send r u).alive = false := by
    rw [alive_deliver, hcloses.closes, Bool.not_true, Bool.and_false, Bool.false_and]
  have hend := (receive_handled events _).2 u r hu hclosed
  rw [handedOver_iff (served_receive libs send files events), hend,
    deliver_readable_eq_nil_iff libs send hcloses.ack]

/-! ### A goodbye with no room in the socket -/

theorem sent_handleConnWritableFrom (fuel : Nat) (s : Host) :
    (handleConnWritableFrom (fun _ _ => .again) fuel s).sent = s.sent := by
  cases fuel with
  | zero => rfl
  | succ fuel =>
      rw [handleConnWritableFrom]
      split <;> rfl

/-- A socket that never has room takes nothing. -/
theorem keeps_sent (libs : Libs) : Keeps libs (fun _ _ => .again) fun s => s.sent = [] where
  recvBuf _ _ h := h
  deliver s h _ _ := by
    have hanswer : ∀ ack (s : Host), (answer (fun _ _ => .again) ack s).sent = s.sent := by
      intro ack s
      cases ack with
      | none => rfl
      | some ack =>
          rw [answer, enqueueAck, tryArmWrite]
          split
          · exact sent_handleConnWritableFrom _ _
          · rfl
    rw [deliver]
    split
    · exact (hanswer _ _).trans h
    · exact (hanswer _ _).trans h
  writable s h _ := (sent_handleConnWritableFrom _ s).trans h
  close _ h := h

/-- The `BYE` as the parser hands it over. -/
def byeParsed : ParsedMessage :=
  { header := { magic := protocolMagic, type := MessageType.bye.code, devNo := 0, reserved := 0 }
    body := [] }

theorem bye_delivered :
    (receive noDisks (fun _ _ => .again) (ofChunks [byeMessage]) (.accept noFiles)).1.delivered
      = [.ok byeParsed] := by
  have hopen : KeepsOpen fun _ _ => .again := fun _ _ => .inl rfl
  have hfit : AllFit noDisks (fun _ _ => .again) (ofChunks [byeMessage]) (.accept noFiles) :=
    allFit_of_length_le _ noDisks (by decide) (by decide) (quiet_accept noFiles)
  have hview := (receive_view hopen noDisks (quiet_accept noFiles) hfit).1
  rw [view_accept] at hview
  have hparsed : (Framing.feed frames (respond noDisks)
      { state := .start noFiles, rest := [], live := true, items := [] }
      ((ofChunks [byeMessage]).flatMap IoEvent.data)).items = [.ok byeParsed] := by decide +kernel
  exact (delivered_of_view hview).trans hparsed

theorem bye_handled :
    ∃ u, (u, .ok byeParsed) ∈ handledIn noDisks (fun _ _ => .again) (ofChunks [byeMessage])
      (.accept noFiles) := by
  have htrace := (@receive_handled noDisks (fun _ _ => .again) (ofChunks [byeMessage])
    (.accept noFiles)).1
  have hstart : (Host.accept noFiles).delivered = [] := rfl
  rw [bye_delivered, hstart, List.nil_append] at htrace
  have hmem : ParseResult.ok byeParsed ∈ (handledIn noDisks (fun _ _ => .again)
      (ofChunks [byeMessage]) (.accept noFiles)).map Prod.snd := by
    rw [← htrace]
    exact List.mem_cons_self
  obtain ⟨⟨u, r⟩, hu, rfl⟩ := List.mem_map.mp hmem
  exact ⟨u, hu⟩

/-- A goodbye that arrives with the socket full is answered, and the answer is dropped. -/
theorem bye_ack_dropped :
    ¬ ∀ u r ack, (u, r) ∈ handledIn noDisks (fun _ _ => .again) (ofChunks [byeMessage])
        (.accept noFiles) →
      ClosesWithAck noDisks u r ack →
      HandedOver noDisks
        (receive noDisks (fun _ _ => .again) (ofChunks [byeMessage]) (.accept noFiles)).1 := by
  intro hall
  obtain ⟨u, hu⟩ := bye_handled
  obtain ⟨acks, hechoes, hbytes⟩ := hall u _ _ hu ⟨rfl, rfl⟩
  have hsent := (keeps_sent noDisks).receive (ofChunks [byeMessage]) (s := .accept noFiles) rfl
  have howed : owed noDisks [] [.ok byeParsed] = [byeParsed] := by decide +kernel
  rw [bye_delivered, howed] at hechoes
  have hlen := congrArg List.length hbytes
  rw [hsent, length_flatMap_ackMessage, ← hechoes.length_eq] at hlen
  cases hlen

end Go2Cbt.Server
