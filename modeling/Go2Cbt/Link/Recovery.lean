import Go2Cbt.Client.NetworkClient
import Go2Cbt.Server.Service

/-!
# Link — what the client sends, recovered

The client and the server declare the structures of the wire separately.  Whatever the senders
put on the wire, `ProcessMessages` cuts at the same places and reads with the same fields
(`messages_recovered`), up to the first message after which it closes the connection.  Bytes
before the first message are skipped one by one, as long as none of them starts a magic.
-/

namespace Go2Cbt.Link

open Go2Cbt.Protocol Go2Cbt.Client Go2Cbt.Server MessageParser LittleEndian

/-! ### One message -/

/-- A message as the parser hands it over. -/
def parsed (m : ClientMessage) : ParsedMessage := { header := m.msgHeader, body := m.body }

/-- The server reads every field of `m` in `msg`. -/
def ReadBack (m : ClientMessage) (msg : ParsedMessage) : Prop :=
  msg.header = m.msgHeader ∧
    match m with
    | .hello versionId devNo totalBlocks totalSize versionType =>
        msg.body.length = helloBodySize ∧
          HelloBody.ofBytes msg.body
            = helloBody versionId devNo totalBlocks totalSize versionType
    | .block _ blockIndex rawSize compressedData hash versionId =>
        BlockHeader.ofBytes msg.body
            = blockHeader blockIndex rawSize compressedData hash versionId ∧
          msg.body.drop blockHeaderSize = compressedData ∧
          (BlockHeader.ofBytes msg.body).compressedSize.toNat = compressedData.length
    | .bye _ => msg.body = []

theorem toNat_compressedSize {data : Bytes} (h : data.length ≤ 2 * blockSize) :
    (UInt32.ofNat data.length).toNat = data.length := by
  rw [blockSize] at h
  rw [UInt32.toNat_ofNat']
  exact Nat.mod_eq_of_lt (by omega)

theorem readBack_parsed {m : ClientMessage} (h : m.Sendable) : ReadBack m (parsed m) := by
  refine ⟨rfl, ?_⟩
  cases m with
  | hello versionId devNo totalBlocks totalSize versionType =>
      refine ⟨length_helloBody _, ?_⟩
      have hbody := HelloBody.ofBytes_append
        (helloBody versionId devNo totalBlocks totalSize versionType) []
      rw [List.append_nil] at hbody
      exact hbody
  | block devNo blockIndex rawSize compressedData hash versionId =>
      have hheader := BlockHeader.ofBytes_append
        (blockHeader blockIndex rawSize compressedData hash versionId) compressedData
      refine ⟨hheader, List.drop_left' (length_blockHeader _), ?_⟩
      rw [parsed, ClientMessage.body, hheader]
      exact toNat_compressedSize h
  | bye devNo => rfl

/-- The length of the body, as `TryParse` works it out. -/
theorem bodyLen_bytes {m : ClientMessage} (h : m.Sendable) (rest : Bytes) :
    bodyLen (m.msgHeader.bytes ++ (m.body ++ rest)) m.msgHeader = .ok m.body.length := by
  cases m with
  | hello versionId devNo totalBlocks totalSize versionType =>
      rw [ClientMessage.body, length_helloBody]
      rfl
  | block devNo blockIndex rawSize compressedData hash versionId =>
      have hdrop : ((header .dataBlock devNo).bytes
          ++ ((blockHeader blockIndex rawSize compressedData hash versionId).bytes
            ++ compressedData ++ rest)).drop headerSize
          = (blockHeader blockIndex rawSize compressedData hash versionId).bytes
            ++ (compressedData ++ rest) := by
        rw [List.drop_left' (length_msgHeader _), List.append_assoc]
      have hlong : ¬ ((header .dataBlock devNo).bytes
          ++ ((blockHeader blockIndex rawSize compressedData hash versionId).bytes
            ++ compressedData ++ rest)).length < headerSize + blockHeaderSize := by
        simp only [List.length_append, length_msgHeader, length_blockHeader]
        omega
      have hsize : (blockHeader blockIndex rawSize compressedData hash
          versionId).compressedSize.toNat = compressedData.length := toNat_compressedSize h
      have hle : compressedData.length ≤ 2 * blockSize := h
      rw [bodyLen, ClientMessage.msgHeader, header, MessageType.ofCode_code, ClientMessage.body]
      dsimp only
      rw [← header, if_neg hlong, hdrop, BlockHeader.ofBytes_append, hsize, if_neg (by omega),
        List.length_append, length_blockHeader]
  | bye devNo => rfl

/-- **The parser reads back what a sender wrote**, whatever follows. -/
theorem tryParse_bytes {m : ClientMessage} (h : m.Sendable) (rest : Bytes) :
    tryParse (m.bytes ++ rest) = .ok (parsed m) := by
  have hbytes : m.bytes ++ rest = m.msgHeader.bytes ++ (m.body ++ rest) := by
    rw [m.bytes_eq, List.append_assoc]
  have hmagic : m.msgHeader.magic = protocolMagic := by cases m <;> rfl
  have hshort : ¬ (m.msgHeader.bytes ++ (m.body ++ rest)).length < headerSize := by
    rw [List.length_append, length_msgHeader]
    omega
  have hfull : ¬ (m.msgHeader.bytes ++ (m.body ++ rest)).length < headerSize + m.body.length := by
    simp only [List.length_append, length_msgHeader]
    omega
  rw [hbytes, tryParse, if_neg hshort, MsgHeader.ofBytes_append]
  dsimp only
  rw [if_neg (not_not.mpr hmagic), bodyLen_bytes h]
  dsimp only
  rw [if_neg hfull, field_append_right (length_msgHeader _).le, length_msgHeader, Nat.sub_self,
    field_head rfl]
  rfl

/-! ### Bytes before the first message -/

/-- No position in the junk starts a magic. -/
def NoMagic (junk stream : Bytes) : Prop :=
  ∀ p < junk.length, field (junk ++ stream) p 4 ≠ ofU32 protocolMagic

/-- The decision that skips byte `p` of the stream. -/
def skip (stream : Bytes) (p : Nat) : ParseResult :=
  .badMagic { ParseDiag.none with gotMagic := u32 stream p }

/-- How many bytes of junk are skipped: a decision takes a whole header at least. -/
def passed (junk stream : Bytes) : Nat := min junk.length (junk.length + stream.length - 15)

theorem u32_drop (bs : Bytes) (p off : Nat) : u32 (bs.drop p) off = u32 bs (p + off) := by
  rw [u32, u32, field, field, List.drop_drop]

theorem tryParse_skip {junk stream : Bytes} (hjunk : NoMagic junk stream) {p : Nat}
    (hp : p < junk.length) (hlen : p + 16 ≤ (junk ++ stream).length) :
    tryParse ((junk ++ stream).drop p) = skip (junk ++ stream) p := by
  have hlong : ¬ ((junk ++ stream).drop p).length < headerSize := by
    rw [List.length_drop, headerSize]
    omega
  have hmagic : u32 (junk ++ stream) p ≠ protocolMagic := by
    intro heq
    have hfield : (field (junk ++ stream) p 4).length = 4 := by
      rw [length_field]
      omega
    apply hjunk p hp
    rw [← heq, u32, ofU32_decode hfield]
  have hheader : (MsgHeader.ofBytes ((junk ++ stream).drop p)).magic = u32 (junk ++ stream) p :=
    u32_drop _ _ _
  rw [tryParse, if_neg hlong]
  dsimp only
  rw [if_pos (hheader ▸ hmagic), hheader]
  rfl

/-- Skipping a byte changes nothing else. -/
theorem respond_skip (libs : Libs) (st : Serving) (stream : Bytes) (p : Nat) :
    respond libs st (skip stream p) = (st, true) := by
  simp only [respond, react, skip, Reaction.reply, Option.map_none, Option.getD_none,
    List.append_nil, Bool.not_false]

/-- A receiver that has skipped `p` bytes. -/
def skippedTo (st : Serving) (stream : Bytes) (p : Nat) : Framing.Receiver Serving ParseResult :=
  { state := st
    rest := stream.drop p
    live := true
    items := (List.range p).map (skip stream) }

/-- **Junk is skipped byte by byte.** -/
theorem drain_junk (libs : Libs) (st : Serving) {junk stream : Bytes}
    (hjunk : NoMagic junk stream) {p : Nat} (hp : p ≤ passed junk stream) :
    Framing.drain frames (respond libs) (skippedTo st (junk ++ stream) 0)
      = Framing.drain frames (respond libs) (skippedTo st (junk ++ stream) p) := by
  induction p with
  | zero => rfl
  | succ p ih =>
      rw [passed] at hp
      have hlt : p < junk.length := by omega
      have hlen : p + 16 ≤ (junk ++ stream).length := by
        rw [List.length_append]
        omega
      have hparse := tryParse_skip hjunk hlt hlen
      have hnext : frames.next (skippedTo st (junk ++ stream) p).rest
          = some (skip (junk ++ stream) p, 1) := by
        have hne : tryParse ((junk ++ stream).drop p) ≠ .needMore := by
          rw [hparse]
          exact ParseResult.noConfusion
        refine (if_neg hne).trans ?_
        dsimp only [skippedTo]
        rw [hparse]
        rfl
      have htake : (skippedTo st (junk ++ stream) p).take (respond libs)
          (skip (junk ++ stream) p) 1 = skippedTo st (junk ++ stream) (p + 1) := by
        rw [Framing.Receiver.take_of_goes (respond_skip libs st (junk ++ stream) p)]
        simp only [skippedTo, List.drop_drop, List.range_succ, List.map_append, List.map_cons,
          List.map_nil]
      rw [ih (by rw [passed]; omega), Framing.drain_of_next rfl hnext, htake]

/-! ### The messages -/

/-- The server goes on after `m`. -/
def continues (libs : Libs) (greeted : Bool) (m : ClientMessage) : Bool :=
  match m with
  | .hello .. => greeted || greets libs (parsed m)
  | .block .. => greeted
  | .bye _ => false

/-- The messages up to the first after which the server closes the connection. -/
def heard (libs : Libs) : (greeted : Bool) → List ClientMessage → List ClientMessage
  | _, [] => []
  | greeted, m :: ms => m :: if continues libs greeted m then heard libs true ms else []

theorem parsed_parsed {m : ClientMessage} (h : m.Sendable) : Parsed (.ok (parsed m)) :=
  ⟨ParseResult.noConfusion, m.bytes ++ [], tryParse_bytes h []⟩

/-- What the handler of a message does to the connection. -/
theorem respond_parsed (libs : Libs) {m : ClientMessage} (h : m.Sendable) (st : Serving) :
    (respond libs st (.ok (parsed m))).2 = continues libs st.session.helloDone m ∧
      (continues libs st.session.helloDone m = true →
        (respond libs st (.ok (parsed m))).1.session.helloDone = true) := by
  have hparsed := parsed_parsed h
  cases m with
  | hello versionId devNo totalBlocks totalSize versionType =>
      have htype : MessageType.ofCode
          (parsed (.hello versionId devNo totalBlocks totalSize versionType)).header.type
            = some .hello := rfl
      rw [respond, react, htype, continues]
      dsimp only
      rcases Bool.eq_false_or_eq_true st.session.helloDone with hdone | hdone
      · rw [handleHello_again libs _ hdone, hdone]
        exact ⟨rfl, fun _ => rfl⟩
      · rcases Bool.eq_false_or_eq_true (greets libs
          (parsed (.hello versionId devNo totalBlocks totalSize versionType))) with hgreets | hgreets
        · rw [handleHello_accepts libs hparsed _ htype hdone hgreets, hdone, hgreets]
          exact ⟨rfl, fun _ => rfl⟩
        · obtain ⟨status, -, hreaction⟩ :=
            handleHello_rejects libs hparsed st.files htype hdone hgreets
          rw [hreaction, hdone, hgreets]
          exact ⟨rfl, Bool.noConfusion⟩
  | block devNo blockIndex rawSize compressedData hash versionId =>
      have htype : MessageType.ofCode
          (parsed (.block devNo blockIndex rawSize compressedData hash versionId)).header.type
            = some .dataBlock := rfl
      rw [respond, react, htype, continues]
      dsimp only
      rcases Bool.eq_false_or_eq_true st.session.helloDone with hdone | hdone
      · rw [handleDataBlock_greeted libs hparsed _ htype hdone, hdone]
        refine ⟨rfl, fun _ => ?_⟩
        rw [Session.count]
        split
        · exact hdone
        · exact hdone
      · rw [handleDataBlock_early libs _ hdone, hdone]
        exact ⟨rfl, Bool.noConfusion⟩
  | bye devNo => exact ⟨rfl, Bool.noConfusion⟩

theorem frames_next_bytes {m : ClientMessage} (h : m.Sendable) (rest : Bytes) :
    frames.next (m.bytes ++ rest) = some (.ok (parsed m), m.bytes.length) := by
  have hparse := tryParse_bytes h rest
  have hne : tryParse (m.bytes ++ rest) ≠ .needMore := by
    rw [hparse]
    exact ParseResult.noConfusion
  refine (if_neg hne).trans ?_
  rw [hparse, ParseResult.consumed, m.bytes_eq, List.length_append, length_msgHeader]
  rfl

/-- **Messages are recovered in order.** -/
theorem drain_wire (libs : Libs) {messages : List ClientMessage}
    (hsend : ∀ m ∈ messages, m.Sendable) (st : Serving) (items : List ParseResult) :
    let r := Framing.drain frames (respond libs)
      { state := st, rest := wire messages, live := true, items }
    r.items = items ++ (heard libs st.session.helloDone messages).map (fun m => .ok (parsed m)) ∧
      (r.live = true → heard libs st.session.helloDone messages = messages ∧ r.rest = []) := by
  induction messages generalizing st items with
  | nil =>
      have hsettled : Framing.Settled frames
          ({ state := st, rest := wire [], live := true, items } :
            Framing.Receiver Serving ParseResult) := .inr rfl
      rw [Framing.drain_of_settled hsettled]
      exact ⟨(List.append_nil _).symm, fun _ => ⟨rfl, rfl⟩⟩
  | cons m ms ih =>
      have hm := hsend m List.mem_cons_self
      have hwire : wire (m :: ms) = m.bytes ++ wire ms := List.flatMap_cons
      obtain ⟨hgoes, hgreeted⟩ := respond_parsed libs hm st
      rw [hwire, Framing.drain_of_next rfl (frames_next_bytes hm _), Framing.Receiver.take, hgoes,
        heard]
      dsimp only
      rw [List.drop_left]
      cases hgo : continues libs st.session.helloDone m with
      | true =>
          obtain ⟨hitems, hrest⟩ := ih (fun m' hm' => hsend m' (List.mem_cons_of_mem m hm'))
            (respond libs st (.ok (parsed m))).1 (items ++ [.ok (parsed m)])
          rw [hgreeted hgo] at hitems hrest
          rw [if_pos rfl, if_pos rfl]
          refine ⟨?_, fun hlive => ?_⟩
          · rw [hitems, List.map_cons, List.append_assoc, List.singleton_append]
          · obtain ⟨hall, hempty⟩ := hrest hlive
            rw [hall]
            exact ⟨rfl, hempty⟩
      | false =>
          rw [if_neg Bool.false_ne_true, if_neg Bool.false_ne_true,
            Framing.drain_of_settled (.inl rfl)]
          exact ⟨rfl, fun hlive => Bool.noConfusion hlive⟩

/-! ### The stream -/

/-- What `ProcessMessages` makes of junk and the messages behind it. -/
def decisions (libs : Libs) (junk : Bytes) (messages : List ClientMessage) : List ParseResult :=
  (List.range (passed junk (wire messages))).map (skip (junk ++ wire messages))
    ++ (heard libs false messages).map fun m => .ok (parsed m)

/-- Behind a message all the junk is skipped. -/
theorem passed_of_ne_nil (junk : Bytes) {messages : List ClientMessage} (h : messages ≠ []) :
    passed junk (wire messages) = junk.length := by
  obtain ⟨m, ms, rfl⟩ := List.exists_cons_of_ne_nil h
  have hlen : (wire (m :: ms)).length = 16 + (m.body.length + (wire ms).length) := by
    rw [wire, List.flatMap_cons, List.length_append, m.bytes_eq, List.length_append,
      length_msgHeader, Nat.add_assoc]
    rfl
  rw [passed, hlen]
  omega

/-- **The whole stream at once.** -/
theorem feed_stream (libs : Libs) (files : Files) {junk : Bytes} {messages : List ClientMessage}
    (hsend : ∀ m ∈ messages, m.Sendable) (hjunk : NoMagic junk (wire messages)) :
    let r := Framing.feed frames (respond libs)
      { state := .start files, rest := [], live := true, items := [] } (junk ++ wire messages)
    r.items = decisions libs junk messages ∧
      (r.live = true → heard libs false messages = messages ∧
        r.rest = junk.drop (passed junk (wire messages))) := by
  intro r
  have hr : r = Framing.drain frames (respond libs)
      (skippedTo (.start files) (junk ++ wire messages) (passed junk (wire messages))) :=
    drain_junk libs (.start files) hjunk le_rfl
  rw [hr]
  cases messages with
  | nil =>
      have hwire : wire [] = [] := rfl
      have hshort : ((junk ++ wire []).drop (passed junk (wire []))).length < headerSize := by
        rw [hwire, passed, List.append_nil, List.length_drop, List.length_nil, headerSize]
        omega
      have hsettled : Framing.Settled frames
          (skippedTo (.start files) (junk ++ wire []) (passed junk (wire []))) :=
        .inr (frames_next_eq_none_iff.mpr (if_pos hshort))
      rw [Framing.drain_of_settled hsettled]
      refine ⟨(List.append_nil _).symm, fun _ => ⟨rfl, ?_⟩⟩
      rw [skippedTo, hwire, List.append_nil]
  | cons m ms =>
      have hpassed := passed_of_ne_nil junk (List.cons_ne_nil m ms)
      obtain ⟨hitems, hrest⟩ := drain_wire libs hsend (.start files)
        ((List.range junk.length).map (skip (junk ++ wire (m :: ms))))
      have hskipped : skippedTo (.start files) (junk ++ wire (m :: ms)) junk.length
          = { state := .start files
              rest := wire (m :: ms)
              live := true
              items := (List.range junk.length).map (skip (junk ++ wire (m :: ms))) } := by
        rw [skippedTo, List.drop_left]
      rw [hpassed, hskipped, decisions, hpassed]
      refine ⟨hitems, fun hlive => ?_⟩
      obtain ⟨hall, hempty⟩ := hrest hlive
      exact ⟨hall, by rw [hempty, List.drop_length]⟩

/-- **The server recovers what the client sent**, however the stream is cut and whatever the
socket does: each recovered message has the fields that were sent, they come in order, all junk
in front of a message is skipped, and a connection that is still open has recovered every message
and left nothing but less than a header of junk with no message behind it.  As long as the
socket does not fail, a connection that is closed was closed by the last message it recovered. -/
theorem messages_recovered (libs : Libs) (send : SendSide) (files : Files) {junk : Bytes}
    {messages : List ClientMessage} (hsend : ∀ m ∈ messages, m.Sendable)
    (hjunk : NoMagic junk (wire messages)) {events : List IoEvent}
    (hcuts : Cuts libs send (junk ++ wire messages) events (.accept files)) :
    let r := receive libs send events (.accept files)
    (∀ m ∈ messages, ReadBack m (parsed m)) ∧
      (messages ≠ [] → passed junk (wire messages) = junk.length) ∧
      r.1.delivered <+: decisions libs junk messages ∧
      (KeepsOpen send ∨ r.1.alive = true → r.1.delivered = decisions libs junk messages) ∧
      (r.1.alive = true → heard libs false messages = messages ∧
        unconsumed r = junk.drop (passed junk (wire messages))) := by
  intro r
  obtain ⟨hitems, hrest⟩ := feed_stream libs files hsend hjunk
  have hfollows := (receive_follows send libs (quiet_accept files) hcuts.2).1
  rw [hcuts.1, view_accept] at hfollows
  refine ⟨fun m hm => readBack_parsed (hsend m hm), passed_of_ne_nil junk, ?_⟩
  rcases hfollows with hview | ⟨hfails, hdead, hpre⟩
  · have hdelivered : r.1.delivered = decisions libs junk messages :=
      (delivered_of_view hview).trans hitems
    refine ⟨hdelivered ▸ List.prefix_rfl, fun _ => hdelivered, fun halive => ?_⟩
    obtain ⟨hall, hleft⟩ := hrest ((congrArg Framing.Receiver.live hview).symm.trans halive)
    exact ⟨hall, (congrArg Framing.Receiver.rest hview).trans hleft⟩
  · rw [hitems] at hpre
    have hclosed : r.1.alive ≠ true := by
      rw [show r.1.alive = false from hdead]
      exact Bool.false_ne_true
    exact ⟨hpre, fun h => absurd h (not_or.mpr ⟨hfails, hclosed⟩), fun h => absurd h hclosed⟩

/-- A whole session for disk 0 with one block. -/
def shortSession : List ClientMessage :=
  [.hello 1 0 1 1048576 [70, 85, 76, 76],
    .block 0 0 2 deflatedOneTwo hashOfOneTwo 1,
    .bye 0]

theorem shortSession_recovered :
    (receive (twoDisks fun _ len => some len) (fun _ _ => .again)
        (ofChunks [[0x43] ++ wire shortSession]) (.accept blankFiles)).1.delivered
      = decisions (twoDisks fun _ len => some len) [0x43] shortSession := by
  have hjunk : NoMagic [0x43] (wire shortSession) := by
    intro p hp
    cases Nat.lt_one_iff.mp hp
    decide +kernel
  have hlen : ([0x43] ++ wire shortSession).length ≤ blockSize := by decide +kernel
  have hfit := allFit_of_length_le (fun _ _ => .again) (twoDisks fun _ len => some len)
    (List.forall_mem_singleton.mpr (List.cons_ne_nil 0x43 (wire shortSession)))
    (List.forall_mem_singleton.mpr hlen) (quiet_accept blankFiles)
  have hsend : ∀ m ∈ shortSession, m.Sendable := by
    rw [shortSession]
    simp [ClientMessage.Sendable, deflatedOneTwo, blockSize]
  exact (messages_recovered (twoDisks fun _ len => some len) (fun _ _ => .again) blankFiles hsend
    hjunk ⟨List.append_nil _, hfit⟩).2.2.2.1 (.inl fun _ _ => .inl rfl)

/-- All the messages are recovered, and no byte is left over. -/
def AllRecovered (messages : List ClientMessage) (r : Host × List IoEvent) : Prop :=
  r.1.delivered = messages.map (fun m => .ok (parsed m)) ∧ unconsumed r = []

/-- Nothing behind a `BYE` is recovered. -/
theorem second_bye_lost :
    let messages := [.bye 0, .bye 0]
    (∀ m ∈ messages, m.Sendable) ∧ NoMagic [] (wire messages) ∧
      Cuts noDisks (fun _ _ => .again) (wire messages) (ofChunks [wire messages])
        (.accept noFiles) ∧
      ¬ AllRecovered messages
        (receive noDisks (fun _ _ => .again) (ofChunks [wire messages]) (.accept noFiles)) := by
  intro messages
  have hsend : ∀ m ∈ messages, m.Sendable := by simp [messages, ClientMessage.Sendable]
  have hjunk : NoMagic [] (wire messages) := fun p hp => absurd hp (Nat.not_lt_zero p)
  have hne : wire messages ≠ [] := by decide
  have hfit := allFit_of_length_le (fun _ _ => .again) noDisks
    (List.forall_mem_singleton.mpr hne) (List.forall_mem_singleton.mpr (by decide))
    (quiet_accept noFiles)
  refine ⟨hsend, hjunk, ⟨List.append_nil _, hfit⟩, fun h => ?_⟩
  have hview := (receive_view (fun _ _ => .inl rfl) noDisks (quiet_accept noFiles) hfit).1
  have hstream : (ofChunks [wire messages]).flatMap IoEvent.data = [] ++ wire messages :=
    List.append_nil _
  rw [view_accept, hstream] at hview
  have hitems := (delivered_of_view hview).trans (feed_stream noDisks noFiles hsend hjunk).1
  have hlen := congrArg List.length (hitems.symm.trans h.1)
  exact absurd hlen (by decide)

end Go2Cbt.Link
