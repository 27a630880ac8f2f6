import Go2Cbt.Link.Recovery
import Go2Cbt.Server.Answers

/-!
# Link — the server behind two channels

To the client the server takes the messages that were sent from one channel and puts its answers
in the other, one message at a time and in order (`serves`).  The connection does just that with
the bytes of the messages, however they are cut (`receive_peer`).
-/

namespace Go2Cbt.Link

open Go2Cbt.Protocol Go2Cbt.Client Go2Cbt.Server MessageParser LittleEndian

/-- What a connection serves with, and whether it is still there. -/
structure Peer where
  serving : Serving
  live : Bool

namespace Peer

/-- A connection just accepted. -/
def accept (files : Files) : Peer := { serving := .start files, live := true }

/-- The bytes that answer a message. -/
def answer (libs : Libs) (p : Peer) (m : ClientMessage) : Bytes :=
  (react libs p.serving.session p.serving.files (.ok (parsed m))).reply

/-- A message handled. -/
def handle (libs : Libs) (p : Peer) (m : ClientMessage) : Peer :=
  let handled := respond libs p.serving (.ok (parsed m))
  { serving := handled.1, live := handled.2 }

/-- Messages handled one after the other, as long as the connection is there. -/
def handleAll (libs : Libs) (p : Peer) (messages : List ClientMessage) : Peer :=
  messages.foldl (fun p m => if p.live then p.handle libs m else p) p

/-- The connection takes blocks. -/
def Greeted (p : Peer) : Prop := p.live = true ∧ p.serving.session.helloDone = true

end Peer

/-- **What the server does between the channels**: it handles the first message. -/
def serves (libs : Libs) (p : Peer) (queue : List ClientMessage) (reply : Bytes) (p' : Peer)
    (queue' : List ClientMessage) : Prop :=
  p.live = true ∧ ∃ m, queue = m :: queue' ∧ reply = p.answer libs m ∧ p' = p.handle libs m

/-! ### What it does with bytes -/

theorem handleAll_of_closed (libs : Libs) {p : Peer} (hp : p.live = false)
    (messages : List ClientMessage) : p.handleAll libs messages = p := by
  induction messages with
  | nil => rfl
  | cons m ms ih =>
      rw [Peer.handleAll, List.foldl_cons, if_neg (by rw [hp]; exact Bool.false_ne_true)]
      exact ih

/-- **Draining the bytes of messages handles the messages.** -/
theorem drain_peer (libs : Libs) {messages : List ClientMessage}
    (hsend : ∀ m ∈ messages, m.Sendable) (st : Serving) (items : List ParseResult) :
    let r := Framing.drain frames (respond libs)
      { state := st, rest := wire messages, live := true, items }
    ({ serving := r.state, live := r.live } : Peer)
      = ({ serving := st, live := true } : Peer).handleAll libs messages := by
  induction messages generalizing st items with
  | nil =>
      have hsettled : Framing.Settled frames
          ({ state := st, rest := wire [], live := true, items } :
            Framing.Receiver Serving ParseResult) := .inr rfl
      rw [Framing.drain_of_settled hsettled]
      rfl
  | cons m ms ih =>
      have hm := hsend m List.mem_cons_self
      have hwire : wire (m :: ms) = m.bytes ++ wire ms := List.flatMap_cons
      rw [hwire, Framing.drain_of_next rfl (frames_next_bytes hm _), Framing.Receiver.take,
        Peer.handleAll, List.foldl_cons, if_pos rfl, Peer.handle]
      dsimp only
      rw [List.drop_left]
      cases (respond libs st (.ok (parsed m))).2 with
      | true =>
          rw [if_pos rfl]
          exact ih (fun m' hm' => hsend m' (List.mem_cons_of_mem m hm')) _ _
      | false =>
          rw [if_neg Bool.false_ne_true, Framing.drain_of_settled (.inl rfl)]
          exact (handleAll_of_closed libs rfl ms).symm

/-- **A connection handles the messages whose bytes it receives**, whatever the cuts, as long as
the socket does not fail. -/
theorem receive_peer (libs : Libs) {send : SendSide} (hopen : KeepsOpen send) (files : Files)
    {messages : List ClientMessage} (hsend : ∀ m ∈ messages, m.Sendable) {events : List IoEvent}
    (hcuts : Cuts libs send (wire messages) events (.accept files)) :
    let s := (receive libs send events (.accept files)).1
    ({ serving := s.view.state, live := s.alive } : Peer)
      = (Peer.accept files).handleAll libs messages := by
  intro s
  have hview := (receive_view hopen libs (quiet_accept files) hcuts.2).1
  rw [hcuts.1, view_accept] at hview
  have hdrained := drain_peer libs hsend (.start files) []
  calc ({ serving := s.view.state, live := s.alive } : Peer)
      = (fun r : Framing.Receiver Serving ParseResult =>
          ({ serving := r.state, live := r.live } : Peer)) _ :=
        congrArg (fun r => ({ serving := r.state, live := r.live } : Peer)) hview
    _ = (Peer.accept files).handleAll libs messages := hdrained

/-! ### What a message does -/

theorem ackMessage_injective : Function.Injective ackMessage := by
  intro ack ack' h
  have hread : ∀ ack : AckBody, readAck (ackMessage ack) = .ack ack := fun ack => by
    rw [← List.append_nil (ackMessage ack)]
    exact readAck_frame ⟨_, rfl, rfl, rfl⟩ []
  have hboth := hread ack
  rw [h, hread ack'] at hboth
  exact (AckRead.ack.inj hboth).symm

/-- The block a `DATA_BLOCK` carries. -/
def requestOf (devNo : UInt32) (blockIndex : UInt64) (rawSize : UInt32) (compressedData : Bytes)
    (hash : Hash) (versionId : UInt32) : BlockRequest :=
  { devno := devNo
    header := blockHeader blockIndex rawSize compressedData hash versionId
    payload := compressedData }

section Messages

variable (libs : Libs) {p : Peer}

/-- A greeting for a device with a file that is large enough is accepted. -/
theorem greeted_of_hello (files : Files) {devNo : UInt32} {totalSize : UInt64} {bf : BackingFile}
    (hdevice : libs.diskMap.get devNo = some bf) (hsize : totalSize ≤ bf.sizeBytes)
    (versionId : UInt32) (totalBlocks : UInt64) (versionType : List UInt16) :
    let m := ClientMessage.hello versionId devNo totalBlocks totalSize versionType
    ((Peer.accept files).handle libs m).Greeted ∧
      ((Peer.accept files).handle libs m).serving.files = files ∧
      ∃ ack, (Peer.accept files).answer libs m = ackMessage ack ∧ ack.status = 0 := by
  intro m
  have hm : m.Sendable := trivial
  have hbody : HelloBody.ofBytes (parsed m).body
      = helloBody versionId devNo totalBlocks totalSize versionType := (readBack_parsed hm).2.2
  have hgreets : greets libs (parsed m) = true := by
    rw [greets, hbody]
    dsimp only [helloBody]
    rw [hdevice]
    exact decide_eq_true hsize
  have htype : MessageType.ofCode (parsed m).header.type = some .hello := rfl
  have hreact : react libs .new files (.ok (parsed m))
      = handleHello libs (parsed m).header (parsed m).body .new files := by
    rw [react, htype]
  rw [handleHello_accepts libs (parsed_parsed hm) files htype rfl hgreets] at hreact
  have hnew : (Peer.accept files).serving.session = .new := rfl
  have hfiles : (Peer.accept files).serving.files = files := rfl
  rw [Peer.Greeted, Peer.handle, Peer.answer, respond, hnew, hfiles, hreact]
  exact ⟨⟨rfl, rfl⟩, rfl, _, rfl, rfl⟩

/-- A greeting for a device with a file that is too small is refused. -/
theorem refused_of_hello (files : Files) {devNo : UInt32} {totalSize : UInt64} {bf : BackingFile}
    (hdevice : libs.diskMap.get devNo = some bf) (hsize : ¬ totalSize ≤ bf.sizeBytes)
    (versionId : UInt32) (totalBlocks : UInt64) (versionType : List UInt16) :
    let m := ClientMessage.hello versionId devNo totalBlocks totalSize versionType
    ((Peer.accept files).handle libs m).serving.files = files ∧
      ∃ ack, (Peer.accept files).answer libs m = ackMessage ack ∧ ack.status ≠ 0 := by
  intro m
  have hm : m.Sendable := trivial
  have hbody : HelloBody.ofBytes (parsed m).body
      = helloBody versionId devNo totalBlocks totalSize versionType := (readBack_parsed hm).2.2
  have hgreets : greets libs (parsed m) = false := by
    rw [greets, hbody]
    dsimp only [helloBody]
    rw [hdevice]
    exact decide_eq_false hsize
  have htype : MessageType.ofCode (parsed m).header.type = some .hello := rfl
  have hreact : react libs .new files (.ok (parsed m))
      = handleHello libs (parsed m).header (parsed m).body .new files := by
    rw [react, htype]
  obtain ⟨status, hne, hrejects⟩ :=
    handleHello_rejects libs (parsed_parsed hm) (c := .new) files htype rfl hgreets
  rw [hrejects] at hreact
  have hnew : (Peer.accept files).serving.session = .new := rfl
  have hfiles : (Peer.accept files).serving.files = files := rfl
  rw [Peer.handle, Peer.answer, respond, hnew, hfiles, hreact]
  exact ⟨rfl, _, rfl, fun hzero => hne ((AckStatus.code_eq_zero_iff status).mp hzero)⟩

/-- A greeting that is answered with status 0 is accepted. -/
theorem greeted_of_answer (files : Files) {versionId devNo : UInt32}
    {totalBlocks totalSize : UInt64} {versionType : List UInt16} {ack : AckBody}
    (hanswer : (Peer.accept files).answer libs
      (.hello versionId devNo totalBlocks totalSize versionType) = ackMessage ack)
    (hstatus : ack.status = 0) :
    ((Peer.accept files).handle libs
      (.hello versionId devNo totalBlocks totalSize versionType)).Greeted := by
  have hparsed := parsed_parsed
    (m := .hello versionId devNo totalBlocks totalSize versionType) trivial
  have htype : MessageType.ofCode
      (parsed (.hello versionId devNo totalBlocks totalSize versionType)).header.type
        = some .hello := rfl
  generalize ClientMessage.hello versionId devNo totalBlocks totalSize versionType = m at *
  have hreact : react libs .new files (.ok (parsed m))
      = handleHello libs (parsed m).header (parsed m).body .new files := by
    rw [react, htype]
  have hnew : (Peer.accept files).serving.session = .new := rfl
  have hfiles : (Peer.accept files).serving.files = files := rfl
  cases hgreets : greets libs (parsed m) with
  | true =>
      rw [handleHello_accepts libs hparsed files htype rfl hgreets] at hreact
      rw [Peer.Greeted, Peer.handle, respond, hnew, hfiles, hreact]
      exact ⟨rfl, rfl⟩
  | false =>
      obtain ⟨status, hne, hrejects⟩ :=
        handleHello_rejects libs hparsed (c := .new) files htype rfl hgreets
      rw [Peer.answer, hnew, hfiles, hreact, hrejects] at hanswer
      have hack := ackMessage_injective hanswer
      rw [← hack] at hstatus
      exact absurd ((AckStatus.code_eq_zero_iff status).mp hstatus) hne

/-- **A block goes to `Process`**, and its acknowledgement back. -/
theorem handle_block (hp : p.Greeted) (devNo : UInt32) (blockIndex : UInt64) (rawSize : UInt32)
    {compressedData : Bytes} (hlen : compressedData.length ≤ 2 * blockSize) (hash : Hash)
    (versionId : UInt32) :
    let m := ClientMessage.block devNo blockIndex rawSize compressedData hash versionId
    let done := processRequest libs
      (requestOf devNo blockIndex rawSize compressedData hash versionId) p.serving.files
    (p.handle libs m).Greeted ∧ (p.handle libs m).serving.files = done.2.2 ∧
      p.answer libs m = ackMessage done.2.1 := by
  intro m done
  have hm : m.Sendable := hlen
  obtain ⟨-, hheader, hpayload, hsize⟩ := readBack_parsed hm
  have hrequest : BlockRequest.ofMessage (parsed m)
      = requestOf devNo blockIndex rawSize compressedData hash versionId := by
    rw [BlockRequest.ofMessage, hsize, field, hpayload, List.take_length, hheader]
    rfl
  have htype : MessageType.ofCode (parsed m).header.type = some .dataBlock := rfl
  have hreact : react libs p.serving.session p.serving.files (.ok (parsed m))
      = handleDataBlock libs (parsed m).header (parsed m).body p.serving.session
          p.serving.files := by
    rw [react, htype]
  rw [Peer.Greeted, Peer.handle, Peer.answer, respond, hreact,
    handleDataBlock_greeted libs (parsed_parsed hm) p.serving.files htype hp.2, hrequest]
  refine ⟨⟨rfl, ?_⟩, rfl, rfl⟩
  dsimp only
  rw [Session.count]
  split
  · exact hp.2
  · exact hp.2

/-- **A block that passes every check and is written whole** is written at the address of its
number, and the answer says so. -/
theorem handle_accepted (hp : p.Greeted) {devNo : UInt32} {blockIndex : UInt64} {rawSize : UInt32}
    {compressedData : Bytes} (hlen : compressedData.length ≤ 2 * blockSize) {hash : Hash}
    {versionId : UInt32} {bf : BackingFile} {raw : Bytes}
    (haccepts : Accepts libs (requestOf devNo blockIndex rawSize compressedData hash versionId)
      bf raw)
    (hwhole : ∀ call, libs.pwrite call raw.length = some raw.length)
    (hi : blockIndex.toNat < 2 ^ 43) :
    let m := ClientMessage.block devNo blockIndex rawSize compressedData hash versionId
    (p.handle libs m).Greeted ∧
      (p.handle libs m).serving.files.image (libs.fileOf bf.fd)
        = (p.serving.files.image (libs.fileOf bf.fd)).write (blockIndex.toNat * blockSize) raw ∧
      ∃ ack, p.answer libs m = ackMessage ack ∧ ack.blockIndex = blockIndex ∧ ack.status = 0 := by
  intro m
  have hblock : (requestOf devNo blockIndex rawSize compressedData hash versionId).header.blockIndex
      = blockIndex := rfl
  obtain ⟨hgreeted, hfiles, hanswer⟩ :=
    handle_block libs hp devNo blockIndex rawSize hlen hash versionId
  generalize requestOf devNo blockIndex rawSize compressedData hash versionId = r at *
  have hwrote : r.wrote libs raw p.serving.files = some raw.length := by
    have hoffset := offset_toNat (r := r) (by rw [hblock]; omega)
    rw [BlockRequest.address, hblock, blockSize_eq] at hoffset
    rw [BlockRequest.wrote, if_neg (by omega), hwhole]
  have hwritten := writtenExactly_of_write haccepts hwrote le_rfl (by rw [hblock]; omega)
  have hstatus := (process_of_write haccepts hwrote).1
  refine ⟨hgreeted, ?_, r.ack .ok, ?_, hblock, rfl⟩
  · rw [show (p.handle libs m).serving.files = _ from hfiles, hwritten.image,
      Function.update_self, BlockRequest.address, hblock]
  · rw [show p.answer libs m = _ from hanswer, processRequest_ack, hstatus, if_pos le_rfl]

end Messages

end Go2Cbt.Link
