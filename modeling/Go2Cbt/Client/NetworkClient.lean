import Go2Cbt.Protocol

/-!
# Client — what is sent, and what is read back

The bytes that `SendHello`, `SendBlock`, `SendBlockNoWait` and `SendBye` of `NetworkClient.cpp`
hand to the socket: a header and the body that its type asks for.  In the other direction the
client reads acknowledgements; `ReceiveAck` and the receiver thread make the same checks.
-/

namespace Go2Cbt.Client

open Go2Cbt.Protocol LittleEndian

/-- `wcsncpy_s` of at most 31 units into the zeroed `VersionType`: the text ends at its first
zero, and a zero follows what is copied. -/
def versionTypeField (versionType : List UInt16) : Vector UInt16 32 :=
  .ofFn fun k => ((versionType.takeWhile (· ≠ 0)).take 31).getD k 0

/-- The header of a message. -/
def header (type : MessageType) (devNo : UInt32) : MsgHeader :=
  { magic := protocolMagic, type := type.code, devNo := devNo, reserved := 0 }

/-- The arguments of the senders. -/
inductive ClientMessage where
  | hello (versionId devNo : UInt32) (totalBlocks totalSize : UInt64) (versionType : List UInt16)
  | block (devNo : UInt32) (blockIndex : UInt64) (rawSize : UInt32) (compressedData : Bytes)
      (hash : Hash) (versionId : UInt32)
  | bye (devNo : UInt32)
  deriving DecidableEq

/-- The `HelloBody` that `SendHello` fills in. -/
def helloBody (versionId devNo : UInt32) (totalBlocks totalSize : UInt64)
    (versionType : List UInt16) : HelloBody :=
  { versionId, devNo, totalBlocks, totalSize, versionType := versionTypeField versionType }

/-- The `BlockHeader` that both block senders fill in. -/
def blockHeader (blockIndex : UInt64) (rawSize : UInt32) (compressedData : Bytes) (hash : Hash)
    (versionId : UInt32) : BlockHeader :=
  { blockIndex
    dataSize := rawSize
    compressedSize := UInt32.ofNat compressedData.length
    hash
    versionId }

/-- `SendHello`. -/
def sendHello (versionId devNo : UInt32) (totalBlocks totalSize : UInt64)
    (versionType : List UInt16) : Bytes :=
  (header .hello devNo).bytes
    ++ (helloBody versionId devNo totalBlocks totalSize versionType).bytes

/-- `SendBlockNoWait`. -/
def sendBlockNoWait (devNo : UInt32) (blockIndex : UInt64) (rawSize : UInt32)
    (compressedData : Bytes) (hash : Hash) (versionId : UInt32) : Bytes :=
  (header .dataBlock devNo).bytes
    ++ ((blockHeader blockIndex rawSize compressedData hash versionId).bytes ++ compressedData)

/-- `SendBlock`, which then waits for the acknowledgement. -/
def sendBlock (devNo : UInt32) (blockIndex : UInt64) (rawSize : UInt32) (compressedData : Bytes)
    (hash : Hash) (versionId : UInt32) : Bytes :=
  sendBlockNoWait devNo blockIndex rawSize compressedData hash versionId

/-- `SendBye`. -/
def sendBye (devNo : UInt32) : Bytes := (header .bye devNo).bytes

namespace ClientMessage

/-- The bytes of a message. -/
def bytes : ClientMessage → Bytes
  | hello versionId devNo totalBlocks totalSize versionType =>
      sendHello versionId devNo totalBlocks totalSize versionType
  | block devNo blockIndex rawSize compressedData hash versionId =>
      sendBlockNoWait devNo blockIndex rawSize compressedData hash versionId
  | bye devNo => sendBye devNo

/-- The payload is at most twice a block. -/
def Sendable : ClientMessage → Prop
  | block _ _ _ compressedData _ _ => compressedData.length ≤ 2 * blockSize
  | _ => True

/-- The header of a message. -/
def msgHeader : ClientMessage → MsgHeader
  | hello _ devNo _ _ _ => header .hello devNo
  | block devNo _ _ _ _ _ => header .dataBlock devNo
  | bye devNo => header .bye devNo

/-- What follows its header. -/
def body : ClientMessage → Bytes
  | hello versionId devNo totalBlocks totalSize versionType =>
      (helloBody versionId devNo totalBlocks totalSize versionType).bytes
  | block _ blockIndex rawSize compressedData hash versionId =>
      (blockHeader blockIndex rawSize compressedData hash versionId).bytes ++ compressedData
  | bye _ => []

theorem bytes_eq (m : ClientMessage) : m.bytes = m.msgHeader.bytes ++ m.body := by
  cases m with
  | hello => rfl
  | block => rfl
  | bye => exact (List.append_nil _).symm

end ClientMessage

/-- What the messages put on the wire, one after the other. -/
def wire (messages : List ClientMessage) : Bytes := messages.flatMap ClientMessage.bytes

/-! ### Acknowledgements -/

/-- What the bytes that have not been read start with: `RecvAll` waits, the header is not one of
an acknowledgement, or the body of one. -/
inductive AckRead where
  | more
  | bad
  | ack (ack : AckBody)
  deriving DecidableEq

/-- Reading an acknowledgement: its header is checked, then its body is read. -/
def readAck (bs : Bytes) : AckRead :=
  if bs.length < headerSize then .more
  else
    let hdr := MsgHeader.ofBytes bs
    if hdr.magic ≠ protocolMagic then .bad
    else if hdr.type ≠ MessageType.ack.code then .bad
    else if bs.length < headerSize + ackBodySize then .more
    else .ack (AckBody.ofBytes (bs.drop headerSize))

/-- The bytes of an acknowledgement.  The client looks at two fields of the header. -/
def IsAckFrame (frame : Bytes) (ack : AckBody) : Prop :=
  ∃ hdr : MsgHeader, hdr.magic = protocolMagic ∧ hdr.type = MessageType.ack.code ∧
    frame = hdr.bytes ++ ack.bytes

theorem IsAckFrame.length_eq {frame : Bytes} {ack : AckBody} (h : IsAckFrame frame ack) :
    frame.length = headerSize + ackBodySize := by
  obtain ⟨hdr, -, -, rfl⟩ := h
  rw [List.length_append, length_msgHeader, length_ackBody]

/-- **An acknowledgement is read back**, whatever follows. -/
theorem readAck_frame {frame : Bytes} {ack : AckBody} (h : IsAckFrame frame ack) (rest : Bytes) :
    readAck (frame ++ rest) = .ack ack := by
  have hlen := h.length_eq
  obtain ⟨hdr, hmagic, htype, rfl⟩ := h
  have hlong : headerSize + ackBodySize ≤ (hdr.bytes ++ ack.bytes ++ rest).length := by
    rw [List.length_append, hlen]
    exact Nat.le_add_right _ _
  have hheader : ¬ (hdr.bytes ++ ack.bytes ++ rest).length < headerSize :=
    not_lt.mpr ((Nat.le_add_right _ _).trans hlong)
  rw [readAck, if_neg hheader, if_neg (not_lt.mpr hlong), List.append_assoc, MsgHeader.ofBytes_append,
    List.drop_left' (length_msgHeader _), AckBody.ofBytes_append]
  dsimp only
  rw [if_neg (not_not.mpr hmagic), if_neg (not_not.mpr htype)]

/-- Bytes that are acknowledgements, one after the other. -/
inductive Frames : Bytes → List AckBody → Prop where
  | nil : Frames [] []
  | cons {frame bs : Bytes} {ack : AckBody} {acks : List AckBody} (h : IsAckFrame frame ack)
      (t : Frames bs acks) : Frames (frame ++ bs) (ack :: acks)

theorem Frames.snoc {bs frame : Bytes} {acks : List AckBody} {ack : AckBody} (h : Frames bs acks)
    (hframe : IsAckFrame frame ack) : Frames (bs ++ frame) (acks ++ [ack]) := by
  induction h with
  | nil =>
      have hlast := Frames.cons hframe .nil
      rw [List.append_nil] at hlast
      exact hlast
  | cons h _ ih =>
      rw [List.append_assoc]
      exact .cons h ih

/-- Nothing else is ever read from them. -/
theorem Frames.read {bs : Bytes} {acks : List AckBody} (h : Frames bs acks) :
    acks = [] ∧ readAck bs = .more ∨
      ∃ ack rest, acks = ack :: rest ∧ readAck bs = .ack ack ∧
        Frames (bs.drop (headerSize + ackBodySize)) rest := by
  cases h with
  | nil => exact .inl ⟨rfl, rfl⟩
  | cons h t =>
      refine .inr ⟨_, _, rfl, readAck_frame h _, ?_⟩
      rw [List.drop_left' h.length_eq]
      exact t

/-- Bytes are acknowledgements in one way only. -/
theorem Frames.unique {bs : Bytes} {acks acks' : List AckBody} (h : Frames bs acks)
    (h' : Frames bs acks') : acks = acks' := by
  induction h generalizing acks' with
  | nil =>
      rcases h'.read with ⟨rfl, -⟩ | ⟨ack, rest, -, hread, -⟩
      · rfl
      · cases hread
  | cons hframe _ ih =>
      rcases h'.read with ⟨-, hread⟩ | ⟨ack, rest, rfl, hread, hrest⟩
      · rw [readAck_frame hframe] at hread
        cases hread
      · rw [readAck_frame hframe] at hread
        rw [List.drop_left' hframe.length_eq] at hrest
        rw [ih hrest, AckRead.ack.inj hread]

end Go2Cbt.Client
