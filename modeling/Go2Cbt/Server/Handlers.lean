import Go2Cbt.Server.BlockProcessor
import Go2Cbt.Server.MessageParser

/-!
# Server — what a message does

The handlers of `Server.cpp`.  Each one updates the connection's session and the files, may
enqueue one acknowledgement and may then close the connection, always in this order, so that a
handler is the function that returns these three.

`react` is the body of the loop of `ProcessMessages` for every decision of the parser, and
`respond` the same on a server seen as one state with the bytes it has answered.
-/

namespace Go2Cbt.Server

open Go2Cbt.Protocol

/-- The fields of `Conn` that the handlers read and write. -/
structure Session where
  devno : UInt32
  helloDone : Bool
  blocksReceived : UInt64
  bytesWritten : UInt64
  errors : UInt64
  deriving DecidableEq, Repr

/-- The session of a connection just accepted. -/
def Session.new : Session :=
  { devno := 0, helloDone := false, blocksReceived := 0, bytesWritten := 0, errors := 0 }

/-- What a handler does. -/
structure Reaction where
  session : Session
  files : Files
  ack : Option AckBody
  closes : Bool

/-- The acknowledgement of a message that carries no block. -/
def plainAck (devNo : UInt32) (status : AckStatus) : AckBody :=
  { blockIndex := 0, status := status.code, devNo := devNo, hash := .zero }

/-- `HandleHello`. -/
def handleHello (libs : Libs) (hdr : MsgHeader) (body : Bytes) (c : Session) (files : Files) :
    Reaction :=
  if c.helloDone then { session := c, files, ack := none, closes := false }
  else if body.length < helloBodySize then
    { session := c, files, ack := some (plainAck hdr.devNo .invalidDev), closes := true }
  else
    let hb := HelloBody.ofBytes body
    match libs.diskMap.get hb.devNo with
    | none => { session := c, files, ack := some (plainAck hb.devNo .invalidDev), closes := true }
    | some bf =>
        if bf.sizeBytes < hb.totalSize then
          { session := c, files, ack := some (plainAck hb.devNo .outOfRange), closes := true }
        else
          { session := { c with devno := hb.devNo, helloDone := true }
            files
            ack := some (plainAck hb.devNo .ok)
            closes := false }

/-- The counters after a block. -/
def Session.count (c : Session) (bh : BlockHeader) (status : AckStatus) : Session :=
  if status = .ok then
    { c with
      blocksReceived := c.blocksReceived + 1
      bytesWritten := c.bytesWritten + bh.dataSize.toUInt64 }
  else { c with blocksReceived := c.blocksReceived + 1, errors := c.errors + 1 }

/-- `HandleDataBlock`.  The device is the one the message names, not the one of the greeting. -/
def handleDataBlock (libs : Libs) (hdr : MsgHeader) (body : Bytes) (c : Session)
    (files : Files) : Reaction :=
  if c.helloDone = false then { session := c, files, ack := none, closes := true }
  else if body.length < blockHeaderSize then
    { session := c, files, ack := none, closes := false }
  else
    let bh := BlockHeader.ofBytes body
    if body.length < (UInt32.ofNat blockHeaderSize + bh.compressedSize).toNat then
      { session := c, files, ack := none, closes := false }
    else
      let compressed := LittleEndian.field body blockHeaderSize bh.compressedSize.toNat
      let done := process libs hdr.devNo bh compressed files
      { session := c.count bh done.1, files := done.2.2, ack := some done.2.1, closes := false }

/-- `HandleBye`. -/
def handleBye (hdr : MsgHeader) (c : Session) (files : Files) : Reaction :=
  { session := c, files, ack := some (plainAck hdr.devNo .ok), closes := true }

/-- The branches of `ProcessMessages`. -/
def react (libs : Libs) (c : Session) (files : Files) : ParseResult → Reaction
  | .ok msg =>
      match MessageType.ofCode msg.header.type with
      | some .hello => handleHello libs msg.header msg.body c files
      | some .dataBlock => handleDataBlock libs msg.header msg.body c files
      | some .bye => handleBye msg.header c files
      | _ => { session := c, files, ack := none, closes := false }
  | .oversizeBlock _ => { session := c, files, ack := none, closes := true }
  | .needMore | .badMagic _ | .invalidType _ =>
      { session := c, files, ack := none, closes := false }

/-- The message of an acknowledgement, as `EnqueueAck` lays it out. -/
def ackMessage (ack : AckBody) : Bytes :=
  MsgHeader.bytes
      { magic := protocolMagic, type := MessageType.ack.code, devNo := ack.devNo, reserved := 0 }
    ++ ack.bytes

/-- What the handlers of one connection see and change, and the bytes they have answered. -/
structure Serving where
  session : Session
  files : Files
  output : Bytes

/-- The bytes a reaction answers. -/
def Reaction.reply (r : Reaction) : Bytes := (r.ack.map ackMessage).getD []

/-- One decision of the parser handled: the state after it, and whether the connection stays. -/
def respond (libs : Libs) (s : Serving) (r : ParseResult) : Serving × Bool :=
  let reaction := react libs s.session s.files r
  ({ session := reaction.session
     files := reaction.files
     output := s.output ++ reaction.reply },
    !reaction.closes)

end Go2Cbt.Server
