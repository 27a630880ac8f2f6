import Go2Cbt.Basic
import Mathlib.Data.List.TakeDrop

/-!
# The wire protocol

`server/Protocol.h`, which `client/NetworkClient.h` repeats: a 16-byte header, then a body that
depends on the type.  Every structure is packed and little-endian.  `bytes` lays a structure out
and `ofBytes` reads one at the start of a byte string.
-/

namespace Go2Cbt.Protocol

open LittleEndian

/-- `PROTOCOL_MAGIC`. -/
def protocolMagic : UInt32 := 0x474F3243

/-- `HEADER_SIZE`. -/
def headerSize : Nat := 16

/-- `BLOCK_HEADER_SIZE`. -/
def blockHeaderSize : Nat := 52

/-- `ACK_BODY_SIZE`. -/
def ackBodySize : Nat := 48

/-- `HELLO_BODY_SIZE`. -/
def helloBodySize : Nat := 88

/-- `MessageType`. -/
inductive MessageType where
  | dataBlock
  | ack
  | hello
  | bye
  | error
  deriving DecidableEq, Repr

def MessageType.code : MessageType → UInt32
  | dataBlock => 1
  | ack => 2
  | hello => 3
  | bye => 4
  | error => 5

/-- The type a code stands for. -/
def MessageType.ofCode (code : UInt32) : Option MessageType :=
  [dataBlock, ack, hello, bye, error].find? fun t => t.code = code

@[simp] theorem MessageType.ofCode_code (t : MessageType) : ofCode t.code = some t := by
  cases t <;> rfl

/-- `AckStatus` of the server. -/
inductive AckStatus where
  | ok
  | hashMismatch
  | decompressError
  | writeError
  | invalidDev
  | outOfRange
  deriving DecidableEq, Repr

def AckStatus.code : AckStatus → UInt32
  | ok => 0
  | hashMismatch => 1
  | decompressError => 2
  | writeError => 3
  | invalidDev => 4
  | outOfRange => 5

theorem AckStatus.code_eq_zero_iff (st : AckStatus) : st.code = 0 ↔ st = ok := by
  cases st <;> decide

/-- `MsgHeader`. -/
structure MsgHeader where
  magic : UInt32
  type : UInt32
  devNo : UInt32
  reserved : UInt32
  deriving DecidableEq, Repr

/-- `BlockHeader`. -/
structure BlockHeader where
  blockIndex : UInt64
  dataSize : UInt32
  compressedSize : UInt32
  hash : Hash
  versionId : UInt32
  deriving DecidableEq

/-- `AckBody`. -/
structure AckBody where
  blockIndex : UInt64
  status : UInt32
  devNo : UInt32
  hash : Hash
  deriving DecidableEq

/-- `HelloBody`, with the 32 units of its text. -/
structure HelloBody where
  versionId : UInt32
  devNo : UInt32
  totalBlocks : UInt64
  totalSize : UInt64
  versionType : Vector UInt16 32
  deriving DecidableEq

/-! ### Layouts -/

/-- The 32-byte field at `off`. -/
def hashField (bs : Bytes) (off : Nat) : Hash := ⟨(bs.drop off).takeD 32 0, List.takeD_length ..⟩

def MsgHeader.bytes (h : MsgHeader) : Bytes :=
  ofU32 h.magic ++ ofU32 h.type ++ ofU32 h.devNo ++ ofU32 h.reserved

def MsgHeader.ofBytes (bs : Bytes) : MsgHeader :=
  { magic := u32 bs 0
    type := u32 bs 4
    devNo := u32 bs 8
    reserved := u32 bs 12 }

def BlockHeader.bytes (h : BlockHeader) : Bytes :=
  ofU64 h.blockIndex ++ ofU32 h.dataSize ++ ofU32 h.compressedSize ++ h.hash.bytes
    ++ ofU32 h.versionId

def BlockHeader.ofBytes (bs : Bytes) : BlockHeader :=
  { blockIndex := u64 bs 0
    dataSize := u32 bs 8
    compressedSize := u32 bs 12
    hash := hashField bs 16
    versionId := u32 bs 48 }

def AckBody.bytes (b : AckBody) : Bytes :=
  ofU64 b.blockIndex ++ ofU32 b.status ++ ofU32 b.devNo ++ b.hash.bytes

def AckBody.ofBytes (bs : Bytes) : AckBody :=
  { blockIndex := u64 bs 0
    status := u32 bs 8
    devNo := u32 bs 12
    hash := hashField bs 16 }

def HelloBody.bytes (b : HelloBody) : Bytes :=
  ofU32 b.versionId ++ ofU32 b.devNo ++ ofU64 b.totalBlocks ++ ofU64 b.totalSize
    ++ ofUnits b.versionType

def HelloBody.ofBytes (bs : Bytes) : HelloBody :=
  { versionId := u32 bs 0
    devNo := u32 bs 4
    totalBlocks := u64 bs 8
    totalSize := u64 bs 16
    versionType := units 32 bs 24 }

/-! ### Sizes -/

@[simp] theorem length_msgHeader (h : MsgHeader) : h.bytes.length = headerSize := by
  simp [MsgHeader.bytes, headerSize]

@[simp] theorem length_blockHeader (h : BlockHeader) : h.bytes.length = blockHeaderSize := by
  simp [BlockHeader.bytes, blockHeaderSize, h.hash.length_eq]

@[simp] theorem length_ackBody (b : AckBody) : b.bytes.length = ackBodySize := by
  simp [AckBody.bytes, ackBodySize, b.hash.length_eq]

@[simp] theorem length_helloBody (b : HelloBody) : b.bytes.length = helloBodySize := by
  simp [HelloBody.bytes, helloBodySize]

/-! ### Reading back what was laid out -/

theorem hashField_head (h : Hash) (rest : Bytes) : hashField (h.bytes ++ rest) 0 = h := by
  obtain ⟨bs, hbs⟩ := h
  simp only [hashField, List.drop_zero, List.takeD_left' hbs]

theorem hashField_skip {a b : Bytes} {off : Nat} (h : a.length ≤ off) :
    hashField (a ++ b) off = hashField b (off - a.length) := by
  simp only [hashField, List.drop_append, List.drop_eq_nil_of_le h, List.nil_append]

@[simp] theorem MsgHeader.ofBytes_append (h : MsgHeader) (rest : Bytes) :
    MsgHeader.ofBytes (h.bytes ++ rest) = h := by
  simp [MsgHeader.ofBytes, MsgHeader.bytes, u32_head, u32_skip]

@[simp] theorem BlockHeader.ofBytes_append (h : BlockHeader) (rest : Bytes) :
    BlockHeader.ofBytes (h.bytes ++ rest) = h := by
  simp [BlockHeader.ofBytes, BlockHeader.bytes, u32_head, u32_skip, u64_head, h.hash.length_eq,
    hashField_head, hashField_skip]

@[simp] theorem AckBody.ofBytes_append (b : AckBody) (rest : Bytes) :
    AckBody.ofBytes (b.bytes ++ rest) = b := by
  simp [AckBody.ofBytes, AckBody.bytes, u32_head, u32_skip, u64_head, hashField_head,
    hashField_skip]

@[simp] theorem HelloBody.ofBytes_append (b : HelloBody) (rest : Bytes) :
    HelloBody.ofBytes (b.bytes ++ rest) = b := by
  simp [HelloBody.ofBytes, HelloBody.bytes, u32_head, u32_skip, u64_head, u64_skip, units_head,
    units_skip]

end Go2Cbt.Protocol
