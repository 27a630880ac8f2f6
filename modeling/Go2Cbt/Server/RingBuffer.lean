import Go2Cbt.Lib.LittleEndian
import Mathlib.Data.List.Basic

/-!
# Server — the connection buffers

`RingBuffer`, a linear buffer: the readable bytes lie between the two positions, bytes are
appended at the write position, and `Compact` moves what is left to the front.  Every operation
is characterised by what it does to the readable bytes.
-/

namespace Go2Cbt.Server

/-- `RingBuffer`. -/
structure RingBuffer where
  buf : Bytes
  readPos : Nat
  writePos : Nat
  read_le : readPos ≤ writePos
  write_le : writePos ≤ buf.length

/-- What one call of `recv` reports. -/
inductive RecvOutcome where
  | received (data : Bytes)
  | peerClosed
  | again
  | failed
  deriving DecidableEq

/-- What `WriteFromFd` reports: the outcome of `recv`, or that the buffer was full. -/
inductive WriteFromFd where
  | recv (outcome : RecvOutcome)
  | noBufferSpace
  deriving DecidableEq

namespace RingBuffer

/-- The constructor. -/
def new (capacity : Nat) : RingBuffer :=
  { buf := List.replicate capacity 0
    readPos := 0
    writePos := 0
    read_le := Nat.le_refl 0
    write_le := Nat.zero_le _ }

/-- `Reset`. -/
def reset (rb : RingBuffer) : RingBuffer :=
  { rb with
    readPos := 0
    writePos := 0
    read_le := Nat.le_refl 0
    write_le := Nat.zero_le _ }

/-- `ReadableBytes`. -/
def readableBytes (rb : RingBuffer) : Nat := rb.writePos - rb.readPos

/-- `WritableBytes`. -/
def writableBytes (rb : RingBuffer) : Nat := rb.buf.length - rb.writePos

/-- The bytes from `ReadPtr` on that can be read. -/
def readable (rb : RingBuffer) : Bytes := LittleEndian.field rb.buf rb.readPos rb.readableBytes

@[simp] theorem length_readable (rb : RingBuffer) : rb.readable.length = rb.readableBytes := by
  have := rb.write_le
  rw [readable, LittleEndian.length_field, readableBytes]
  omega

/-- `Consume`. -/
def consume (rb : RingBuffer) (bytes : Nat) : RingBuffer :=
  { rb with
    readPos := rb.readPos + min bytes rb.readableBytes
    read_le := by
      have := rb.read_le
      rw [readableBytes]
      omega }

/-- `Compact`. -/
def compact (rb : RingBuffer) : RingBuffer :=
  if rb.readPos = 0 then rb
  else
    { buf := rb.readable ++ rb.buf.drop rb.readableBytes
      readPos := 0
      writePos := rb.readableBytes
      read_le := Nat.zero_le _
      write_le := by rw [List.length_append, length_readable]; exact Nat.le_add_right _ _ }

/-- `WriteFrom`: the buffer grows when the data does not fit. -/
def writeFrom (rb : RingBuffer) (data : Bytes) : RingBuffer :=
  { rb with
    buf := rb.buf.take rb.writePos ++ data ++ rb.buf.drop (rb.writePos + data.length)
    writePos := rb.writePos + data.length
    read_le := rb.read_le.trans (Nat.le_add_right _ _)
    write_le := by
      have := rb.write_le
      simp only [List.length_append, List.length_take]
      omega }

/-- The buffer as `WriteFromFd` offers it to `recv`. -/
def makeRoom (rb : RingBuffer) : RingBuffer :=
  if rb.writePos = rb.buf.length then rb.compact else rb

/-- `WriteFromFd`.  `recv` hands over no more than the room it is given. -/
def writeFromFd (rb : RingBuffer) (outcome : RecvOutcome) : WriteFromFd × RingBuffer :=
  let roomy := rb.makeRoom
  if roomy.writePos = roomy.buf.length then (.noBufferSpace, roomy)
  else
    match outcome with
    | .received data =>
        (.recv (.received (data.take roomy.writableBytes)),
          roomy.writeFrom (data.take roomy.writableBytes))
    | other => (.recv other, roomy)

/-! ### The readable bytes -/

@[simp] theorem readableBytes_new (capacity : Nat) : (new capacity).readableBytes = 0 := rfl

@[simp] theorem readable_new (capacity : Nat) : (new capacity).readable = [] :=
  List.eq_nil_of_length_eq_zero (length_readable _)

@[simp] theorem buf_consume (rb : RingBuffer) (bytes : Nat) : (rb.consume bytes).buf = rb.buf :=
  rfl

theorem readPos_consume (rb : RingBuffer) (bytes : Nat) :
    (rb.consume bytes).readPos = rb.readPos + min bytes rb.readableBytes := rfl

theorem readableBytes_consume (rb : RingBuffer) (bytes : Nat) :
    (rb.consume bytes).readableBytes = rb.readableBytes - bytes := by
  have hwrite : (rb.consume bytes).writePos = rb.writePos := rfl
  rw [readableBytes, readPos_consume, hwrite, readableBytes]
  omega

/-- Consuming drops bytes from the front. -/
theorem readable_consume (rb : RingBuffer) (bytes : Nat) :
    (rb.consume bytes).readable = rb.readable.drop bytes := by
  rw [readable, readable, readableBytes_consume, readPos_consume, buf_consume,
    LittleEndian.field, LittleEndian.field, List.drop_take, List.drop_drop]
  rcases Nat.le_total bytes rb.readableBytes with h | h
  · rw [Nat.min_eq_left h]
  · rw [Nat.sub_eq_zero_of_le h, List.take_zero, List.take_zero]

/-- Compacting keeps them. -/
@[simp] theorem readable_compact (rb : RingBuffer) : rb.compact.readable = rb.readable := by
  rw [compact]
  split
  · rfl
  · exact LittleEndian.field_head (length_readable rb)

theorem readPos_compact (rb : RingBuffer) : rb.compact.readPos = 0 := by
  rw [compact]
  split
  · assumption
  · rfl

theorem length_buf_compact (rb : RingBuffer) : rb.compact.buf.length = rb.buf.length := by
  have := rb.write_le
  rw [compact]
  split
  · rfl
  · rw [List.length_append, length_readable, List.length_drop, readableBytes]
    omega

/-- Appended bytes follow those already there. -/
theorem readable_writeFrom (rb : RingBuffer) (data : Bytes) :
    (rb.writeFrom data).readable = rb.readable ++ data := by
  have hread := rb.read_le
  have hwrite := rb.write_le
  have hcount : (rb.writeFrom data).readableBytes = rb.readableBytes + data.length := by
    have hpos : (rb.writeFrom data).writePos - (rb.writeFrom data).readPos
        = rb.writePos + data.length - rb.readPos := rfl
    rw [readableBytes, hpos, readableBytes]
    omega
  have hlen : (rb.readable ++ data).length = rb.readableBytes + data.length := by
    rw [List.length_append, length_readable]
  have hfront : (rb.buf.take rb.writePos).drop rb.readPos = rb.readable := by
    rw [readable, LittleEndian.field, List.drop_take, readableBytes]
  have hdrop : (rb.buf.take rb.writePos ++ data).drop rb.readPos = rb.readable ++ data := by
    rw [List.drop_append_of_le_length (by rw [List.length_take]; omega), hfront]
  rw [readable, hcount, LittleEndian.field, writeFrom]
  dsimp only
  rw [List.drop_append_of_le_length (by rw [List.length_append, List.length_take]; omega), hdrop,
    List.take_append_of_le_length hlen.ge, ← hlen, List.take_length]

theorem readableBytes_writeFrom (rb : RingBuffer) (data : Bytes) :
    (rb.writeFrom data).readableBytes = rb.readableBytes + data.length := by
  rw [← length_readable, readable_writeFrom, List.length_append, length_readable]

/-- The buffer keeps its size while the data fits. -/
theorem length_buf_writeFrom {rb : RingBuffer} {data : Bytes}
    (h : data.length ≤ rb.writableBytes) : (rb.writeFrom data).buf.length = rb.buf.length := by
  have := rb.write_le
  rw [writableBytes] at h
  rw [writeFrom]
  simp only [List.length_append, List.length_take, List.length_drop]
  omega

@[simp] theorem readPos_writeFrom (rb : RingBuffer) (data : Bytes) :
    (rb.writeFrom data).readPos = rb.readPos := rfl

/-- With the readable bytes at the front, the room is what they leave. -/
theorem writableBytes_of_readPos {rb : RingBuffer} (h : rb.readPos = 0) :
    rb.writableBytes = rb.buf.length - rb.readableBytes := by
  rw [writableBytes, readableBytes, h, Nat.sub_zero]

theorem makeRoom_of_readPos {rb : RingBuffer} (h : rb.readPos = 0) : rb.makeRoom = rb := by
  rw [makeRoom, compact, if_pos h, ite_self]

section Room

variable {rb : RingBuffer} (hpos : rb.readPos = 0) (hroom : 0 < rb.writableBytes)

include hpos hroom

theorem writeFromFd_of_room (outcome : RecvOutcome) :
    rb.writeFromFd outcome =
      match outcome with
      | .received data =>
          (.recv (.received (data.take rb.writableBytes)),
            rb.writeFrom (data.take rb.writableBytes))
      | other => (.recv other, rb) := by
  have hnotfull : ¬ rb.writePos = rb.buf.length := by
    rw [writableBytes] at hroom
    omega
  cases outcome <;> simp only [writeFromFd, makeRoom_of_readPos hpos, if_neg hnotfull]

/-- With room, the buffer is not found full. -/
theorem writeFromFd_ne_noBufferSpace (outcome : RecvOutcome) :
    (rb.writeFromFd outcome).1 ≠ .noBufferSpace := by
  rw [writeFromFd_of_room hpos hroom]
  cases outcome <;> exact WriteFromFd.noConfusion

/-- A chunk that fits is appended whole. -/
theorem writeFromFd_received {data : Bytes} (hfits : data.length ≤ rb.writableBytes) :
    rb.writeFromFd (.received data) = (.recv (.received data), rb.writeFrom data) := by
  rw [writeFromFd_of_room hpos hroom]
  dsimp only
  rw [List.take_of_length_le hfits]

end Room

end RingBuffer

end Go2Cbt.Server
