import Go2Cbt.Lib.Fifo
import Go2Cbt.Server.RingBuffer

/-!
# Server — the connection buffers as queues

`RingBuffer` under any row of its operations, beside the queue of the bytes that were put into it.
The buffer grows, slides what is left to its front and moves two positions; what it lets be read
is what the queue holds (`run_refines`).
-/

namespace Go2Cbt.Server

open LittleEndian

/-- A call on a `RingBuffer`. -/
inductive Operation where
  | writeFrom (data : Bytes)
  | append (data : Bytes)
  | writeFromFd (outcome : RecvOutcome)
  | consume (bytes : Nat)
  | compact
  | reset

namespace RingBuffer

/-- `Append`. -/
def append (rb : RingBuffer) (data : Bytes) : RingBuffer := rb.writeFrom data

@[simp] theorem readable_reset (rb : RingBuffer) : rb.reset.readable = [] :=
  List.eq_nil_of_length_eq_zero (length_readable _)

/-! ### The move of `Compact` -/

/-- `std::move` of `count` bytes from `first` on to `dest`, the lowest byte first. -/
def moveBytes : (count : Nat) → (buf : Bytes) → (first dest : Nat) → Bytes
  | 0, buf, _, _ => buf
  | count + 1, buf, first, dest =>
      moveBytes count (buf.set dest (buf.getD first 0)) (first + 1) (dest + 1)

/-- Moving down: a byte that is overwritten has been moved already, so the ranges may overlap. -/
theorem moveBytes_eq (count : Nat) {buf : Bytes} {first dest : Nat} (hdown : dest ≤ first)
    (hend : first + count ≤ buf.length) :
    moveBytes count buf first dest
      = buf.take dest ++ field buf first count ++ buf.drop (dest + count) := by
  induction count generalizing buf first dest with
  | zero => simp [moveBytes, field]
  | succ count ih =>
      have hfirst : first < buf.length := by omega
      have hset : (buf.set dest (buf.getD first 0)).length = buf.length := List.length_set
      rw [moveBytes, ih (by omega) (by omega)]
      -- the byte that was set is the last one in front of the rest of the move
      have htake : (buf.set dest (buf.getD first 0)).take (dest + 1)
          = buf.take dest ++ [buf.getD first 0] := by
        rw [List.take_succ_eq_append_getElem (by omega), List.take_set_of_le (Nat.le_refl dest),
          List.getElem_set_self]
      have hrest : field (buf.set dest (buf.getD first 0)) (first + 1) count
          = field buf (first + 1) count := by
        rw [field, field, List.drop_set_of_lt (by omega)]
      have hhead : field buf first (count + 1)
          = buf.getD first 0 :: field buf (first + 1) count := by
        rw [field, List.drop_eq_getElem_cons hfirst, List.take_succ_cons, field,
          List.getD_eq_getElem _ _ hfirst]
      rw [htake, hrest, hhead, List.drop_set_of_lt (by omega),
        show dest + 1 + count = dest + (count + 1) by omega]
      simp

/-- **`Compact` moves the readable bytes to the front**, one after the other. -/
theorem buf_compact (rb : RingBuffer) :
    rb.compact.buf = moveBytes rb.readableBytes rb.buf rb.readPos 0 := by
  have hread := rb.read_le
  have hwrite := rb.write_le
  rw [moveBytes_eq _ (Nat.zero_le _) (by rw [readableBytes]; omega), compact]
  split
  · next hzero =>
      -- nothing is moved, and nothing would change
      rw [hzero, field, List.drop_zero, Nat.zero_add, List.take_zero, List.nil_append,
        List.take_append_drop]
  · rw [List.take_zero, List.nil_append, Nat.zero_add]
    rfl

/-! ### What `recv` is given -/

/-- The arguments of `recv`: where it writes, and how many bytes at most. -/
def offered (rb : RingBuffer) : Nat × Nat := (rb.makeRoom.writePos, rb.makeRoom.writableBytes)

/-- The bytes that a call of `WriteFromFd` receives. -/
def received (rb : RingBuffer) (outcome : RecvOutcome) : Bytes :=
  match (rb.writeFromFd outcome).1 with
  | .recv (.received data) => data
  | _ => []

theorem length_buf_makeRoom (rb : RingBuffer) : rb.makeRoom.buf.length = rb.buf.length := by
  rw [makeRoom]
  split
  · exact length_buf_compact rb
  · rfl

/-- What `recv` may fill ends where the buffer ends. -/
theorem offered_end (rb : RingBuffer) : rb.offered.1 + rb.offered.2 = rb.buf.length := by
  have hwrite := rb.makeRoom.write_le
  rw [← length_buf_makeRoom, offered, writableBytes]
  omega

@[simp] theorem readable_makeRoom (rb : RingBuffer) : rb.makeRoom.readable = rb.readable := by
  rw [makeRoom]
  split
  · exact readable_compact rb
  · rfl

theorem writeFromFd_spec (rb : RingBuffer) (outcome : RecvOutcome) :
    (rb.writeFromFd outcome).2.readable = rb.readable ++ rb.received outcome ∧
      (rb.received outcome).length ≤ rb.offered.2 := by
  unfold received writeFromFd
  by_cases hfull : rb.makeRoom.writePos = rb.makeRoom.buf.length
  · -- `recv` is not called
    simp [hfull]
  · cases outcome with
    | received data =>
        simp only [hfull, if_false, readable_writeFrom, readable_makeRoom]
        exact ⟨trivial, List.length_take_le _ _⟩
    | peerClosed | again | failed => simp [hfull]

/-! ### Any row of operations -/

/-- What a call does to the buffer. -/
def apply (rb : RingBuffer) : Operation → RingBuffer
  | .writeFrom data => rb.writeFrom data
  | .append data => rb.append data
  | .writeFromFd outcome => (rb.writeFromFd outcome).2
  | .consume bytes => rb.consume bytes
  | .compact => rb.compact
  | .reset => rb.reset

/-- What it does to the queue of the bytes.  How much `recv` hands over depends on the room. -/
def enqueue (rb : RingBuffer) (q : Fifo UInt8) : Operation → Fifo UInt8
  | .writeFrom data => q.push data
  | .append data => q.push data
  | .writeFromFd outcome => q.push (rb.received outcome)
  | .consume bytes => q.pop bytes
  | .compact => q
  | .reset => .empty

/-- One call, on both. -/
def both (s : RingBuffer × Fifo UInt8) (op : Operation) : RingBuffer × Fifo UInt8 :=
  (s.1.apply op, s.1.enqueue s.2 op)

/-- Both after a row of calls on a new buffer. -/
def run (capacity : Nat) (ops : List Operation) : RingBuffer × Fifo UInt8 :=
  ops.foldl both (new capacity, .empty)

/-- The bytes that can be read are those that the queue holds. -/
def Refines (s : RingBuffer × Fifo UInt8) : Prop := s.1.readable = s.2.contents

theorem refines_both {s : RingBuffer × Fifo UInt8} (h : Refines s) (op : Operation) :
    Refines (both s op) := by
  obtain ⟨rb, q⟩ := s
  change rb.readable = q.contents at h
  change (rb.apply op).readable = (rb.enqueue q op).contents
  cases op with
  | writeFrom data | append data =>
      change (rb.writeFrom data).readable = (q.push data).contents
      rw [readable_writeFrom, Fifo.contents_push, h]
  | writeFromFd outcome =>
      change (rb.writeFromFd outcome).2.readable = (q.push (rb.received outcome)).contents
      rw [(writeFromFd_spec rb outcome).1, Fifo.contents_push, h]
  | consume bytes =>
      change (rb.consume bytes).readable = (q.pop bytes).contents
      rw [readable_consume, Fifo.contents_pop, h]
  | compact => exact (readable_compact rb).trans h
  | reset => exact readable_reset rb

theorem refines_foldl {s : RingBuffer × Fifo UInt8} (h : Refines s) (ops : List Operation) :
    Refines (ops.foldl both s) := by
  induction ops generalizing s with
  | nil => exact h
  | cons op ops ih => exact ih (refines_both h op)

/-- **The buffer is a queue of bytes**: after any calls the positions are in order and within the
buffer, what can be read is what arrived since the last `Reset` less what was consumed from its
front, the move of `Compact` would not change it, and what `recv` would be given ends with the
buffer. -/
theorem run_refines (capacity : Nat) (ops : List Operation) :
    (run capacity ops).1.readPos ≤ (run capacity ops).1.writePos ∧
      (run capacity ops).1.writePos ≤ (run capacity ops).1.buf.length ∧
      (run capacity ops).1.readable = (run capacity ops).2.contents ∧
      (run capacity ops).1.compact.buf
        = moveBytes (run capacity ops).1.readableBytes (run capacity ops).1.buf
            (run capacity ops).1.readPos 0 ∧
      (run capacity ops).1.compact.readable = (run capacity ops).1.readable ∧
      (run capacity ops).1.offered.1 + (run capacity ops).1.offered.2
        = (run capacity ops).1.buf.length ∧
      ∀ outcome, ((run capacity ops).1.received outcome).length
        ≤ (run capacity ops).1.offered.2 := by
  refine ⟨read_le _, write_le _, ?_, buf_compact _, readable_compact _, offered_end _, ?_⟩
  · exact refines_foldl (s := (new capacity, .empty)) (readable_new capacity) ops
  · intro outcome
    exact (writeFromFd_spec _ outcome).2

end RingBuffer

end Go2Cbt.Server
