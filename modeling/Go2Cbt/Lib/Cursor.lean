import Go2Cbt.Lib.LittleEndian

/-!
# Lib — writing through a buffer

A buffer of a size chosen up front and the place where the next bytes go.  Bytes that would go
past the end are not put: `put` gives nothing.
-/

/-- A buffer and the next place. -/
structure Cursor where
  buf : Bytes
  pos : Nat

namespace Cursor

/-- A zeroed buffer of `n` bytes. -/
def reserve (n : Nat) : Cursor := ⟨List.replicate n 0, 0⟩

/-- Put `data` at the place and go behind it. -/
def put (c : Cursor) (data : Bytes) : Option Cursor :=
  if c.pos + data.length ≤ c.buf.length then
    some ⟨c.buf.take c.pos ++ data ++ c.buf.drop (c.pos + data.length), c.pos + data.length⟩
  else none

/-- The bytes in front of the place. -/
def written (c : Cursor) : Bytes := c.buf.take c.pos

/-- `c'` comes from `c` by putting `data`. -/
structure Puts (c : Cursor) (data : Bytes) (c' : Cursor) : Prop where
  written : c'.written = c.written ++ data
  pos : c'.pos = c.pos + data.length
  size : c'.buf.length = c.buf.length

/-- Where there is room, bytes are put behind those that are there. -/
theorem put_of_le {c : Cursor} {data : Bytes} (h : c.pos + data.length ≤ c.buf.length) :
    ∃ c', c.put data = some c' ∧ Puts c data c' := by
  have hfront : (c.buf.take c.pos).length = c.pos := by
    rw [List.length_take]
    omega
  refine ⟨_, if_pos h, ?_, rfl, ?_⟩
  · have hlen : (c.buf.take c.pos ++ data).length = c.pos + data.length := by
      rw [List.length_append, hfront]
    exact List.take_left' hlen
  · simp only [List.length_append, List.length_drop, hfront]
    omega

/-- Where there is room for more, it is left. -/
theorem put_of_room {c : Cursor} {data : Bytes} {n : Nat}
    (h : c.pos + (data.length + n) ≤ c.buf.length) :
    ∃ c', c.put data = some c' ∧ Puts c data c' ∧ c'.pos + n ≤ c'.buf.length := by
  obtain ⟨c', hput, hputs⟩ := put_of_le (show c.pos + data.length ≤ c.buf.length by omega)
  exact ⟨c', hput, hputs, by rw [hputs.pos, hputs.size]; omega⟩

theorem Puts.refl (c : Cursor) : Puts c [] c where
  written := (List.append_nil _).symm
  pos := rfl
  size := rfl

theorem Puts.trans {c c' c'' : Cursor} {data data' : Bytes} (h : Puts c data c')
    (h' : Puts c' data' c'') : Puts c (data ++ data') c'' where
  written := by rw [h'.written, h.written, List.append_assoc]
  pos := by rw [h'.pos, h.pos, List.length_append, Nat.add_assoc]
  size := h'.size.trans h.size

/-- A full buffer is what was written. -/
theorem written_of_full {c : Cursor} (h : c.pos = c.buf.length) : c.written = c.buf := by
  rw [written, h, List.take_length]

@[simp] theorem written_reserve (n : Nat) : (reserve n).written = [] := by
  rw [written, reserve, List.take_zero]

end Cursor
