import Go2Cbt.Lib.LittleEndian

/-!
# Lib — an open file

The bytes of a file and the place where the next write goes.  A write may stop short, so what a
row of writes puts is a prefix of each.  The total length says whether any of them did
(`length_wrote_eq_iff`); writing over the front of the file afterwards repairs the front only
(`overwrite_eq_iff`).
-/

/-- A file that is being written. -/
structure OpenFile where
  content : Bytes
  pos : Nat

namespace OpenFile

/-- A new file. -/
def empty : OpenFile := ⟨[], 0⟩

/-- The pointer back at the start. -/
def rewind (f : OpenFile) : OpenFile := { f with pos := 0 }

/-- Put `data` at the pointer, over what is there. -/
def write (f : OpenFile) (data : Bytes) : OpenFile where
  content := f.content.take f.pos ++ data ++ f.content.drop (f.pos + data.length)
  pos := f.pos + data.length

theorem write_end {f : OpenFile} (h : f.pos = f.content.length) (data : Bytes) :
    f.write data = ⟨f.content ++ data, (f.content ++ data).length⟩ := by
  rw [write, h, List.take_length, List.drop_eq_nil_of_le (Nat.le_add_right _ _), List.append_nil,
    List.length_append]

theorem content_rewind_write (f : OpenFile) (data : Bytes) :
    (f.rewind.write data).content = data ++ f.content.drop data.length := by
  rw [write, rewind, List.take_zero, List.nil_append, Nat.zero_add]

/-! ### A row of writes -/

/-- What a row of writes puts, each with the number of bytes that it wrote. -/
def wrote (ws : List (Bytes × Nat)) : Bytes := ws.flatMap fun w => w.1.take w.2

theorem wrote_cons (w : Bytes × Nat) (ws : List (Bytes × Nat)) :
    wrote (w :: ws) = w.1.take w.2 ++ wrote ws := List.flatMap_cons

/-- A row of writes from the end of a file on. -/
theorem foldl_write {f : OpenFile} (h : f.pos = f.content.length) (ws : List (Bytes × Nat)) :
    ws.foldl (fun f w => f.write (w.1.take w.2)) f
      = ⟨f.content ++ wrote ws, (f.content ++ wrote ws).length⟩ := by
  induction ws generalizing f with
  | nil =>
      rw [wrote, List.flatMap_nil, List.append_nil, ← h]
      rfl
  | cons w ws ih =>
      rw [List.foldl_cons, write_end h, ih rfl, wrote_cons, List.append_assoc]

theorem length_wrote_le (ws : List (Bytes × Nat)) :
    (wrote ws).length ≤ (ws.flatMap Prod.fst).length := by
  induction ws with
  | nil => exact le_rfl
  | cons w ws ih =>
      rw [wrote_cons, List.flatMap_cons, List.length_append, List.length_append, List.length_take]
      omega

/-- The length tells whether every write was whole. -/
theorem length_wrote_eq_iff (ws : List (Bytes × Nat)) :
    (wrote ws).length = (ws.flatMap Prod.fst).length ↔ ∀ w ∈ ws, w.1.length ≤ w.2 := by
  induction ws with
  | nil => exact iff_of_true rfl fun w hw => absurd hw List.not_mem_nil
  | cons w ws ih =>
      have hle := length_wrote_le ws
      rw [List.forall_mem_cons, ← ih, wrote_cons, List.flatMap_cons, List.length_append,
        List.length_append, List.length_take]
      omega

theorem wrote_of_whole {ws : List (Bytes × Nat)} (h : ∀ w ∈ ws, w.1.length ≤ w.2) :
    wrote ws = ws.flatMap Prod.fst := by
  induction ws with
  | nil => rfl
  | cons w ws ih =>
      have hcons := List.forall_mem_cons.mp h
      rw [wrote_cons, List.take_of_length_le hcons.1, ih hcons.2, List.flatMap_cons]

/-- **Writing over the front.**  The front is then right, and the rest if it was right before,
exactly when every write was whole and the two fronts agree from where the last one stopped; or
there is no rest, and the last write was whole. -/
theorem overwrite_eq_iff {first front body : Bytes} (hlen : first.length = front.length)
    {ws : List (Bytes × Nat)} (hws : ws.flatMap Prod.fst = first ++ body) (written : Nat) :
    front.take written ++ (wrote ws).drop (front.take written).length = front ++ body ↔
      (∀ w ∈ ws, w.1.length ≤ w.2) ∧ front.drop written = first.drop written ∨
        body = [] ∧ front.length ≤ written := by
  have hle := length_wrote_le ws
  rw [← length_wrote_eq_iff]
  rw [hws, List.length_append, hlen] at hle ⊢
  have htaken : (front.take written).length = min written front.length := List.length_take
  -- with every write whole, the question is only about the two fronts
  have hwhole : (wrote ws).length = front.length + body.length →
      (front.take written ++ (wrote ws).drop (front.take written).length = front ++ body ↔
        front.drop written = first.drop written) := by
    intro hcount
    have heq : wrote ws = first ++ body := by
      rw [← hws]
      refine wrote_of_whole ((length_wrote_eq_iff ws).mp ?_)
      rw [hcount, hws, List.length_append, hlen]
    have hdrop : (first ++ body).drop (front.take written).length
        = first.drop written ++ body := by
      rw [List.drop_append_of_le_length (by omega), htaken]
      congr 1
      rw [List.drop_eq_drop_iff]
      omega
    have hfront : front ++ body = front.take written ++ (front.drop written ++ body) := by
      rw [← List.append_assoc, List.take_append_drop]
    rw [heq, hdrop, hfront, List.append_right_inj, List.append_left_inj, eq_comm]
  constructor
  · intro heq
    have hcount := congrArg List.length heq
    rw [List.length_append, List.length_append, List.length_drop, htaken] at hcount
    by_cases hshort : (wrote ws).length = front.length + body.length
    · exact .inl ⟨hshort, (hwhole hshort).mp heq⟩
    · have hbody : body = [] := List.eq_nil_of_length_eq_zero (by omega)
      refine .inr ⟨hbody, ?_⟩
      rw [hbody, List.length_nil] at hcount hshort hle
      omega
  · rintro (⟨hcount, hagree⟩ | ⟨rfl, hwritten⟩)
    · exact (hwhole hcount).mpr hagree
    · rw [List.length_nil, Nat.add_zero] at hle
      rw [List.append_nil, List.take_of_length_le hwritten, List.drop_eq_nil_of_le hle,
        List.append_nil]

end OpenFile
