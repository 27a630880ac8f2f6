import Go2Cbt.Lib.LittleEndian
import Mathlib.Logic.Function.Basic

/-!
# Lib — byte images

An image gives the byte at every address.  `write` replaces the bytes under a byte string,
`slice` reads some out, and `Agree` says that two images hold the same bytes in a region.  A
`Patch` is a write to one of several images; patches of different bytes commute.
-/

/-- The bytes of a disk or of a file, by address. -/
abbrev Image := Nat → UInt8

namespace Image

/-- Put `data` at `off`. -/
def write (m : Image) (off : Nat) (data : Bytes) : Image :=
  fun i => if off ≤ i ∧ i < off + data.length then data.getD (i - off) 0 else m i

/-- The `len` bytes at `off`. -/
def slice (m : Image) (off len : Nat) : Bytes := (List.range len).map fun k => m (off + k)

/-- The two images hold the same `len` bytes at `off`. -/
def Agree (m m' : Image) (off len : Nat) : Prop := ∀ k < len, m (off + k) = m' (off + k)

@[simp] theorem length_slice (m : Image) (off len : Nat) : (slice m off len).length = len := by
  simp [slice]

theorem getD_slice {m : Image} {off len k : Nat} (h : k < len) :
    (slice m off len).getD k 0 = m (off + k) := by
  simp [slice, List.getD_eq_getElem?_getD, h]

/-- A byte outside the written region keeps its value. -/
theorem write_of_outside {m : Image} {off i : Nat} {data : Bytes}
    (h : i < off ∨ off + data.length ≤ i) : write m off data i = m i :=
  if_neg fun hin => by omega

/-- A byte inside the written region takes the new value. -/
theorem write_of_inside {m : Image} {off k : Nat} {data : Bytes} (h : k < data.length) :
    write m off data (off + k) = data.getD k 0 := by
  rw [write, if_pos ⟨Nat.le_add_right off k, by omega⟩, Nat.add_sub_cancel_left]

/-- Nothing is written by an empty byte string. -/
@[simp] theorem write_nil (m : Image) (off : Nat) : write m off [] = m := by
  funext i
  exact write_of_outside (by simp; omega)

theorem slice_add (m : Image) (off a b : Nat) :
    slice m off (a + b) = slice m off a ++ slice m (off + a) b := by
  simp [slice, List.range_add, Nat.add_assoc]

theorem slice_eq_slice_iff {m m' : Image} {off off' len : Nat} :
    slice m off len = slice m' off' len ↔ ∀ k < len, m (off + k) = m' (off' + k) := by
  simp [slice]

theorem slice_eq_iff_agree {m m' : Image} {off len : Nat} :
    slice m off len = slice m' off len ↔ Agree m m' off len :=
  slice_eq_slice_iff

/-- Reading back what was written. -/
theorem slice_write_self (m : Image) (off : Nat) (data : Bytes) :
    slice (write m off data) off data.length = data := by
  refine List.ext_getElem (by simp) fun k hk hk' => ?_
  have hin : k < data.length := hk'
  rw [← List.getD_eq_getElem _ 0, getD_slice hin, write_of_inside hin,
    List.getD_eq_getElem _ _ hin]

/-- Reading elsewhere. -/
theorem slice_write_of_disjoint {m : Image} {off len a : Nat} {data : Bytes}
    (h : off + len ≤ a ∨ a + data.length ≤ off) :
    slice (write m a data) off len = slice m off len := by
  refine slice_eq_slice_iff.mpr fun k hk => write_of_outside ?_
  rcases h with h | h
  · exact .inl (by omega)
  · exact .inr (by omega)

/-- Copying a region of another image makes the two agree there. -/
theorem agree_write_slice (m m' : Image) (off len : Nat) :
    Agree m' (write m off (slice m' off len)) off len := fun k hk => by
  rw [write_of_inside (by simpa using hk), getD_slice hk]

theorem Agree.refl (m : Image) (off len : Nat) : Agree m m off len := fun _ _ => rfl

theorem Agree.symm {m m' : Image} {off len : Nat} (h : Agree m m' off len) :
    Agree m' m off len := fun k hk => (h k hk).symm

theorem Agree.trans {m m' m'' : Image} {off len : Nat} (h : Agree m m' off len)
    (h' : Agree m' m'' off len) : Agree m m'' off len := fun k hk => (h k hk).trans (h' k hk)

instance (m m' : Image) (off len : Nat) : Decidable (Agree m m' off len) :=
  inferInstanceAs (Decidable (∀ k < len, m (off + k) = m' (off + k)))

/-- A write changes nothing exactly when the bytes were there. -/
theorem write_eq_self_iff {m : Image} {off : Nat} {data : Bytes} :
    write m off data = m ↔ slice m off data.length = data := by
  constructor
  · intro h
    conv_rhs => rw [← slice_write_self m off data, h]
  · intro h
    funext i
    by_cases hin : off ≤ i ∧ i < off + data.length
    · obtain ⟨k, rfl⟩ := Nat.exists_eq_add_of_le hin.1
      have hk : k < data.length := by omega
      have hread : (slice m off data.length).getD k 0 = m (off + k) := getD_slice hk
      rw [write_of_inside hk, ← hread, h]
    · exact write_of_outside (by omega)

/-- Writes to disjoint regions commute. -/
theorem write_comm {m : Image} {a b : Nat} {data data' : Bytes}
    (h : a + data.length ≤ b ∨ b + data'.length ≤ a) :
    write (write m a data) b data' = write (write m b data') a data := by
  funext i
  by_cases hb : b ≤ i ∧ i < b + data'.length
  · obtain ⟨k, rfl⟩ := Nat.exists_eq_add_of_le hb.1
    have hk : k < data'.length := by omega
    rw [write_of_inside hk, write_of_outside (by omega), write_of_inside hk]
  · rw [write_of_outside (by omega)]
    by_cases ha : a ≤ i ∧ i < a + data.length
    · obtain ⟨k, rfl⟩ := Nat.exists_eq_add_of_le ha.1
      have hk : k < data.length := by omega
      rw [write_of_inside hk, write_of_inside hk]
    · rw [write_of_outside (by omega), write_of_outside (by omega), write_of_outside (by omega)]

/-- The first `n` bytes are those of `m'`. -/
def splice (m m' : Image) (n : Nat) : Image := fun i => if i < n then m' i else m i

@[simp] theorem splice_zero (m m' : Image) : splice m m' 0 = m := by
  funext i
  exact if_neg (Nat.not_lt_zero i)

/-- **Copying goes on behind what was copied.** -/
theorem write_splice_slice (m m' : Image) (n len : Nat) :
    write (splice m m' n) n (slice m' n len) = splice m m' (n + len) := by
  funext i
  by_cases hin : n ≤ i ∧ i < n + len
  · obtain ⟨k, rfl⟩ := Nat.exists_eq_add_of_le hin.1
    have hk : k < (slice m' n len).length := by
      rw [length_slice]
      omega
    rw [write_of_inside hk, getD_slice (by omega), splice, if_pos hin.2]
  · rw [write_of_outside (by rw [length_slice]; omega), splice, splice]
    by_cases hi : i < n
    · rw [if_pos hi, if_pos (by omega)]
    · rw [if_neg hi, if_neg (by omega)]

/-! ### What a function of an image touches -/

/-- `f` changes byte `i` of some image. -/
def Writes (f : Image → Image) (i : Nat) : Prop := ∃ m, f m i ≠ m i

/-- The result of `f` depends on byte `i`. -/
def Reads {α : Type} (f : Image → α) (i : Nat) : Prop :=
  ∃ m b, f (Function.update m i b) ≠ f m

/-- What `f` puts at `off` whatever was there, it writes. -/
theorem writes_of_slice {f : Image → Image} {off i : Nat} {data : Bytes}
    (h : ∀ m, slice (f m) off data.length = data) (hi : off ≤ i ∧ i < off + data.length) :
    Writes f i := by
  obtain ⟨k, rfl⟩ := Nat.exists_eq_add_of_le hi.1
  have hk : k < data.length := by omega
  have hput : ∀ m, f m (off + k) = data.getD k 0 := fun m =>
    (getD_slice hk).symm.trans (congrArg (List.getD · k 0) (h m))
  refine ⟨fun _ => data.getD k 0 + 1, ?_⟩
  rw [hput]
  exact fun heq => by simp at heq

/-- A byte that no image sees changed is not written. -/
theorem not_writes {f : Image → Image} {i : Nat} (h : ∀ m, f m i = m i) : ¬ Writes f i :=
  fun ⟨m, hm⟩ => hm (h m)

theorem slice_update_of_outside {m : Image} {i off len : Nat} (b : UInt8)
    (h : i < off ∨ off + len ≤ i) : slice (Function.update m i b) off len = slice m off len :=
  slice_eq_slice_iff.mpr fun k hk => Function.update_of_ne (by omega) b m

/-- A byte of a window shows in the window. -/
theorem slice_update_ne {m : Image} {i off len : Nat} {b : UInt8}
    (hi : off ≤ i ∧ i < off + len) (hb : b ≠ m i) :
    slice (Function.update m i b) off len ≠ slice m off len := fun heq => by
  obtain ⟨k, rfl⟩ := Nat.exists_eq_add_of_le hi.1
  have hbyte := slice_eq_slice_iff.mp heq k (by omega)
  rw [Function.update_self] at hbyte
  exact hb hbyte

/-- The part of a window from `a` on. -/
theorem field_slice {m : Image} {off len a n : Nat} (h : a + n ≤ len) :
    LittleEndian.field (slice m off len) a n = slice m (off + a) n := by
  refine List.ext_getElem ?_ fun k hk hk' => ?_
  · rw [LittleEndian.length_field, length_slice, length_slice]
    omega
  · simp [LittleEndian.field, slice, Nat.add_assoc]

/-- A part of what was written. -/
theorem slice_write_within (m : Image) {off a n : Nat} {data : Bytes} (h : a + n ≤ data.length) :
    slice (write m off data) (off + a) n = LittleEndian.field data a n := by
  rw [← field_slice h, slice_write_self]

end Image

/-! ### Patches of several images -/

/-- A byte string for a place in one of several images. -/
structure Patch (κ : Type) where
  image : κ
  off : Nat
  data : Bytes

namespace Patch

variable {κ : Type} [DecidableEq κ]

/-- Write the bytes. -/
def apply (p : Patch κ) (images : κ → Image) : κ → Image :=
  Function.update images p.image ((images p.image).write p.off p.data)

/-- The bytes are there. -/
def Present (p : Patch κ) (images : κ → Image) : Prop :=
  (images p.image).slice p.off p.data.length = p.data

/-- The two touch different bytes. -/
def Disjoint (p q : Patch κ) : Prop :=
  p.image = q.image → p.off + p.data.length ≤ q.off ∨ q.off + q.data.length ≤ p.off

omit [DecidableEq κ] in
theorem Disjoint.symm {p q : Patch κ} (h : p.Disjoint q) : q.Disjoint p :=
  fun heq => (h heq.symm).symm

theorem apply_eq_self_iff {p : Patch κ} {images : κ → Image} :
    p.apply images = images ↔ p.Present images := by
  rw [apply, Function.update_eq_self_iff]
  exact Image.write_eq_self_iff

theorem present_apply (p : Patch κ) (images : κ → Image) : p.Present (p.apply images) := by
  rw [Present, apply, Function.update_self]
  exact Image.slice_write_self _ _ _

/-- What a patch leaves. -/
theorem apply_of_outside {p : Patch κ} (images : κ → Image) {image : κ} {i : Nat}
    (h : image = p.image → i < p.off ∨ p.off + p.data.length ≤ i) :
    p.apply images image i = images image i := by
  rw [apply]
  by_cases heq : image = p.image
  · rw [heq, Function.update_self]
    exact Image.write_of_outside (h heq)
  · rw [Function.update_of_ne heq]

/-- A patch leaves the bytes of a disjoint one. -/
theorem Disjoint.present_apply {p q : Patch κ} (h : p.Disjoint q) {images : κ → Image}
    (hp : p.Present images) : p.Present (q.apply images) := by
  rw [Present, apply]
  by_cases heq : p.image = q.image
  · rw [heq, Function.update_self, Image.slice_write_of_disjoint (h heq)]
    rw [Present, heq] at hp
    exact hp
  · rw [Function.update_of_ne heq]
    exact hp

/-- **Disjoint patches commute.** -/
theorem Disjoint.apply_comm {p q : Patch κ} (h : p.Disjoint q) (images : κ → Image) :
    q.apply (p.apply images) = p.apply (q.apply images) := by
  simp only [apply]
  by_cases heq : p.image = q.image
  · rw [heq, Function.update_self, Function.update_self, Function.update_idem,
      Function.update_idem, Image.write_comm (h heq)]
  · rw [Function.update_of_ne (Ne.symm heq), Function.update_of_ne heq, Function.update_comm heq]

end Patch
