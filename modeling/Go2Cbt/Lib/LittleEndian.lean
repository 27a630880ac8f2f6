import Mathlib.Data.List.Basic
import Mathlib.Data.Nat.Bitwise
import Mathlib.Tactic.Ring

/-!
# Lib — little-endian byte strings

A number laid out on `n` bytes, least significant first, and read back.  `encode n w` keeps
`w % 256 ^ n`, so reading back is exact on numbers that fit, and every byte string is the
encoding of the number it reads as.  `field` cuts the bytes of one field out of a record laid
out by concatenation.
-/

/-- A byte string. -/
abbrev Bytes := List UInt8

namespace LittleEndian

/-- The `n` low bytes of `w`, least significant first. -/
def encode : Nat → Nat → Bytes
  | 0, _ => []
  | n + 1, w => UInt8.ofNat w :: encode n (w / 256)

/-- The number a byte string lays out. -/
def decode : Bytes → Nat
  | [] => 0
  | b :: bs => b.toNat + 256 * decode bs

@[simp] theorem length_encode (n w : Nat) : (encode n w).length = n := by
  induction n generalizing w with
  | zero => rfl
  | succ n ih => simp [encode, ih]

theorem decode_lt (bs : Bytes) : decode bs < 256 ^ bs.length := by
  induction bs with
  | nil => simp [decode]
  | cons b bs ih =>
      have hb : b.toNat < 256 := b.toNat_lt
      simp only [decode, List.length_cons, pow_succ]
      omega

/-- Reading back keeps what fits. -/
theorem decode_encode (n w : Nat) : decode (encode n w) = w % 256 ^ n := by
  induction n generalizing w with
  | zero => simp [encode, decode, Nat.mod_one]
  | succ n ih =>
      have hw : (UInt8.ofNat w).toNat = w % 256 := by simp [UInt8.toNat_ofNat']
      rw [encode, decode, ih, hw, pow_succ, Nat.mul_comm (256 ^ n) 256, Nat.mod_mul]

theorem decode_encode_of_lt {n w : Nat} (h : w < 256 ^ n) : decode (encode n w) = w := by
  rw [decode_encode, Nat.mod_eq_of_lt h]

/-- A byte string is the encoding of the number it reads as. -/
theorem encode_decode (bs : Bytes) : encode bs.length (decode bs) = bs := by
  induction bs with
  | nil => rfl
  | cons b bs ih =>
      have hb : b.toNat < 256 := b.toNat_lt
      have hdiv : (b.toNat + 256 * decode bs) / 256 = decode bs := by omega
      have hhead : UInt8.ofNat (b.toNat + 256 * decode bs) = b := by
        apply UInt8.toNat_inj.mp
        rw [UInt8.toNat_ofNat']
        omega
      simp only [List.length_cons, decode, encode, hdiv, hhead, ih]

/-- Bit `8 * j + k` of the number is bit `k` of byte `j`. -/
theorem testBit_encode {n w j k : Nat} (hj : j < n) (hk : k < 8) :
    ((encode n w).getD j 0).toNat.testBit k = w.testBit (8 * j + k) := by
  induction n generalizing w j with
  | zero => omega
  | succ n ih =>
      cases j with
      | zero =>
          have hw : (UInt8.ofNat w).toNat = w % 2 ^ 8 := by simp [UInt8.toNat_ofNat']
          simp only [encode, List.getD_cons_zero, hw, Nat.testBit_mod_two_pow, hk, decide_true,
            Bool.true_and, Nat.mul_zero, Nat.zero_add]
      | succ j =>
          have hshift : 8 * (j + 1) + k = 8 + (8 * j + k) := by ring
          simp only [encode, List.getD_cons_succ]
          rw [ih (by omega), show (256 : Nat) = 2 ^ 8 from rfl, Nat.testBit_div_two_pow, hshift]
          congr 1
          omega

/-- The `len` bytes at offset `off` of a record. -/
def field (bs : Bytes) (off len : Nat) : Bytes := (bs.drop off).take len

/-- A 32-bit field. -/
def u32 (bs : Bytes) (off : Nat) : UInt32 := UInt32.ofNat (decode (field bs off 4))

/-- A 64-bit field. -/
def u64 (bs : Bytes) (off : Nat) : UInt64 := UInt64.ofNat (decode (field bs off 8))

/-- A 32-bit word on four bytes. -/
def ofU32 (w : UInt32) : Bytes := encode 4 w.toNat

/-- A 64-bit word on eight bytes. -/
def ofU64 (w : UInt64) : Bytes := encode 8 w.toNat

/-- A vector of 16-bit units, two bytes each. -/
def ofUnits {n : Nat} (us : Vector UInt16 n) : Bytes := us.toList.flatMap fun u => encode 2 u.toNat

/-- The `n` units at offset `off`. -/
def units (n : Nat) (bs : Bytes) (off : Nat) : Vector UInt16 n :=
  .ofFn fun k => UInt16.ofNat (decode (field bs (off + 2 * k) 2))

@[simp] theorem length_ofU32 (w : UInt32) : (ofU32 w).length = 4 := length_encode _ _

@[simp] theorem length_ofU64 (w : UInt64) : (ofU64 w).length = 8 := length_encode _ _

@[simp] theorem length_ofUnits {n : Nat} (us : Vector UInt16 n) : (ofUnits us).length = 2 * n := by
  simp [ofUnits, List.length_flatMap, Nat.mul_comm]

@[simp] theorem decode_ofU32 (w : UInt32) : UInt32.ofNat (decode (ofU32 w)) = w := by
  rw [ofU32, decode_encode_of_lt (by simpa using w.toNat_lt), UInt32.ofNat_toNat]

@[simp] theorem decode_ofU64 (w : UInt64) : UInt64.ofNat (decode (ofU64 w)) = w := by
  rw [ofU64, decode_encode_of_lt (by simpa using w.toNat_lt), UInt64.ofNat_toNat]

/-- Four bytes are the word they read as. -/
theorem ofU32_decode {bs : Bytes} (h : bs.length = 4) : ofU32 (UInt32.ofNat (decode bs)) = bs := by
  have hlt := decode_lt bs
  rw [h] at hlt
  rw [ofU32, UInt32.toNat_ofNat', Nat.mod_eq_of_lt (show decode bs < 2 ^ 32 from hlt)]
  have hbytes := encode_decode bs
  rw [h] at hbytes
  exact hbytes

/-- A field before the end of the first part is a field of the first part. -/
theorem field_append_left {a b : Bytes} {off len : Nat} (h : off + len ≤ a.length) :
    field (a ++ b) off len = field a off len := by
  rw [field, field, List.drop_append_of_le_length (by omega),
    List.take_append_of_le_length (by simp; omega)]

/-- A field past the first part is a field of the second. -/
theorem field_append_right {a b : Bytes} {off len : Nat} (h : a.length ≤ off) :
    field (a ++ b) off len = field b (off - a.length) len := by
  rw [field, field, List.drop_append, List.drop_eq_nil_of_le h, List.nil_append]

/-- A field inside a window of a longer string. -/
theorem field_window {bs : Bytes} {start n off len : Nat} (h : off + len ≤ n) :
    field ((bs.drop start).take n) off len = field bs (start + off) len := by
  rw [field, field, List.drop_take, List.take_take, List.drop_drop, Nat.min_eq_left (by omega)]

theorem u32_window {bs : Bytes} {start n off : Nat} (h : off + 4 ≤ n) :
    u32 ((bs.drop start).take n) off = u32 bs (start + off) := by
  rw [u32, u32, field_window h]

theorem u64_window {bs : Bytes} {start n off : Nat} (h : off + 8 ≤ n) :
    u64 ((bs.drop start).take n) off = u64 bs (start + off) := by
  rw [u64, u64, field_window h]

theorem u64_drop (bs : Bytes) (start off : Nat) :
    u64 (bs.drop start) off = u64 bs (start + off) := by
  rw [u64, u64, field, field, List.drop_drop]

theorem field_all {a : Bytes} {len : Nat} (h : a.length = len) : field a 0 len = a := by
  rw [field, List.drop_zero, ← h, List.take_length]

/-- The field that starts a concatenation. -/
theorem field_head {a b : Bytes} {len : Nat} (h : a.length = len) : field (a ++ b) 0 len = a := by
  rw [field_append_left (by omega), field_all h]

/-- A word that starts a concatenation. -/
theorem u32_head (w : UInt32) (rest : Bytes) : u32 (ofU32 w ++ rest) 0 = w := by
  rw [u32, field_head (length_ofU32 w), decode_ofU32]

theorem u64_head (w : UInt64) (rest : Bytes) : u64 (ofU64 w ++ rest) 0 = w := by
  rw [u64, field_head (length_ofU64 w), decode_ofU64]

/-- A word past the first part. -/
theorem u32_skip {a b : Bytes} {off : Nat} (h : a.length ≤ off) :
    u32 (a ++ b) off = u32 b (off - a.length) := by
  rw [u32, field_append_right h, u32]

theorem u64_skip {a b : Bytes} {off : Nat} (h : a.length ≤ off) :
    u64 (a ++ b) off = u64 b (off - a.length) := by
  rw [u64, field_append_right h, u64]

theorem field_flatMap_encode (us : List UInt16) (rest : Bytes) (k : Nat) (hk : k < us.length) :
    field ((us.flatMap fun u => encode 2 u.toNat) ++ rest) (2 * k) 2 = encode 2 us[k].toNat := by
  induction us generalizing k with
  | nil => exact absurd hk (Nat.not_lt_zero k)
  | cons u us ih =>
      rw [List.flatMap_cons, List.append_assoc]
      cases k with
      | zero => exact field_head (length_encode 2 _)
      | succ k =>
          have hlen : (encode 2 u.toNat).length = 2 := length_encode 2 _
          rw [field_append_right (by omega), hlen, List.getElem_cons_succ]
          exact ih k (Nat.lt_of_succ_lt_succ hk)

/-- The units that start a concatenation. -/
theorem units_head {n : Nat} (us : Vector UInt16 n) (rest : Bytes) :
    units n (ofUnits us ++ rest) 0 = us := by
  refine Vector.ext fun k hk => ?_
  have hfield := field_flatMap_encode us.toList rest k (by simpa using hk)
  rw [Vector.getElem_toList] at hfield
  simp only [units, Vector.getElem_ofFn, Nat.zero_add]
  rw [ofUnits, hfield, decode_encode_of_lt (by simpa using UInt16.toNat_lt _), UInt16.ofNat_toNat]

theorem units_skip {n : Nat} {a b : Bytes} {off : Nat} (h : a.length ≤ off) :
    units n (a ++ b) off = units n b (off - a.length) := by
  refine Vector.ext fun k hk => ?_
  have hoff : off + 2 * k - a.length = off - a.length + 2 * k := by omega
  simp only [units, Vector.getElem_ofFn]
  rw [field_append_right (by omega), hoff]

/-- The `i`-th of a row of records of one length. -/
theorem take_drop_flatMap {α : Type} {f : α → Bytes} {n : Nat} (hf : ∀ a, (f a).length = n)
    {l : List α} {i : Nat} {a : α} (h : l[i]? = some a) (rest : Bytes) :
    ((l.flatMap f ++ rest).drop (n * i)).take n = f a := by
  induction l generalizing i with
  | nil => cases h
  | cons x l ih =>
      rw [List.flatMap_cons, List.append_assoc]
      cases i with
      | zero =>
          cases h
          rw [Nat.mul_zero, List.drop_zero, List.take_left' (hf a)]
      | succ i =>
          have hskip : n * (i + 1) = (f x).length + n * i := by
            rw [hf, Nat.mul_succ, Nat.add_comm]
          rw [hskip, ← List.drop_drop, List.drop_left]
          exact ih h

theorem length_flatMap_of_length {α : Type} {f : α → Bytes} {n : Nat}
    (hf : ∀ a, (f a).length = n) (l : List α) : (l.flatMap f).length = n * l.length := by
  induction l with
  | nil => rfl
  | cons x l ih =>
      rw [List.flatMap_cons, List.length_append, hf, ih, List.length_cons, Nat.mul_succ,
        Nat.add_comm]

theorem length_field (bs : Bytes) (off len : Nat) :
    (field bs off len).length = min len (bs.length - off) := by
  simp [field]

/-- A word that is read from inside the bytes is written back as it stood. -/
theorem ofU32_u32 {bs : Bytes} {off : Nat} (h : off + 4 ≤ bs.length) :
    ofU32 (u32 bs off) = field bs off 4 :=
  ofU32_decode (by rw [length_field]; omega)

theorem ofU64_u64 {bs : Bytes} {off : Nat} (h : off + 8 ≤ bs.length) :
    ofU64 (u64 bs off) = field bs off 8 := by
  have hlen : (field bs off 8).length = 8 := by
    rw [length_field]
    omega
  have hlt := decode_lt (field bs off 8)
  rw [hlen] at hlt
  have hbytes := encode_decode (field bs off 8)
  rw [hlen] at hbytes
  rw [ofU64, u64, UInt64.toNat_ofNat', Nat.mod_eq_of_lt (show decode _ < 2 ^ 64 from hlt), hbytes]

end LittleEndian
