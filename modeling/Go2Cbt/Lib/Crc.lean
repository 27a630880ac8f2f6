import Go2Cbt.Lib.LittleEndian
import Mathlib.Data.Nat.Bitwise

/-!
# Lib — cyclic redundancy checks

A reflected check with a register of 32 bits: `register` takes in the bytes bit by bit, `look` does
a byte at a time with a table of 256 words.

With the right table the two agree (`feed_eq_look`).  With any other table the registers differ by
what the wrong words that are looked up put in, each carried through the bytes behind it
(`look_run`); and whatever the table holds, as long as its top bytes are all different, two strings
that differ within four bytes end in different registers (`burst_detected`).
-/

namespace Crc

/-! ### Bit by bit -/

/-- One bit: the register moves down, and takes the polynomial where a one fell out. -/
def shiftBit (poly crc : UInt32) : UInt32 := (crc >>> 1) ^^^ if crc &&& 1 = 1 then poly else 0

/-- Eight bits. -/
def shiftByte (poly crc : UInt32) : UInt32 := (shiftBit poly)^[8] crc

/-- Take in a byte. -/
def feed (poly crc : UInt32) (b : UInt8) : UInt32 := shiftByte poly (crc ^^^ b.toUInt32)

/-- Take in a row of bytes. -/
def register (poly crc : UInt32) (data : Bytes) : UInt32 := data.foldl (feed poly) crc

variable {poly : UInt32}

theorem toNat_low (x : UInt32) : (x &&& 1).toNat = x.toNat % 2 := by
  rw [UInt32.toNat_and]
  exact Nat.and_one_is_mod _

theorem low_bit (x : UInt32) : x &&& 1 = 0 ∨ x &&& 1 = 1 := by
  simp only [← UInt32.toNat_inj, toNat_low]
  exact Nat.mod_two_eq_zero_or_one _

theorem and_one_xor (a b : UInt32) : (a ^^^ b) &&& 1 = (a &&& 1) ^^^ (b &&& 1) := by
  apply UInt32.toNat_inj.mp
  simp only [UInt32.toNat_and, UInt32.toNat_xor]
  exact Nat.and_xor_distrib_right ..

theorem xor_swap (a b c d : UInt32) : (a ^^^ b) ^^^ (c ^^^ d) = (a ^^^ c) ^^^ (b ^^^ d) := by
  ac_rfl

/-- The check is linear. -/
theorem shiftBit_xor (a b : UInt32) :
    shiftBit poly (a ^^^ b) = shiftBit poly a ^^^ shiftBit poly b := by
  have hpoly : (if (a ^^^ b) &&& 1 = 1 then poly else 0)
      = (if a &&& 1 = 1 then poly else 0) ^^^ if b &&& 1 = 1 then poly else 0 := by
    rw [and_one_xor]
    rcases low_bit a with ha | ha <;> rcases low_bit b with hb | hb <;> simp [ha, hb]
  rw [shiftBit, hpoly, UInt32.shiftRight_xor, xor_swap, shiftBit, shiftBit]

theorem shiftBits_xor (n : Nat) (a b : UInt32) :
    (shiftBit poly)^[n] (a ^^^ b) = (shiftBit poly)^[n] a ^^^ (shiftBit poly)^[n] b := by
  induction n generalizing a b with
  | zero => rfl
  | succ n ih =>
      rw [Function.iterate_succ_apply, Function.iterate_succ_apply, Function.iterate_succ_apply,
        shiftBit_xor, ih]

theorem shiftByte_xor (a b : UInt32) :
    shiftByte poly (a ^^^ b) = shiftByte poly a ^^^ shiftByte poly b := shiftBits_xor 8 a b

@[simp] theorem shiftByte_zero : shiftByte poly 0 = 0 := by
  have h : shiftByte poly (0 ^^^ 0) = shiftByte poly 0 ^^^ shiftByte poly 0 := shiftByte_xor 0 0
  rwa [UInt32.xor_self, UInt32.xor_self] at h

/-! ### Byte by byte -/

/-- The word of a byte: its eight bits taken in on their own. -/
def entry (poly : UInt32) (i : UInt8) : UInt32 := shiftByte poly i.toUInt32

/-- The place in the table: the low byte of the register against the byte that comes in. -/
def index (crc : UInt32) (b : UInt8) : UInt8 := crc.toUInt8 ^^^ b

/-- Take in a byte by a table. -/
def look (table : UInt8 → UInt32) (crc : UInt32) (b : UInt8) : UInt32 :=
  (crc >>> 8) ^^^ table (index crc b)

/-- The places that are looked up. -/
def lookups (table : UInt8 → UInt32) : UInt32 → Bytes → List UInt8
  | _, [] => []
  | crc, b :: data => index crc b :: lookups table (look table crc b) data

theorem toNat_shiftBit_of_even {x : UInt32} (h : x.toNat % 2 = 0) :
    (shiftBit poly x).toNat = x.toNat / 2 := by
  have hlow : ¬ x &&& 1 = 1 := fun heq => by
    rw [← UInt32.toNat_inj, toNat_low, h] at heq
    cases heq
  rw [shiftBit, if_neg hlow, UInt32.xor_zero, UInt32.toNat_shiftRight]
  exact Nat.shiftRight_one _

/-- Zeros that fall out take nothing in. -/
theorem toNat_shiftBits {x : UInt32} {n q : Nat} (h : x.toNat = 2 ^ n * q) :
    ((shiftBit poly)^[n] x).toNat = q := by
  induction n generalizing x with
  | zero => rw [Function.iterate_zero, id, h, pow_zero, Nat.one_mul]
  | succ n ih =>
      have htwice : x.toNat = 2 * (2 ^ n * q) := by rw [h, pow_succ', Nat.mul_assoc]
      rw [Function.iterate_succ_apply]
      refine ih ?_
      rw [toNat_shiftBit_of_even (by omega)]
      omega

theorem toNat_high (crc : UInt32) : ((crc >>> 8) <<< 8).toNat = 2 ^ 8 * (crc >>> 8).toNat := by
  have hlt := crc.toNat_lt
  have hshift : (crc >>> 8).toNat = crc.toNat / 256 := by
    rw [UInt32.toNat_shiftRight]
    exact Nat.shiftRight_eq_div_pow crc.toNat 8
  rw [UInt32.toNat_shiftLeft, hshift]
  change (crc.toNat / 256) <<< 8 % 2 ^ 32 = _
  rw [Nat.shiftLeft_eq]
  omega

/-- The register with a byte on it: what is above the low byte, and the place looked up. -/
theorem xor_byte (crc : UInt32) (b : UInt8) :
    crc ^^^ b.toUInt32 = ((crc >>> 8) <<< 8) ^^^ (index crc b).toUInt32 := by
  have hshift : (crc >>> 8).toNat = crc.toNat >>> 8 := UInt32.toNat_shiftRight crc 8
  have hb : b.toNat < 2 ^ 8 := b.toNat_lt
  apply UInt32.toNat_inj.mp
  apply Nat.eq_of_testBit_eq
  intro i
  rw [UInt32.toNat_xor, UInt32.toNat_xor, toNat_high, hshift, index, UInt8.toNat_toUInt32,
    UInt8.toNat_toUInt32, UInt8.toNat_xor, UInt32.toNat_toUInt8, Nat.testBit_xor, Nat.testBit_xor,
    Nat.testBit_xor, Nat.testBit_two_pow_mul, Nat.testBit_mod_two_pow, Nat.testBit_shiftRight]
  by_cases hi : i < 8
  · simp [hi, not_le.mpr hi]
  · have hle : 8 ≤ i := not_lt.mp hi
    have hbit : b.toNat.testBit i = false :=
      Nat.testBit_lt_two_pow (hb.trans_le (Nat.pow_le_pow_right (by decide) hle))
    have hback : 8 + (i - 8) = i := by omega
    simp [hi, hle, hbit, hback]

/-- **A byte at a time**: the right table takes in what eight bits do. -/
theorem feed_eq_look (crc : UInt32) (b : UInt8) :
    feed poly crc b = look (entry poly) crc b := by
  have hhigh : shiftByte poly ((crc >>> 8) <<< 8) = crc >>> 8 :=
    UInt32.toNat_inj.mp (toNat_shiftBits (toNat_high crc))
  rw [feed, xor_byte, shiftByte_xor, hhigh, look, entry]

/-! ### Wrong words -/

/-- What a word of the table has wrong. -/
def wrong (poly : UInt32) (table : UInt8 → UInt32) (i : UInt8) : UInt32 := table i ^^^ entry poly i

/-- A row of errors, each carried through the bytes behind it. -/
def carried (poly error : UInt32) (errors : List UInt32) : UInt32 :=
  errors.foldl (fun e d => shiftByte poly e ^^^ d) error

theorem look_eq_feed_xor (table : UInt8 → UInt32) (crc : UInt32) (b : UInt8) :
    look table crc b = feed poly crc b ^^^ wrong poly table (index crc b) := by
  rw [feed_eq_look, look, look, wrong, UInt32.xor_assoc, UInt32.xor_comm _ (entry poly _),
    ← UInt32.xor_assoc (entry poly _), UInt32.xor_self, UInt32.zero_xor]

theorem feed_xor (crc error : UInt32) (b : UInt8) :
    feed poly (crc ^^^ error) b = feed poly crc b ^^^ shiftByte poly error := by
  rw [feed, feed, ← shiftByte_xor]
  congr 1
  ac_rfl

/-- **What a wrong table does**: the register is off by the errors looked up. -/
theorem look_run (poly : UInt32) (table : UInt8 → UInt32) (crc error : UInt32) (data : Bytes) :
    data.foldl (look table) (crc ^^^ error)
      = register poly crc data
        ^^^ carried poly error
          ((lookups table (crc ^^^ error) data).map (wrong poly table)) := by
  induction data generalizing crc error with
  | nil => rfl
  | cons b data ih =>
      have hstep : look table (crc ^^^ error) b
          = feed poly crc b
            ^^^ (shiftByte poly error ^^^ wrong poly table (index (crc ^^^ error) b)) := by
        rw [look_eq_feed_xor, feed_xor, UInt32.xor_assoc]
      rw [List.foldl_cons, lookups, hstep, ih]
      rfl

theorem carried_append (error : UInt32) (errors rest : List UInt32) :
    carried poly error (errors ++ rest) = carried poly (carried poly error errors) rest :=
  List.foldl_append

/-- Right words only carry the error on. -/
theorem carried_of_forall_zero {errors : List UInt32} (h : ∀ d ∈ errors, d = 0) (error : UInt32) :
    carried poly error errors = (shiftByte poly)^[errors.length] error := by
  induction errors generalizing error with
  | nil => rfl
  | cons d errors ih =>
      rw [carried, List.foldl_cons, h d List.mem_cons_self, UInt32.xor_zero, List.length_cons,
        Function.iterate_succ_apply]
      exact ih (fun d hd => h d (List.mem_cons_of_mem _ hd)) _

/-- With the top bit in the polynomial no bit is lost. -/
theorem shiftBit_eq_zero (hpoly : 2 ^ 31 ≤ poly.toNat) {x : UInt32} (h : shiftBit poly x = 0) :
    x = 0 := by
  have hshift : (x >>> 1).toNat = x.toNat / 2 := by
    rw [UInt32.toNat_shiftRight]
    exact Nat.shiftRight_one _
  have hlt := x.toNat_lt
  rw [shiftBit, UInt32.xor_eq_zero_iff, ← UInt32.toNat_inj, hshift] at h
  apply UInt32.toNat_inj.mp
  have hlow := toNat_low x
  rcases low_bit x with h0 | h1
  · rw [h0] at h hlow
    change x.toNat / 2 = 0 at h
    change 0 = _ at hlow
    change x.toNat = 0
    omega
  · rw [if_pos h1] at h
    omega

theorem shiftByte_ne_zero (hpoly : 2 ^ 31 ≤ poly.toNat) {x : UInt32} (h : x ≠ 0) :
    shiftByte poly x ≠ 0 :=
  Function.Iterate.rec (fun y => y ≠ 0) h (fun _ hy hzero => hy (shiftBit_eq_zero hpoly hzero)) 8

/-- **One wrong word is not repaired.** -/
theorem carried_one (hpoly : 2 ^ 31 ≤ poly.toNat) {before behind : List UInt32} {d : UInt32}
    (hd : d ≠ 0) (hbefore : ∀ e ∈ before, e = 0) (hbehind : ∀ e ∈ behind, e = 0) :
    carried poly 0 (before ++ d :: behind) ≠ 0 := by
  have hzero : (shiftByte poly)^[before.length] 0 = 0 :=
    Function.iterate_fixed shiftByte_zero _
  rw [carried_append, carried_of_forall_zero hbefore, hzero]
  change carried poly (shiftByte poly 0 ^^^ d) behind ≠ 0
  rw [shiftByte_zero, UInt32.zero_xor, carried_of_forall_zero hbehind]
  exact Function.Iterate.rec (fun y => y ≠ 0) hd (fun _ => shiftByte_ne_zero hpoly) _

/-! ### Bursts -/

section Burst

variable {table : UInt8 → UInt32}

theorem toNat_look (crc : UInt32) (b : UInt8) :
    (look table crc b).toNat = (crc.toNat >>> 8) ^^^ (table (index crc b)).toNat := by
  rw [look, UInt32.toNat_xor, UInt32.toNat_shiftRight]
  rfl

/-- The upper bytes of a register tell the place that was looked up, and one byte less of the
register before. -/
theorem look_cancel (htop : Function.Injective fun i => (table i).toNat >>> 24)
    {s t : UInt32} {d e : UInt8} {k : Nat} (hk : k ≤ 3)
    (h : (look table s d).toNat >>> (8 * k) = (look table t e).toNat >>> (8 * k)) :
    index s d = index t e ∧ s.toNat >>> (8 * (k + 1)) = t.toNat >>> (8 * (k + 1)) := by
  have htopByte : ∀ (r : UInt32) (c : UInt8),
      (look table r c).toNat >>> 24 = (table (index r c)).toNat >>> 24 := by
    intro r c
    have hzero : r.toNat >>> 8 >>> 24 = 0 := by
      rw [← Nat.shiftRight_add]
      exact Nat.shiftRight_eq_zero _ _ r.toNat_lt
    rw [toNat_look, Nat.shiftRight_xor_distrib, hzero, Nat.zero_xor]
  have hbytes : ∀ r : UInt32, r.toNat >>> 24 = r.toNat >>> (8 * k) >>> (24 - 8 * k) := by
    intro r
    rw [← Nat.shiftRight_add]
    congr 1
    omega
  have hindex : index s d = index t e := by
    apply htop
    change (table _).toNat >>> 24 = (table _).toNat >>> 24
    rw [← htopByte, ← htopByte, hbytes, hbytes (look table t e), h]
  refine ⟨hindex, ?_⟩
  rw [toNat_look, toNat_look, hindex, Nat.shiftRight_xor_distrib, Nat.shiftRight_xor_distrib,
    ← Nat.shiftRight_add, ← Nat.shiftRight_add, show 8 + 8 * k = 8 * (k + 1) by omega] at h
  exact Nat.xor_left_injective h

/-- A register is its low byte and what is above. -/
theorem eq_of_high_low {s t : UInt32} (hhigh : s.toNat >>> 8 = t.toNat >>> 8)
    (hlow : s.toUInt8 = t.toUInt8) : s = t := by
  apply UInt32.toNat_inj.mp
  rw [Nat.shiftRight_eq_div_pow, Nat.shiftRight_eq_div_pow] at hhigh
  rw [← UInt8.toNat_inj, UInt32.toNat_toUInt8, UInt32.toNat_toUInt8] at hlow
  omega

theorem index_right_injective {s : UInt32} {d e : UInt8} (h : index s d = index s e) : d = e :=
  (UInt8.xor_right_inj s.toUInt8).mp h

/-- The same bytes bring different registers to different registers. -/
theorem look_left_injective (htop : Function.Injective fun i => (table i).toNat >>> 24)
    {s t : UInt32} {d : UInt8} (h : look table s d = look table t d) : s = t := by
  obtain ⟨hindex, hhigh⟩ := look_cancel htop (Nat.zero_le 3) (congrArg (·.toNat >>> (8 * 0)) h)
  exact eq_of_high_low hhigh ((UInt8.xor_left_inj d).mp hindex)

theorem run_left_injective (htop : Function.Injective fun i => (table i).toNat >>> 24)
    (data : Bytes) {s t : UInt32} (h : data.foldl (look table) s = data.foldl (look table) t) :
    s = t := by
  induction data generalizing s t with
  | nil => exact h
  | cons d data ih => exact look_left_injective htop (ih h)

/-- Four bytes from registers that agree above them: the places looked up are the same. -/
theorem lookups_eq (htop : Function.Injective fun i => (table i).toNat >>> 24)
    {x y : Bytes} (hlen : x.length = y.length) {s t : UInt32} {k : Nat} (hk : k + x.length ≤ 4)
    (h : (x.foldl (look table) s).toNat >>> (8 * k)
      = (y.foldl (look table) t).toNat >>> (8 * k)) :
    lookups table s x = lookups table t y ∧
      s.toNat >>> (8 * (k + x.length)) = t.toNat >>> (8 * (k + x.length)) := by
  induction x generalizing y s t with
  | nil =>
      cases y with
      | nil => exact ⟨rfl, h⟩
      | cons e y => cases hlen
  | cons d x ih =>
      cases y with
      | nil => cases hlen
      | cons e y =>
          rw [List.length_cons] at hk
          obtain ⟨hrest, hupper⟩ := ih (Nat.succ.inj hlen) (by omega) h
          obtain ⟨hindex, hhigh⟩ := look_cancel htop (by omega) hupper
          exact ⟨by rw [lookups, lookups, hindex, hrest], hhigh⟩

/-- From one register, the places looked up tell the bytes. -/
theorem eq_of_lookups_eq {x y : Bytes} {s : UInt32}
    (h : lookups table s x = lookups table s y) : x = y := by
  induction x generalizing y s with
  | nil =>
      cases y with
      | nil => rfl
      | cons e y => cases h
  | cons d x ih =>
      cases y with
      | nil => cases h
      | cons e y =>
          rw [lookups, lookups, List.cons.injEq] at h
          obtain rfl := index_right_injective h.1
          rw [ih h.2]

/-- `a` and `b` differ at most in the `n` bytes from `k` on. -/
def DifferInside (n k : Nat) (a b : Bytes) : Prop := ∀ i, a[i]? ≠ b[i]? → k ≤ i ∧ i < k + n

theorem DifferInside.take_eq {n k : Nat} {a b : Bytes} (h : DifferInside n k a b) :
    a.take k = b.take k := by
  refine List.ext_getElem? fun i => ?_
  rw [List.getElem?_take, List.getElem?_take]
  split
  · next hi => exact by_contra fun hne => absurd (h i hne).1 (not_le.mpr hi)
  · rfl

theorem DifferInside.drop_eq {n k : Nat} {a b : Bytes} (h : DifferInside n k a b) :
    a.drop (k + n) = b.drop (k + n) := by
  refine List.ext_getElem? fun i => ?_
  rw [List.getElem?_drop, List.getElem?_drop]
  exact by_contra fun hne => absurd (h _ hne).2 (by omega)

theorem split_window (n k : Nat) (a : Bytes) :
    a = a.take k ++ (a.drop k).take n ++ a.drop (k + n) := by
  rw [List.append_assoc, ← List.drop_drop, List.take_append_drop, List.take_append_drop]

/-- **Bursts are detected**: two strings that differ, and only within four bytes, end in different
registers. -/
theorem burst_detected (htop : Function.Injective fun i => (table i).toNat >>> 24)
    {a b : Bytes} {k : Nat} (hlen : a.length = b.length) (hne : a ≠ b)
    (hinside : DifferInside 4 k a b) (crc : UInt32) :
    a.foldl (look table) crc ≠ b.foldl (look table) crc := by
  intro heq
  have ha := split_window 4 k a
  have hb := split_window 4 k b
  rw [← hinside.take_eq, ← hinside.drop_eq] at hb
  rw [ha, hb, List.foldl_append, List.foldl_append, List.foldl_append, List.foldl_append] at heq
  have hwindow := run_left_injective htop _ heq
  have hlens : ((a.drop k).take 4).length = ((b.drop k).take 4).length := by
    rw [List.length_take, List.length_take, List.length_drop, List.length_drop, hlen]
  have hfour : 0 + ((a.drop k).take 4).length ≤ 4 := by
    rw [List.length_take]
    omega
  have hsame := eq_of_lookups_eq
    (lookups_eq htop hlens hfour (congrArg (·.toNat >>> (8 * 0)) hwindow)).1
  rw [ha, hb, hsame] at hne
  exact hne rfl

end Burst

end Crc
