import Go2Cbt.Lib.LittleEndian
import Mathlib.Data.List.GetD

/-!
# Lib — bit sets laid out in 32-bit words

Bit `i` of a word list is bit `i % 32` of word `i / 32`.  `setBits` sets a run of bits, `clear`
clears every bit, and `bytes` lays the words out little-endian: bit `i` of the words is then
bit `i % 8` of byte `i / 8` (`testBit_bytes`), whatever the word boundaries.
-/

namespace BitWords

/-- Bit `i`; a bit past the last word reads as clear. -/
def bit (ws : List UInt32) (i : Nat) : Bool := (ws.getD (i / 32) 0).toNat.testBit (i % 32)

/-- Set bit `i`; nothing happens past the last word. -/
def setBit (ws : List UInt32) (i : Nat) : List UInt32 :=
  ws.set (i / 32) (ws.getD (i / 32) 0 ||| 1 <<< UInt32.ofNat (i % 32))

/-- Set the `n` bits from `start` on. -/
def setBits (ws : List UInt32) (start n : Nat) : List UInt32 :=
  (List.range' start n).foldl setBit ws

/-- Clear every bit. -/
def clear (ws : List UInt32) : List UInt32 := ws.map fun _ => 0

/-- The words as memory holds them. -/
def bytes (ws : List UInt32) : Bytes := ws.flatMap LittleEndian.ofU32

@[simp] theorem length_setBit (ws : List UInt32) (i : Nat) :
    (setBit ws i).length = ws.length := by
  simp [setBit]

@[simp] theorem length_setBits (ws : List UInt32) (start n : Nat) :
    (setBits ws start n).length = ws.length := by
  induction n generalizing ws start with
  | zero => rfl
  | succ n ih =>
      rw [setBits, List.range'_succ, List.foldl_cons]
      exact (ih _ _).trans (length_setBit ws start)

@[simp] theorem length_clear (ws : List UInt32) : (clear ws).length = ws.length := by
  simp [clear]

@[simp] theorem length_bytes (ws : List UInt32) : (bytes ws).length = 4 * ws.length := by
  induction ws with
  | nil => rfl
  | cons w ws ih => simp only [bytes, List.flatMap_cons, List.length_append,
      LittleEndian.length_ofU32, List.length_cons] at ih ⊢; omega

/-- A bit past the words is clear. -/
theorem bit_of_le {ws : List UInt32} {i : Nat} (h : ws.length ≤ i / 32) : bit ws i = false := by
  simp [bit, List.getD_eq_getElem?_getD, List.getElem?_eq_none h]

theorem bit_clear (ws : List UInt32) (i : Nat) : bit (clear ws) i = false := by
  by_cases h : i / 32 < ws.length
  · simp [bit, clear, List.getD_eq_getElem?_getD, h]
  · exact bit_of_le (by simpa using h)

theorem bit_replicate (n i : Nat) : bit (List.replicate n 0) i = false := by
  by_cases h : i / 32 < n
  · simp [bit, List.getD_eq_getElem?_getD, h]
  · exact bit_of_le (by simpa using h)

/-- One shifted bit of a word. -/
theorem testBit_one_shiftLeft {k j : Nat} (hk : k < 32) :
    ((1 : UInt32) <<< UInt32.ofNat k).toNat.testBit j = decide (j = k) := by
  have hval : ((1 : UInt32) <<< UInt32.ofNat k).toNat = 2 ^ k := by
    have hk' : k % 2 ^ 32 % 32 = k := by omega
    have hpow : 2 ^ k < 2 ^ 32 := Nat.pow_lt_pow_right (by omega) hk
    rw [UInt32.toNat_shiftLeft, UInt32.toNat_ofNat', hk', UInt32.toNat_one,
      Nat.one_shiftLeft, Nat.mod_eq_of_lt hpow]
  rw [hval, Nat.testBit_two_pow]
  exact decide_eq_decide.mpr eq_comm

theorem bit_setBit (ws : List UInt32) (i j : Nat) :
    bit (setBit ws i) j = (bit ws j || decide (j = i ∧ i / 32 < ws.length)) := by
  by_cases hw : i / 32 < ws.length
  · by_cases hij : i / 32 = j / 32
    · have hset : (setBit ws i).getD (j / 32) 0
          = ws.getD (j / 32) 0 ||| 1 <<< UInt32.ofNat (i % 32) := by
        rw [setBit, hij, List.getD_eq_getElem?_getD, List.getElem?_set_self (hij ▸ hw)]
        rfl
      have hbit : decide (j % 32 = i % 32) = decide (j = i ∧ i / 32 < ws.length) :=
        decide_eq_decide.mpr ⟨fun h => ⟨by omega, hw⟩, fun h => by rw [h.1]⟩
      rw [bit, hset, UInt32.toNat_or, Nat.testBit_or, testBit_one_shiftLeft (by omega), hbit, bit]
    · have hset : (setBit ws i).getD (j / 32) 0 = ws.getD (j / 32) 0 := by
        simp [setBit, List.getD_eq_getElem?_getD, List.getElem?_set_ne hij]
      have hne : ¬ (j = i ∧ i / 32 < ws.length) := fun h => hij (by rw [h.1])
      rw [bit, hset, decide_eq_false hne, Bool.or_false, bit]
  · have hset : setBit ws i = ws := List.set_eq_of_length_le (by omega)
    simp [hset, hw]

/-- **`setBits` sets exactly its run**, as far as the words reach. -/
theorem bit_setBits (ws : List UInt32) (start n j : Nat) :
    bit (setBits ws start n) j
      = (bit ws j || decide (start ≤ j ∧ j < start + n ∧ j / 32 < ws.length)) := by
  induction n generalizing ws start with
  | zero =>
      have h : ¬ (start ≤ j ∧ j < start + 0 ∧ j / 32 < ws.length) := by omega
      rw [decide_eq_false h, Bool.or_false, setBits, List.range'_zero, List.foldl_nil]
  | succ n ih =>
      have hunfold : setBits ws start (n + 1) = setBits (setBit ws start) (start + 1) n := by
        rw [setBits, List.range'_succ, List.foldl_cons, setBits]
      rw [hunfold, ih, bit_setBit, length_setBit, Bool.or_assoc, ← Bool.decide_or]
      congr 1
      refine decide_eq_decide.mpr ⟨?_, ?_⟩
      · rintro (⟨rfl, hw⟩ | ⟨hlo, hhi, hw⟩)
        · exact ⟨le_refl _, by omega, hw⟩
        · exact ⟨by omega, by omega, hw⟩
      · rintro ⟨hlo, hhi, hw⟩
        by_cases hj : j = start
        · exact .inl ⟨hj, hj ▸ hw⟩
        · exact .inr ⟨by omega, by omega, hw⟩

/-- Byte `j` of the words is byte `j % 4` of word `j / 4`. -/
theorem getD_bytes (ws : List UInt32) (j : Nat) :
    (bytes ws).getD j 0 = (LittleEndian.ofU32 (ws.getD (j / 4) 0)).getD (j % 4) 0 := by
  induction ws generalizing j with
  | nil =>
      have hzero : LittleEndian.ofU32 0 = List.replicate 4 0 := by decide
      rw [List.getD_nil, hzero, List.getD_replicate _ (by omega)]
      rfl
  | cons w ws ih =>
      rw [bytes, List.flatMap_cons]
      by_cases hj : j < 4
      · have h0 : j / 4 = 0 := by omega
        have h1 : j % 4 = j := by omega
        rw [List.getD_append _ _ _ _ (by simpa using hj), h0, h1, List.getD_cons_zero]
      · obtain ⟨k, rfl⟩ : ∃ k, j = k + 4 := ⟨j - 4, by omega⟩
        have h0 : (k + 4) / 4 = k / 4 + 1 := by omega
        have h1 : (k + 4) % 4 = k % 4 := by omega
        rw [List.getD_append_right _ _ _ _ (by simp), LittleEndian.length_ofU32, h0, h1,
          List.getD_cons_succ, Nat.add_sub_cancel]
        exact ih k

/-- **The byte view of the words**: bit `k` of byte `j` is bit `8 * j + k`. -/
theorem testBit_bytes (ws : List UInt32) {j k : Nat} (hk : k < 8) :
    ((bytes ws).getD j 0).toNat.testBit k = bit ws (8 * j + k) := by
  have hword : (8 * j + k) / 32 = j / 4 := by omega
  have hbit : (8 * j + k) % 32 = 8 * (j % 4) + k := by omega
  rw [getD_bytes, LittleEndian.ofU32, LittleEndian.testBit_encode (by omega) hk, bit, hword, hbit]

end BitWords
