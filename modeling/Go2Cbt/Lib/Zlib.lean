import Go2Cbt.Lib.Deflate
import Mathlib.Algebra.BigOperators.Group.Finset.Basic
import Mathlib.Tactic.Ring

/-!
# Lib — zlib streams

A two-byte header, a DEFLATE stream and the Adler-32 of what it decodes to, big-endian.
`decodeStored` reads streams of stored blocks byte by byte; what it accepts is a stream
(`stream_of_decodeStoredStream`).
-/

namespace Zlib

open LittleEndian Deflate

/-! ### Adler-32 -/

/-- The two sums of Adler-32, unreduced. -/
def adlerSums (data : Bytes) : Nat × Nat :=
  data.foldl (fun s d => (s.1 + d.toNat, s.2 + (s.1 + d.toNat))) (1, 0)

/-- Adler-32. -/
def adler32 (data : Bytes) : Nat :=
  (adlerSums data).2 % 65521 * 65536 + (adlerSums data).1 % 65521

/-- The sums from any start.  A byte enters the second one once for each byte from it to the end. -/
theorem foldl_adlerSums (data : Bytes) (s t : Nat) :
    data.foldl (fun s d => (s.1 + d.toNat, s.2 + (s.1 + d.toNat))) (s, t)
      = (s + ∑ i ∈ Finset.range data.length, (data.getD i 0).toNat,
          t + data.length * s
            + ∑ i ∈ Finset.range data.length, (data.length - i) * (data.getD i 0).toNat) := by
  induction data generalizing s t with
  | nil => simp
  | cons d data ih =>
      rw [List.foldl_cons, ih, List.length_cons, Finset.sum_range_succ', Finset.sum_range_succ']
      simp only [List.getD_cons_succ, List.getD_cons_zero, Nat.add_sub_add_right, Nat.sub_zero,
        Prod.mk.injEq]
      constructor <;> ring

/-- **The two sums**, without the loop. -/
theorem adlerSums_eq (data : Bytes) :
    adlerSums data
      = (1 + ∑ i ∈ Finset.range data.length, (data.getD i 0).toNat,
          data.length
            + ∑ i ∈ Finset.range data.length, (data.length - i) * (data.getD i 0).toNat) := by
  rw [adlerSums, foldl_adlerSums, Nat.zero_add, Nat.mul_one]

/-- A 32-bit number, high byte first. -/
def bigEndian (w : Nat) : Bytes := (encode 4 w).reverse

@[simp] theorem length_bigEndian (w : Nat) : (bigEndian w).length = 4 := by
  rw [bigEndian, List.length_reverse, length_encode]

/-! ### Streams -/

/-- The first two bytes: the method is DEFLATE, the window is at most 32 K, no dictionary is
preset, and the two together are a multiple of 31. -/
def Header (cmf flg : UInt8) : Prop :=
  cmf.toNat % 16 = 8 ∧ cmf.toNat / 16 ≤ 7 ∧ flg.toNat.testBit 5 = false ∧
    (256 * cmf.toNat + flg.toNat) % 31 = 0

instance (cmf flg : UInt8) : Decidable (Header cmf flg) :=
  inferInstanceAs (Decidable (_ ∧ _ ∧ _ ∧ _))

/-- A stream and what it decodes to. -/
def Stream (out data : Bytes) : Prop :=
  ∃ cmf flg body, out = cmf :: flg :: (body ++ bigEndian (adler32 data)) ∧ Header cmf flg ∧
    Decodes body data

/-! ### Stored blocks -/

/-- A stored block. -/
def storedBlock (final : Bool) (data : Bytes) : Bytes :=
  UInt8.ofNat final.toNat :: (encode 2 data.length ++ encode 2 (65535 - data.length) ++ data)

/-- A row of stored blocks up to the final one, and what lies behind. -/
def decodeStored : (fuel : Nat) → Bytes → Option (Bytes × Bytes)
  | fuel + 1, header :: l₀ :: l₁ :: n₀ :: n₁ :: rest =>
      let len := l₀.toNat + 256 * l₁.toNat
      if header.toNat < 2 ∧ len + (n₀.toNat + 256 * n₁.toNat) = 65535 ∧ len ≤ rest.length then
        if header.toNat = 1 then some (rest.take len, rest.drop len)
        else (decodeStored fuel (rest.drop len)).map fun r => (rest.take len ++ r.1, r.2)
      else none
  | _, _ => none

/-- A stream of stored blocks, to its last byte. -/
def decodeStoredStream : Bytes → Option Bytes
  | cmf :: flg :: rest =>
      if Header cmf flg then
        match decodeStored rest.length rest with
        | some (data, tail) => if tail = bigEndian (adler32 data) then some data else none
        | none => none
      else none
  | _ => none

theorem storedBlock_eq (final : Bool) {data : Bytes} (h : data.length ≤ 65535) :
    ∃ l₀ l₁ n₀ n₁ : UInt8,
      storedBlock final data = UInt8.ofNat final.toNat :: l₀ :: l₁ :: n₀ :: n₁ :: data ∧
        l₀.toNat + 256 * l₁.toNat = data.length ∧
        n₀.toNat + 256 * n₁.toNat = 65535 - data.length := by
  refine ⟨_, _, _, _, rfl, ?_, ?_⟩
  · have hback := decode_encode_of_lt (n := 2) (w := data.length) (by omega)
    simpa [decode, encode] using hback
  · have hback := decode_encode_of_lt (n := 2) (w := 65535 - data.length) (by omega)
    simpa [decode, encode] using hback

@[simp] theorem length_storedBlock (final : Bool) (data : Bytes) :
    (storedBlock final data).length = 5 + data.length := by
  simp [storedBlock]
  omega

/-- Reading the final block. -/
theorem decodeStored_final {data : Bytes} (h : data.length ≤ 65535) (fuel : Nat) (tail : Bytes) :
    decodeStored (fuel + 1) (storedBlock true data ++ tail) = some (data, tail) := by
  obtain ⟨l₀, l₁, n₀, n₁, heq, hlen, hnlen⟩ := storedBlock_eq true h
  rw [heq]
  simp only [List.cons_append, decodeStored, hlen, hnlen]
  rw [if_pos ⟨by decide, by omega, by simp⟩, if_pos (by decide), List.take_left, List.drop_left]

/-- Reading a block that others follow. -/
theorem decodeStored_more {data : Bytes} (h : data.length ≤ 65535) (fuel : Nat) (next : Bytes) :
    decodeStored (fuel + 1) (storedBlock false data ++ next)
      = (decodeStored fuel next).map fun r => (data ++ r.1, r.2) := by
  obtain ⟨l₀, l₁, n₀, n₁, heq, hlen, hnlen⟩ := storedBlock_eq false h
  rw [heq]
  simp only [List.cons_append, decodeStored, hlen, hnlen]
  rw [if_pos ⟨by decide, by omega, by simp⟩, if_neg (by decide), List.take_left, List.drop_left]

/-- What a stored block decodes to. -/
theorem block_stored {final : Bool} {l₀ l₁ n₀ n₁ : UInt8} {data : Bytes} {rest : List Bool}
    (hlen : data.length = l₀.toNat + 256 * l₁.toNat)
    (hnlen : data.length + (n₀.toNat + 256 * n₁.toNat) = 65535)
    (hrest : rest.length % 8 = 0) (out : Bytes) :
    ∃ bits, bitsOf (UInt8.ofNat final.toNat :: l₀ :: l₁ :: n₀ :: n₁ :: data) ++ rest
        = final :: bits ∧
      Block out bits (out ++ data) rest := by
  have hheader : lowBits 8 (UInt8.ofNat final.toNat).toNat
      = final :: false :: false :: List.replicate 5 false := by
    cases final <;> rfl
  let behind : List Bool :=
    lowBits 8 n₀.toNat ++ (lowBits 8 n₁.toNat ++ (bitsOf data ++ rest))
  let body : List Bool := lowBits 8 l₀.toNat ++ (lowBits 8 l₁.toNat ++ behind)
  have hbody : body.length % 8 = 0 := by
    simp only [body, behind, List.length_append, length_lowBits, length_bitsOf]
    omega
  have halign : align (List.replicate 5 false ++ body) = body := by
    have hfive : (List.replicate 5 false ++ body).length % 8 = 5 := by
      rw [List.length_append, List.length_replicate]
      omega
    rw [align, hfive]
    rfl
  refine ⟨false :: false :: (List.replicate 5 false ++ body), ?_, ?_⟩
  · simp only [bitsOf_cons, hheader, body, behind, List.append_assoc, List.cons_append]
  · have hread : readBits 16 (align (List.replicate 5 false ++ body))
        = some (data.length, behind) := by
      rw [halign, hlen]
      exact readBits_two l₀ l₁ _
    exact .stored hread (readBits_two n₀ n₁ _) hnlen (readBytes_bitsOf data rest)

/-- **What the reader accepts is a row of blocks.** -/
theorem blocks_of_decodeStored {fuel : Nat} {bs data tail : Bytes}
    (h : decodeStored fuel bs = some (data, tail)) :
    ∃ body, bs = body ++ tail ∧ ∀ out, Blocks out (bitsOf body) (out ++ data) [] := by
  induction fuel generalizing bs data with
  | zero => cases h
  | succ fuel ih =>
      rcases bs with _ | ⟨header, _ | ⟨l₀, _ | ⟨l₁, _ | ⟨n₀, _ | ⟨n₁, rest⟩⟩⟩⟩⟩
      · cases h
      · cases h
      · cases h
      · cases h
      · cases h
      · rw [decodeStored] at h
        generalize hlen : l₀.toNat + 256 * l₁.toNat = len at h
        split at h
        case isFalse => cases h
        case isTrue hok =>
          obtain ⟨hheader, hnlen, hrest⟩ := hok
          have htake : (rest.take len).length = len := by
            rw [List.length_take]
            omega
          -- the block that is read, in front of whole bytes
          have hblock : ∀ (final : Bool) (next : Bytes) (out : Bytes),
              header = UInt8.ofNat final.toNat →
              ∃ bits, bitsOf (header :: l₀ :: l₁ :: n₀ :: n₁ :: (rest.take len ++ next))
                  = final :: bits ∧ Block out bits (out ++ rest.take len) (bitsOf next) := by
            rintro final next out rfl
            obtain ⟨bits, hbits, h⟩ := @block_stored final l₀ l₁ n₀ n₁ (rest.take len) (bitsOf next)
              (htake.trans hlen.symm) (by rw [htake]; exact hnlen) (by simp) out
            refine ⟨bits, ?_, h⟩
            rw [← hbits, ← bitsOf_append]
            rfl
          split at h
          · next hfinal =>
              rw [Option.some.injEq, Prod.mk.injEq] at h
              obtain ⟨rfl, rfl⟩ := h
              refine ⟨header :: l₀ :: l₁ :: n₀ :: n₁ :: (rest.take len ++ []), ?_, fun out => ?_⟩
              · simp
              · have hone : header = UInt8.ofNat true.toNat := UInt8.toNat_inj.mp hfinal
                obtain ⟨bits, hbits, h⟩ := hblock true [] out hone
                rw [hbits]
                exact .final h
          · next hmore =>
              rw [Option.map_eq_some_iff] at h
              obtain ⟨⟨data', tail'⟩, hnext, heq⟩ := h
              rw [Prod.mk.injEq] at heq
              obtain ⟨rfl, rfl⟩ := heq
              obtain ⟨body, hbody, hblocks⟩ := ih hnext
              refine ⟨header :: l₀ :: l₁ :: n₀ :: n₁ :: (rest.take len ++ body), ?_,
                fun out => ?_⟩
              · simp only [List.cons_append, List.append_assoc, ← hbody, List.take_append_drop]
              · have hzero : header = UInt8.ofNat false.toNat :=
                  UInt8.toNat_inj.mp (show header.toNat = 0 by omega)
                obtain ⟨bits, hbits, h⟩ := hblock false body out hzero
                rw [hbits, ← List.append_assoc]
                exact .more h (hblocks _)

/-- **What the reader accepts is a stream.** -/
theorem stream_of_decodeStoredStream {out data : Bytes}
    (h : decodeStoredStream out = some data) : Stream out data := by
  rcases out with _ | ⟨cmf, _ | ⟨flg, rest⟩⟩
  · cases h
  · cases h
  · rw [decodeStoredStream] at h
    split at h
    case isFalse => cases h
    case isTrue hheader =>
      split at h
      case h_2 => cases h
      case h_1 read tail hread =>
        split at h
        case isFalse => cases h
        case isTrue htail =>
          cases h
          obtain ⟨body, hbody, hblocks⟩ := blocks_of_decodeStored hread
          refine ⟨cmf, flg, body, ?_, hheader, [], hblocks [], by decide⟩
          rw [hbody, htail]

end Zlib
