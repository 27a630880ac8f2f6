import Go2Cbt.Lib.LittleEndian

/-!
# Lib — DEFLATE

What a DEFLATE stream decodes to, as a relation: `Blocks out bits out' rest` says that the blocks
at the start of `bits` turn the output `out` into `out'` and leave `rest`.  The window is the
output so far, so a stream on its own starts from an empty one.

The bits of a byte come low bit first.  A stream is a whole number of bytes, so the bits that are
left tell where the byte boundary is.
-/

namespace Deflate

/-! ### Bits -/

/-- The `n` low bits of a number, low bit first. -/
def lowBits (n v : Nat) : List Bool := (List.range n).map v.testBit

/-- The bits of a byte string. -/
def bitsOf (data : Bytes) : List Bool := data.flatMap fun b => lowBits 8 b.toNat

/-- A number of `n` bits, low bit first. -/
def readBits : Nat → List Bool → Option (Nat × List Bool)
  | 0, bits => some (0, bits)
  | _ + 1, [] => none
  | n + 1, b :: bits => (readBits n bits).map fun r => (b.toNat + 2 * r.1, r.2)

/-- A row of `n` bytes. -/
def readBytes : Nat → List Bool → Option (Bytes × List Bool)
  | 0, bits => some ([], bits)
  | n + 1, bits => do
      let b ← readBits 8 bits
      let r ← readBytes n b.2
      return (UInt8.ofNat b.1 :: r.1, r.2)

/-- Up to the next byte boundary. -/
def align (bits : List Bool) : List Bool := bits.drop (bits.length % 8)

theorem lowBits_succ (n v : Nat) : lowBits (n + 1) v = v.testBit 0 :: lowBits n (v / 2) := by
  rw [lowBits, List.range_succ_eq_map, List.map_cons, List.map_map, lowBits]
  congr 1
  refine List.map_congr_left fun k _ => ?_
  exact Nat.testBit_succ v k

@[simp] theorem length_lowBits (n v : Nat) : (lowBits n v).length = n := by simp [lowBits]

/-- Reading a number back. -/
theorem readBits_lowBits (n v : Nat) (rest : List Bool) :
    readBits n (lowBits n v ++ rest) = some (v % 2 ^ n, rest) := by
  induction n generalizing v with
  | zero => rw [pow_zero, Nat.mod_one]; rfl
  | succ n ih =>
      have hbit : (v.testBit 0).toNat = v % 2 := by
        rw [Nat.testBit_zero]
        rcases Nat.mod_two_eq_zero_or_one v with h | h <;> simp [h]
      rw [lowBits_succ, List.cons_append, readBits, ih, Option.map_some, hbit, pow_succ',
        Nat.mod_mul]

@[simp] theorem bitsOf_nil : bitsOf [] = [] := rfl

theorem bitsOf_cons (b : UInt8) (data : Bytes) :
    bitsOf (b :: data) = lowBits 8 b.toNat ++ bitsOf data := List.flatMap_cons

theorem bitsOf_append (data rest : Bytes) : bitsOf (data ++ rest) = bitsOf data ++ bitsOf rest :=
  List.flatMap_append

@[simp] theorem length_bitsOf (data : Bytes) : (bitsOf data).length = 8 * data.length := by
  induction data with
  | nil => rfl
  | cons b data ih =>
      rw [bitsOf_cons, List.length_append, length_lowBits, ih, List.length_cons, Nat.mul_succ,
        Nat.add_comm]

theorem readBits_byte (b : UInt8) (rest : List Bool) :
    readBits 8 (lowBits 8 b.toNat ++ rest) = some (b.toNat, rest) := by
  rw [readBits_lowBits, Nat.mod_eq_of_lt b.toNat_lt]

/-- Two readings in a row. -/
theorem readBits_add (m n : Nat) (bits : List Bool) :
    readBits (m + n) bits
      = (readBits m bits).bind fun r => (readBits n r.2).map fun r' => (r.1 + 2 ^ m * r'.1, r'.2) := by
  induction m generalizing bits with
  | zero =>
      rw [Nat.zero_add, readBits, Option.bind_some]
      cases readBits n bits with
      | none => rfl
      | some r => simp
  | succ m ih =>
      rw [Nat.succ_add]
      cases bits with
      | nil => rfl
      | cons b bits =>
          rw [readBits, readBits, ih]
          cases readBits m bits with
          | none => rfl
          | some r =>
              simp only [Option.bind_some, Option.map_some]
              cases readBits n r.2 with
              | none => rfl
              | some r' =>
                  simp only [Option.map_some, Option.some.injEq, Prod.mk.injEq, and_true]
                  rw [pow_succ']
                  ring

/-- A 16-bit number on two bytes. -/
theorem readBits_two (lo hi : UInt8) (rest : List Bool) :
    readBits 16 (lowBits 8 lo.toNat ++ (lowBits 8 hi.toNat ++ rest))
      = some (lo.toNat + 256 * hi.toNat, rest) := by
  rw [show 16 = 8 + 8 from rfl, readBits_add, readBits_byte, Option.bind_some, readBits_byte]
  rfl

theorem readBytes_bitsOf (data : Bytes) (rest : List Bool) :
    readBytes data.length (bitsOf data ++ rest) = some (data, rest) := by
  induction data with
  | nil => rfl
  | cons b data ih =>
      rw [List.length_cons, readBytes, bitsOf_cons, List.append_assoc, readBits_byte]
      simp only [Option.bind_eq_bind, Option.bind_some, ih, UInt8.ofNat_toNat]
      rfl

/-! ### Prefix codes -/

/-- The symbols whose code has `len` bits, of a code given by the length for each symbol. -/
def symbolsOf (lengths : List Nat) (len : Nat) : List Nat :=
  (lengths.zipIdx.filter fun p => p.1 = len).map Prod.snd

/-- The first code of each length. -/
def firstCode (lengths : List Nat) : Nat → Nat
  | 0 => 0
  | len + 1 => 2 * (firstCode lengths len + if len = 0 then 0 else (symbolsOf lengths len).length)

/-- The symbol of a code of `len` bits. -/
def symbolAt (lengths : List Nat) (len code : Nat) : Option Nat :=
  if firstCode lengths len ≤ code then (symbolsOf lengths len)[code - firstCode lengths len]?
  else none

/-- The next symbol, at most `left` bits on; `code` are the `len` bits so far. -/
def symbolFrom (lengths : List Nat) : (left len code : Nat) → List Bool →
    Option (Nat × List Bool)
  | 0, _, _, _ => none
  | _ + 1, _, _, [] => none
  | left + 1, len, code, b :: bits =>
      match symbolAt lengths (len + 1) (2 * code + b.toNat) with
      | some symbol => some (symbol, bits)
      | none => symbolFrom lengths left (len + 1) (2 * code + b.toNat) bits

/-- The next symbol: codes have at most 15 bits. -/
def readSymbol (lengths : List Nat) (bits : List Bool) : Option (Nat × List Bool) :=
  symbolFrom lengths 15 0 0 bits

/-- The fixed code of literals and lengths. -/
def fixedLengths : List Nat :=
  List.replicate 144 8 ++ List.replicate 112 9 ++ List.replicate 24 7 ++ List.replicate 8 8

/-- The fixed code of distances. -/
def fixedDistances : List Nat := List.replicate 32 5

/-- Base and extra bits of the length symbols, from 257 on. -/
def lengthBase : List (Nat × Nat) :=
  [(3, 0), (4, 0), (5, 0), (6, 0), (7, 0), (8, 0), (9, 0), (10, 0), (11, 1), (13, 1), (15, 1),
    (17, 1), (19, 2), (23, 2), (27, 2), (31, 2), (35, 3), (43, 3), (51, 3), (59, 3), (67, 4),
    (83, 4), (99, 4), (115, 4), (131, 5), (163, 5), (195, 5), (227, 5), (258, 0)]

/-- Base and extra bits of the distance symbols. -/
def distanceBase : List (Nat × Nat) :=
  [(1, 0), (2, 0), (3, 0), (4, 0), (5, 1), (7, 1), (9, 2), (13, 2), (17, 3), (25, 3), (33, 4),
    (49, 4), (65, 5), (97, 5), (129, 6), (193, 6), (257, 7), (385, 7), (513, 8), (769, 8),
    (1025, 9), (1537, 9), (2049, 10), (3073, 10), (4097, 11), (6145, 11), (8193, 12), (12289, 12),
    (16385, 13), (24577, 13)]

/-- A number whose symbol has been read. -/
def readExtra (bases : List (Nat × Nat)) (symbol : Nat) (bits : List Bool) :
    Option (Nat × List Bool) := do
  let base ← bases[symbol]?
  let extra ← readBits base.2 bits
  return (base.1 + extra.1, extra.2)

/-- Copy `n` bytes from `distance` back; the copy may run into what it writes. -/
def copyBack (distance : Nat) : (n : Nat) → Bytes → Bytes
  | 0, out => out
  | n + 1, out => copyBack distance n (out ++ [out.getD (out.length - distance) 0])

/-! ### Blocks -/

/-- The symbols of a block up to its end. -/
inductive Symbols (lengths distances : List Nat) :
    Bytes → List Bool → Bytes → List Bool → Prop where
  | stop {out : Bytes} {bits rest : List Bool} (h : readSymbol lengths bits = some (256, rest)) :
      Symbols lengths distances out bits out rest
  | literal {out out' : Bytes} {bits mid rest : List Bool} {symbol : Nat}
      (h : readSymbol lengths bits = some (symbol, mid)) (hlit : symbol < 256)
      (t : Symbols lengths distances (out ++ [UInt8.ofNat symbol]) mid out' rest) :
      Symbols lengths distances out bits out' rest
  | copy {out out' : Bytes} {bits b₁ b₂ b₃ mid rest : List Bool} {s₁ n s₂ distance : Nat}
      (h₁ : readSymbol lengths bits = some (s₁, b₁)) (hlen : 257 ≤ s₁)
      (h₂ : readExtra lengthBase (s₁ - 257) b₁ = some (n, b₂))
      (h₃ : readSymbol distances b₂ = some (s₂, b₃))
      (h₄ : readExtra distanceBase s₂ b₃ = some (distance, mid))
      (hwindow : distance ≤ out.length)
      (t : Symbols lengths distances (copyBack distance n out) mid out' rest) :
      Symbols lengths distances out bits out' rest

/-- The order in which a dynamic block gives the lengths of the code of its lengths. -/
def lengthOrder : List Nat := [16, 17, 18, 0, 8, 7, 9, 6, 10, 5, 11, 4, 12, 3, 13, 2, 14, 1, 15]

/-- A row of `n` numbers of three bits. -/
def readThrees : Nat → List Bool → Option (List Nat × List Bool)
  | 0, bits => some ([], bits)
  | n + 1, bits => do
      let v ← readBits 3 bits
      let r ← readThrees n v.2
      return (v.1 :: r.1, r.2)

/-- The code of the lengths, from those that are given. -/
def lengthCode (given : List Nat) : List Nat :=
  (List.range 19).map fun symbol => given.getD (lengthOrder.idxOf symbol) 0

/-- The `want` code lengths of a dynamic block, given by symbols and repetitions. -/
inductive Lengths (code : List Nat) (want : Nat) :
    List Nat → List Bool → List Nat → List Bool → Prop where
  | done {lens : List Nat} {bits : List Bool} (h : lens.length = want) :
      Lengths code want lens bits lens bits
  | one {lens lens' : List Nat} {bits mid rest : List Bool} {symbol : Nat}
      (h : readSymbol code bits = some (symbol, mid)) (hlen : symbol < 16)
      (t : Lengths code want (lens ++ [symbol]) mid lens' rest) :
      Lengths code want lens bits lens' rest
  | again {lens lens' : List Nat} {last n : Nat} {bits b₁ mid rest : List Bool}
      (h : readSymbol code bits = some (16, b₁)) (h' : readBits 2 b₁ = some (n, mid))
      (hlast : lens.getLast? = some last)
      (t : Lengths code want (lens ++ List.replicate (3 + n) last) mid lens' rest) :
      Lengths code want lens bits lens' rest
  | zeros {lens lens' : List Nat} {n : Nat} {bits b₁ mid rest : List Bool}
      (h : readSymbol code bits = some (17, b₁)) (h' : readBits 3 b₁ = some (n, mid))
      (t : Lengths code want (lens ++ List.replicate (3 + n) 0) mid lens' rest) :
      Lengths code want lens bits lens' rest
  | manyZeros {lens lens' : List Nat} {n : Nat} {bits b₁ mid rest : List Bool}
      (h : readSymbol code bits = some (18, b₁)) (h' : readBits 7 b₁ = some (n, mid))
      (t : Lengths code want (lens ++ List.replicate (11 + n) 0) mid lens' rest) :
      Lengths code want lens bits lens' rest

/-- A block behind its first bit. -/
inductive Block : Bytes → List Bool → Bytes → List Bool → Prop where
  | stored {out data : Bytes} {bits b₁ b₂ rest : List Bool} {len nlen : Nat}
      (h₁ : readBits 16 (align bits) = some (len, b₁)) (h₂ : readBits 16 b₁ = some (nlen, b₂))
      (hnlen : len + nlen = 65535) (h₃ : readBytes len b₂ = some (data, rest)) :
      Block out (false :: false :: bits) (out ++ data) rest
  | fixed {out out' : Bytes} {bits rest : List Bool}
      (h : Symbols fixedLengths fixedDistances out bits out' rest) :
      Block out (true :: false :: bits) out' rest
  | dynamic {out out' : Bytes} {bits b₁ b₂ b₃ b₄ b₅ rest : List Bool} {hlit hdist hclen : Nat}
      {given lens : List Nat}
      (h₁ : readBits 5 bits = some (hlit, b₁)) (h₂ : readBits 5 b₁ = some (hdist, b₂))
      (h₃ : readBits 4 b₂ = some (hclen, b₃)) (h₄ : readThrees (hclen + 4) b₃ = some (given, b₄))
      (h₅ : Lengths (lengthCode given) (hlit + 257 + (hdist + 1)) [] b₄ lens b₅)
      (h₆ : Symbols (lens.take (hlit + 257)) (lens.drop (hlit + 257)) out b₅ out' rest) :
      Block out (false :: true :: bits) out' rest

/-- A row of blocks up to the final one. -/
inductive Blocks : Bytes → List Bool → Bytes → List Bool → Prop where
  | final {out out' : Bytes} {bits rest : List Bool} (h : Block out bits out' rest) :
      Blocks out (true :: bits) out' rest
  | more {out mid out' : Bytes} {bits b rest : List Bool} (h : Block out bits mid b)
      (t : Blocks mid b out' rest) : Blocks out (false :: bits) out' rest

/-- A stream and what it decodes to, from an empty window; less than a byte is left. -/
def Decodes (stream data : Bytes) : Prop :=
  ∃ rest, Blocks [] (bitsOf stream) data rest ∧ rest.length < 8

/-! ### How a stream begins -/

/-- A distance is at least one. -/
theorem one_le_distance {symbol distance : Nat} {bits rest : List Bool}
    (h : readExtra distanceBase symbol bits = some (distance, rest)) : 1 ≤ distance := by
  have hbases : ∀ base ∈ distanceBase, 1 ≤ base.1 := by decide
  rw [readExtra] at h
  cases hbase : distanceBase[symbol]? with
  | none =>
      rw [hbase] at h
      cases h
  | some base =>
      rw [hbase] at h
      cases hextra : readBits base.2 bits with
      | none =>
          simp only [Option.bind_eq_bind, Option.bind_some, hextra] at h
          cases h
      | some extra =>
          simp only [Option.bind_eq_bind, Option.bind_some, hextra] at h
          cases h
          have hone := hbases base (List.mem_of_getElem? hbase)
          exact hone.trans (Nat.le_add_right _ _)

/-- The bits of "CK" behind the header of the block they open. -/
theorem readSymbol_ck (rest : List Bool) :
    readSymbol fixedLengths
        (false :: false :: false :: true :: false :: true :: true :: false :: true :: false
          :: false :: true :: false :: rest)
      = some (267, false :: true :: false :: false :: true :: false :: rest) := by
  rfl

/-- The bits of "CK": a final block of the fixed code. -/
theorem bitsOf_ck (stream : Bytes) :
    bitsOf (0x43 :: 0x4B :: stream)
      = true :: true :: false :: false :: false :: false :: true :: false :: true :: true
          :: false :: true :: false :: false :: true :: false :: bitsOf stream := rfl

/-- A first symbol that copies finds an empty output. -/
theorem not_symbols_of_copy {lengths distances : List Nat} {data : Bytes}
    {bits mid rest : List Bool} {symbol : Nat} (h : readSymbol lengths bits = some (symbol, mid))
    (hcopy : 256 < symbol) : ¬ Symbols lengths distances [] bits data rest := by
  intro hsymbols
  cases hsymbols with
  | stop h' =>
      rw [h, Option.some.injEq, Prod.mk.injEq] at h'
      omega
  | literal h' hlit =>
      rw [h, Option.some.injEq, Prod.mk.injEq] at h'
      omega
  | copy h₁ hlen h₂ h₃ h₄ hwindow =>
      have hone := one_le_distance h₄
      rw [List.length_nil] at hwindow
      omega

/-- **No stream begins with "CK"**: the two bytes open a final block of the fixed code whose first
symbol copies from an output that is still empty. -/
theorem not_blocks_ck (stream data : Bytes) (rest : List Bool) :
    ¬ Blocks [] (bitsOf (0x43 :: 0x4B :: stream)) data rest := by
  rw [bitsOf_ck]
  intro h
  cases h with
  | final h =>
      cases h with
      | fixed h => exact not_symbols_of_copy (readSymbol_ck _) (by decide) h

theorem not_decodes_ck (stream data : Bytes) : ¬ Decodes (0x43 :: 0x4B :: stream) data :=
  fun ⟨rest, h, _⟩ => not_blocks_ck stream data rest h

/-! ### How short a stream can be -/

theorem readBits_of_lt {n : Nat} {bits : List Bool} (h : bits.length < n) :
    readBits n bits = none := by
  induction n generalizing bits with
  | zero => exact absurd h (Nat.not_lt_zero _)
  | succ n ih =>
      cases bits with
      | nil => rfl
      | cons b bits => rw [readBits, ih (Nat.lt_of_succ_lt_succ h), Option.map_none]

theorem length_of_readBits {n v : Nat} {bits rest : List Bool}
    (h : readBits n bits = some (v, rest)) : bits.length = n + rest.length := by
  induction n generalizing bits v with
  | zero =>
      rw [readBits, Option.some.injEq, Prod.mk.injEq] at h
      rw [h.2, Nat.zero_add]
  | succ n ih =>
      cases bits with
      | nil => cases h
      | cons b bits =>
          rw [readBits, Option.map_eq_some_iff] at h
          obtain ⟨⟨w, rest'⟩, hr, heq⟩ := h
          obtain rfl : rest' = rest := congrArg Prod.snd heq
          rw [List.length_cons, ih hr]
          omega

/-- Five bits are no symbol of the fixed code. -/
theorem readSymbol_fixed_five {bits : List Bool} (h : bits.length = 5) :
    readSymbol fixedLengths bits = none := by
  have hall : ∀ b₀ b₁ b₂ b₃ b₄ : Bool, readSymbol fixedLengths [b₀, b₁, b₂, b₃, b₄] = none := by
    decide +kernel
  obtain ⟨b₀, bits, rfl⟩ := List.exists_cons_of_length_eq_add_one h
  obtain ⟨b₁, bits, rfl⟩ := List.exists_cons_of_length_eq_add_one (Nat.succ.inj h)
  obtain ⟨b₂, bits, rfl⟩ := List.exists_cons_of_length_eq_add_one (Nat.succ.inj (Nat.succ.inj h))
  rcases bits with _ | ⟨b₃, _ | ⟨b₄, _ | ⟨b₅, bits⟩⟩⟩
  · cases h
  · cases h
  · exact hall ..
  · simp at h

theorem not_symbols_of_none {lengths distances : List Nat} {out data : Bytes}
    {bits rest : List Bool} (h : readSymbol lengths bits = none) :
    ¬ Symbols lengths distances out bits data rest := by
  intro hsymbols
  cases hsymbols with
  | stop h' =>
      rw [h] at h'
      cases h'
  | literal h' =>
      rw [h] at h'
      cases h'
  | copy h' =>
      rw [h] at h'
      cases h'

/-- Seven bits are no block. -/
theorem not_block_of_seven {out data : Bytes} {bits rest : List Bool} (hlen : bits.length = 7) :
    ¬ Block out bits data rest := by
  intro h
  obtain ⟨t₀, bits, rfl⟩ := List.exists_cons_of_length_eq_add_one hlen
  obtain ⟨t₁, body, rfl⟩ := List.exists_cons_of_length_eq_add_one (Nat.succ.inj hlen)
  have hfive : body.length = 5 := Nat.succ.inj (Nat.succ.inj hlen)
  cases h with
  | stored h₁ =>
      have hempty : (align body).length < 16 := by
        rw [align, List.length_drop, hfive]
        decide
      rw [readBits_of_lt hempty] at h₁
      cases h₁
  | fixed h => exact not_symbols_of_none (readSymbol_fixed_five hfive) h
  | dynamic h₁ h₂ =>
      have hused := length_of_readBits h₁
      rw [readBits_of_lt (by omega)] at h₂
      cases h₂

/-- **A stream has more than one byte.** -/
theorem Decodes.two_le {stream data : Bytes} (h : Decodes stream data) : 2 ≤ stream.length := by
  obtain ⟨rest, h, _⟩ := h
  by_contra hshort
  have hlen := length_bitsOf stream
  generalize bitsOf stream = bits at h hlen
  cases h with
  | final h =>
      rw [List.length_cons] at hlen
      exact not_block_of_seven (by omega) h
  | more h =>
      rw [List.length_cons] at hlen
      exact not_block_of_seven (by omega) h

end Deflate
