import Go2Cbt.Basic
import Go2Cbt.Lib.Cursor
import Go2Cbt.Lib.Zlib

/-!
# Client — DataCompressor

What a block becomes before it is sent: a zlib stream.  `CreateStoredZlib` builds one without
compressing; `Compress` wraps what the system's compressor returns, with or without the "CK" in
front of it.
-/

namespace Go2Cbt.Client

open LittleEndian Zlib

/-! ### The checksum -/

/-- One turn of the loop of `ComputeAdler32`. -/
def adlerStep (s : UInt32 × UInt32) (d : UInt8) : UInt32 × UInt32 :=
  let a := (s.1 + d.toUInt32) % 65521
  (a, (s.2 + a) % 65521)

/-- `ComputeAdler32`. -/
def computeAdler32 (data : Bytes) : UInt32 :=
  let s := data.foldl adlerStep (1, 0)
  (s.2 <<< 16) ||| s.1

/-- The four bytes behind the blocks. -/
def adlerBytes (adler : UInt32) : Bytes :=
  [(adler >>> 24).toUInt8, (adler >>> 16).toUInt8, (adler >>> 8).toUInt8, adler.toUInt8]

/-- The sums of the code are those of Adler-32, reduced. -/
def Reduced (s : UInt32 × UInt32) (t : Nat × Nat) : Prop :=
  s.1.toNat = t.1 % 65521 ∧ s.2.toNat = t.2 % 65521

theorem reduced_adlerStep {s : UInt32 × UInt32} {t : Nat × Nat} (h : Reduced s t) (d : UInt8) :
    Reduced (adlerStep s d) (t.1 + d.toNat, t.2 + (t.1 + d.toNat)) := by
  have hd := d.toNat_lt
  have ha : ((s.1 + d.toUInt32) % 65521).toNat = (t.1 + d.toNat) % 65521 := by
    rw [UInt32.toNat_mod, UInt32.toNat_add, UInt8.toNat_toUInt32, h.1]
    change (t.1 % 65521 + d.toNat) % 2 ^ 32 % 65521 = _
    omega
  refine ⟨ha, ?_⟩
  change ((s.2 + (s.1 + d.toUInt32) % 65521) % 65521).toNat = _
  rw [UInt32.toNat_mod, UInt32.toNat_add, ha, h.2]
  change (t.2 % 65521 + (t.1 + d.toNat) % 65521) % 2 ^ 32 % 65521 = _
  omega

theorem reduced_foldl {s : UInt32 × UInt32} {t : Nat × Nat} (h : Reduced s t) (data : Bytes) :
    Reduced (data.foldl adlerStep s)
      (data.foldl (fun s d => (s.1 + d.toNat, s.2 + (s.1 + d.toNat))) t) := by
  induction data generalizing s t with
  | nil => exact h
  | cons d data ih => exact ih (reduced_adlerStep h d)

/-- **The checksum is Adler-32.** -/
theorem toNat_computeAdler32 (data : Bytes) : (computeAdler32 data).toNat = adler32 data := by
  obtain ⟨ha, hb⟩ : Reduced (data.foldl adlerStep (1, 0)) (adlerSums data) :=
    reduced_foldl ⟨rfl, rfl⟩ data
  have hshift : ((data.foldl adlerStep (1, 0)).2 <<< 16).toNat
      = (data.foldl adlerStep (1, 0)).2.toNat <<< 16 := by
    rw [UInt32.toNat_shiftLeft, Nat.mod_eq_of_lt]
    · rfl
    · change _ <<< 16 < 2 ^ 32
      rw [Nat.shiftLeft_eq, hb]
      omega
  rw [computeAdler32, UInt32.toNat_or, hshift, ← Nat.shiftLeft_add_eq_or_of_lt (by rw [ha]; omega),
    Nat.shiftLeft_eq, ha, hb, adler32]

/-- The two variables of `ComputeAdler32` after `i` turns of its loop. -/
def adlerAfter (data : Bytes) (i : Nat) : UInt32 × UInt32 := (data.take i).foldl adlerStep (1, 0)

theorem adlerAfter_lt (data : Bytes) (i : Nat) :
    (adlerAfter data i).1.toNat < 65521 ∧ (adlerAfter data i).2.toNat < 65521 := by
  obtain ⟨ha, hb⟩ : Reduced (adlerAfter data i) (adlerSums (data.take i)) :=
    reduced_foldl ⟨rfl, rfl⟩ (data.take i)
  rw [ha, hb]
  exact ⟨Nat.mod_lt _ (by decide), Nat.mod_lt _ (by decide)⟩

/-- **The checksum without the loop**, and neither addition of a turn wraps. -/
theorem computeAdler32_closed (data : Bytes) :
    (computeAdler32 data).toNat
        = (data.length + ∑ i ∈ Finset.range data.length, (data.length - i) * (data.getD i 0).toNat)
              % 65521 * 65536
          + (1 + ∑ i ∈ Finset.range data.length, (data.getD i 0).toNat) % 65521 ∧
      ∀ i : Fin data.length,
        (adlerAfter data i).1.toNat + data[i].toUInt32.toNat < 4294967296 ∧
        (adlerAfter data i).2.toNat
            + (((adlerAfter data i).1 + data[i].toUInt32) % 65521).toNat < 4294967296 := by
  refine ⟨?_, fun i => ?_⟩
  · rw [toNat_computeAdler32, adler32, adlerSums_eq]
  · obtain ⟨ha, hb⟩ := adlerAfter_lt data i
    have hd := data[i].toNat_lt
    have hmod := Nat.mod_lt ((adlerAfter data i).1 + data[i].toUInt32).toNat
      (show 65521 > 0 by decide)
    constructor
    · rw [UInt8.toNat_toUInt32]
      omega
    · rw [UInt32.toNat_mod]
      change _ + _ % 65521 < _
      omega

/-- A byte of a word. -/
theorem toUInt8_eq_ofNat (w : UInt32) : w.toUInt8 = UInt8.ofNat w.toNat := by
  apply UInt8.toNat_inj.mp
  rw [UInt32.toNat_toUInt8, UInt8.toNat_ofNat']

theorem adlerBytes_eq (adler : UInt32) : adlerBytes adler = bigEndian adler.toNat := by
  have h₈ : (adler >>> 8).toNat = adler.toNat / 256 := UInt32.toNat_shiftRight adler 8 |>.trans
    (Nat.shiftRight_eq_div_pow _ 8)
  have h₁₆ : (adler >>> 16).toNat = adler.toNat / 256 / 256 := by
    rw [Nat.div_div_eq_div_mul]
    exact (UInt32.toNat_shiftRight adler 16).trans (Nat.shiftRight_eq_div_pow _ 16)
  have h₂₄ : (adler >>> 24).toNat = adler.toNat / 256 / 256 / 256 := by
    rw [Nat.div_div_eq_div_mul, Nat.div_div_eq_div_mul]
    exact (UInt32.toNat_shiftRight adler 24).trans (Nat.shiftRight_eq_div_pow _ 24)
  rw [adlerBytes, toUInt8_eq_ofNat, toUInt8_eq_ofNat, toUInt8_eq_ofNat, toUInt8_eq_ofNat, h₈, h₁₆,
    h₂₄]
  rfl

/-! ### Stored blocks -/

/-- `chunkSize` of the next block. -/
def nextChunk (inputSize offset : UInt32) : UInt32 :=
  if inputSize - offset < 65535 then inputSize - offset else 65535

theorem toNat_nextChunk {inputSize offset : UInt32} (h : offset ≤ inputSize) :
    (nextChunk inputSize offset).toNat = min (inputSize.toNat - offset.toNat) 65535 := by
  have hsub := UInt32.toNat_sub_of_le inputSize offset h
  rw [nextChunk]
  split
  · next hlt =>
      have hrest := UInt32.lt_iff_toNat_lt.mp hlt
      rw [hsub] at hrest ⊢
      exact (min_eq_left hrest.le).symm
  · next hge =>
      have hrest := mt UInt32.lt_iff_toNat_lt.mpr hge
      rw [hsub] at hrest
      exact (min_eq_right (not_lt.mp hrest)).symm

theorem toNat_add_nextChunk {inputSize offset : UInt32} (h : offset ≤ inputSize) :
    (offset + nextChunk inputSize offset).toNat
      = offset.toNat + min (inputSize.toNat - offset.toNat) 65535 := by
  have hle := UInt32.le_iff_toNat_le.mp h
  have hlt := inputSize.toNat_lt
  rw [UInt32.toNat_add, toNat_nextChunk h, Nat.mod_eq_of_lt]
  omega

/-- The loop of `CreateStoredZlib`; nothing when it would write past the end of its buffer. -/
def storedBlocks (input : Bytes) (inputSize offset : UInt32) (output : Cursor) : Option Cursor :=
  if _h : offset < inputSize then
    let chunkSize := nextChunk inputSize offset
    let isFinal := offset + chunkSize ≥ inputSize
    let nlen := (~~~chunkSize).toUInt16
    do
      let output ← output.put [if isFinal then 0x01 else 0x00]
      let output ← output.put [chunkSize.toUInt8, (chunkSize >>> 8).toUInt8]
      let output ← output.put [nlen.toUInt8, (nlen >>> 8).toUInt8]
      let output ← output.put ((input.drop offset.toNat).take chunkSize.toNat)
      storedBlocks input inputSize (offset + chunkSize) output
  else some output
termination_by inputSize.toNat - offset.toNat
decreasing_by
  have hlt : offset.toNat < inputSize.toNat := UInt32.lt_iff_toNat_lt.mp _h
  rw [toNat_add_nextChunk (UInt32.le_iff_toNat_le.mpr hlt.le)]
  omega

/-- The size that `CreateStoredZlib` reserves. -/
def storedSize (inputSize : UInt32) : Nat :=
  let numChunks := (inputSize + 65534) / 65535
  2 + numChunks.toNat * 5 + inputSize.toNat + 4

/-- `CreateStoredZlib`; nothing when it would write past the end of its buffer. -/
def createStoredZlib (input : Bytes) : Option Bytes := do
  let inputSize := UInt32.ofNat input.length
  let output := Cursor.reserve (storedSize inputSize)
  let output ← output.put [0x78]
  let output ← output.put [0x01]
  let output ← storedBlocks input inputSize 0 output
  let output ← output.put (adlerBytes (computeAdler32 input))
  return output.written

/-! ### What it builds -/

/-- The bytes of the blocks of `n` bytes. -/
def storedLength (n : Nat) : Nat := (n + 65534) / 65535 * 5 + n

theorem storedLength_step {n : Nat} (hpos : 0 < n) :
    storedLength n = 5 + min n 65535 + storedLength (n - min n 65535) := by
  rcases le_total n 65535 with hle | hle
  · have hone : (n + 65534) / 65535 = 1 := by omega
    rw [min_eq_left hle, Nat.sub_self, storedLength, hone]
    rfl
  · have hnext : (n + 65534) / 65535 = (n - 65535 + 65534) / 65535 + 1 := by omega
    rw [min_eq_right hle, storedLength, storedLength, hnext]
    omega

theorem toNat_byte₈ (w : UInt32) : (w >>> 8).toNat = w.toNat / 256 :=
  (UInt32.toNat_shiftRight w 8).trans (Nat.shiftRight_eq_div_pow _ 8)

/-- The bytes that a turn of the loop puts. -/
theorem block_bytes {chunkSize : UInt32} (isFinal : Bool) {chunk : Bytes}
    (hlen : chunk.length = chunkSize.toNat) (hsize : chunkSize.toNat ≤ 65535) :
    [if isFinal then (0x01 : UInt8) else 0x00]
        ++ ([chunkSize.toUInt8, (chunkSize >>> 8).toUInt8]
          ++ ([(~~~chunkSize).toUInt16.toUInt8, ((~~~chunkSize).toUInt16 >>> 8).toUInt8] ++ chunk))
      = storedBlock isFinal chunk := by
  have hheader : (if isFinal then (0x01 : UInt8) else 0x00) = UInt8.ofNat isFinal.toNat := by
    cases isFinal <;> rfl
  have hl : [chunkSize.toUInt8, (chunkSize >>> 8).toUInt8] = encode 2 chunk.length := by
    rw [toUInt8_eq_ofNat, toUInt8_eq_ofNat, toNat_byte₈, hlen]
    rfl
  have hnot : (~~~chunkSize).toUInt16.toNat = 65535 - chunk.length := by
    rw [UInt32.toNat_toUInt16, UInt32.toNat_not, hlen]
    change (2 ^ 32 - 1 - chunkSize.toNat) % 2 ^ 16 = _
    omega
  have hn : [(~~~chunkSize).toUInt16.toUInt8, ((~~~chunkSize).toUInt16 >>> 8).toUInt8]
      = encode 2 (65535 - chunk.length) := by
    have hlow : (~~~chunkSize).toUInt16.toUInt8 = UInt8.ofNat (65535 - chunk.length) := by
      apply UInt8.toNat_inj.mp
      rw [UInt16.toNat_toUInt8, UInt8.toNat_ofNat', hnot]
    have hhigh : ((~~~chunkSize).toUInt16 >>> 8).toUInt8
        = UInt8.ofNat ((65535 - chunk.length) / 256) := by
      apply UInt8.toNat_inj.mp
      rw [UInt16.toNat_toUInt8, UInt8.toNat_ofNat', UInt16.toNat_shiftRight, hnot]
      exact congrArg (· % 2 ^ 8) (Nat.shiftRight_eq_div_pow _ 8)
    rw [hlow, hhigh]
    rfl
  rw [hheader, hl, hn, storedBlock, List.append_assoc]
  rfl

/-- The bytes of the next block. -/
def chunkAt (input : Bytes) (inputSize offset : UInt32) : Bytes :=
  (input.drop offset.toNat).take (nextChunk inputSize offset).toNat

theorem length_chunkAt {input : Bytes} {inputSize offset : UInt32}
    (hinput : input.length = inputSize.toNat) (hoffset : offset ≤ inputSize) :
    (chunkAt input inputSize offset).length = (nextChunk inputSize offset).toNat := by
  rw [chunkAt, List.length_take, List.length_drop, hinput, toNat_nextChunk hoffset]
  omega

/-- A turn of the loop puts a stored block. -/
theorem storedBlocks_turn {input : Bytes} {inputSize offset : UInt32}
    (hinput : input.length = inputSize.toNat) (hoffset : offset < inputSize) {output : Cursor}
    (hroom : output.pos + (5 + (nextChunk inputSize offset).toNat) ≤ output.buf.length) :
    ∃ output',
      storedBlocks input inputSize offset output
          = storedBlocks input inputSize (offset + nextChunk inputSize offset) output' ∧
        output.Puts
          (storedBlock (offset + nextChunk inputSize offset ≥ inputSize)
            (chunkAt input inputSize offset)) output' := by
  have hle : offset ≤ inputSize := UInt32.le_of_lt hoffset
  have hlen := length_chunkAt hinput hle
  have hchunk : (nextChunk inputSize offset).toNat ≤ 65535 := by
    rw [toNat_nextChunk hle]
    exact min_le_right _ _
  have hroom₀ : output.pos
      + ([if offset + nextChunk inputSize offset ≥ inputSize then (0x01 : UInt8) else 0x00].length
        + (2 + (2 + (nextChunk inputSize offset).toNat))) ≤ output.buf.length := by
    change _ + (1 + _) ≤ _
    omega
  obtain ⟨o₁, h₁, p₁, hroom₁⟩ := Cursor.put_of_room hroom₀
  obtain ⟨o₂, h₂, p₂, hroom₂⟩ := @Cursor.put_of_room o₁
    [(nextChunk inputSize offset).toUInt8, (nextChunk inputSize offset >>> 8).toUInt8] _ hroom₁
  obtain ⟨o₃, h₃, p₃, hroom₃⟩ := @Cursor.put_of_room o₂
    [(~~~nextChunk inputSize offset).toUInt16.toUInt8,
      ((~~~nextChunk inputSize offset).toUInt16 >>> 8).toUInt8] _ hroom₂
  rw [← hlen] at hroom₃
  obtain ⟨o₄, h₄, p₄⟩ := Cursor.put_of_le hroom₃
  refine ⟨o₄, ?_, ?_⟩
  · rw [storedBlocks, dif_pos hoffset]
    simp only [h₁, h₂, h₃, Option.bind_eq_bind, Option.bind_some]
    rw [← chunkAt, h₄, Option.bind_some]
  · rw [← block_bytes _ hlen hchunk]
    simp only [decide_eq_true_eq]
    exact p₁.trans (p₂.trans (p₃.trans p₄))

/-- **The loop**: it fits, and it puts blocks that read back as the rest of the input. -/
theorem storedBlocks_spec {input : Bytes} {inputSize : UInt32}
    (hinput : input.length = inputSize.toNat) (left : Nat) {offset : UInt32}
    (hleft : offset.toNat + left = inputSize.toNat) {output : Cursor}
    (hroom : output.pos + storedLength left ≤ output.buf.length) :
    ∃ output' body, storedBlocks input inputSize offset output = some output' ∧
      output.Puts body output' ∧ body.length = storedLength left ∧
      (0 < left → ∀ fuel tail, (left + 65534) / 65535 ≤ fuel →
        decodeStored fuel (body ++ tail) = some (input.drop offset.toNat, tail)) := by
  induction left using Nat.strong_induction_on generalizing offset output with
  | _ left ih =>
      by_cases hpos : 0 < left
      · have hlt : offset < inputSize := UInt32.lt_iff_toNat_lt.mpr (by omega)
        have hle : offset ≤ inputSize := UInt32.le_of_lt hlt
        have hchunk : (nextChunk inputSize offset).toNat = min left 65535 := by
          rw [toNat_nextChunk hle]
          congr 1
          omega
        have hnext : (offset + nextChunk inputSize offset).toNat = offset.toNat + min left 65535 := by
          rw [toNat_add_nextChunk hle]
          omega
        have hdata : (chunkAt input inputSize offset).length = min left 65535 :=
          (length_chunkAt hinput hle).trans hchunk
        have hstep := storedLength_step hpos
        obtain ⟨output', hturn, hputs⟩ := storedBlocks_turn hinput hlt
          (show output.pos + (5 + (nextChunk inputSize offset).toNat) ≤ _ by
            rw [hchunk]
            omega)
        have hroom' : output'.pos + storedLength (left - min left 65535) ≤ output'.buf.length := by
          rw [hputs.pos, hputs.size, length_storedBlock, hdata]
          omega
        obtain ⟨o, body, hloop, hrest, hlen, hread⟩ := ih (left - min left 65535) (by omega)
          (show (offset + nextChunk inputSize offset).toNat + _ = _ by omega) hroom'
        refine ⟨o, _, hturn.trans hloop, hputs.trans hrest, ?_, fun _ fuel tail hfuel => ?_⟩
        · rw [List.length_append, length_storedBlock, hdata, hlen]
          omega
        · obtain ⟨fuel, rfl⟩ := Nat.exists_eq_add_of_le' (show 1 ≤ fuel by omega)
          have hrestData : chunkAt input inputSize offset
              ++ input.drop (offset + nextChunk inputSize offset).toNat = input.drop offset.toNat := by
            rw [chunkAt, hnext, hchunk, ← List.drop_drop]
            exact List.take_append_drop _ _
          by_cases hlast : left ≤ 65535
          · -- nothing is left: the block is final
            have hfinal : offset + nextChunk inputSize offset ≥ inputSize :=
              UInt32.le_iff_toNat_le.mpr (by omega)
            have hbody : body = [] := List.eq_nil_of_length_eq_zero (by
              rw [hlen, min_eq_left hlast, Nat.sub_self]
              rfl)
            have hend : input.drop (offset + nextChunk inputSize offset).toNat = [] :=
              List.drop_eq_nil_of_le (by omega)
            rw [hend, List.append_nil] at hrestData
            rw [decide_eq_true hfinal, hbody, List.append_nil, decodeStored_final (by omega),
              hrestData]
          · have hmore : ¬ offset + nextChunk inputSize offset ≥ inputSize := fun hge => by
              have := UInt32.le_iff_toNat_le.mp hge
              omega
            rw [decide_eq_false hmore, List.append_assoc, decodeStored_more (by omega),
              hread (by omega) fuel tail (by omega), Option.map_some, hrestData]
      · obtain rfl : left = 0 := by omega
        have hend : ¬ offset < inputSize := fun hlt => by
          have := UInt32.lt_iff_toNat_lt.mp hlt
          omega
        refine ⟨output, [], ?_, .refl output, rfl, fun h => absurd h hpos⟩
        rw [storedBlocks, dif_neg hend]

theorem storedSize_eq {input : Bytes} (hlen : input.length < 2 ^ 32 - 65534) :
    storedSize (UInt32.ofNat input.length) = 1 + (1 + (storedLength input.length + 4)) := by
  have hsize : (UInt32.ofNat input.length).toNat = input.length :=
    UInt32.toNat_ofNat_of_lt' (show input.length < 2 ^ 32 by omega)
  have hchunks : ((UInt32.ofNat input.length + 65534) / 65535).toNat
      = (input.length + 65534) / 65535 := by
    rw [UInt32.toNat_div, UInt32.toNat_add, hsize]
    change (input.length + 65534) % 2 ^ 32 / 65535 = _
    rw [Nat.mod_eq_of_lt (by omega)]
  rw [storedSize, hchunks, hsize, storedLength]
  omega

/-- **A stored stream**: it fills what was reserved, and it decodes to the input. -/
theorem createStoredZlib_decodes {input : Bytes} (hne : input ≠ [])
    (hlen : input.length < 2 ^ 32 - 65534) :
    ∃ out, createStoredZlib input = some out ∧
      out.length = storedSize (UInt32.ofNat input.length) ∧
      decodeStoredStream out = some input ∧ Stream out input := by
  have hpos : 0 < input.length := List.length_pos_of_ne_nil hne
  have hsize : (UInt32.ofNat input.length).toNat = input.length :=
    UInt32.toNat_ofNat_of_lt' (show input.length < 2 ^ 32 by omega)
  have hroom : (Cursor.reserve (storedSize (UInt32.ofNat input.length))).pos
      + ([(0x78 : UInt8)].length + ([(0x01 : UInt8)].length + (storedLength input.length + 4)))
        ≤ (Cursor.reserve (storedSize (UInt32.ofNat input.length))).buf.length := by
    rw [Cursor.reserve, List.length_replicate, storedSize_eq hlen]
    exact (Nat.zero_add _).le
  obtain ⟨o₁, h₁, p₁, hroom₁⟩ := Cursor.put_of_room hroom
  obtain ⟨o₂, h₂, p₂, hroom₂⟩ := Cursor.put_of_room hroom₁
  obtain ⟨o₃, body, h₃, p₃, hbody, hread⟩ := storedBlocks_spec hsize.symm input.length
    (show (0 : UInt32).toNat + input.length = _ by rw [hsize]; exact Nat.zero_add _)
    (show o₂.pos + storedLength input.length ≤ o₂.buf.length by omega)
  have hroom₃ : o₃.pos + (adlerBytes (computeAdler32 input)).length ≤ o₃.buf.length := by
    have hfour : (adlerBytes (computeAdler32 input)).length = 4 := rfl
    rw [p₃.pos, p₃.size, hbody, hfour, Nat.add_assoc]
    exact hroom₂
  obtain ⟨o₄, h₄, p₄⟩ := Cursor.put_of_le hroom₃
  have hwritten : o₄.written = 0x78 :: 0x01 :: (body ++ bigEndian (adler32 input)) := by
    have hall := (p₁.trans (p₂.trans (p₃.trans p₄))).written
    rw [Cursor.written_reserve, List.nil_append, adlerBytes_eq, toNat_computeAdler32] at hall
    exact hall
  have hdecodes : decodeStoredStream o₄.written = some input := by
    have hfuel : (input.length + 65534) / 65535 ≤ (body ++ bigEndian (adler32 input)).length := by
      rw [List.length_append, hbody, storedLength]
      omega
    have hblocks := hread hpos _ (bigEndian (adler32 input)) hfuel
    rw [hwritten, decodeStoredStream, if_pos (by decide), hblocks]
    exact if_pos rfl
  refine ⟨o₄.written, ?_, ?_, hdecodes, stream_of_decodeStoredStream hdecodes⟩
  · rw [createStoredZlib]
    simp only [h₁, h₂, h₃, h₄, Option.bind_eq_bind, Option.bind_some]
    rfl
  · rw [hwritten, storedSize_eq hlen]
    simp [hbody]
    omega

/-- One byte more than a stored block can hold. -/
def letters : Bytes := List.replicate 65536 0x61

theorem createStoredZlib_decodes_twoBlocks :
    ∃ out, createStoredZlib letters = some out ∧ out.length = storedSize (UInt32.ofNat 65536) ∧
      decodeStoredStream out = some letters ∧ Stream out letters := by
  have hlength : letters.length = 65536 := List.length_replicate
  have hstored := createStoredZlib_decodes (List.ne_nil_of_length_eq_add_one hlength)
    (hlength.trans_lt (by decide))
  rwa [hlength] at hstored

/-! ### Compressing -/

/-- What the system's compressor answers: the bytes it put into the buffer, or an error. -/
inductive CompressResult where
  | done (out : Bytes)
  | failed (error : UInt32)

/-- The system's compressor: its input, and the size of the buffer it is given. -/
abbrev CompressApi := Bytes → Nat → CompressResult

/-- `ERROR_INSUFFICIENT_BUFFER`. -/
def errorInsufficientBuffer : UInt32 := 122

/-- `GetMaxCompressedSize`. -/
def getMaxCompressedSize (inputSize : Nat) : Nat := inputSize + inputSize / 1024 + 128 + 4

/-- `WrapDeflateAsZlib`; nothing when it would write past the end of its buffer. -/
def wrapDeflateAsZlib (deflateData originalData : Bytes) : Option Bytes := do
  let adler := computeAdler32 originalData
  let output := Cursor.reserve (2 + deflateData.length + 4)
  let output ← output.put [0x78]
  let output ← output.put [0x9C]
  let output ← output.put deflateData
  let output ← output.put (adlerBytes adler)
  return output.buf

/-- Step 2 of `Compress`: what becomes of the bytes in the buffer. -/
def toZlib (input compressed : Bytes) : Option Bytes :=
  if compressed.length < 2 then createStoredZlib input
  else if compressed.getD 0 0 = 0x43 ∧ compressed.getD 1 0 = 0x4B then
    wrapDeflateAsZlib (compressed.drop 2) input
  else wrapDeflateAsZlib compressed input

/-- `Compress`: the output, or nothing when it fails. -/
def compress (initialized : Bool) (api : CompressApi) (input : Bytes) : Option Bytes :=
  if initialized then
    let maxSize := getMaxCompressedSize input.length
    match api input maxSize with
    | .done compressed => toZlib input compressed
    | .failed error =>
        if error = errorInsufficientBuffer then
          match api input (maxSize * 2) with
          | .done compressed => toZlib input compressed
          | .failed _ => none
        else none
  else none

/-- The compressor returns `compressed` for the input, at once or when it has been given a larger
buffer. -/
def Returns (api : CompressApi) (input compressed : Bytes) : Prop :=
  api input (getMaxCompressedSize input.length) = .done compressed ∨
    api input (getMaxCompressedSize input.length) = .failed errorInsufficientBuffer ∧
      api input (getMaxCompressedSize input.length * 2) = .done compressed

theorem compress_of_returns {api : CompressApi} {input compressed : Bytes}
    (h : Returns api input compressed) : compress true api input = toZlib input compressed := by
  rw [compress, if_pos rfl]
  dsimp only
  rcases h with h | ⟨h, h'⟩
  · rw [h]
  · rw [h]
    dsimp only
    rw [if_pos rfl, h']

theorem wrapDeflateAsZlib_eq (deflateData originalData : Bytes) :
    wrapDeflateAsZlib deflateData originalData
      = some (0x78 :: 0x9C :: (deflateData ++ bigEndian (adler32 originalData))) := by
  have hroom : (Cursor.reserve (2 + deflateData.length + 4)).pos
      + ([(0x78 : UInt8)].length + ([(0x9C : UInt8)].length + (deflateData.length
        + (adlerBytes (computeAdler32 originalData)).length)))
        ≤ (Cursor.reserve (2 + deflateData.length + 4)).buf.length := by
    rw [Cursor.reserve, List.length_replicate]
    change 0 + (1 + (1 + (deflateData.length + 4))) ≤ _
    omega
  obtain ⟨o₁, h₁, p₁, hroom₁⟩ := Cursor.put_of_room hroom
  obtain ⟨o₂, h₂, p₂, hroom₂⟩ := Cursor.put_of_room hroom₁
  obtain ⟨o₃, h₃, p₃, hroom₃⟩ := Cursor.put_of_room hroom₂
  obtain ⟨o₄, h₄, p₄⟩ := Cursor.put_of_le hroom₃
  have hall := p₁.trans (p₂.trans (p₃.trans p₄))
  have hfull : o₄.pos = o₄.buf.length := by
    rw [hall.pos, hall.size, Cursor.reserve, List.length_replicate]
    simp only [List.length_append, List.length_singleton]
    change 0 + (1 + (1 + (deflateData.length + 4))) = _
    omega
  have hbuf : o₄.buf = 0x78 :: 0x9C :: (deflateData ++ bigEndian (adler32 originalData)) := by
    rw [← Cursor.written_of_full hfull, hall.written, Cursor.written_reserve, List.nil_append,
      adlerBytes_eq, toNat_computeAdler32]
    rfl
  rw [wrapDeflateAsZlib, ← hbuf]
  simp only [h₁, h₂, h₃, h₄, Option.bind_eq_bind, Option.bind_some]
  rfl

/-- What a raw stream becomes: it never looks like "CK". -/
theorem toZlib_raw {input stream : Bytes} (h : Deflate.Decodes stream input) :
    toZlib input stream
      = some (0x78 :: 0x9C :: (stream ++ bigEndian (adler32 input))) := by
  rw [toZlib, if_neg (not_lt.mpr h.two_le), if_neg, wrapDeflateAsZlib_eq]
  rintro ⟨hc, hk⟩
  rcases stream with _ | ⟨c, _ | ⟨k, stream⟩⟩
  · cases hc
  · cases hk
  · obtain rfl : c = 0x43 := hc
    obtain rfl : k = 0x4B := hk
    exact Deflate.not_decodes_ck stream input h

/-- What a stream behind "CK" becomes. -/
theorem toZlib_ck (input stream : Bytes) :
    toZlib input (0x43 :: 0x4B :: stream)
      = some (0x78 :: 0x9C :: (stream ++ bigEndian (adler32 input))) := by
  rw [toZlib, if_neg (by simp), if_pos ⟨rfl, rfl⟩]
  exact wrapDeflateAsZlib_eq stream input

/-- **Both formats are told apart**: whatever stream the system's compressor found for the input,
with or without "CK" in front, it goes between the header and the checksum. -/
theorem compress_wraps {api : CompressApi} {input stream : Bytes}
    (h : Deflate.Decodes stream input)
    (hapi : Returns api input stream ∨ Returns api input (0x43 :: 0x4B :: stream)) :
    compress true api input = some (0x78 :: 0x9C :: (stream ++ bigEndian (adler32 input))) ∧
      ¬ [0x43, 0x4B] <+: stream := by
  refine ⟨?_, ?_⟩
  · rcases hapi with hraw | hck
    · rw [compress_of_returns hraw, toZlib_raw h]
    · rw [compress_of_returns hck, toZlib_ck]
  · rintro ⟨rest, rfl⟩
    exact Deflate.not_decodes_ck rest input h

/-- The stream of one byte in the fixed code. -/
theorem decodes_byte : Deflate.Decodes [0x4B, 0x04, 0x00] [0x61] := by
  have hliteral : Deflate.readSymbol Deflate.fixedLengths
      ((Deflate.bitsOf [0x4B, 0x04, 0x00]).drop 3)
        = some (0x61, (Deflate.bitsOf [0x4B, 0x04, 0x00]).drop 11) := by decide +kernel
  have hstop : Deflate.readSymbol Deflate.fixedLengths
      ((Deflate.bitsOf [0x4B, 0x04, 0x00]).drop 11)
        = some (256, (Deflate.bitsOf [0x4B, 0x04, 0x00]).drop 18) := by decide +kernel
  exact ⟨_, .final (.fixed (.literal hliteral (by decide) (.stop hstop))), by decide⟩

/-- One byte behind "CK", from a compressor that asks for a larger buffer first. -/
theorem compress_wraps_byte :
    compress true
        (fun _ size => if size < 200 then .failed errorInsufficientBuffer
          else .done [0x43, 0x4B, 0x4B, 0x04, 0x00]) [0x61]
      = some (0x78 :: 0x9C :: ([0x4B, 0x04, 0x00] ++ bigEndian (adler32 [0x61]))) ∧
      ¬ [0x43, 0x4B] <+: ([0x4B, 0x04, 0x00] : Bytes) :=
  compress_wraps decodes_byte (.inr (.inr ⟨rfl, rfl⟩))

end Go2Cbt.Client
