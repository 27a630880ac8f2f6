import Go2Cbt.Client.StateFile
import Go2Cbt.Lib.Crc

/-!
# Client — the checksum of the state file

`ComputeCRC32` is the usual loop over a table of 256 words.  Twenty-one of the words in the source
are not those of CRC-32 (`wordError_eq_zero_iff`): their top bytes are right, some of their other
bytes are not.

`computeCrc32_eq_iff` says on which strings the result is CRC-32 all the same, and
`burst_changes_crc32` that the check it was written for still works within four bytes.
-/

namespace Go2Cbt.Client

/-- The polynomial of CRC-32, reflected. -/
def crcPolynomial : UInt32 := 0xEDB88320

/-- CRC-32, bit by bit. -/
def standardCrc32 (data : Bytes) : UInt32 :=
  Crc.register crcPolynomial 0xFFFFFFFF data ^^^ 0xFFFFFFFF

/-- The words of the table by their place. -/
def crcWord (i : UInt8) : UInt32 := crcTable.getD i.toNat 0

theorem crcStep_eq (crc : UInt32) (b : UInt8) : crcStep crc b = Crc.look crcWord crc b := by
  have hindex : ((crc ^^^ b.toUInt32) &&& 0xFF).toNat = (Crc.index crc b).toNat := by
    have hmask : (0xFF : UInt32).toNat = 2 ^ 8 - 1 := rfl
    rw [UInt32.toNat_and, hmask, Nat.and_two_pow_sub_one_eq_mod, UInt32.toNat_xor,
      Nat.xor_mod_two_pow, Crc.index, UInt8.toNat_xor, UInt32.toNat_toUInt8, UInt8.toNat_toUInt32]
    exact congrArg _ (Nat.mod_eq_of_lt b.toNat_lt)
  rw [crcStep, hindex, Crc.look, crcWord]

theorem computeCrc32_eq (data : Bytes) :
    computeCrc32 data = data.foldl (Crc.look crcWord) 0xFFFFFFFF ^^^ 0xFFFFFFFF := by
  rw [computeCrc32, show crcStep = Crc.look crcWord from funext₂ crcStep_eq]

/-! ### The wrong words -/

/-- The places of the table that do not hold the word of CRC-32. -/
def wrongPlaces : List UInt8 :=
  [187, 198, 199, 234, 235, 238, 239, 242, 243, 244, 245, 246, 247, 248, 249, 250, 251, 252, 253,
    254, 255]

/-- What the word at a place has wrong. -/
def wordError : UInt8 → UInt32 := Crc.wrong crcPolynomial crcWord

/-- A property of bytes that a check of the 256 of them shows. -/
theorem forall_byte {P : UInt8 → Prop} (h : ∀ i < 256, P (UInt8.ofNat i)) (i : UInt8) : P i := by
  have hi := h i.toNat i.toNat_lt
  rwa [UInt8.ofNat_toNat] at hi

theorem wordError_eq_zero_iff (i : UInt8) : wordError i = 0 ↔ i ∉ wrongPlaces := by
  revert i
  refine forall_byte ?_
  decide +kernel

/-- The top bytes of the words, right or wrong, are all different. -/
theorem crcWord_top_injective : Function.Injective fun i => (crcWord i).toNat >>> 24 := by
  have hnodup : (crcTable.map fun w => w.toNat >>> 24).Nodup := by decide +kernel
  have hlen : (crcTable.map fun w => w.toNat >>> 24).length = 256 := by decide +kernel
  have hword : ∀ i : UInt8, (crcTable.map fun w => w.toNat >>> 24)[i.toNat]?
      = some ((crcWord i).toNat >>> 24) := fun i => by
    have hi : i.toNat < crcTable.length := by
      rw [← List.length_map, hlen]
      exact i.toNat_lt
    rw [List.getElem?_map, List.getElem?_eq_getElem hi, crcWord, List.getD_eq_getElem _ _ hi,
      Option.map_some]
  intro i j h
  have hi := i.toNat_lt
  have hplace : i.toNat = j.toNat := by
    refine (List.getElem?_inj (by rw [hlen]; exact hi) hnodup).mp ?_
    rw [hword, hword]
    exact congrArg some h
  exact UInt8.toNat_inj.mp hplace

/-- The places that a string looks up. -/
def crcLookups (data : Bytes) : List UInt8 := Crc.lookups crcWord 0xFFFFFFFF data

/-- The errors of the words that a string looks up, each carried through the bytes behind it,
cancel. -/
def ErrorsCancel (data : Bytes) : Prop :=
  Crc.carried crcPolynomial 0 ((crcLookups data).map wordError) = 0

/-- **When the result is CRC-32.** -/
theorem computeCrc32_eq_iff (data : Bytes) :
    computeCrc32 data = standardCrc32 data ↔ ErrorsCancel data := by
  have hrun := Crc.look_run crcPolynomial crcWord 0xFFFFFFFF 0 data
  rw [UInt32.xor_zero] at hrun
  have hcancel : ∀ a b : UInt32, a ^^^ b = a ↔ b = 0 := fun a b => by
    rw [← UInt32.xor_right_inj a (b := 0), UInt32.xor_zero]
  rw [computeCrc32_eq, standardCrc32, UInt32.xor_left_inj, hrun]
  exact hcancel _ _

/-- A string that looks up no wrong word gets its CRC-32. -/
theorem errorsCancel_of_right {data : Bytes} (h : ∀ i ∈ crcLookups data, i ∉ wrongPlaces) :
    ErrorsCancel data := by
  have hzero : ∀ d ∈ (crcLookups data).map wordError, d = 0 := by
    intro d hd
    obtain ⟨i, hi, rfl⟩ := List.mem_map.mp hd
    exact (wordError_eq_zero_iff i).mpr (h i hi)
  rw [ErrorsCancel, Crc.carried_of_forall_zero hzero]
  exact Function.iterate_fixed Crc.shiftByte_zero _

/-- A string that looks up a wrong word once does not. -/
theorem not_errorsCancel_of_one {data : Bytes} {before behind : List UInt8} {i : UInt8}
    (h : crcLookups data = before ++ i :: behind) (hi : i ∈ wrongPlaces)
    (hbefore : ∀ j ∈ before, j ∉ wrongPlaces) (hbehind : ∀ j ∈ behind, j ∉ wrongPlaces) :
    ¬ ErrorsCancel data := by
  have hzero : ∀ js : List UInt8, (∀ j ∈ js, j ∉ wrongPlaces) → ∀ d ∈ js.map wordError, d = 0 := by
    intro js hjs d hd
    obtain ⟨j, hj, rfl⟩ := List.mem_map.mp hd
    exact (wordError_eq_zero_iff j).mpr (hjs j hj)
  have herror : wordError i ≠ 0 := fun heq => (wordError_eq_zero_iff i).mp heq hi
  rw [ErrorsCancel, h, List.map_append, List.map_cons]
  exact Crc.carried_one (by decide) herror (hzero before hbefore) (hzero behind hbehind)

/-- **One letter with another checksum**: "D" looks up place 187. -/
theorem letter_has_other_crc32 :
    crcLookups [0x44] = [187] ∧ computeCrc32 [0x44] = 0xA3B30A04 ∧
      standardCrc32 [0x44] = 0xA3B36A04 ∧ computeCrc32 [0x44] ≠ standardCrc32 [0x44] := by
  decide +kernel

/-! ### Bursts -/

/-- **Four bytes at most**: strings that differ, and only within four bytes, have different
checksums. -/
theorem burst_changes_crc32 {a b : Bytes} {k : Nat} (hlen : a.length = b.length) (hne : a ≠ b)
    (hinside : Crc.DifferInside 4 k a b) : computeCrc32 a ≠ computeCrc32 b := by
  rw [computeCrc32_eq, computeCrc32_eq, Ne, UInt32.xor_left_inj]
  exact Crc.burst_detected crcWord_top_injective hlen hne hinside _

/-- Two letters exchanged. -/
theorem burst_changes_crc32_exchange :
    computeCrc32 [0x42, 0x4C, 0x4B, 0x53] ≠ computeCrc32 [0x42, 0x4B, 0x4C, 0x53] := by
  refine burst_changes_crc32 (k := 1) rfl (by decide) fun i hi => ?_
  cases i with
  | zero => exact absurd rfl hi
  | succ i =>
      refine ⟨Nat.succ_le_succ (Nat.zero_le i), ?_⟩
      by_contra hbehind
      have hend : ∀ l : Bytes, l.length = 4 → l[i + 1]? = none := fun l hl =>
        List.getElem?_eq_none (by rw [hl]; omega)
      exact hi (by rw [hend _ rfl, hend _ rfl])

end Go2Cbt.Client
