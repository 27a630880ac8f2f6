import Go2Cbt.Lib.Framing
import Go2Cbt.Protocol

/-!
# Server — cutting messages from the stream

`MessageParser::TryParse`, on the readable bytes of the receive buffer.  Whatever it decides
other than to wait for more bytes, it decides again when more bytes have followed, and it never
waits with 16 + 52 + 2 MB readable bytes.
-/

namespace Go2Cbt.Server

open Go2Cbt.Protocol LittleEndian

/-- `ParsedMessage`. -/
structure ParsedMessage where
  header : MsgHeader
  body : Bytes
  deriving DecidableEq

/-- `ParseDiag`. -/
structure ParseDiag where
  gotMagic : UInt32
  gotType : UInt32
  claimedCompSz : UInt32
  claimedBlkIdx : UInt64
  deriving DecidableEq, Repr

def ParseDiag.none : ParseDiag :=
  { gotMagic := 0, gotType := 0, claimedCompSz := 0, claimedBlkIdx := 0 }

/-- `ParseResult`, with what it fills in. -/
inductive ParseResult where
  | needMore
  | ok (parsed : ParsedMessage)
  | badMagic (diag : ParseDiag)
  | invalidType (diag : ParseDiag)
  | oversizeBlock (diag : ParseDiag)
  deriving DecidableEq

namespace MessageParser

/-- The switch of `TryParse`: the length of the body, or an early return. -/
def bodyLen (bs : Bytes) (hdr : MsgHeader) : Except ParseResult Nat :=
  match MessageType.ofCode hdr.type with
  | some .hello => .ok helloBodySize
  | some .dataBlock =>
      if bs.length < headerSize + blockHeaderSize then .error .needMore
      else
        let bh := BlockHeader.ofBytes (bs.drop headerSize)
        if bh.compressedSize.toNat > blockSize * 2 then
          .error (.oversizeBlock
            { ParseDiag.none with
              gotType := hdr.type
              claimedCompSz := bh.compressedSize
              claimedBlkIdx := bh.blockIndex })
        else .ok (blockHeaderSize + bh.compressedSize.toNat)
  | some .bye => .ok 0
  | some .ack => .ok ackBodySize
  | some .error => .ok 0
  | none => .error (.invalidType { ParseDiag.none with gotType := hdr.type })

/-- `TryParse`. -/
def tryParse (bs : Bytes) : ParseResult :=
  if bs.length < headerSize then .needMore
  else
    let hdr := MsgHeader.ofBytes bs
    if hdr.magic ≠ protocolMagic then .badMagic { ParseDiag.none with gotMagic := hdr.magic }
    else
      match bodyLen bs hdr with
      | .error early => early
      | .ok len =>
          if bs.length < headerSize + len then .needMore
          else .ok { header := hdr, body := field bs headerSize len }

/-! ### The decision does not change -/

theorem msgHeader_append {bs : Bytes} (more : Bytes) (h : headerSize ≤ bs.length) :
    MsgHeader.ofBytes (bs ++ more) = MsgHeader.ofBytes bs := by
  rw [headerSize] at h
  simp only [MsgHeader.ofBytes, u32]
  rw [field_append_left (by omega), field_append_left (by omega), field_append_left (by omega),
    field_append_left (by omega)]

theorem blockHeader_append {bs : Bytes} (more : Bytes) (h : blockHeaderSize ≤ bs.length) :
    BlockHeader.ofBytes (bs ++ more) = BlockHeader.ofBytes bs := by
  rw [blockHeaderSize] at h
  have hhash : hashField (bs ++ more) 16 = hashField bs 16 := by
    simp only [hashField, Hash.mk.injEq]
    rw [List.drop_append_of_le_length (by omega), List.takeD_eq_take _ (by simp; omega),
      List.takeD_eq_take _ (by simp; omega), List.take_append_of_le_length (by simp; omega)]
  simp only [BlockHeader.ofBytes, u32, u64, hhash]
  rw [field_append_left (by omega), field_append_left (by omega), field_append_left (by omega),
    field_append_left (by omega)]

theorem bodyLen_append {bs : Bytes} (more : Bytes) {hdr : MsgHeader}
    (hlen : headerSize ≤ bs.length) (h : bodyLen bs hdr ≠ .error .needMore) :
    bodyLen (bs ++ more) hdr = bodyLen bs hdr := by
  rw [bodyLen] at h
  rw [bodyLen, bodyLen]
  split
  · rfl
  · next htype =>
    rw [htype] at h
    dsimp only at h
    split at h
    · exact absurd rfl h
    · next hblock =>
      have hblock' : ¬ (bs ++ more).length < headerSize + blockHeaderSize := by
        rw [List.length_append]; omega
      have hheader : BlockHeader.ofBytes ((bs ++ more).drop headerSize)
          = BlockHeader.ofBytes (bs.drop headerSize) := by
        rw [List.drop_append_of_le_length hlen]
        exact blockHeader_append more (by rw [List.length_drop]; omega)
      rw [if_neg hblock, if_neg hblock', hheader]
  · rfl
  · rfl
  · rfl
  · rfl

/-- **More bytes do not change a decision.** -/
theorem tryParse_append {bs : Bytes} (more : Bytes) (h : tryParse bs ≠ .needMore) :
    tryParse (bs ++ more) = tryParse bs := by
  have hlen : ¬ bs.length < headerSize := fun hlt => h (if_pos hlt)
  have hlen' : ¬ (bs ++ more).length < headerSize := by rw [List.length_append]; omega
  rw [tryParse, if_neg hlen] at h
  rw [tryParse, tryParse, if_neg hlen, if_neg hlen', msgHeader_append more (not_lt.mp hlen)]
  dsimp only at h ⊢
  split
  · rfl
  · next hmagic =>
    rw [if_neg hmagic] at h
    rw [bodyLen_append more (not_lt.mp hlen) fun heq => h (by rw [heq])]
    cases hbody : bodyLen bs (MsgHeader.ofBytes bs) with
    | error early => rfl
    | ok len =>
        rw [hbody] at h
        dsimp only at h ⊢
        split at h
        · exact absurd rfl h
        · next hfull =>
          rw [if_neg hfull, if_neg (by rw [List.length_append]; omega),
            field_append_left (by omega)]

/-! ### Lengths -/

/-- The longest message is a block of twice the block size. -/
def maxMessageSize : Nat := headerSize + blockHeaderSize + blockSize * 2

theorem bodyLen_le {bs : Bytes} {hdr : MsgHeader} {len : Nat} (h : bodyLen bs hdr = .ok len) :
    headerSize + len ≤ maxMessageSize := by
  rw [bodyLen] at h
  split at h
  · cases h; decide
  · split at h
    · cases h
    · dsimp only at h
      split at h
      · cases h
      · next hsize =>
        cases h
        rw [maxMessageSize]
        omega
  · cases h; decide
  · cases h; decide
  · cases h; decide
  · cases h

theorem bodyLen_eq_needMore {bs : Bytes} {hdr : MsgHeader}
    (h : bodyLen bs hdr = .error .needMore) : bs.length < headerSize + blockHeaderSize := by
  rw [bodyLen] at h
  split at h
  · cases h
  · split at h
    · assumption
    · dsimp only at h
      split at h <;> cases h
  · cases h
  · cases h
  · cases h
  · cases h

theorem bodyLen_ne_ok {bs : Bytes} {hdr : MsgHeader} {msg : ParsedMessage} :
    bodyLen bs hdr ≠ .error (.ok msg) := by
  intro h
  rw [bodyLen] at h
  split at h
  · cases h
  · split at h
    · cases h
    · dsimp only at h
      split at h <;> cases h
  · cases h
  · cases h
  · cases h
  · cases h

/-- **The parser never waits with a whole message at hand.** -/
theorem length_lt_of_needMore {bs : Bytes} (h : tryParse bs = .needMore) :
    bs.length < maxMessageSize := by
  rw [tryParse] at h
  split at h
  · next hlen =>
    rw [maxMessageSize]
    omega
  · dsimp only at h
    split at h
    · cases h
    · cases hbody : bodyLen bs (MsgHeader.ofBytes bs) with
      | error early =>
          rw [hbody] at h
          have := bodyLen_eq_needMore (hbody.trans (congrArg Except.error h))
          rw [maxMessageSize]
          omega
      | ok len =>
          rw [hbody] at h
          dsimp only at h
          split at h
          · next hlt => exact hlt.trans_le (bodyLen_le hbody)
          · cases h

/-- A decision takes a whole header at least. -/
theorem headerSize_le_of_ne {bs : Bytes} (h : tryParse bs ≠ .needMore) :
    headerSize ≤ bs.length :=
  not_lt.mp fun hlt => h (if_pos hlt)

/-- A parsed message is what the readable bytes start with. -/
theorem length_le_of_ok {bs : Bytes} {msg : ParsedMessage} (h : tryParse bs = .ok msg) :
    headerSize + msg.body.length ≤ bs.length := by
  rw [tryParse] at h
  split at h
  · cases h
  · dsimp only at h
    split at h
    · cases h
    · cases hbody : bodyLen bs (MsgHeader.ofBytes bs) with
      | error early =>
          rw [hbody] at h
          exact absurd (hbody.trans (congrArg Except.error h)) bodyLen_ne_ok
      | ok len =>
          rw [hbody] at h
          dsimp only at h
          split at h
          · cases h
          · cases h
            rw [length_field]
            omega

end MessageParser

open MessageParser

/-- How many bytes the receive loop consumes for a decision: the message, or one byte to find
the next header.  After an oversize block the connection is gone. -/
def ParseResult.consumed : ParseResult → Nat
  | .ok msg => headerSize + msg.body.length
  | _ => 1

theorem ParseResult.consumed_pos (r : ParseResult) : 0 < r.consumed := by
  cases r with
  | ok msg => exact Nat.lt_of_lt_of_le (by decide) (Nat.le_add_right headerSize _)
  | _ => exact Nat.one_pos

theorem consumed_le {bs : Bytes} (h : tryParse bs ≠ .needMore) :
    (tryParse bs).consumed ≤ bs.length := by
  have hheader : 16 ≤ bs.length := headerSize_le_of_ne h
  cases hr : tryParse bs with
  | ok msg => exact length_le_of_ok hr
  | _ => exact le_trans (show 1 ≤ 16 by decide) hheader

/-- The parser as a decoder of the stream. -/
def frames : Framing.Decoder ParseResult where
  next bs := if tryParse bs = .needMore then none else some (tryParse bs, (tryParse bs).consumed)
  pos := by
    intro bs e n h
    split at h
    · cases h
    · cases h
      exact ParseResult.consumed_pos _
  le := by
    intro bs e n h
    split at h
    · cases h
    · next hne =>
      cases h
      exact consumed_le hne
  stable := by
    intro bs e n more h
    split at h
    · cases h
    · next hne => rw [tryParse_append more hne, if_neg hne, h]

theorem frames_next_eq_none_iff {bs : Bytes} :
    frames.next bs = none ↔ tryParse bs = .needMore := by
  by_cases h : tryParse bs = .needMore
  · exact iff_of_true (if_pos h) h
  · refine iff_of_false (fun hnone => ?_) h
    rw [show frames.next bs = some (tryParse bs, (tryParse bs).consumed) from if_neg h] at hnone
    cases hnone

end Go2Cbt.Server
