import Go2Cbt.Client.Operations

/-!
# Client — statuses of several blocks

`SetBlockAckList` and `SetBlockAckRange` against `SetBlockAck` once for each block.  The range
repeats the code of `SetBlockAck` in its loop, and its bound is a 64-bit sum: `ackRange_iff` says
when the two agree.
-/

namespace Go2Cbt.Client.BlockStateManager

/-- `SetBlockAck` for one block after the other. -/
def oneByOne (status : AckStatus) (idxs : List UInt64) (m : BlockStateManager) :
    BlockStateManager :=
  idxs.foldl (fun m idx => (m.setBlockAck idx status).2) m

/-- The numbers of the existing blocks that lie in a range, in exact arithmetic.  A number has 64
bits. -/
def exactRange (m : BlockStateManager) (startBlock count : UInt64) : List UInt64 :=
  ((List.range (min m.blocks.length (2 ^ 64))).filter fun i =>
    startBlock.toNat ≤ i ∧ i - startBlock.toNat < count.toNat).map UInt64.ofNat

/-- The same blocks and the same version counters. -/
def SameAcks (m m' : BlockStateManager) : Prop := m.blocks = m'.blocks ∧ m.versions = m'.versions

instance (m m' : BlockStateManager) : Decidable (SameAcks m m') := by
  unfold SameAcks; infer_instance

/-- The numbers below `n` from `start` on, `count` of them at most. -/
theorem filter_range_eq (n start count : Nat) :
    (List.range n).filter (fun i => start ≤ i ∧ i - start < count)
      = List.range' start (min (start + count) n - start) := by
  induction n with
  | zero =>
      rw [Nat.min_zero, Nat.zero_sub]
      rfl
  | succ n ih =>
      rw [List.range_succ, List.filter_append, ih, List.filter_singleton]
      by_cases hin : start ≤ n ∧ n - start < count
      · have hlast : min (start + count) (n + 1) - start
            = min (start + count) n - start + 1 := by omega
        have hnext : start + (min (start + count) n - start) = n := by omega
        rw [decide_eq_true hin, hlast, List.range'_1_concat, hnext]
        rfl
      · have hsame : min (start + count) (n + 1) - start = min (start + count) n - start := by
          omega
        rw [decide_eq_false hin, hsame]
        exact List.append_nil _

/-- A status that a block has already is set without effect. -/
theorem setBlockAck_of_ack {m : BlockStateManager} {idx : UInt64} {status : AckStatus}
    (h : ∀ b, m.blocks[idx.toNat]? = some b → b.ack = status) :
    SameAcks (m.setBlockAck idx status).2 m := by
  rw [setBlockAck]
  cases hold : m.blocks[idx.toNat]? with
  | none => exact ⟨rfl, rfl⟩
  | some old =>
      obtain ⟨hlt, rfl⟩ := List.getElem?_eq_some_iff.mp hold
      have hack := h _ hold
      refine ⟨?_, if_neg fun hc => hc.1 (hack.trans hc.2)⟩
      subst hack
      exact List.set_getElem_self hlt

theorem oneByOne_of_ack {m : BlockStateManager} {idxs : List UInt64} {status : AckStatus}
    (h : ∀ idx ∈ idxs, ∀ b, m.blocks[idx.toNat]? = some b → b.ack = status) :
    SameAcks (oneByOne status idxs m) m := by
  induction idxs generalizing m with
  | nil => exact ⟨rfl, rfl⟩
  | cons idx idxs ih =>
      obtain ⟨hidx, hrest⟩ := List.forall_mem_cons.mp h
      obtain ⟨hblocks, hversions⟩ := setBlockAck_of_ack hidx
      obtain ⟨hblocks', hversions'⟩ := ih (m := (m.setBlockAck idx status).2)
        fun j hj => hblocks ▸ hrest j hj
      exact ⟨hblocks'.trans hblocks, hversions'.trans hversions⟩

theorem mem_exactRange_iff {m : BlockStateManager} {startBlock count idx : UInt64} :
    idx ∈ exactRange m startBlock count ↔
      idx.toNat < m.blocks.length ∧ startBlock ≤ idx ∧ idx.toNat - startBlock.toNat < count.toNat := by
  have hlt := idx.toNat_lt
  rw [exactRange, List.mem_map, UInt64.le_iff_toNat_le]
  constructor
  · rintro ⟨i, hi, rfl⟩
    obtain ⟨hi, hin⟩ := List.mem_filter.mp hi
    rw [List.mem_range] at hi
    rw [decide_eq_true_iff] at hin
    have hval : (UInt64.ofNat i).toNat = i :=
      UInt64.toNat_ofNat_of_lt (by rw [UInt64.size]; omega)
    rw [hval]
    exact ⟨by omega, hin⟩
  · rintro ⟨hblock, hin⟩
    refine ⟨idx.toNat, List.mem_filter.mpr ⟨List.mem_range.mpr (by omega), ?_⟩,
      UInt64.ofNat_toNat⟩
    exact decide_eq_true hin

/-- Without a carry the bound of the loop is exact. -/
theorem setBlockAckRange_of_no_carry (m : BlockStateManager) {startBlock count : UInt64}
    (h : startBlock.toNat + count.toNat < 2 ^ 64) (status : AckStatus) :
    SameAcks (m.setBlockAckRange startBlock count status)
      (oneByOne status (exactRange m startBlock count) m) := by
  have hsum : (startBlock + count).toNat = startBlock.toNat + count.toNat := by
    rw [UInt64.toNat_add, Nat.mod_eq_of_lt h]
  have hlast : min (startBlock.toNat + count.toNat) (min m.blocks.length (2 ^ 64))
      = min (startBlock.toNat + count.toNat) m.blocks.length := by omega
  rw [setBlockAckRange_eq, hsum, exactRange, filter_range_eq, hlast]
  exact ⟨rfl, rfl⟩

/-- With one it sets nothing. -/
theorem setBlockAckRange_of_carry (m : BlockStateManager) {startBlock count : UInt64}
    (h : 2 ^ 64 ≤ startBlock.toNat + count.toNat) (status : AckStatus) :
    SameAcks (m.setBlockAckRange startBlock count status) m := by
  have hcount := count.toNat_lt
  have hsum : (startBlock + count).toNat < startBlock.toNat := by
    rw [UInt64.toNat_add]
    omega
  rw [setBlockAckRange, Nat.sub_eq_zero_of_le (by omega)]
  exact ⟨rfl, rfl⟩

/-- **Lists and ranges of blocks** against one block after the other. -/
theorem ackRange_iff (m : BlockStateManager) (status : AckStatus) :
    (∀ idxs, SameAcks (m.setBlockAckList idxs status) (oneByOne status idxs m)) ∧
      ∀ startBlock count,
        SameAcks (m.setBlockAckRange startBlock count status)
            (oneByOne status (exactRange m startBlock count) m) ↔
          startBlock.toNat + count.toNat < 2 ^ 64 ∨
            ∀ idx b, startBlock ≤ idx → m.blocks[idx.toNat]? = some b → b.ack = status := by
  refine ⟨fun _ => ⟨rfl, rfl⟩, fun startBlock count => ⟨fun hsame => ?_, ?_⟩⟩
  · rw [or_iff_not_imp_left]
    intro hcarry idx b hstart hb
    -- every block from `startBlock` on is in the range
    have hin : idx ∈ exactRange m startBlock count := by
      have hlt := idx.toNat_lt
      rw [UInt64.le_iff_toNat_le] at hstart
      refine mem_exactRange_iff.mpr ⟨(List.getElem?_eq_some_iff.mp hb).1, ?_, by omega⟩
      exact UInt64.le_iff_toNat_le.mpr hstart
    have hset : (oneByOne status (exactRange m startBlock count) m).blocks[idx.toNat]?
        = some { b with ack := status } := by
      refine (blocks_setBlockAckList m _ status idx.toNat).trans ?_
      rw [hb, Option.map_some, if_pos ⟨idx, hin, rfl⟩]
    rw [← hsame.1, (setBlockAckRange_of_carry m (not_lt.mp hcarry) status).1, hb,
      Option.some.injEq] at hset
    exact congrArg BlockState.ack hset
  · rintro (hfits | hall)
    · exact setBlockAckRange_of_no_carry m hfits status
    · rcases Nat.lt_or_ge (startBlock.toNat + count.toNat) (2 ^ 64) with hfits | hcarry
      · exact setBlockAckRange_of_no_carry m hfits status
      · obtain ⟨hblocks, hversions⟩ := setBlockAckRange_of_carry m hcarry status
        obtain ⟨hblocks', hversions'⟩ := oneByOne_of_ack
          fun idx hidx b hb => hall idx b (mem_exactRange_iff.mp hidx).2.1 hb
        exact ⟨hblocks.trans hblocks'.symm, hversions.trans hversions'.symm⟩

/-- Two pending blocks of a full backup. -/
def twoPendingBlocks : BlockStateManager :=
  let created := BlockStateManager.new.createVersion [] 0 0 2 2097152
  (created.2.initFullBlocksEmpty created.1.versionId 2).2

/-- From block 1 on, as many as there can be: the sum is zero, and block 1 stays pending. -/
theorem open_range_sets_nothing :
    ¬ SameAcks (twoPendingBlocks.setBlockAckRange 1 0xFFFFFFFFFFFFFFFF .acknowledged)
      (oneByOne .acknowledged (exactRange twoPendingBlocks 1 0xFFFFFFFFFFFFFFFF)
        twoPendingBlocks) := by
  decide

end Go2Cbt.Client.BlockStateManager
