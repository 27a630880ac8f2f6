import Go2Cbt.Client.AckRange
import Go2Cbt.Engine.Transfer
import Mathlib.Data.List.Pairwise

/-!
# Engine — what the synchronous transfer reports

`TransferBlocks` goes over the pending blocks once.  A block ends in one of three ways: it could
not be read or compressed, one of its attempts succeeded, or all of them failed (`TurnEnds`).
`transferBlocks_accounted`: the counters and the block states say the same about it.
-/

namespace Go2Cbt.Engine

open Go2Cbt.Client

variable {σ : Type}

/-- The state in which `TransferBlocks` starts, with `stats.AckedBlocks`. -/
def TransferState.start (manager : BlockStateManager) (connected : Bool) (net : σ)
    (ackedBlocks : Nat) : TransferState σ :=
  { manager
    connected
    net
    sentCount := 0
    ackedBlocks
    acknowledged := []
    visited := []
    tries := [] }

/-- The block at this place of the list can be read and compressed. -/
def TransferOps.Packs (ops : TransferOps σ) (totalBlocks : UInt64) (pos : Nat)
    (block : BlockState) : Prop :=
  ∃ data, ops.readSource pos block.offset (transferSize totalBlocks block.place) = some data ∧
    (ops.compress pos data).isSome

/-- What the calls of `SendBlock` for a block returned. -/
def callsFor (tries : List (UInt64 × Bool)) (blockIndex : UInt64) : List Bool :=
  (tries.filter fun p => p.1 = blockIndex).map Prod.snd

/-- How the turn of a block ends: what its calls of `SendBlock` returned, and its entry then. -/
inductive TurnEnds (attempts : Nat) (packs : Prop) (block : BlockState) :
    List Bool → Option BlockState → Prop where
  | skipped (h : ¬ packs) : TurnEnds attempts packs block [] (some block)
  | acked (h : packs) {n : Nat} (hn : n < attempts) :
      TurnEnds attempts packs block (List.replicate n false ++ [true])
        (some { block with ack := .acknowledged })
  | failed (h : packs) (hpos : 0 < attempts) :
      TurnEnds attempts packs block (List.replicate attempts false)
        (some { block with ack := .failed })

/-- What was recorded for a block: the calls, and the status that was set last. -/
structure Recorded (s t : TransferState σ) (blockIndex : UInt64) (calls : List Bool)
    (status : Option Client.AckStatus) : Prop where
  visited : t.visited = s.visited
  tries : t.tries = s.tries ++ calls.map (Prod.mk blockIndex)
  sentCount : t.sentCount = s.sentCount + if status = some .acknowledged then 1 else 0
  ackedBlocks : t.ackedBlocks = s.ackedBlocks + if status = some .acknowledged then 1 else 0
  self : t.manager.blocks[blockIndex.toNat]?
    = s.manager.blocks[blockIndex.toNat]?.map fun b => { b with ack := status.getD b.ack }
  other : ∀ j, blockIndex.toNat ≠ j → t.manager.blocks[j]? = s.manager.blocks[j]?

theorem Recorded.refl (s : TransferState σ) (blockIndex : UInt64) :
    Recorded s s blockIndex [] none where
  visited := rfl
  tries := (List.append_nil _).symm
  sentCount := rfl
  ackedBlocks := rfl
  self := (Option.map_id_apply).symm
  other _ _ := rfl

/-- A refused call, and what was recorded after it. -/
theorem Recorded.retry {s t u : TransferState σ} {blockIndex : UInt64} {calls : List Bool}
    {status : Option Client.AckStatus} (h : Recorded s t blockIndex [false] (some .failed))
    (h' : Recorded t u blockIndex calls status) :
    Recorded s u blockIndex (false :: calls) (status.or (some .failed)) where
  visited := h'.visited.trans h.visited
  tries := by
    rw [h'.tries, h.tries, List.append_assoc]
    rfl
  sentCount := by
    rw [h'.sentCount, h.sentCount]
    cases status <;> rfl
  ackedBlocks := by
    rw [h'.ackedBlocks, h.ackedBlocks]
    cases status <;> rfl
  self := by
    rw [h'.self, h.self, Option.map_map]
    cases status <;> rfl
  other j hj := (h'.other j hj).trans (h.other j hj)

section

variable {config : TransferConfig} (hdry : config.dryRun = false) (ops : TransferOps σ)
include hdry

/-- The retry loop on a block: refused calls up to a success, or as many as there are attempts. -/
theorem retryFrom_recorded (pos : Nat) (msg : BlockMessage) (left retry : Nat)
    (s : TransferState σ) :
    (∃ n < left, Recorded s (retryFrom config ops pos msg left retry s) msg.blockIndex
        (List.replicate n false ++ [true]) (some .acknowledged)) ∨
      Recorded s (retryFrom config ops pos msg left retry s) msg.blockIndex
        (List.replicate left false) (if left = 0 then none else some .failed) := by
  induction left generalizing retry s with
  | zero => exact .inr (.refl s _)
  | succ left ih =>
      obtain ⟨hmanager, hvisited, htries, hsent, hacked⟩ := sendBlock_keeps ops pos retry msg s
      rw [retryFrom, hdry]
      dsimp only
      rw [if_neg Bool.false_ne_true]
      generalize sendBlock ops pos retry msg s = sent at hmanager hvisited htries hsent hacked ⊢
      -- what a call records, by what it returned
      have hcall : ∀ (status : Client.AckStatus) (t : TransferState σ), t.visited = s.visited →
          t.tries = s.tries ++ [(msg.blockIndex, sent.1)] →
          (t.sentCount = s.sentCount + if some status = some .acknowledged then 1 else 0) →
          (t.ackedBlocks = s.ackedBlocks + if some status = some .acknowledged then 1 else 0) →
          t.manager = (s.manager.setBlockAck msg.blockIndex status).2 →
          Recorded s t msg.blockIndex [sent.1] (some status) := by
        intro status t hv ht hs ha hm
        refine ⟨hv, ht, hs, ha, ?_, fun j hj => ?_⟩
        · rw [hm, BlockStateManager.getElem?_setBlockAck_self]
          rfl
        · rw [hm, BlockStateManager.getElem?_setBlockAck_ne _ _ hj]
      cases hgo : sent.1 with
      | true =>
          rw [if_pos rfl]
          rw [hgo] at hcall
          refine .inl ⟨0, Nat.succ_pos _, hcall .acknowledged _ hvisited ?_ ?_ ?_ ?_⟩
          · exact congrArg (· ++ _) htries
          · exact congrArg (· + 1) hsent
          · exact congrArg (· + 1) hacked
          · exact congrArg (fun m => (BlockStateManager.setBlockAck m _ _).2) hmanager
      | false =>
          rw [if_neg Bool.false_ne_true]
          rw [hgo] at hcall
          have hrefused := hcall .failed
            { sent.2 with
              manager := (sent.2.manager.setBlockAck msg.blockIndex .failed).2
              tries := sent.2.tries ++ [(msg.blockIndex, false)] }
            hvisited (congrArg (· ++ _) htries) hsent hacked
            (congrArg (fun m => (BlockStateManager.setBlockAck m _ _).2) hmanager)
          rcases ih (retry + 1) _ with ⟨n, hn, h⟩ | h
          · exact .inl ⟨n + 1, Nat.succ_lt_succ hn, hrefused.retry h⟩
          · have hall := hrefused.retry h
            refine .inr ?_
            rw [if_neg (Nat.succ_ne_zero left)]
            cases left <;> exact hall

end

/-- The block is acknowledged. -/
def TransferState.Acked (s : TransferState σ) (blockIndex : UInt64) : Prop :=
  s.manager.blocks[blockIndex.toNat]?.map BlockState.ack = some .acknowledged

instance (s : TransferState σ) (blockIndex : UInt64) : Decidable (s.Acked blockIndex) := by
  unfold TransferState.Acked; infer_instance

/-- What one turn of the loop of `TransferBlocks` does. -/
structure Turn (attempts : Nat) (packs : Prop) (block : BlockState) (s t : TransferState σ)
    (calls : List Bool) : Prop where
  ends : TurnEnds attempts packs block calls t.manager.blocks[block.blockIndex.toNat]?
  visited : t.visited = s.visited ++ [block.blockIndex]
  tries : t.tries = s.tries ++ calls.map (Prod.mk block.blockIndex)
  sentCount : t.sentCount = s.sentCount + if t.Acked block.blockIndex then 1 else 0
  ackedBlocks : t.ackedBlocks = s.ackedBlocks + if t.Acked block.blockIndex then 1 else 0
  other : ∀ j, block.blockIndex.toNat ≠ j → t.manager.blocks[j]? = s.manager.blocks[j]?

/-- A block that is skipped. -/
theorem turn_skipped {attempts : Nat} {packs : Prop} (hnot : ¬ packs) {s : TransferState σ}
    {block : BlockState} (hblock : s.manager.blocks[block.blockIndex.toNat]? = some block)
    (hpending : block.needsUpload = true) :
    Turn attempts packs block s (s.visit block.blockIndex) [] := by
  have hack : ¬ (s.visit block.blockIndex).Acked block.blockIndex := by
    intro h
    rw [TransferState.Acked, TransferState.visit, hblock, Option.map_some,
      Option.some.injEq] at h
    rw [BlockState.needsUpload, h] at hpending
    exact absurd hpending (by simp)
  refine ⟨?_, rfl, (List.append_nil _).symm, ?_, ?_, fun _ _ => rfl⟩
  · have hsame : (s.visit block.blockIndex).manager.blocks[block.blockIndex.toNat]? = some block :=
      hblock
    rw [hsame]
    exact .skipped hnot
  · rw [if_neg hack]
    rfl
  · rw [if_neg hack]
    rfl

/-- A block that is sent. -/
theorem turn_recorded {attempts : Nat} {packs : Prop} {s t : TransferState σ}
    {block : BlockState} (hblock : s.manager.blocks[block.blockIndex.toNat]? = some block)
    {calls : List Bool} {status : Client.AckStatus}
    (h : Recorded (s.visit block.blockIndex) t block.blockIndex calls (some status))
    (hends : TurnEnds attempts packs block calls (some { block with ack := status })) :
    Turn attempts packs block s t calls := by
  have hself : t.manager.blocks[block.blockIndex.toNat]? = some { block with ack := status } := by
    rw [h.self]
    exact congrArg (Option.map _) hblock
  have hack : t.Acked block.blockIndex ↔ some status = some .acknowledged := by
    rw [TransferState.Acked, hself]
    rfl
  refine ⟨by rwa [hself], h.visited, h.tries, ?_, ?_, h.other⟩
  · simp only [hack]
    exact h.sentCount
  · simp only [hack]
    exact h.ackedBlocks

section

variable {config : TransferConfig} (hdry : config.dryRun = false) (hattempts : 0 < config.attempts)
  (ops : TransferOps σ) (devNo versionId : UInt32) (totalBlocks : UInt64)
include hdry hattempts

theorem transferBlock_turn (pos : Nat) {block : BlockState} {s : TransferState σ}
    (hblock : s.manager.blocks[block.blockIndex.toNat]? = some block)
    (hpending : block.needsUpload = true) :
    ∃ calls, Turn config.attempts (ops.Packs totalBlocks pos block) block s
      (transferBlock config ops devNo versionId totalBlocks pos block s) calls := by
  rw [transferBlock, hdry]
  cases hread : ops.readSource pos block.offset (transferSize totalBlocks block.place) with
  | none =>
      refine ⟨[], turn_skipped ?_ hblock hpending⟩
      rintro ⟨data, hdata, -⟩
      rw [hread] at hdata
      cases hdata
  | some data =>
      dsimp only
      rw [Option.getD_some]
      cases hcompress : ops.compress pos data with
      | none =>
          refine ⟨[], turn_skipped ?_ hblock hpending⟩
          rintro ⟨data', hdata, hsome⟩
          rw [hread, Option.some.injEq] at hdata
          rw [← hdata, hcompress] at hsome
          cases hsome
      | some compressed =>
          have hpacks : ops.Packs totalBlocks pos block :=
            ⟨data, hread, by rw [hcompress]; rfl⟩
          dsimp only
          rcases retryFrom_recorded hdry ops pos
              { devNo := devNo
                blockIndex := block.blockIndex
                dataSize := transferSize totalBlocks block.place
                hash := block.hash
                versionId := versionId
                payload := compressed }
              config.attempts 0 (s.visit block.blockIndex) with ⟨n, hn, h⟩ | h
          · exact ⟨_, turn_recorded hblock h (.acked hpacks hn)⟩
          · rw [if_neg hattempts.ne'] at h
            exact ⟨_, turn_recorded hblock h (.failed hpacks hattempts)⟩

end

/-! ### The whole loop -/

/-- What the loop of `TransferBlocks` does, from its `pos`-th block on. -/
structure Loop (attempts : Nat) (ops : TransferOps σ) (totalBlocks : UInt64) (pos : Nat)
    (blocks : List BlockState) (s t : TransferState σ) (new : List (UInt64 × Bool)) : Prop where
  visited : t.visited = s.visited ++ blocks.map BlockState.blockIndex
  tries : t.tries = s.tries ++ new
  listed : ∀ p ∈ new, p.1 ∈ blocks.map BlockState.blockIndex
  sentCount : t.sentCount
    = s.sentCount + (blocks.map BlockState.blockIndex).countP fun i => t.Acked i
  ackedBlocks : t.ackedBlocks
    = s.ackedBlocks + (blocks.map BlockState.blockIndex).countP fun i => t.Acked i
  other : ∀ j, (∀ i ∈ blocks.map BlockState.blockIndex, i.toNat ≠ j) →
    t.manager.blocks[j]? = s.manager.blocks[j]?
  ends : ∀ k b, blocks[k]? = some b →
    TurnEnds attempts (ops.Packs totalBlocks (pos + k) b) b (callsFor new b.blockIndex)
      t.manager.blocks[b.blockIndex.toNat]?

theorem callsFor_append (tries tries' : List (UInt64 × Bool)) (blockIndex : UInt64) :
    callsFor (tries ++ tries') blockIndex
      = callsFor tries blockIndex ++ callsFor tries' blockIndex := by
  rw [callsFor, List.filter_append, List.map_append]
  rfl

/-- The calls for a block are those of its turn. -/
theorem callsFor_map_self (calls : List Bool) (blockIndex : UInt64) :
    callsFor (calls.map (Prod.mk blockIndex)) blockIndex = calls := by
  have hall : (calls.map (Prod.mk blockIndex)).filter (fun p => p.1 = blockIndex)
      = calls.map (Prod.mk blockIndex) := by
    refine List.filter_eq_self.mpr fun p hp => ?_
    obtain ⟨ok, -, rfl⟩ := List.mem_map.mp hp
    exact decide_eq_true rfl
  rw [callsFor, hall, List.map_map]
  exact List.map_id _

theorem callsFor_eq_nil {tries : List (UInt64 × Bool)} {blockIndex : UInt64}
    (h : ∀ p ∈ tries, p.1 ≠ blockIndex) : callsFor tries blockIndex = [] := by
  have hnone : tries.filter (fun p => p.1 = blockIndex) = [] :=
    List.filter_eq_nil_iff.mpr fun p hp => by rw [decide_eq_true_iff]; exact h p hp
  rw [callsFor, hnone, List.map_nil]

section

variable {config : TransferConfig} (hdry : config.dryRun = false) (hattempts : 0 < config.attempts)
  (ops : TransferOps σ) (devNo versionId : UInt32) (totalBlocks : UInt64)
include hdry hattempts

/-- The loop, turn by turn. -/
theorem transferFrom_loop {blocks : List BlockState}
    (hnodup : (blocks.map BlockState.blockIndex).Nodup) (pos : Nat) {s : TransferState σ}
    (hblocks : ∀ b ∈ blocks, s.manager.blocks[b.blockIndex.toNat]? = some b ∧
      b.needsUpload = true) :
    ∃ new, Loop config.attempts ops totalBlocks pos blocks s
      (transferFrom config ops devNo versionId totalBlocks pos blocks s) new := by
  induction blocks generalizing pos s with
  | nil =>
      refine ⟨[], (List.append_nil _).symm, (List.append_nil _).symm, ?_, rfl, rfl,
        fun _ _ => rfl, ?_⟩
      · exact fun p hp => absurd hp List.not_mem_nil
      · intro k b hb
        cases hb
  | cons block rest ih =>
      rw [List.map_cons, List.nodup_cons] at hnodup
      obtain ⟨hblock, hrest⟩ := List.forall_mem_cons.mp hblocks
      obtain ⟨calls, hturn⟩ := transferBlock_turn hdry hattempts ops devNo versionId totalBlocks pos
        hblock.1 hblock.2
      rw [transferFrom]
      generalize transferBlock config ops devNo versionId totalBlocks pos block s = s' at hturn ⊢
      -- the other blocks are as they were
      have hne : ∀ i ∈ rest.map BlockState.blockIndex, i ≠ block.blockIndex :=
        fun i hi heq => hnodup.1 (heq ▸ hi)
      have hkept : ∀ b ∈ rest, s'.manager.blocks[b.blockIndex.toNat]? = some b ∧
          b.needsUpload = true := by
        intro b hb
        refine ⟨(hturn.other _ fun heq => ?_).trans (hrest b hb).1, (hrest b hb).2⟩
        exact hne _ (List.mem_map_of_mem hb) (UInt64.toNat_inj.mp heq).symm
      obtain ⟨new, hloop⟩ := ih hnodup.2 (pos + 1) hkept
      generalize transferFrom config ops devNo versionId totalBlocks (pos + 1) rest s' = t
        at hloop ⊢
      -- the later turns leave this block
      have hself : t.manager.blocks[block.blockIndex.toNat]?
          = s'.manager.blocks[block.blockIndex.toNat]? :=
        hloop.other _ fun i hi heq => hne i hi (UInt64.toNat_inj.mp heq)
      have hacked : s'.Acked block.blockIndex ↔ t.Acked block.blockIndex := by
        rw [TransferState.Acked, TransferState.Acked, hself]
      have hcount : (if s'.Acked block.blockIndex then 1 else 0)
            + (rest.map BlockState.blockIndex).countP (fun i => t.Acked i)
          = ((block :: rest).map BlockState.blockIndex).countP fun i => t.Acked i := by
        rw [List.map_cons, List.countP_cons, Nat.add_comm]
        simp only [hacked, decide_eq_true_iff]
      refine ⟨calls.map (Prod.mk block.blockIndex) ++ new, ?_, ?_, ?_, ?_, ?_, ?_, ?_⟩
      · rw [hloop.visited, hturn.visited, List.append_assoc]
        rfl
      · rw [hloop.tries, hturn.tries, List.append_assoc]
      · intro p hp
        rw [List.map_cons, List.mem_cons]
        rcases List.mem_append.mp hp with hp | hp
        · obtain ⟨ok, -, rfl⟩ := List.mem_map.mp hp
          exact .inl rfl
        · exact .inr (hloop.listed p hp)
      · rw [hloop.sentCount, hturn.sentCount, Nat.add_assoc, hcount]
      · rw [hloop.ackedBlocks, hturn.ackedBlocks, Nat.add_assoc, hcount]
      · intro j hj
        rw [List.map_cons, List.forall_mem_cons] at hj
        exact (hloop.other j hj.2).trans (hturn.other j hj.1)
      · intro k b hb
        rw [callsFor_append]
        cases k with
        | zero =>
            cases hb
            have hnone : callsFor new block.blockIndex = [] :=
              callsFor_eq_nil fun p hp => hne _ (hloop.listed p hp)
            rw [callsFor_map_self, hnone, List.append_nil, hself]
            exact hturn.ends
        | succ k =>
            have hmem : b.blockIndex ∈ rest.map BlockState.blockIndex :=
              List.mem_map_of_mem (List.mem_of_getElem? (i := k) hb)
            have hnone : callsFor (calls.map (Prod.mk block.blockIndex)) b.blockIndex = [] := by
              refine callsFor_eq_nil fun p hp => ?_
              obtain ⟨ok, -, rfl⟩ := List.mem_map.mp hp
              exact (hne _ hmem).symm
            rw [hnone, List.nil_append, Nat.add_comm k 1, ← Nat.add_assoc]
            exact hloop.ends k b hb

end

/-- Every entry has its own number. -/
def Numbered (m : BlockStateManager) : Prop :=
  ∀ (i : Nat) (b : BlockState), m.blocks[i]? = some b → b.blockIndex.toNat = i

theorem Numbered.pending {m : BlockStateManager} (h : Numbered m) {b : BlockState}
    (hb : b ∈ m.getPendingBlocks) :
    m.blocks[b.blockIndex.toNat]? = some b ∧ b.needsUpload = true := by
  obtain ⟨hmem, hpending⟩ := List.mem_filter.mp hb
  obtain ⟨i, hi⟩ := List.getElem?_of_mem hmem
  rw [h i b hi]
  exact ⟨hi, hpending⟩

theorem Numbered.ascending {m : BlockStateManager} (h : Numbered m) :
    (m.getPendingBlocks.map BlockState.blockIndex).Pairwise (· < ·) := by
  have hall : m.blocks.Pairwise fun a b => a.blockIndex < b.blockIndex := by
    refine List.pairwise_iff_getElem.mpr fun i j hi hj hij => ?_
    rw [UInt64.lt_iff_toNat_lt, h i _ (List.getElem?_eq_getElem hi),
      h j _ (List.getElem?_eq_getElem hj)]
    exact hij
  exact List.pairwise_map.mpr (hall.filter _)

/-- What a transfer of the pending blocks of `m` is to report, when `stats.AckedBlocks` was
`acked` before. -/
structure Accounted (config : TransferConfig) (ops : TransferOps σ) (totalBlocks : UInt64)
    (m : BlockStateManager) (acked : Nat) (t : TransferState σ) : Prop where
  visited : t.visited = m.getPendingBlocks.map BlockState.blockIndex
  ascending : t.visited.Pairwise (· < ·)
  tries : ∀ p ∈ t.tries, p.1 ∈ t.visited
  ends : ∀ k b, m.getPendingBlocks[k]? = some b →
    TurnEnds config.attempts (ops.Packs totalBlocks k b) b (callsFor t.tries b.blockIndex)
      t.manager.blocks[b.blockIndex.toNat]?
  returned : t.sentCount = t.visited.countP fun i => t.Acked i
  stats : t.ackedBlocks = acked + t.sentCount
  stillPending : ∀ i ∈ t.visited, ¬ t.Acked i →
    ∃ b, t.manager.blocks[i.toNat]? = some b ∧ b.needsUpload = true
  other : ∀ j, (∀ i ∈ t.visited, i.toNat ≠ j) → t.manager.blocks[j]? = m.blocks[j]?

/-- A block whose turn ends without success is still pending. -/
theorem TurnEnds.stillPending {attempts : Nat} {packs : Prop} {block : BlockState}
    {calls : List Bool} {final : Option BlockState}
    (h : TurnEnds attempts packs block calls final) (hpending : block.needsUpload = true)
    (hnot : final.map BlockState.ack ≠ some .acknowledged) :
    ∃ b, final = some b ∧ b.needsUpload = true := by
  cases h with
  | skipped => exact ⟨_, rfl, hpending⟩
  | acked => exact absurd rfl hnot
  | failed =>
      refine ⟨_, rfl, ?_⟩
      rw [BlockState.needsUpload, Bool.and_eq_true] at hpending ⊢
      exact ⟨hpending.1, rfl⟩

/-- **The accounts of a synchronous transfer.**  `RetryCount` is an `int` and the retry loop
counts up to it, so that it is to be less than the largest one. -/
theorem transferBlocks_accounted (config : TransferConfig) (hdry : config.dryRun = false)
    (hretry : 0 ≤ config.retryCount ∧ config.retryCount ≤ 2 ^ 31 - 2) (ops : TransferOps σ)
    (devNo versionId : UInt32) (totalBlocks : UInt64) (m : BlockStateManager) (hm : Numbered m)
    (connected : Bool) (net : σ) (acked : Nat) :
    Accounted config ops totalBlocks m acked
      (transferBlocks config ops devNo versionId totalBlocks (.start m connected net acked)) := by
  have hattempts : 0 < config.attempts := by
    rw [TransferConfig.attempts]
    omega
  have hascending := hm.ascending
  obtain ⟨new, hloop⟩ := transferFrom_loop hdry hattempts ops devNo versionId totalBlocks
    (hascending.imp fun h => UInt64.ne_of_lt h) 0 (s := .start m connected net acked)
    fun b hb => hm.pending hb
  rw [transferBlocks]
  have hstart : (TransferState.start m connected net acked).manager = m := rfl
  rw [hstart]
  generalize transferFrom config ops devNo versionId totalBlocks 0 m.getPendingBlocks
    (.start m connected net acked) = t at hloop ⊢
  have hvisited : t.visited = m.getPendingBlocks.map BlockState.blockIndex := hloop.visited
  have htries : t.tries = new := hloop.tries
  have hsent : t.sentCount = t.visited.countP fun i => t.Acked i := by
    rw [hloop.sentCount, ← hvisited]
    exact Nat.zero_add _
  have hends : ∀ k b, m.getPendingBlocks[k]? = some b →
      TurnEnds config.attempts (ops.Packs totalBlocks k b) b (callsFor t.tries b.blockIndex)
        t.manager.blocks[b.blockIndex.toNat]? := by
    intro k b hb
    have h := hloop.ends k b hb
    rwa [Nat.zero_add, ← htries] at h
  refine ⟨hvisited, hvisited ▸ hascending, ?_, hends, hsent, ?_, ?_, ?_⟩
  · rw [htries, hvisited]
    exact hloop.listed
  · rw [hsent, hloop.ackedBlocks, hvisited]
    rfl
  · intro i hi hnot
    rw [hvisited] at hi
    obtain ⟨b, hb, rfl⟩ := List.mem_map.mp hi
    obtain ⟨k, hk⟩ := List.getElem?_of_mem hb
    exact (hends k b hk).stillPending (hm.pending hb).2 hnot
  · rw [hvisited]
    exact hloop.other

/-- Block 0 is refused once, and block 1 cannot be read. -/
def oneRefusal : Faults where
  readSource pos _ size := if pos = 0 then some (List.replicate size.toNat 0) else none
  compress _ _ := some []
  answer _ retry := if retry = 0 then .refused else .acked

/-- Two pending blocks, and three retries. -/
theorem transferBlocks_accounted_oneRefusal :
    Accounted { dryRun := false, retryCount := 3 } oneRefusal.ops 2
      BlockStateManager.twoPendingBlocks 5
      (transferBlocks { dryRun := false, retryCount := 3 } oneRefusal.ops 0 1 2
        (.start BlockStateManager.twoPendingBlocks true () 5)) := by
  have hm : Numbered BlockStateManager.twoPendingBlocks := by
    intro i b hb
    obtain ⟨hi, rfl⟩ := List.getElem?_eq_some_iff.mp hb
    have hall : ∀ i : Fin BlockStateManager.twoPendingBlocks.blocks.length,
        (BlockStateManager.twoPendingBlocks.blocks.get i).blockIndex.toNat = i := by decide
    exact hall ⟨i, hi⟩
  exact transferBlocks_accounted { dryRun := false, retryCount := 3 } rfl (by decide)
    oneRefusal.ops 0 1 2 BlockStateManager.twoPendingBlocks hm true () 5

end Go2Cbt.Engine
