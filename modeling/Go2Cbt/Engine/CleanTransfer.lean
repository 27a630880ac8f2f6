import Go2Cbt.Engine.Tally
import Mathlib.Data.List.Nodup
import Mathlib.Data.List.Perm.Subperm

/-!
# Engine — when the pipeline transfers everything

A block is lost for a transfer when it is skipped, when the sending loop ends before it, when its
acknowledgement says that it failed, or when the receiver thread ends before it has read its
acknowledgement.  A transfer that has returned has read a good acknowledgement of every block
exactly if none of its steps lost one (`allAcked_iff_reachedCleanly`).
-/

namespace Go2Cbt.Engine

open Go2Cbt.Client Go2Cbt.Protocol

variable {σ : Type}

/-- An acknowledgement with status 0 was read of every block. -/
def AllAcked (job : Job) (s : Pipeline σ) : Prop :=
  ∀ b < job.totalBlocks.toNat, ∃ ack ∈ s.received, ack.blockIndex.toNat = b ∧ ack.status = 0

/-! ### Steps that lose a block -/

/-- The sending loop skips a block, whose reading, hashing or compressing failed, or is left
before its last turn. -/
def LosesSend (job : Job) (t : Pipeline σ) : Prop :=
  (∃ i k, t.sender = .skip i k) ∨ ∃ i < job.totalBlocks.toNat, t.sender = .drain i

/-- The receiver thread is not there for an answer, or reads one that says that the block
failed. -/
def LosesAnswer (job : Job) (s t : Pipeline σ) : Prop :=
  (t.receiver = .stopped ∧ t.received.length < job.totalBlocks.toNat) ∨
    ∃ ack, t.received = s.received ++ [ack] ∧ ack.status ≠ 0

/-- A step that loses no block. -/
def CleanStep (job : Job) (out : Outside σ) (s : Pipeline σ) (p : Party) (t : Pipeline σ) : Prop :=
  Step job out s p t ∧ ¬ LosesSend job t ∧ ¬ LosesAnswer job s t

/-- A state that a transfer can reach without losing a block. -/
def ReachedCleanly (job : Job) (out : Outside σ) (init s : Pipeline σ) : Prop :=
  Transition.Reachable (CleanStep job out) (· = init) s

/-! ### What stays of a lost block -/

/-- The loop was left before its last turn. -/
def Sender.EndsBefore (total : Nat) : Sender → Prop
  | .drain i | .stop i _ | .done i _ => i < total
  | _ => False

/-- The sending loop has lost a block. -/
def SendLost (job : Job) (s : Pipeline σ) : Prop :=
  0 < s.skippedCount ∨ (∃ i k, s.sender = .skip i k) ∨
    s.sender.EndsBefore job.totalBlocks.toNat

/-- The receiver thread has. -/
def AnswerLost (job : Job) (s : Pipeline σ) : Prop :=
  (s.receiver = .stopped ∧ s.received.length < job.totalBlocks.toNat) ∨
    ∃ ack ∈ s.received, ack.status ≠ 0

section Steps

variable {job : Job} {out : Outside σ} {s t : Pipeline σ} {acks : List AckBody} {p : Party}

theorem LosesSend.sendLost (h : LosesSend job s) : SendLost job s := by
  rcases h with h | ⟨i, hi, hs⟩
  · exact .inr (.inl h)
  · exact .inr (.inr (hs ▸ hi))

/-- A step of another thread. -/
theorem sendLost_iff_of_same (hsender : t.sender = s.sender)
    (hskipped : t.skippedCount = s.skippedCount) :
    SendLost job t ↔ SendLost job s ∨ LosesSend job t := by
  have hiff : SendLost job t ↔ SendLost job s := by rw [SendLost, SendLost, hsender, hskipped]
  exact ⟨fun h => .inl (hiff.mp h), fun h => h.elim hiff.mpr LosesSend.sendLost⟩

/-- **The sending loop has lost a block if it had, or does now.** -/
theorem sendLost_step_iff (ha : Accounts job s acks) (hst : Step job out s p t) :
    SendLost job t ↔ SendLost job s ∨ LosesSend job t := by
  have hwithin := ha.within
  cases hst with
  | finish hs hi | abort hs hi _ | timeout hs hi _ _ =>
      simp [SendLost, LosesSend, Sender.EndsBefore, hs, hi]
  | acquire hs _ _ _ | bind hs | readFails hs _ | hashFails hs _ _ | read hs _ _
  | compressFails hs _ | compress hs _ | send hs _ | sendFails hs _ | count hs | skip hs
  | abandon hs =>
      simp [SendLost, LosesSend, Sender.EndsBefore, hs]
  | @fail i hs =>
      rw [hs] at hwithin
      have hlt : i < job.totalBlocks.toNat := hwithin
      simp [SendLost, LosesSend, Sender.EndsBefore, hs, hlt]
  | awaited hs _ | interrupted hs _ _ | giveUp hs _ _ | join hs _ =>
      simp [SendLost, LosesSend, Sender.EndsBefore, hs]
  | receive _ _ _ | receiveError _ _ _ | receiveBad _ _ | receiveFails _ _ | setAck _
  | countAck _ | release _ | decrement _ | serve _ => exact sendLost_iff_of_same rfl rfl

/-- A step that reads nothing and leaves the thread running. -/
theorem answerLost_iff_of_same (hreceived : t.received = s.received)
    (hstopped : t.receiver = .stopped ↔ s.receiver = .stopped) :
    AnswerLost job t ↔ AnswerLost job s ∨ LosesAnswer job s t := by
  simp [AnswerLost, LosesAnswer, hreceived, hstopped]
  tauto

/-- **The receiver thread has lost a block if it had, or does now.** -/
theorem answerLost_step_iff (ha : Accounts job s acks) (hst : Step job out s p t) :
    AnswerLost job t ↔ AnswerLost job s ∨ LosesAnswer job s t := by
  cases hst with
  | finish _ _ | abort _ _ _ | timeout _ _ _ _ | acquire _ _ _ _ | bind _ | readFails _ _
  | hashFails _ _ _ | read _ _ _ | compressFails _ _ | compress _ _ | send _ _ | sendFails _ _
  | count _ | skip _ | abandon _ | fail _ | awaited _ _ | interrupted _ _ _ | giveUp _ _ _
  | serve _ => exact answerLost_iff_of_same rfl Iff.rfl
  | setAck hr | countAck hr | release hr | decrement hr =>
      exact answerLost_iff_of_same rfl (by simp [hr])
  | join _ hr =>
      rcases hr with hr | hr
      · simp only [AnswerLost, LosesAnswer, hr]
        simpa using or_comm
      · exact answerLost_iff_of_same rfl (by simp [hr])
  | receiveBad hr _ | receiveFails hr _ =>
      simp only [AnswerLost, LosesAnswer, hr]
      simpa using or_comm
  | receive hr _ _ => simp [AnswerLost, LosesAnswer, hr]
  | receiveError hr hread hblock =>
      obtain ⟨rest, -, hlt, -⟩ := ha.read hr hread
      have htotal := job.totalBlocks.toNat_lt
      rw [hblock] at hlt
      exact absurd hlt (not_lt.mpr (Nat.le_of_lt_succ htotal))

/-- No block has been lost. -/
def NoneLost (job : Job) (s : Pipeline σ) : Prop := ¬ SendLost job s ∧ ¬ AnswerLost job s

/-- **A step loses no block if none is lost after it, and none was before.** -/
theorem noneLost_step_iff (ha : Accounts job s acks) (hst : Step job out s p t) :
    NoneLost job t ↔ NoneLost job s ∧ CleanStep job out s p t := by
  rw [NoneLost, NoneLost, CleanStep, sendLost_step_iff ha hst, answerLost_step_iff ha hst]
  tauto

/-! ### What the acknowledgements say -/

/-- The acknowledgements that were read are those of the blocks sent first. -/
structure Answered (s : Pipeline σ) (acks : List AckBody) : Prop where
  fifo : s.sent.map blockIndexOf = s.received.map AckBody.blockIndex
    ++ (acks.map AckBody.blockIndex ++ s.outgoing.map blockIndexOf)
  ended : ∀ i awaited, s.sender = .done i awaited → s.receiver = .stopped

/-- A step of the sending loop that sends nothing. -/
theorem Answered.sends (h : Answered s acks) (hsent : t.sent = s.sent)
    (hreceived : t.received = s.received) (houtgoing : t.outgoing = s.outgoing)
    (hended : ∀ i awaited, t.sender = .done i awaited → t.receiver = .stopped) :
    Answered t acks :=
  ⟨by rw [hsent, hreceived, houtgoing]; exact h.fifo, hended⟩

/-- A step that leaves the sending loop alone. -/
theorem Answered.receives (h : Answered s acks) (hsent : t.sent = s.sent)
    (hreceived : t.received = s.received) (houtgoing : t.outgoing = s.outgoing)
    (hsender : t.sender = s.sender) (hr : s.receiver ≠ .stopped) : Answered t acks :=
  h.sends hsent hreceived houtgoing fun i awaited hdone =>
    absurd (h.ended i awaited (hsender ▸ hdone)) hr

/-- **Every step keeps the acknowledgements in order.** -/
theorem answered_step {acks' : List AckBody} (hout : out.AnswersNext s) (ha : Accounts job s acks)
    (ha' : Accounts job t acks') (h : Answered s acks) (hst : Step job out s p t) :
    Answered t acks' := by
  have hsame : t.incoming = s.incoming → acks' = acks := fun heq =>
    Frames.unique ha'.frames (heq ▸ ha.frames)
  cases hst with
  | finish _ _ | abort _ _ _ | timeout _ _ _ _ | acquire _ _ _ _ | bind _ | readFails _ _
  | hashFails _ _ _ | read _ _ _ | compressFails _ _ | compress _ _ | sendFails _ _
  | count _ | skip _ | abandon _ | fail _ | awaited _ _ | interrupted _ _ _ | giveUp _ _ _ =>
      rw [hsame rfl]
      exact h.sends rfl rfl rfl fun _ _ hdone => Sender.noConfusion hdone
  | join _ _ =>
      rw [hsame rfl]
      exact h.sends rfl rfl rfl fun _ _ _ => rfl
  | send hs _ =>
      rw [hsame rfl]
      refine ⟨?_, fun _ _ hdone => Sender.noConfusion hdone⟩
      dsimp only
      rw [List.map_append, List.map_append, h.fifo, List.append_assoc, List.append_assoc]
  | @receive ack hr hread _ =>
      obtain ⟨rest, rfl, -, hnext⟩ := ha.read hr hread
      rw [Frames.unique ha'.frames hnext.frames]
      refine ⟨?_, fun i awaited hdone => ?_⟩
      · dsimp only
        rw [h.fifo, List.map_append, List.append_assoc]
        rfl
      · exact absurd (h.ended i awaited hdone) (by simp [hr])
  | receiveError hr hread hblock =>
      obtain ⟨rest, -, hlt, -⟩ := ha.read hr hread
      have htotal := job.totalBlocks.toNat_lt
      rw [hblock] at hlt
      exact absurd hlt (not_lt.mpr (Nat.le_of_lt_succ htotal))
  | receiveBad _ _ | receiveFails _ _ =>
      rw [hsame rfl]
      exact h.sends rfl rfl rfl fun _ _ _ => rfl
  | setAck hr | countAck hr | release hr | decrement hr =>
      rw [hsame rfl]
      exact h.receives rfl rfl rfl rfl (by simp [hr])
  | serve hserve =>
      obtain ⟨m, ack, hqueue, hframe, hblock⟩ := hout _ _ _ hserve
      rw [Frames.unique ha'.frames (ha.frames.snoc hframe)]
      refine ⟨?_, h.ended⟩
      dsimp only
      rw [h.fifo, hqueue, List.map_append, List.append_assoc, List.map_cons, ← hblock]
      rfl

end Steps

/-- Different numbers below `n` are all of them if there are `n`. -/
theorem forall_mem_iff_le_length {n : Nat} {l : List Nat} (hnodup : l.Nodup)
    (hlt : ∀ b ∈ l, b < n) : (∀ b < n, b ∈ l) ↔ n ≤ l.length := by
  have hsub : l.Subperm (List.range n) :=
    hnodup.subperm fun b hb => List.mem_range.mpr (hlt b hb)
  constructor
  · intro h
    have hsup : (List.range n).Subperm l :=
      List.nodup_range.subperm fun b hb => h b (List.mem_range.mp hb)
    exact (List.length_range ▸ hsup.length_le :)
  · intro h b hb
    have hperm : l.Perm (List.range n) :=
      hsub.perm_of_length_le (List.length_range.trans_le h)
    exact hperm.mem_iff.mpr (List.mem_range.mpr hb)

section Returned

variable {job : Job} {out : Outside σ} {s : Pipeline σ} {acks : List AckBody} {i : Nat}
  {awaited : Bool}

/-- The blocks whose acknowledgements were read are different, and blocks of the disk. -/
theorem Answered.received (h : Answered s acks) (ha : Accounts job s acks) :
    (s.received.map AckBody.blockIndex).Nodup ∧
      ∀ ack ∈ s.received, ack.blockIndex.toNat < job.totalBlocks.toNat := by
  have hfifo := h.fifo
  refine ⟨?_, fun ack hack => ?_⟩
  · have hnodup := ha.nodup
    rw [hfifo] at hnodup
    exact hnodup.sublist (List.sublist_append_left _ _)
  · have hmem : ack.blockIndex ∈ s.sent.map blockIndexOf :=
      hfifo ▸ List.mem_append_left _ (List.mem_map_of_mem hack)
    obtain ⟨m, hm, hblock⟩ := List.mem_map.mp hmem
    rw [← hblock]
    exact (ha.below m hm).trans_le ha.next_le

/-- **No more acknowledgements are read than blocks are sent, and the loop sends or skips a block
in each of its turns.** -/
theorem Answered.length_le (h : Answered s acks) (ha : Accounts job s acks)
    (hdone : s.sender = .done i awaited) :
    s.received.length + s.skippedCount ≤ i ∧ i ≤ job.totalBlocks.toNat := by
  have hwithin := ha.within
  have hturns := ha.turns
  have hsent := ha.sent
  have hlength := congrArg List.length h.fifo
  rw [hdone] at hwithin hturns hsent
  simp only [List.length_append, List.length_map] at hlength
  simp only [Sender.pos, Sender.uncounted, Sender.Within] at hwithin hturns hsent
  omega

theorem Answered.allAcked_iff (h : Answered s acks) (ha : Accounts job s acks) :
    AllAcked job s ↔
      job.totalBlocks.toNat ≤ s.received.length ∧ ∀ ack ∈ s.received, ack.status = 0 := by
  obtain ⟨hnodup, hlt⟩ := h.received ha
  have hall := forall_mem_iff_le_length (n := job.totalBlocks.toNat)
    (l := s.received.map fun ack => ack.blockIndex.toNat)
    (by
      rw [show (fun ack : AckBody => ack.blockIndex.toNat) = UInt64.toNat ∘ AckBody.blockIndex
        from rfl, ← List.map_map]
      exact List.Nodup.map (fun a b => UInt64.toNat_inj.mp) hnodup)
    (by
      intro b hb
      obtain ⟨ack, hack, rfl⟩ := List.mem_map.mp hb
      exact hlt ack hack)
  rw [List.length_map] at hall
  rw [← hall]
  constructor
  · intro hacked
    refine ⟨fun b hb => ?_, fun ack hack => ?_⟩
    · obtain ⟨ack, hack, hblock, -⟩ := hacked b hb
      exact List.mem_map.mpr ⟨ack, hack, hblock⟩
    · obtain ⟨ack', hack', hblock, hstatus⟩ := hacked _ (hlt ack hack)
      have heq : ack' = ack :=
        List.inj_on_of_nodup_map hnodup hack' hack (UInt64.toNat_inj.mp hblock)
      exact heq ▸ hstatus
  · rintro ⟨hmem, hstatus⟩ b hb
    obtain ⟨ack, hack, hblock⟩ := List.mem_map.mp (hmem b hb)
    exact ⟨ack, hack, hblock, hstatus ack hack⟩

/-- **When the transfer has returned, everything is acknowledged if no block was lost.** -/
theorem allAcked_iff_noneLost (h : Answered s acks) (ha : Accounts job s acks)
    (hdone : s.sender = .done i awaited) : AllAcked job s ↔ NoneLost job s := by
  have hstopped := h.ended i awaited hdone
  have hle := h.length_le ha hdone
  rw [h.allAcked_iff ha, NoneLost, SendLost, AnswerLost, hdone, hstopped]
  constructor
  · rintro ⟨hlength, hstatus⟩
    refine ⟨?_, ?_⟩
    · rintro (hskipped | ⟨j, k, hs⟩ | hlt)
      · omega
      · cases hs
      · exact absurd hlt (by simp only [Sender.EndsBefore]; omega)
    · rintro (⟨-, hlt⟩ | ⟨ack, hack, hne⟩)
      · omega
      · exact hne (hstatus ack hack)
  · rintro ⟨-, hanswers⟩
    refine ⟨?_, fun ack hack => ?_⟩
    · by_contra hlt
      exact hanswers (.inl ⟨rfl, not_le.mp hlt⟩)
    · by_contra hne
      exact hanswers (.inr ⟨ack, hack, hne⟩)

variable {windowSize : Nat} {m : BlockStateManager} {server : σ}

/-- Nothing is lost at the start. -/
theorem NoneLost.start (job : Job) (windowSize : Nat) (m : BlockStateManager) (server : σ) :
    NoneLost job (.start windowSize m server) := by
  simp [NoneLost, SendLost, AnswerLost, Sender.EndsBefore, Pipeline.start]

/-- The server answers the messages one by one all along a transfer. -/
def Outside.AnswersAlong (out : Outside σ) (job : Job) (init : Pipeline σ) : Prop :=
  ∀ s, Reached job out init s → out.AnswersNext s

theorem Outside.AnswersEach.along (hout : out.AnswersEach) (init : Pipeline σ) :
    out.AnswersAlong job init := fun s _ => hout s.server s.outgoing

variable (hout : out.AnswersAlong job (.start windowSize m server))
include hout

/-- The acknowledgements are in order in every state, and it is reached cleanly if no block was
lost. -/
theorem answered_of_reached (h : Reached job out (.start windowSize m server) s) :
    (∃ acks, Accounts job s acks ∧ Answered s acks) ∧
      (NoneLost job s → ReachedCleanly job out (.start windowSize m server) s) := by
  have hall : Reached job out (.start windowSize m server) s ∧
      (∃ acks, Accounts job s acks ∧ Answered s acks) ∧
      (NoneLost job s → ReachedCleanly job out (.start windowSize m server) s) := by
    refine Transition.Reachable.invariant
      (P := fun s => Reached job out (.start windowSize m server) s ∧
        (∃ acks, Accounts job s acks ∧ Answered s acks) ∧
        (NoneLost job s → ReachedCleanly job out (.start windowSize m server) s)) ?_ ?_ h
    · rintro s rfl
      exact ⟨⟨_, [], rfl, .nil _⟩,
        ⟨[], .start .., rfl, fun _ _ hdone => Sender.noConfusion hdone⟩,
        fun _ => ⟨_, [], rfl, .nil _⟩⟩
    · rintro s p t ⟨hs, ⟨acks, ha, hanswered⟩, hclean⟩ hst
      obtain ⟨acks', ha'⟩ := accounts_step (hout s hs) ha hst
      refine ⟨hs.next hst, ⟨acks', ha', answered_step (hout s hs) ha ha' hanswered hst⟩, ?_⟩
      intro hnone
      obtain ⟨hbefore, hstep⟩ := (noneLost_step_iff ha hst).mp hnone
      exact (hclean hbefore).next hstep
  exact hall.2

/-- No block was lost on the way to a state that can be reached cleanly. -/
theorem ReachedCleanly.noneLost (h : ReachedCleanly job out (.start windowSize m server) s) :
    NoneLost job s := by
  have hall : Reached job out (.start windowSize m server) s ∧ (∃ acks, Accounts job s acks) ∧
      NoneLost job s := by
    refine Transition.Reachable.invariant
      (P := fun s => Reached job out (.start windowSize m server) s ∧
        (∃ acks, Accounts job s acks) ∧ NoneLost job s) ?_ ?_ h
    · rintro s rfl
      exact ⟨⟨_, [], rfl, .nil _⟩, ⟨[], .start ..⟩, .start ..⟩
    · rintro s p t ⟨hs, ⟨acks, ha⟩, hnone⟩ hst
      exact ⟨hs.next hst.1, accounts_step (hout s hs) ha hst.1,
        (noneLost_step_iff ha hst.1).mpr ⟨hnone, hst⟩⟩
  exact hall.2.2

/-- **A transfer that has returned got every block acknowledged, exactly if it can have come there
without losing one.** -/
theorem allAcked_iff_reachedCleanly (h : Reached job out (.start windowSize m server) s)
    (hdone : s.sender = .done i awaited) :
    AllAcked job s ↔ ReachedCleanly job out (.start windowSize m server) s := by
  obtain ⟨⟨acks, ha, hanswered⟩, hclean⟩ := answered_of_reached hout h
  exact (allAcked_iff_noneLost hanswered ha hdone).trans
    ⟨hclean, ReachedCleanly.noneLost hout⟩

/-- Acknowledgements that were read are of blocks of the disk. -/
theorem blockIndex_lt_of_received (h : Reached job out (.start windowSize m server) s) :
    ∀ ack ∈ s.received, ack.blockIndex.toNat < job.totalBlocks.toNat := by
  obtain ⟨⟨acks, ha, hanswered⟩, -⟩ := answered_of_reached hout h
  exact (hanswered.received ha).2

end Returned

end Go2Cbt.Engine
