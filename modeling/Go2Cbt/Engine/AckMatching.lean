import Go2Cbt.Engine.Pipeline
import Go2Cbt.Engine.Transfer

/-!
# Engine — which acknowledgement is taken for which block

The client takes an acknowledgement with status 0 for a block after looking at the status alone
when it waits for the answer to a block, and at the status and the block number in the callback.
So what it records is right exactly as long as the other end answers what was asked.
-/

namespace Go2Cbt.Engine

open Go2Cbt.Client Go2Cbt.Protocol

variable {σ : Type}

/-- The acknowledgement is that of a block with this number and hash on device `devNo`. -/
structure Acknowledges (devNo : UInt32) (blockIndex : UInt64) (hash : Hash) (ack : AckBody) :
    Prop where
  status : ack.status = 0
  blockIndex : ack.blockIndex = blockIndex
  devNo : ack.devNo = devNo
  hash : ack.hash = hash

/-! ### The pipelined transfer -/

/-- The acknowledgement of a block that was sent has been received. -/
def Pipeline.Answered (job : Job) (s : Pipeline σ) (b : UInt64) : Prop :=
  ∃ rawSize data hash versionId, .block job.devNo b rawSize data hash versionId ∈ s.sent ∧
    ∃ ack ∈ s.received, Acknowledges job.devNo b hash ack

/-- Blocks are recorded as acknowledged only if they are. -/
def Pipeline.RecordsAnswered (job : Job) (s : Pipeline σ) : Prop :=
  ∀ (b : UInt64) (bs : BlockState), s.manager.blocks[b.toNat]? = some bs →
    bs.ack = .acknowledged → s.Answered job b

/-- When the callback is about to record a block as acknowledged, it is. -/
def Pipeline.TakesAnswered (job : Job) (s : Pipeline σ) (p : Party) : Prop :=
  ∀ ack, p = .receiver → s.receiver = .setAck ack → ack.status = 0 →
    ack.blockIndex.toNat < s.manager.blocks.length → s.Answered job ack.blockIndex

/-- What was answered stays answered. -/
theorem Pipeline.Answered.mono {job : Job} {s t : Pipeline σ} {b : UInt64}
    (h : s.Answered job b) (hsent : s.sent ⊆ t.sent) (hreceived : s.received ⊆ t.received) :
    t.Answered job b := by
  obtain ⟨rawSize, data, hash, versionId, hmem, ack, hack, hacks⟩ := h
  exact ⟨rawSize, data, hash, versionId, hsent hmem, ack, hreceived hack, hacks⟩

theorem Step.sent_subset {job : Job} {out : Outside σ} {s t : Pipeline σ} {p : Party}
    (h : Step job out s p t) : s.sent ⊆ t.sent ∧ s.received ⊆ t.received := by
  cases h
  case send => exact ⟨List.subset_append_left _ _, List.Subset.refl _⟩
  case receive => exact ⟨List.Subset.refl _, List.subset_append_left _ _⟩
  case receiveError => exact ⟨List.Subset.refl _, List.subset_append_left _ _⟩
  all_goals exact ⟨List.Subset.refl _, List.Subset.refl _⟩

/-- **What a step does to the statuses**: the callback sets that of the block its acknowledgement
names, and nothing else touches one. -/
theorem Step.ack_eq {job : Job} {out : Outside σ} {s t : Pipeline σ} {p : Party}
    (h : Step job out s p t) :
    (∃ ack, p = .receiver ∧ s.receiver = .setAck ack ∧
      t = { s with
        manager := (s.manager.setBlockAck ack.blockIndex (ackStatusOf ack)).2
        receiver := .count ack }) ∨
    (∀ ack, p = .receiver → s.receiver ≠ .setAck ack) ∧
      ∀ i : Nat,
        t.manager.blocks[i]?.map BlockState.ack = s.manager.blocks[i]?.map BlockState.ack := by
  cases h
  case setAck ack h => exact .inl ⟨ack, rfl, h, rfl⟩
  case compressFails => exact .inr ⟨nofun, fun i => s.manager.ack_setBlockHash _ _ i⟩
  case compress => exact .inr ⟨nofun, fun i => s.manager.ack_setBlockHash _ _ i⟩
  case receive h _ _ =>
    exact .inr ⟨fun ack _ heq => Receiver.noConfusion (h.symm.trans heq), fun _ => rfl⟩
  case receiveError h _ _ =>
    exact .inr ⟨fun ack _ heq => Receiver.noConfusion (h.symm.trans heq), fun _ => rfl⟩
  case receiveBad h _ =>
    exact .inr ⟨fun ack _ heq => Receiver.noConfusion (h.symm.trans heq), fun _ => rfl⟩
  case receiveFails h _ =>
    exact .inr ⟨fun ack _ heq => Receiver.noConfusion (h.symm.trans heq), fun _ => rfl⟩
  case countAck h =>
    exact .inr ⟨fun ack _ heq => Receiver.noConfusion (h.symm.trans heq), fun _ => rfl⟩
  case release h =>
    exact .inr ⟨fun ack _ heq => Receiver.noConfusion (h.symm.trans heq), fun _ => rfl⟩
  case decrement h =>
    exact .inr ⟨fun ack _ heq => Receiver.noConfusion (h.symm.trans heq), fun _ => rfl⟩
  all_goals exact .inr ⟨nofun, fun _ => rfl⟩

theorem recordsAnswered_step {job : Job} {out : Outside σ} {s t : Pipeline σ} {p : Party}
    (hs : s.RecordsAnswered job) (hok : s.TakesAnswered job p) (h : Step job out s p t) :
    t.RecordsAnswered job := by
  intro b bs hbs hacked
  obtain ⟨hsent, hreceived⟩ := h.sent_subset
  rcases h.ack_eq with ⟨ack, hp, hr, rfl⟩ | ⟨-, hsame⟩
  · dsimp only at hbs
    by_cases hb : ack.blockIndex = b
    · subst hb
      rw [BlockStateManager.getElem?_setBlockAck_self] at hbs
      obtain ⟨old, hold, rfl⟩ := Option.map_eq_some_iff.mp hbs
      have hin := (List.getElem?_eq_some_iff.mp hold).1
      exact (hok ack hp hr (ackStatusOf_eq_acknowledged_iff.mp hacked) hin).mono hsent hreceived
    · rw [BlockStateManager.getElem?_setBlockAck_ne _ _ fun h => hb (UInt64.toNat_inj.mp h)] at hbs
      exact (hs b bs hbs hacked).mono hsent hreceived
  · have hack := hsame b.toNat
    rw [hbs] at hack
    obtain ⟨old, hold, heq⟩ := Option.map_eq_some_iff.mp hack.symm
    exact (hs b old hold (heq.trans hacked)).mono hsent hreceived

theorem takesAnswered_of_step {job : Job} {out : Outside σ} {s t : Pipeline σ} {p : Party}
    (h : Step job out s p t) (ht : t.RecordsAnswered job) : s.TakesAnswered job p := by
  intro ack hp hr hstatus hin
  rcases h.ack_eq with ⟨ack', -, hr', rfl⟩ | ⟨hnot, -⟩
  · obtain rfl : ack' = ack := Receiver.setAck.inj (hr'.symm.trans hr)
    have hblock := BlockStateManager.getElem?_setBlockAck_self s.manager ack'.blockIndex
      (ackStatusOf ack')
    rw [List.getElem?_eq_getElem hin] at hblock
    exact ht ack'.blockIndex _ hblock (ackStatusOf_eq_acknowledged_iff.mpr hstatus)
  · exact absurd hr (hnot ack hp)

/-! ### The synchronous transfer -/

/-- `ReceiveAck`: how it ends, what is left to read, and the acknowledgement it took.  It makes no
use of its arguments. -/
def receiveAck (_devNo : UInt32) (_expectedBlockIndex : UInt64) (bs : Bytes) :
    SendResult × Bytes × Option AckBody :=
  match readAck bs with
  | .more => (.lost, [], none)
  | .bad => (.refused, bs.drop headerSize, none)
  | .ack ack =>
      (if ack.status = 0 then .acked else .refused, bs.drop (headerSize + ackBodySize), some ack)

/-- The connection of a synchronous transfer: the bytes that the other end sends from here on,
and the acknowledgements that were read. -/
structure Dialogue where
  incoming : Bytes
  received : List AckBody

/-- A transfer against a fixed stream of bytes.  The disk, the compressor and the calls of `send`
fail in a fixed pattern too. -/
def talk (readSource : Nat → UInt64 → UInt32 → Option Bytes) (compress : Nat → Bytes → Option Bytes)
    (sends : Nat → Nat → Bool) : TransferOps Dialogue where
  readSource := readSource
  compress := compress
  exchange pos retry msg d :=
    if sends pos retry then
      let r := receiveAck msg.devNo msg.blockIndex d.incoming
      (r.1, { incoming := r.2.1, received := d.received ++ r.2.2.toList })
    else (.lost, d)

/-- The acknowledgement of a block has been received. -/
def Dialogue.Answered (d : Dialogue) (msg : BlockMessage) : Prop :=
  ∃ ack ∈ d.received, Acknowledges msg.devNo msg.blockIndex msg.hash ack

/-- An acknowledgement with status 0 that is read as the answer to `msg` is one, or one came
before it. -/
def Dialogue.TakesAnswered (d : Dialogue) (msg : BlockMessage) : Prop :=
  ∀ ack, readAck d.incoming = .ack ack → ack.status = 0 →
    ∃ ack' ∈ d.received ++ [ack], Acknowledges msg.devNo msg.blockIndex msg.hash ack'

section Synchronous

variable (readSource : Nat → UInt64 → UInt32 → Option Bytes)
  (compress : Nat → Bytes → Option Bytes) (sends : Nat → Nat → Bool)

/-- How `SendBlock` succeeds. -/
theorem sendBlock_talk_iff (pos retry : Nat) (msg : BlockMessage) (s : TransferState Dialogue) :
    (sendBlock (talk readSource compress sends) pos retry msg s).1 = true ↔
      s.connected = true ∧ sends pos retry = true ∧
        ∃ ack, readAck s.net.incoming = .ack ack ∧ ack.status = 0 := by
  rw [sendBlock, talk]
  dsimp only
  cases s.connected with
  | false => exact iff_of_false Bool.false_ne_true fun h => Bool.false_ne_true h.1
  | true =>
      cases sends pos retry with
      | false => exact iff_of_false Bool.false_ne_true fun h => Bool.false_ne_true h.2.1
      | true =>
          rw [if_pos rfl, if_pos rfl, receiveAck]
          cases readAck s.net.incoming with
          | more =>
              dsimp only
              refine iff_of_false Bool.false_ne_true ?_
              rintro ⟨-, -, ack, heq, -⟩
              cases heq
          | bad =>
              dsimp only
              refine iff_of_false Bool.false_ne_true ?_
              rintro ⟨-, -, ack, heq, -⟩
              cases heq
          | ack ack =>
              dsimp only
              by_cases hstatus : ack.status = 0
              · rw [if_pos hstatus]
                exact iff_of_true rfl ⟨rfl, rfl, ack, rfl, hstatus⟩
              · rw [if_neg hstatus]
                refine iff_of_false Bool.false_ne_true ?_
                rintro ⟨-, -, ack', heq, hstatus'⟩
                cases heq
                exact hstatus hstatus'

theorem received_sendBlock_talk {pos retry : Nat} {msg : BlockMessage}
    {s : TransferState Dialogue} {ack : AckBody} (hconnected : s.connected = true)
    (hsends : sends pos retry = true) (hread : readAck s.net.incoming = .ack ack) :
    (sendBlock (talk readSource compress sends) pos retry msg s).2.net.received
      = s.net.received ++ [ack] := by
  rw [sendBlock, talk]
  dsimp only
  rw [hconnected, if_pos rfl, hsends, if_pos rfl, receiveAck, hread]
  by_cases hstatus : ack.status = 0
  · simp only [hstatus, if_true, Option.toList_some]
  · simp only [hstatus, if_false, Option.toList_some]

/-- **`SendBlock` succeeds only on the answer to its block, exactly when** it is not given another
one with status 0. -/
theorem sendBlock_answered_iff (pos retry : Nat) (msg : BlockMessage)
    (s : TransferState Dialogue) :
    ((sendBlock (talk readSource compress sends) pos retry msg s).1 = true →
        (sendBlock (talk readSource compress sends) pos retry msg s).2.net.Answered msg) ↔
      (s.connected = true → sends pos retry = true → s.net.TakesAnswered msg) := by
  rw [sendBlock_talk_iff]
  constructor
  · intro h hconnected hsends ack hread hstatus
    have hanswered := h ⟨hconnected, hsends, ack, hread, hstatus⟩
    rw [Dialogue.Answered, received_sendBlock_talk _ _ _ hconnected hsends hread] at hanswered
    exact hanswered
  · rintro h ⟨hconnected, hsends, ack, hread, hstatus⟩
    rw [Dialogue.Answered, received_sendBlock_talk _ _ _ hconnected hsends hread]
    exact h hconnected hsends ack hread hstatus

end Synchronous

/-- Blocks are recorded as acknowledged only if they were before or `SendBlock` has succeeded. -/
def TransferState.RecordsSent (s t : TransferState σ) : Prop :=
  s.acknowledged ⊆ t.acknowledged ∧
    ∀ (b : UInt64) (bs : BlockState), t.manager.blocks[b.toNat]? = some bs →
      bs.ack = .acknowledged →
        (∃ old, s.manager.blocks[b.toNat]? = some old ∧ old.ack = .acknowledged) ∨
          b ∈ t.acknowledged

theorem TransferState.RecordsSent.refl (s : TransferState σ) : s.RecordsSent s :=
  ⟨List.Subset.refl _, fun _ bs hbs hacked => .inl ⟨bs, hbs, hacked⟩⟩

theorem TransferState.RecordsSent.trans {s t u : TransferState σ} (h : s.RecordsSent t)
    (h' : t.RecordsSent u) : s.RecordsSent u := by
  refine ⟨List.Subset.trans h.1 h'.1, fun b bs hbs hacked => ?_⟩
  rcases h'.2 b bs hbs hacked with ⟨old, hold, hacked'⟩ | hmem
  · exact (h.2 b old hold hacked').imp_right fun hmem => h'.1 hmem
  · exact .inr hmem

/-- The statuses after setting one. -/
theorem recordsSent_setBlockAck {s t : TransferState σ} {blockIndex : UInt64}
    {status : Client.AckStatus} (hmanager : t.manager = (s.manager.setBlockAck blockIndex status).2)
    (hlist : s.acknowledged ⊆ t.acknowledged)
    (hstatus : status = .acknowledged → blockIndex ∈ t.acknowledged) : s.RecordsSent t := by
  refine ⟨hlist, fun b bs hbs hacked => ?_⟩
  rw [hmanager] at hbs
  by_cases hb : blockIndex = b
  · subst hb
    rw [BlockStateManager.getElem?_setBlockAck_self] at hbs
    obtain ⟨old, -, rfl⟩ := Option.map_eq_some_iff.mp hbs
    exact .inr (hstatus hacked)
  · rw [BlockStateManager.getElem?_setBlockAck_ne _ _ fun h => hb (UInt64.toNat_inj.mp h)] at hbs
    exact .inl ⟨bs, hbs, hacked⟩

theorem recordsSent_retryFrom {config : TransferConfig} (hdry : config.dryRun = false)
    (ops : TransferOps σ) (pos : Nat) (msg : BlockMessage) (left retry : Nat)
    (s : TransferState σ) : s.RecordsSent (retryFrom config ops pos msg left retry s) := by
  induction left generalizing retry s with
  | zero => exact .refl s
  | succ left ih =>
      have hmanager := (sendBlock_keeps ops pos retry msg s).1
      have hlist := acknowledged_sendBlock ops pos retry msg s
      rw [retryFrom, hdry]
      dsimp only
      rw [if_neg Bool.false_ne_true]
      generalize sendBlock ops pos retry msg s = sent at hmanager hlist ⊢
      cases hgo : sent.1 with
      | true =>
          rw [hgo, if_pos rfl] at hlist
          rw [if_pos rfl]
          refine recordsSent_setBlockAck (by rw [← hmanager]) ?_ fun _ => ?_
          · exact hlist ▸ List.subset_append_left _ _
          · exact hlist ▸ List.mem_append_right _ List.mem_cons_self
      | false =>
          rw [hgo, if_neg Bool.false_ne_true] at hlist
          rw [if_neg Bool.false_ne_true]
          have hset : (sent.2.manager.setBlockAck msg.blockIndex .failed).2
              = (s.manager.setBlockAck msg.blockIndex .failed).2 := by rw [hmanager]
          have hfailed : s.RecordsSent
              { sent.2 with
                manager := (sent.2.manager.setBlockAck msg.blockIndex .failed).2
                tries := sent.2.tries ++ [(msg.blockIndex, false)] } :=
            recordsSent_setBlockAck hset (hlist ▸ List.Subset.refl _) fun heq => by cases heq
          exact hfailed.trans (ih (retry + 1) _)

/-- **A transfer records as acknowledged only blocks for which `SendBlock` has succeeded.** -/
theorem recordsSent_transferBlocks {config : TransferConfig} (hdry : config.dryRun = false)
    (ops : TransferOps σ) (devNo versionId : UInt32) (totalBlocks : UInt64)
    (s : TransferState σ) :
    s.RecordsSent (transferBlocks config ops devNo versionId totalBlocks s) := by
  have hloop : ∀ (blocks : List BlockState) (pos : Nat) (s : TransferState σ),
      s.RecordsSent (transferFrom config ops devNo versionId totalBlocks pos blocks s) := by
    intro blocks
    induction blocks with
    | nil => exact fun _ s => .refl s
    | cons block rest ih =>
        intro pos s
        refine TransferState.RecordsSent.trans ?_ (ih (pos + 1) _)
        rw [transferBlock]
        split
        · exact .refl s
        · dsimp only
          split
          · exact .refl s
          · exact recordsSent_retryFrom hdry ops pos _ _ _ (s.visit block.blockIndex)
  exact hloop _ _ s

/-- The attempts to send a block leave the others. -/
theorem getElem?_retryFrom_ne {config : TransferConfig} (hdry : config.dryRun = false)
    (ops : TransferOps σ) (pos : Nat) (msg : BlockMessage) (left retry : Nat)
    (s : TransferState σ) {b : UInt64} (hb : msg.blockIndex ≠ b) :
    (retryFrom config ops pos msg left retry s).manager.blocks[b.toNat]?
      = s.manager.blocks[b.toNat]? := by
  have hne : msg.blockIndex.toNat ≠ b.toNat := fun h => hb (UInt64.toNat_inj.mp h)
  induction left generalizing retry s with
  | zero => rfl
  | succ left ih =>
      have hmanager := (sendBlock_keeps ops pos retry msg s).1
      rw [retryFrom, hdry]
      dsimp only
      rw [if_neg Bool.false_ne_true]
      generalize sendBlock ops pos retry msg s = sent at hmanager ⊢
      cases sent.1 with
      | true =>
          rw [if_pos rfl]
          dsimp only
          rw [BlockStateManager.getElem?_setBlockAck_ne _ _ hne, hmanager]
      | false =>
          rw [if_neg Bool.false_ne_true, ih]
          dsimp only
          rw [BlockStateManager.getElem?_setBlockAck_ne _ _ hne, hmanager]

/-! ### Both paths -/

/-- **What is recorded was acknowledged, exactly when** every acknowledgement with status 0 that
is taken for a block answers it.  In the pipelined transfer this is about every state that can be
reached against an arbitrary other end, in the synchronous one about every call of `SendBlock`;
there a block is recorded only after such a call.  In both a frame changes the state of one block
at most. -/
theorem acks_match_iff (job : Job) (out : Outside σ) (windowSize : Nat) (m : BlockStateManager)
    (snapshotTime now : UInt64) (server : σ) (retryCount : Int)
    (readSource : Nat → UInt64 → UInt32 → Option Bytes) (compress : Nat → Bytes → Option Bytes)
    (sends : Nat → Nat → Bool) :
    let config : TransferConfig := { dryRun := false, retryCount }
    let init := Pipeline.start windowSize
      (prepare m snapshotTime now job.totalBlocks job.totalSize).2 server
    let ops := talk readSource compress sends
    ((∀ t, Reached job out init t → t.RecordsAnswered job) ↔
      ∀ s p t, Reached job out init s → Step job out s p t → s.TakesAnswered job p) ∧
    (∀ s p t, Step job out s p t → ∀ b : UInt64,
      t.manager.blocks[b.toNat]?.map BlockState.ack
          ≠ s.manager.blocks[b.toNat]?.map BlockState.ack →
        ∃ ack, s.receiver = .setAck ack ∧ ack.blockIndex = b) ∧
    (∀ pos retry msg s,
      ((sendBlock ops pos retry msg s).1 = true →
          (sendBlock ops pos retry msg s).2.net.Answered msg) ↔
        (s.connected = true → sends pos retry = true → s.net.TakesAnswered msg)) ∧
    (∀ devNo versionId totalBlocks (s : TransferState Dialogue),
      s.RecordsSent (transferBlocks config ops devNo versionId totalBlocks s)) ∧
    ∀ pos msg left retry s (b : UInt64), msg.blockIndex ≠ b →
      (retryFrom config ops pos msg left retry s).manager.blocks[b.toNat]?
        = s.manager.blocks[b.toNat]? := by
  intro config init ops
  have hdry : config.dryRun = false := rfl
  refine ⟨Transition.forall_reachable_iff ?_ (fun s p t hs hok h => recordsAnswered_step hs hok h)
    (fun s p t h ht => takesAnswered_of_step h ht), ?_,
    sendBlock_answered_iff readSource compress sends,
    recordsSent_transferBlocks hdry ops, fun pos msg left retry s b hb =>
      getElem?_retryFrom_ne hdry ops pos msg left retry s hb⟩
  · rintro s rfl b bs hbs hacked
    rw [show init.manager.blocks = _ from blocks_prepare _ _ _ _ _, List.getElem?_map] at hbs
    obtain ⟨i, -, rfl⟩ := Option.map_eq_some_iff.mp hbs
    cases hacked
  · intro s p t h b hne
    rcases h.ack_eq with ⟨ack, -, hr, rfl⟩ | ⟨-, hsame⟩
    · refine ⟨ack, hr, ?_⟩
      by_contra hb
      apply hne
      dsimp only
      rw [BlockStateManager.getElem?_setBlockAck_ne _ _ fun h => hb (UInt64.toNat_inj.mp h)]
    · exact absurd (hsame b.toNat) hne

/-- Block 3 of a disk. -/
def thirdBlock : BlockMessage :=
  { devNo := 0, blockIndex := 3, dataSize := 2, hash := .zero, versionId := 1, payload := [] }

/-- A client that is about to send it, with the acknowledgement of block 2 still to be read. -/
def lateAck : TransferState Dialogue :=
  { manager := .new
    connected := true
    net :=
      { incoming :=
          (MsgHeader.mk protocolMagic MessageType.ack.code 0 0).bytes
            ++ (AckBody.mk 2 0 0 .zero).bytes
        received := [] }
    sentCount := 0
    ackedBlocks := 0
    acknowledged := []
    visited := []
    tries := [] }

/-- `SendBlock` takes the acknowledgement of another block. -/
theorem lateAck_accepted :
    ¬ ((sendBlock (talk (fun _ _ _ => none) (fun _ _ => none) (fun _ _ => true)) 0 0 thirdBlock
          lateAck).1 = true →
        (sendBlock (talk (fun _ _ _ => none) (fun _ _ => none) (fun _ _ => true)) 0 0 thirdBlock
          lateAck).2.net.Answered thirdBlock) := by
  have hread : readAck lateAck.net.incoming = .ack (AckBody.mk 2 0 0 .zero) := by decide +kernel
  intro h
  rw [sendBlock_talk_iff, Dialogue.Answered, received_sendBlock_talk _ _ _ rfl rfl hread] at h
  obtain ⟨ack, hmem, hacks⟩ := h ⟨rfl, rfl, _, hread, rfl⟩
  cases List.mem_singleton.mp hmem
  exact absurd hacks.blockIndex (by decide)

end Go2Cbt.Engine
