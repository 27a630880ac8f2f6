import Go2Cbt.Engine.Synchronous
import Go2Cbt.Engine.TransferAccounts

/-!
# Engine — the steps of the synchronous transfer are those of `TransferBlocks`

What the calls gave up to a state is part of a pattern of failures.  From the state on, the loop
goes on for every pattern with this past as it would from the beginning (`Follows`), so that at the
end it has done what `transferBlocks` does for one of them (`transferBlocks_of_reached`).
-/

namespace Go2Cbt.Engine

open Go2Cbt.Client Go2Cbt.Protocol

/-- The part of the configuration that the transfer reads. -/
def SyncJob.config (job : SyncJob) : TransferConfig :=
  { dryRun := false, retryCount := job.retryCount }

/-- The message that `SendBlock` is called with. -/
def blockMessageOf : ClientMessage → BlockMessage
  | .block devNo blockIndex rawSize compressedData hash versionId =>
      { devNo, blockIndex, dataSize := rawSize, hash, versionId, payload := compressedData }
  | _ =>
      { devNo := 0, blockIndex := 0, dataSize := 0, hash := .zero, versionId := 0, payload := [] }

theorem blockIndex_blockMessageOf (m : ClientMessage) :
    (blockMessageOf m).blockIndex = blockIndexOf m := by
  cases m <;> rfl

/-- What is left of the loop at a point, in the turn of the `pos`-th block. -/
def SyncJob.resume (job : SyncJob) (f : Faults) (pos : Nat) (t : TransferState Unit) :
    SyncPoint → TransferState Unit
  | .block todo =>
      transferFrom job.config f.ops job.devNo job.versionId job.totalBlocks pos todo t
  | .attempt message retry todo | .wait message retry todo =>
      transferFrom job.config f.ops job.devNo job.versionId job.totalBlocks (pos + 1) todo
        (retryFrom job.config f.ops pos (blockMessageOf message) (job.config.attempts - retry)
          retry t)

/-- Two patterns that are the same in the turns before the `pos`-th. -/
def SameTurns (f g : Faults) (pos : Nat) : Prop :=
  ∀ p < pos, f.readSource p = g.readSource p ∧ f.compress p = g.compress p ∧
    f.answer p = g.answer p

/-- Two patterns that are the same before a point. -/
def SamePast (f g : Faults) (pos : Nat) : SyncPoint → Prop
  | .block _ => SameTurns f g pos
  | .attempt _ retry _ | .wait _ retry _ =>
      SameTurns f g pos ∧ f.readSource pos = g.readSource pos ∧ f.compress pos = g.compress pos ∧
        ∀ r < retry, f.answer pos r = g.answer pos r

/-- The transfer is at a point of the loop with the pattern `f`, in the turn of the `pos`-th
block, and `t` is its state. -/
structure Follows (job : SyncJob) (start : TransferState Unit) {σ : Type} (s : Synchronous σ)
    (f : Faults) (pos : Nat) (t : TransferState Unit) : Prop where
  manager : t.manager = s.manager
  connected : t.connected = s.connected
  acknowledged : t.acknowledged = s.acknowledged.map blockIndexOf
  resumes : ∀ g, SamePast g f pos s.point → job.resume g pos t s.point
    = transferBlocks job.config g.ops job.devNo job.versionId job.totalBlocks start
  waiting : ∀ m retry todo, s.point = .wait m retry todo →
    s.connected = true ∧ retry ≤ job.retryCount

/-- What a pattern gives in a turn. -/
def Faults.withTurn (f : Faults) (pos : Nat) (read : Option Bytes) (compressed : Option Bytes) :
    Faults :=
  { f with
    readSource := Function.update f.readSource pos fun _ _ => read
    compress := Function.update f.compress pos fun _ => compressed }

/-- What a pattern answers to an attempt. -/
def Faults.withAnswer (f : Faults) (pos retry : Nat) (a : SendResult) : Faults :=
  { f with answer := Function.update f.answer pos (Function.update (f.answer pos) retry a) }

section Past

variable {f g : Faults} {pos : Nat}

theorem SameTurns.of_withTurn {read compressed : Option Bytes}
    (h : SameTurns g (f.withTurn pos read compressed) pos) : SameTurns g f pos := by
  intro p hp
  have hturn := h p hp
  dsimp only [Faults.withTurn] at hturn
  rw [Function.update_of_ne hp.ne, Function.update_of_ne hp.ne] at hturn
  exact hturn

/-- A turn that came to an attempt. -/
theorem SamePast.of_withTurn {read compressed : Option Bytes} {message : ClientMessage}
    {retry : Nat} {todo : List BlockState}
    (h : SamePast g (f.withTurn pos read compressed) pos (.attempt message retry todo)) :
    SameTurns g f pos ∧ g.readSource pos = (fun _ _ => read) ∧
      g.compress pos = fun _ => compressed := by
  obtain ⟨hturns, hread, hcompress, -⟩ := h
  refine ⟨hturns.of_withTurn, hread.trans ?_, hcompress.trans ?_⟩
  · exact Function.update_self ..
  · exact Function.update_self ..

theorem SameTurns.attempt (h : SameTurns g f (pos + 1)) (message : ClientMessage) (retry : Nat)
    (todo : List BlockState) : SamePast g f pos (.attempt message retry todo) := by
  obtain ⟨hread, hcompress, hanswer⟩ := h pos (Nat.lt_succ_self pos)
  exact ⟨fun p hp => h p (Nat.lt_succ_of_lt hp), hread, hcompress, fun r _ => congrFun hanswer r⟩

/-- An attempt that was answered. -/
theorem SamePast.of_withAnswer {a : SendResult} {message : ClientMessage} {retry : Nat}
    {todo : List BlockState}
    (h : SamePast g (f.withAnswer pos retry a) pos (.attempt message (retry + 1) todo)) :
    SamePast g f pos (.attempt message retry todo) ∧ g.answer pos retry = a := by
  obtain ⟨hturns, hread, hcompress, hanswer⟩ := h
  dsimp only [Faults.withAnswer] at hanswer
  rw [Function.update_self] at hanswer
  refine ⟨⟨fun p hp => ?_, hread, hcompress, fun r hr => ?_⟩, ?_⟩
  · have hturn := hturns p hp
    dsimp only [Faults.withAnswer] at hturn
    rw [Function.update_of_ne hp.ne] at hturn
    exact hturn
  · exact (hanswer r (Nat.lt_succ_of_lt hr)).trans (Function.update_of_ne hr.ne ..)
  · exact (hanswer retry (Nat.lt_succ_self retry)).trans (Function.update_self ..)

end Past

/-! ### The turns of the retry loop -/

section Retry

variable (job : SyncJob) (f : Faults) (pos : Nat) (message : ClientMessage) {retry : Nat}
  (t : TransferState Unit)

/-- An attempt failed: it is recorded, and the connection may be lost. -/
def afterFailure (b : UInt64) (connected : Bool) : TransferState Unit :=
  { t with
    connected
    manager := (t.manager.setBlockAck b .failed).2
    tries := t.tries ++ [(b, false)] }

/-- An attempt succeeded. -/
def afterSuccess (b : UInt64) : TransferState Unit :=
  { t with
    acknowledged := t.acknowledged ++ [b]
    manager := (t.manager.setBlockAck b .acknowledged).2
    sentCount := t.sentCount + 1
    ackedBlocks := t.ackedBlocks + 1
    tries := t.tries ++ [(b, true)] }

theorem attempts_sub (hretry : retry ≤ job.retryCount) :
    job.config.attempts - retry = job.config.attempts - (retry + 1) + 1 := by
  have hattempts : job.config.attempts = (job.retryCount + 1).toNat := rfl
  omega

theorem resume_exhausted {todo : List BlockState} (hretry : job.retryCount < retry) :
    job.resume f pos t (.attempt message retry todo) = job.resume f (pos + 1) t (.block todo) := by
  have hattempts : job.config.attempts = (job.retryCount + 1).toNat := rfl
  have hnone : job.config.attempts - retry = 0 := by omega
  rw [SyncJob.resume, SyncJob.resume, hnone, retryFrom]

variable {f pos message t} {todo : List BlockState}

theorem sendBlock_unconnected (hconnected : t.connected = false) :
    sendBlock f.ops pos retry (blockMessageOf message) t = (false, t) := by
  rw [sendBlock, hconnected]
  rfl

theorem sendBlock_refused (hconnected : t.connected = true)
    (hanswer : f.answer pos retry = .refused) :
    sendBlock f.ops pos retry (blockMessageOf message) t = (false, t) := by
  rw [sendBlock, if_pos hconnected]
  simp only [Faults.ops, hanswer]

theorem sendBlock_lost (hconnected : t.connected = true) (hanswer : f.answer pos retry = .lost) :
    sendBlock f.ops pos retry (blockMessageOf message) t
      = (false, { t with connected := false }) := by
  rw [sendBlock, if_pos hconnected]
  simp only [Faults.ops, hanswer]

variable (message) in
theorem sendBlock_acked (hconnected : t.connected = true) (hanswer : f.answer pos retry = .acked) :
    sendBlock f.ops pos retry (blockMessageOf message) t
      = (true, { t with acknowledged := t.acknowledged ++ [blockIndexOf message] }) := by
  rw [sendBlock, if_pos hconnected, ← blockIndex_blockMessageOf]
  simp only [Faults.ops, hanswer]

variable (todo) in
theorem resume_failed (hretry : retry ≤ job.retryCount) {connected : Bool}
    (hsend : sendBlock f.ops pos retry (blockMessageOf message) t = (false, { t with connected })) :
    job.resume f pos t (.attempt message retry todo)
      = job.resume f pos (afterFailure t (blockIndexOf message) connected)
          (.attempt message (retry + 1) todo) := by
  have hdry : job.config.dryRun = false := rfl
  rw [SyncJob.resume, attempts_sub job hretry, retryFrom, hdry]
  simp only [Bool.false_eq_true, if_false, hsend, blockIndex_blockMessageOf]
  rfl

theorem resume_acked (hretry : retry ≤ job.retryCount) (hconnected : t.connected = true)
    (hanswer : f.answer pos retry = .acked) :
    job.resume f pos t (.attempt message retry todo)
      = job.resume f (pos + 1) (afterSuccess t (blockIndexOf message)) (.block todo) := by
  have hdry : job.config.dryRun = false := rfl
  have hsend := sendBlock_acked message hconnected hanswer
  rw [SyncJob.resume, SyncJob.resume, attempts_sub job hretry, retryFrom, hdry]
  simp only [Bool.false_eq_true, if_false, hsend, if_true, blockIndex_blockMessageOf]
  rfl

/-! ### The turns of the loop -/

theorem resume_skipped {b : BlockState} (hread : f.readSource pos = fun _ _ => none) :
    job.resume f pos t (.block (b :: todo))
      = job.resume f (pos + 1) (t.visit b.blockIndex) (.block todo) := by
  have hdry : job.config.dryRun = false := rfl
  rw [SyncJob.resume, SyncJob.resume, transferFrom, transferBlock, hdry]
  simp only [Faults.ops, hread]

theorem resume_uncompressed {b : BlockState} {blockData : Bytes}
    (hread : f.readSource pos = fun _ _ => some blockData)
    (hcompress : f.compress pos = fun _ => none) :
    job.resume f pos t (.block (b :: todo))
      = job.resume f (pos + 1) (t.visit b.blockIndex) (.block todo) := by
  rw [SyncJob.resume, SyncJob.resume, transferFrom, transferBlock]
  simp only [Faults.ops, hread, hcompress]

theorem resume_compressed {b : BlockState} {blockData compressed : Bytes}
    (hread : f.readSource pos = fun _ _ => some blockData)
    (hcompress : f.compress pos = fun _ => some compressed) :
    job.resume f pos t (.block (b :: todo))
      = job.resume f pos (t.visit b.blockIndex) (.attempt (job.message b compressed) 0 todo) := by
  rw [SyncJob.resume, SyncJob.resume, transferFrom, transferBlock]
  simp only [Faults.ops, hread, hcompress]
  rfl

end Retry

/-! ### The steps -/

section Steps

variable {job : SyncJob} {start : TransferState Unit} {σ : Type} {out : Outside σ}
  {s s' : Synchronous σ} {p : Party} {f : Faults} {pos : Nat} {t : TransferState Unit}
  {message : ClientMessage} {retry : Nat} {todo : List BlockState}

/-- The end of a turn without an attempt. -/
theorem Follows.skip (h : Follows job start s f pos t) {b : BlockState}
    (hp : s.point = .block (b :: todo)) (read : Option Bytes)
    (hresume : ∀ g : Faults, g.readSource pos = (fun _ _ => read) →
      g.compress pos = (fun _ => none) → job.resume g pos t (.block (b :: todo))
        = job.resume g (pos + 1) (t.visit b.blockIndex) (.block todo)) :
    Follows job start { s with point := .block todo } (f.withTurn pos read none) (pos + 1)
      (t.visit b.blockIndex) where
  manager := h.manager
  connected := h.connected
  acknowledged := h.acknowledged
  resumes := by
    intro g hpast
    obtain ⟨hturns, hread, hcompress⟩ :=
      (SameTurns.attempt hpast (job.message b []) 0 todo).of_withTurn
    rw [← h.resumes g (hp ▸ hturns), hp]
    exact (hresume g hread hcompress).symm
  waiting _ _ _ hwait := SyncPoint.noConfusion hwait

/-- `SendBlock` returns false. -/
theorem Follows.fail (h : Follows job start s f pos t)
    (hp : s.point = .attempt message retry todo ∨ s.point = .wait message retry todo)
    (hretry : retry ≤ job.retryCount) {a : SendResult} (connected : Bool) (incoming : Bytes)
    (hsend : ∀ g : Faults, g.answer pos retry = a →
      sendBlock g.ops pos retry (blockMessageOf message) t = (false, { t with connected })) :
    Follows job start { s.fail message retry todo with connected, incoming }
      (f.withAnswer pos retry a) pos (afterFailure t (blockIndexOf message) connected) where
  manager := congrArg (fun m => (m.setBlockAck (blockIndexOf message) .failed).2) h.manager
  connected := rfl
  acknowledged := h.acknowledged
  resumes := by
    intro g hpast
    have hattempt : SamePast g (f.withAnswer pos retry a) pos
        (.attempt message (retry + 1) todo) := hpast
    obtain ⟨hbefore, hanswer⟩ := hattempt.of_withAnswer
    have hresume := resume_failed job todo hretry (hsend g hanswer)
    rw [← h.resumes g (by rcases hp with hp | hp <;> exact hp ▸ hbefore)]
    rcases hp with hp | hp <;> rw [hp] <;> exact hresume.symm
  waiting _ _ _ hwait := SyncPoint.noConfusion hwait

/-- **Every step goes on in the loop**, for a pattern that gives what the step was given. -/
theorem follows_step (h : Follows job start s f pos t) (hst : SyncStep job out s p s') :
    ∃ f' pos' t', Follows job start s' f' pos' t' := by
  cases hst with
  | readFails hp _ => exact ⟨_, _, _, h.skip hp none fun g hread _ => resume_skipped job hread⟩
  | @compressFails b todo blockData hp _ _ =>
      exact ⟨_, _, _, h.skip hp (some blockData) fun g hread hcompress =>
        resume_uncompressed job hread hcompress⟩
  | @compress b todo blockData compressed hp _ _ =>
      refine ⟨f.withTurn pos (some blockData) (some compressed), pos, t.visit b.blockIndex,
        { manager := h.manager
          connected := h.connected
          acknowledged := h.acknowledged
          resumes := fun g hpast => ?_
          waiting := fun _ _ _ hwait => SyncPoint.noConfusion hwait }⟩
      -- every pattern with this past reads and compresses the block the same way
      obtain ⟨hturns, hread, hcompress⟩ := SamePast.of_withTurn hpast
      rw [← h.resumes g (hp ▸ hturns), hp]
      exact (resume_compressed job hread hcompress).symm
  | @exhausted message retry todo hp hretry =>
      refine ⟨f, pos + 1, t,
        { manager := h.manager
          connected := h.connected
          acknowledged := h.acknowledged
          resumes := fun g hpast => ?_
          waiting := fun _ _ _ hwait => SyncPoint.noConfusion hwait }⟩
      rw [← h.resumes g (hp ▸ SameTurns.attempt hpast message retry todo), hp]
      exact (resume_exhausted job g pos message t hretry).symm
  | unconnected hp hretry hlost =>
      exact ⟨_, _, _, h.fail (.inl hp) hretry (a := .lost) s.connected s.incoming fun g _ =>
        h.connected ▸ sendBlock_unconnected (h.connected.trans hlost)⟩
  | sendFails hp hretry hconnected _ =>
      exact ⟨_, _, _, h.fail (.inl hp) hretry false s.incoming fun g hanswer =>
        sendBlock_lost (h.connected.trans hconnected) hanswer⟩
  | @send message retry todo hp hretry hconnected _ =>
      refine ⟨f, pos, t,
        { manager := h.manager
          connected := h.connected
          acknowledged := h.acknowledged
          resumes := fun g hpast => ?_
          waiting := fun m r todo hwait => ?_ }⟩
      · rw [← h.resumes g (hp ▸ hpast), hp]
        rfl
      · cases hwait
        exact ⟨hconnected, hretry⟩
  | receiveFails hp _ =>
      obtain ⟨hconnected, hretry⟩ := h.waiting _ _ _ hp
      exact ⟨_, _, _, h.fail (.inr hp) hretry false s.incoming fun g hanswer =>
        sendBlock_lost (h.connected.trans hconnected) hanswer⟩
  | receiveBad hp _ =>
      obtain ⟨hconnected, hretry⟩ := h.waiting _ _ _ hp
      exact ⟨_, _, _, h.fail (.inr hp) hretry s.connected _ fun g hanswer =>
        h.connected ▸ sendBlock_refused (h.connected.trans hconnected) hanswer⟩
  | refused hp _ _ =>
      obtain ⟨hconnected, hretry⟩ := h.waiting _ _ _ hp
      exact ⟨_, _, _, h.fail (.inr hp) hretry s.connected _ fun g hanswer =>
        h.connected ▸ sendBlock_refused (h.connected.trans hconnected) hanswer⟩
  | @accepted message retry todo ack hp _ _ =>
      obtain ⟨hconnected, hretry⟩ := h.waiting _ _ _ hp
      refine ⟨f.withAnswer pos retry .acked, pos + 1, afterSuccess t (blockIndexOf message),
        { manager := ?_
          connected := h.connected
          acknowledged := ?_
          resumes := fun g hpast => ?_
          waiting := fun _ _ _ hwait => SyncPoint.noConfusion hwait }⟩
      · exact congrArg (fun m => (m.setBlockAck (blockIndexOf message) .acknowledged).2) h.manager
      · rw [List.map_append, ← h.acknowledged]
        rfl
      · -- every pattern with this past answers this attempt with an acknowledgement
        obtain ⟨hbefore, hanswer⟩ := SamePast.of_withAnswer
          (SameTurns.attempt hpast message (retry + 1) todo)
        have hresume := h.resumes g (hp ▸ hbefore)
        rw [hp] at hresume
        rw [← hresume]
        exact (resume_acked job hretry (h.connected.trans hconnected) hanswer).symm
  | serve _ =>
      -- the server works on its own: the loop stands still
      exact ⟨f, pos, t,
        { manager := h.manager
          connected := h.connected
          acknowledged := h.acknowledged
          resumes := h.resumes
          waiting := h.waiting }⟩

/-- **At the end of the loop the transfer has done what `transferBlocks` does** for some pattern
of failures. -/
theorem transferBlocks_of_reached {m : BlockStateManager} {server : σ} {ackedBlocks : Nat}
    (h : SyncReached job out (.start m server) s) (hdone : s.point = .block []) :
    ∃ f : Faults,
      let done := transferBlocks job.config f.ops job.devNo job.versionId job.totalBlocks
        (.start m true () ackedBlocks)
      done.manager = s.manager ∧ done.connected = s.connected ∧
        done.acknowledged = s.acknowledged.map blockIndexOf := by
  have hfollows : ∃ f pos t, Follows job (.start m true () ackedBlocks) s f pos t := by
    refine Transition.Reachable.invariant
      (P := fun s => ∃ f pos t, Follows job (.start m true () ackedBlocks) s f pos t) ?_ ?_ h
    · rintro s rfl
      exact ⟨{ readSource := fun _ _ _ => none, compress := fun _ _ => none,
               answer := fun _ _ => .lost }, 0, .start m true () ackedBlocks,
        { manager := rfl
          connected := rfl
          acknowledged := rfl
          resumes := fun _ _ => rfl
          waiting := fun _ _ _ hwait => SyncPoint.noConfusion hwait }⟩
    · rintro s p s' ⟨f, pos, t, hfollows⟩ hst
      exact follows_step hfollows hst
  obtain ⟨f, pos, t, hfollows⟩ := hfollows
  have hend := hfollows.resumes f (hdone ▸ fun _ _ => ⟨rfl, rfl, rfl⟩)
  rw [hdone, SyncJob.resume, transferFrom] at hend
  refine ⟨f, ?_⟩
  rw [← hend]
  exact ⟨hfollows.manager, hfollows.connected, hfollows.acknowledged⟩

end Steps

end Go2Cbt.Engine
