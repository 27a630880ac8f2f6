import Go2Cbt.Engine.CleanTransfer

/-!
# Engine — the pipelined transfer returns

Every step of the transfer uses up something: the loop goes on in its turn, a message is answered,
an answer is handled.  `stepsLeft` adds up what is left, twelve steps for a block that is still to
be sent, and no run is longer than that.

A window that is full and a loop that waits for its answers are no ends: what is waited for is on
its way, and one of the three parties can move it on (`returned_or_step`).  So the transfer returns
(`transfer_returns`), also when blocks are lost or the connection fails.
-/

namespace Go2Cbt.Engine

open Go2Cbt.Client Go2Cbt.Protocol

variable {σ : Type}

/-! ### What is left to do -/

/-- The steps left to the sending loop, with those that the other parties take for its messages. -/
def Sender.stepsLeft (total : Nat) : Sender → Nat
  | .turn i => 12 * (total - i) + 3
  | .bind i _ => 12 * (total - i) + 2
  | .read i _ => 12 * (total - i) + 1
  | .record i _ _ _ => 12 * (total - i)
  | .send i _ _ => 12 * (total - i) - 1
  | .count i | .skip i _ => 12 * (total - i) - 8
  | .abandon _ _ => 4
  | .fail _ => 3
  | .drain _ => 2
  | .stop _ _ => 1
  | .done _ _ => 0

/-- The steps left to the receiver thread, apart from the answers on their way. -/
def Receiver.stepsLeft : Receiver → Nat
  | .setAck _ => 5
  | .count _ => 4
  | .release _ => 3
  | .decrement _ => 2
  | .wait => 1
  | .stopped => 0

/-- The acknowledgements on their way back. -/
def Pipeline.returning (s : Pipeline σ) : Nat := s.incoming.length / (headerSize + ackBodySize)

/-- The steps left to all of them. -/
def Pipeline.stepsLeft (total : Nat) (s : Pipeline σ) : Nat :=
  s.sender.stepsLeft total + 6 * s.outgoing.length + 5 * s.returning + s.receiver.stepsLeft

theorem length_of_frames {bs : Bytes} {acks : List AckBody} (h : Frames bs acks) :
    bs.length = acks.length * (headerSize + ackBodySize) := by
  induction h with
  | nil => rfl
  | cons hframe _ ih =>
      rw [List.length_append, hframe.length_eq, ih, List.length_cons]
      ring

theorem returning_eq {s : Pipeline σ} {acks : List AckBody} (h : Frames s.incoming acks) :
    s.returning = acks.length := by
  rw [Pipeline.returning, length_of_frames h]
  exact Nat.mul_div_cancel _ (by decide)

/-- **Every step uses up a step.** -/
theorem stepsLeft_step {job : Job} {out : Outside σ} {s t : Pipeline σ} {p : Party}
    {acks acks' : List AckBody} (hout : out.AnswersNext s) (ha : Accounts job s acks)
    (ha' : Accounts job t acks') (hst : Step job out s p t) :
    t.stepsLeft job.totalBlocks.toNat < s.stepsLeft job.totalBlocks.toNat := by
  have hwithin := ha.within
  cases hst with
  | finish hs _ | abort hs _ _ | timeout hs _ _ _ =>
      simp only [Pipeline.stepsLeft, Pipeline.returning, hs, Sender.stepsLeft]
      omega
  | acquire hs _ _ _ | bind hs | readFails hs _ | hashFails hs _ _ | read hs _ _
  | compressFails hs _ | compress hs _ | sendFails hs _ | abandon hs | fail hs =>
      rw [hs] at hwithin
      simp only [Sender.Within, Sender.pos] at hwithin
      simp only [Pipeline.stepsLeft, Pipeline.returning, hs, Sender.stepsLeft]
      omega
  | skip hs | count hs =>
      rw [hs] at hwithin
      simp only [Sender.Within, Sender.pos] at hwithin
      simp only [Pipeline.stepsLeft, Pipeline.returning, hs, Sender.stepsLeft]
      omega
  | send hs _ =>
      rw [hs] at hwithin
      simp only [Sender.Within, Sender.pos] at hwithin
      simp only [Pipeline.stepsLeft, Pipeline.returning, hs, Sender.stepsLeft, List.length_append,
        List.length_singleton]
      omega
  | awaited hs _ | interrupted hs _ _ | giveUp hs _ _ =>
      simp only [Pipeline.stepsLeft, Pipeline.returning, hs, Sender.stepsLeft]
      omega
  | join hs _ =>
      simp only [Pipeline.stepsLeft, Pipeline.returning, hs, Sender.stepsLeft, Receiver.stepsLeft]
      omega
  | receive hr hread _ | receiveError hr hread _ =>
      obtain ⟨rest, rfl, -, hnext⟩ := ha.read hr hread
      rw [Pipeline.stepsLeft, Pipeline.stepsLeft, returning_eq ha.frames, returning_eq ha'.frames,
        Frames.unique ha'.frames hnext.frames, hr, List.length_cons]
      simp only [Receiver.stepsLeft]
      omega
  | receiveBad hr _ | receiveFails hr _ =>
      simp only [Pipeline.stepsLeft, Pipeline.returning, hr, Receiver.stepsLeft]
      omega
  | setAck hr | countAck hr | release hr | decrement hr =>
      simp only [Pipeline.stepsLeft, Pipeline.returning, hr, Receiver.stepsLeft]
      omega
  | serve hserve =>
      -- the message becomes an answer
      obtain ⟨m, ack, hqueue, hframe, -⟩ := hout _ _ _ hserve
      rw [Pipeline.stepsLeft, Pipeline.stepsLeft, returning_eq ha.frames, returning_eq ha'.frames,
        Frames.unique ha'.frames (ha.frames.snoc hframe), hqueue]
      dsimp only
      simp only [List.length_append, List.length_cons, List.length_nil]
      omega

/-! ### Nobody waits for ever -/

/-- The calls of the outside return, and in this state the server takes what is on its way. -/
structure Outside.Responds (out : Outside σ) (s : Pipeline σ) : Prop where
  readFile : ∀ offset size, ∃ r, out.readFile offset size r
  computeBlockHash : ∀ data, ∃ r, out.computeBlockHash data r
  compress : ∀ data, ∃ r, out.compress data r
  sendBlockNoWait : ∀ message, ∃ sent, out.sendBlockNoWait message sent
  serve : s.outgoing ≠ [] → ∃ reply server outgoing,
    out.serve s.server s.outgoing reply server outgoing

/-- The receiver thread does not end without saying so, unless the loop has ended it. -/
def Pipeline.SaysSo (s : Pipeline σ) : Prop :=
  s.receiver = .stopped → s.pipelineError = true ∨ ∃ i awaited, s.sender = .done i awaited

theorem saysSo_step {job : Job} {out : Outside σ} {s t : Pipeline σ} {p : Party} (h : s.SaysSo)
    (hst : Step job out s p t) : t.SaysSo := by
  -- the loop, which is not done, may go on when the thread has ended
  have hloop : ∀ v, s.sender = v → (∀ i awaited, v ≠ .done i awaited) → s.receiver = .stopped →
      s.pipelineError = true := by
    rintro v rfl hv hr
    rcases h hr with herror | ⟨i, awaited, hdone⟩
    · exact herror
    · exact absurd hdone (hv i awaited)
  cases hst with
  | finish hs _ | abort hs _ _ | timeout hs _ _ _ | acquire hs _ _ _ | bind hs | readFails hs _
  | hashFails hs _ _ | read hs _ _ | compressFails hs _ | compress hs _ | send hs _ | sendFails hs _
  | count hs | skip hs | abandon hs | awaited hs _ | interrupted hs _ _ | giveUp hs _ _ =>
      exact fun hr => .inl (hloop _ hs nofun hr)
  | fail _ => exact fun _ => .inl rfl
  | join _ _ => exact fun _ => .inr ⟨_, _, rfl⟩
  | receiveError _ _ _ | receiveBad _ _ | receiveFails _ _ => exact fun _ => .inl rfl
  | receive _ _ _ | setAck _ | countAck _ | release _ | decrement _ => exact nofun
  | serve _ => exact h

section Waiting

variable {job : Job} {out : Outside σ} {s : Pipeline σ} {acks : List AckBody}

/-- **What is in flight can move**, if the receiver thread is there. -/
theorem exists_step_of_flight (hresp : out.Responds s) (ha : Accounts job s acks)
    (hr : s.receiver ≠ .stopped) (hflight : s.flight acks ≠ [] ∨ s.receiver ≠ .wait) :
    ∃ p t, Step job out s p t := by
  cases hrec : s.receiver with
  | setAck ack => exact ⟨_, _, .setAck hrec⟩
  | count ack => exact ⟨_, _, .countAck hrec⟩
  | release ack => exact ⟨_, _, .release hrec⟩
  | decrement released => exact ⟨_, _, .decrement hrec⟩
  | stopped => exact absurd hrec hr
  | wait =>
      have hsome : s.flight acks ≠ [] := hflight.resolve_right (not_not.mpr hrec)
      rw [Pipeline.flight, hrec] at hsome
      rcases ha.frames.read with ⟨hnone, -⟩ | ⟨ack, rest, -, hread, -⟩
      · have hqueue : s.outgoing ≠ [] := by
          intro hnil
          rw [hnone, hnil] at hsome
          exact hsome rfl
        obtain ⟨reply, server, outgoing, hserve⟩ := hresp.serve hqueue
        exact ⟨_, _, .serve hserve⟩
      · by_cases hblock : ack.blockIndex = connectionError
        · exact ⟨_, _, .receiveError hrec hread hblock⟩
        · exact ⟨_, _, .receive hrec hread hblock⟩

/-- **A full window has blocks in flight**, between two blocks. -/
theorem flight_ne_nil_of_full (ha : Accounts job s acks) {i : Nat} (hs : s.sender = .turn i)
    (hsize : s.window ≠ []) (hfull : acquireSlot s.window = none) : s.flight acks ≠ [] := by
  obtain ⟨slot, rest, hwindow⟩ := List.exists_cons_of_ne_nil hsize
  have huse : slot.inUse = true := by
    have hall := List.findIdx?_eq_none_iff.mp hfull slot (hwindow ▸ List.mem_cons_self)
    simpa using hall
  have howner : ownerIn s.window s.sender.binding 0 = some slot.blockIndex := by
    rw [ownerIn, hwindow, hs, List.getElem?_cons_zero, Option.bind_some, huse]
    rfl
  have hmem := ha.window.held.mem howner
  rw [Pipeline.held_of_none acks (by rw [hs]; rfl)] at hmem
  exact List.ne_nil_of_mem hmem

/-- **A transfer that has not returned goes on.** -/
theorem returned_or_step (hresp : out.Responds s) (ha : Accounts job s acks) (hreturn : s.SaysSo)
    (hwindow : s.window ≠ [] ∨ out.timesOut) :
    (∃ i awaited, s.sender = .done i awaited) ∨ ∃ p t, Step job out s p t := by
  have hwithin := ha.within
  cases hs : s.sender with
  | done i awaited => exact .inl ⟨i, awaited, rfl⟩
  | turn i =>
      right
      rw [hs] at hwithin
      rcases Nat.eq_or_lt_of_le hwithin with hi | hi
      · exact ⟨_, _, .finish hs hi⟩
      · cases herror : s.pipelineError with
        | true => exact ⟨_, _, .abort hs hi herror⟩
        | false =>
            cases hk : acquireSlot s.window with
            | some k => exact ⟨_, _, .acquire hs hi herror hk⟩
            | none =>
                rcases hwindow with hsize | htimesOut
                · refine exists_step_of_flight hresp ha ?_
                    (.inl (flight_ne_nil_of_full ha hs hsize hk))
                  intro hstopped
                  rcases hreturn hstopped with h | ⟨j, awaited, h⟩
                  · rw [herror] at h
                    cases h
                  · rw [hs] at h
                    cases h
                · exact ⟨_, _, .timeout hs hi hk htimesOut⟩
  | bind i k => exact .inr ⟨_, _, .bind hs⟩
  | read i k =>
      right
      obtain ⟨data | data, hread⟩ :=
        hresp.readFile (UInt64.ofNat i * UInt64.ofNat Go2Cbt.blockSize) (job.blockSize i)
      · exact ⟨_, _, .readFails hs hread⟩
      · obtain ⟨hash | hash, hhash⟩ := hresp.computeBlockHash data
        · exact ⟨_, _, .hashFails hs hread hhash⟩
        · exact ⟨_, _, .read hs hread hhash⟩
  | record i k data hash =>
      right
      obtain ⟨compressed | compressed, hcompress⟩ := hresp.compress data
      · exact ⟨_, _, .compressFails hs hcompress⟩
      · exact ⟨_, _, .compress hs hcompress⟩
  | send i k message =>
      right
      obtain ⟨sent | sent, hsend⟩ := hresp.sendBlockNoWait message
      · exact ⟨_, _, .sendFails hs hsend⟩
      · exact ⟨_, _, .send hs hsend⟩
  | count i => exact .inr ⟨_, _, .count hs⟩
  | skip i k => exact .inr ⟨_, _, .skip hs⟩
  | abandon i k => exact .inr ⟨_, _, .abandon hs⟩
  | fail i => exact .inr ⟨_, _, .fail hs⟩
  | drain i =>
      right
      by_cases hzero : s.inFlightCount ≤ 0
      · exact ⟨_, _, .awaited hs hzero⟩
      · have hpos := not_le.mp hzero
        cases herror : s.pipelineError with
        | true => exact ⟨_, _, .interrupted hs hpos herror⟩
        | false =>
            -- an answer is due, and the thread is there for it
            have hinFlight := ha.inFlight
            rw [hs] at hinFlight
            refine exists_step_of_flight hresp ha ?_ ?_
            · intro hstopped
              rcases hreturn hstopped with h | ⟨j, awaited, h⟩
              · rw [herror] at h
                cases h
              · rw [hs] at h
                cases h
            · by_contra hidle
              obtain ⟨hnil, hwait⟩ := not_or.mp hidle
              rw [not_not.mp hnil, not_not.mp hwait] at hinFlight
              simp only [Sender.uncounted, Receiver.undecremented, List.length_nil] at hinFlight
              omega
  | stop i awaited =>
      right
      by_cases hr : s.receiver = .wait ∨ s.receiver = .stopped
      · exact ⟨_, _, .join hs hr⟩
      · obtain ⟨hwait, hstopped⟩ := not_or.mp hr
        exact exists_step_of_flight hresp ha hstopped (.inr hwait)

end Waiting

/-! ### The transfer returns -/

section Returns

variable {job : Job} {out : Outside σ} {windowSize : Nat} {m : BlockStateManager} {server : σ}

/-- The outside responds all along a transfer. -/
def Outside.RespondsAlong (out : Outside σ) (job : Job) (init : Pipeline σ) : Prop :=
  ∀ s, Reached job out init s → out.Responds s

/-- What holds all along a transfer. -/
def Underway (job : Job) (out : Outside σ) (init s : Pipeline σ) : Prop :=
  Reached job out init s ∧ (∃ acks, Accounts job s acks) ∧ s.SaysSo

theorem underway_step {init : Pipeline σ} (hout : out.AnswersAlong job init) (s : Pipeline σ)
    (p : Party) (t : Pipeline σ) (h : Underway job out init s) (hst : Step job out s p t) :
    Underway job out init t := by
  obtain ⟨hreached, ⟨acks, ha⟩, hreturn⟩ := h
  exact ⟨hreached.next hst, accounts_step (hout s hreached) ha hst, saysSo_step hreturn hst⟩

theorem underway_start (job : Job) (out : Outside σ) (windowSize : Nat) (m : BlockStateManager)
    (server : σ) :
    Underway job out (.start windowSize m server) (.start windowSize m server) :=
  ⟨⟨_, [], rfl, .nil _⟩, ⟨[], .start ..⟩, nofun⟩

theorem underway_of_reached (hout : out.AnswersAlong job (.start windowSize m server))
    {s : Pipeline σ} (h : Reached job out (.start windowSize m server) s) :
    Underway job out (.start windowSize m server) s :=
  Transition.Reachable.invariant (by rintro s rfl; exact underway_start ..)
    (underway_step hout) h

theorem stepsLeft_lowers {init : Pipeline σ} (hout : out.AnswersAlong job init) (s : Pipeline σ)
    (p : Party) (t : Pipeline σ) (h : Underway job out init s) (hst : Step job out s p t) :
    t.stepsLeft job.totalBlocks.toNat < s.stepsLeft job.totalBlocks.toNat := by
  obtain ⟨hreached, ⟨acks, ha⟩, -⟩ := h
  obtain ⟨acks', ha'⟩ := accounts_step (hout s hreached) ha hst
  exact stepsLeft_step (hout s hreached) ha ha' hst

/-- A transfer that has not returned goes on, in every state that is reached. -/
theorem returned_or_step_of_reached (hout : out.AnswersAlong job (.start windowSize m server))
    (hresp : out.RespondsAlong job (.start windowSize m server))
    (hwindow : 0 < windowSize ∨ out.timesOut) {s : Pipeline σ}
    (h : Reached job out (.start windowSize m server) s) :
    (∃ i awaited, s.sender = .done i awaited) ∨ ∃ p t, Step job out s p t := by
  obtain ⟨-, ⟨acks, ha⟩, hreturn⟩ := underway_of_reached hout h
  refine returned_or_step (hresp s h) ha hreturn (hwindow.imp_left fun hpos => ?_)
  have hlength := length_window_of_reached h
  rw [show (Pipeline.start windowSize m server).window.length = windowSize from
    List.length_replicate] at hlength
  exact List.ne_nil_of_length_pos (hlength ▸ hpos)

/-- No run is longer than twelve steps a block. -/
theorem length_run_le (hout : out.AnswersAlong job (.start windowSize m server))
    {as : List Party} {s : Pipeline σ}
    (hrun : Transition.Run (Step job out) (.start windowSize m server) as s) :
    as.length ≤ 12 * job.totalBlocks.toNat + 4 := by
  have hle := hrun.length_add_rank_le (underway_step hout) (stepsLeft_lowers hout)
    (underway_start job out windowSize m server)
  have hstart : (Pipeline.start windowSize m server).stepsLeft job.totalBlocks.toNat
      = 12 * job.totalBlocks.toNat + 4 := by
    simp [Pipeline.stepsLeft, Pipeline.returning, Pipeline.start, Sender.stepsLeft,
      Receiver.stepsLeft]
  rw [hstart] at hle
  exact (Nat.le_add_right _ _).trans hle

/-- From every state that is reached the transfer can return. -/
theorem exists_run_returned (hout : out.AnswersAlong job (.start windowSize m server))
    (hresp : out.RespondsAlong job (.start windowSize m server))
    (hwindow : 0 < windowSize ∨ out.timesOut) {s : Pipeline σ}
    (h : Reached job out (.start windowSize m server) s) :
    ∃ as t, Transition.Run (Step job out) s as t ∧ ∃ i awaited, t.sender = .done i awaited :=
  Transition.exists_run_final (underway_step hout) (stepsLeft_lowers hout)
    (fun _ hs => returned_or_step_of_reached hout hresp hwindow hs.1) (underway_of_reached hout h)

/-- **The pipelined transfer returns**, whatever fails and in every order of its steps: no run has
more than twelve steps a block, a run that cannot go on has returned, and from every state that is
reached the transfer can return.  A window of no slots waits for the timeout. -/
theorem transfer_returns (hout : out.AnswersAlong job (.start windowSize m server))
    (hresp : out.RespondsAlong job (.start windowSize m server))
    (hwindow : 0 < windowSize ∨ out.timesOut) :
    (∀ as s, Transition.Run (Step job out) (.start windowSize m server) as s →
      as.length ≤ 12 * job.totalBlocks.toNat + 4 ∧
        ((∀ p t, ¬ Step job out s p t) → ∃ i awaited, s.sender = .done i awaited)) ∧
    ∀ s, Reached job out (.start windowSize m server) s →
      ∃ as t, Transition.Run (Step job out) s as t ∧ ∃ i awaited, t.sender = .done i awaited := by
  refine ⟨fun as s hrun => ⟨length_run_le hout hrun, fun hstuck => ?_⟩,
    fun s hs => exists_run_returned hout hresp hwindow hs⟩
  refine (returned_or_step_of_reached hout hresp hwindow ⟨_, as, rfl, hrun⟩).resolve_right ?_
  rintro ⟨p, t, hst⟩
  exact hstuck p t hst

end Returns

theorem responds_noFaults (s : Pipeline Unit) : noFaults.Responds s where
  readFile _ _ := ⟨_, rfl⟩
  computeBlockHash _ := ⟨_, rfl⟩
  compress _ := ⟨_, rfl⟩
  sendBlockNoWait _ := ⟨_, rfl⟩
  serve hqueue := by
    obtain ⟨m, rest, hcons⟩ := List.exists_cons_of_ne_nil hqueue
    exact ⟨_, (), rest, m, hcons, rfl⟩

/-- A window of one slot is enough. -/
theorem twoMegabytes_returns :
    ∃ as t, Transition.Run (Step twoMegabytes noFaults) (.start 1 .new ()) as t ∧
      ∃ i awaited, t.sender = .done i awaited :=
  (transfer_returns (answersEach_noFaults.along _) (fun s _ => responds_noFaults s)
    (.inl Nat.one_pos)).2 _ ⟨_, [], rfl, .nil _⟩

end Go2Cbt.Engine
