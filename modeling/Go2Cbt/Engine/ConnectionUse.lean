import Go2Cbt.Client.Lifecycle

/-!
# Engine — what a backup does with its connection

The calls that `FullBackup`, `IncrementalBackup`, their two transfers and `CloseConnection` of
`BackupEngine.cpp` make on the `NetworkClient` of a disk, one disk after the other, with the steps of
the client and of its thread between them.  Which of the two backups it is, how many blocks it has
and what fails are open.

The thread of `AckReceiverLoop` never uses a socket that is closed, the backup never reads an
acknowledgement while the thread is there to read it, and a disk leaves no socket behind, however
its backup ends (`connection_use`).
-/

namespace Go2Cbt.Engine

open Client

/-- Where the backup of a disk is, or what it waits for. -/
inductive BackupPoint where
  | constructed
  | connecting
  | connected
  | greeting
  | rejected
  | greeted
  | sending
  | sent
  | finishing
  | synchronous
  | closing
  | goodbye
  | leaving
  | left
  deriving DecidableEq, Repr

namespace BackupPoint

/-- The next call, from where to where. -/
inductive Calls : BackupPoint → NetClient → ClientCall → BackupPoint → Prop where
  | connect {s : NetClient} : Calls .constructed s .connect .connecting
  | hello {s : NetClient} : Calls .connected s .sendHello .greeting
  | rejected {s : NetClient} : Calls .rejected s .disconnect .leaving
  -- `PipelineTransferBlocks`
  | start {s : NetClient} : Calls .greeted s .startAckReceiver .sending
  | send {s : NetClient} : Calls .sending s .sendBlockNoWait .sent
  | stop {s : NetClient} : Calls .finishing s .stopAckReceiver .closing
  -- `TransferBlocks`
  | sendBlock {s : NetClient} : Calls .synchronous s .sendBlock .synchronous
  -- `CloseConnection`
  | bye {s : NetClient} (h : s.connected = true) : Calls .closing s .sendBye .goodbye
  | disconnect {s : NetClient} : Calls .goodbye s .disconnect .leaving
  | destroy {s : NetClient} : Calls .leaving s .destroy .left

/-- What the backup decides between two calls. -/
inductive Decides : BackupPoint → NetClient → BackupPoint → Prop where
  | dryRun {s : NetClient} : Decides .constructed s .closing
  | connected {s : NetClient} (h : s.result = true) : Decides .connecting s .connected
  | notConnected {s : NetClient} (h : s.result = false) : Decides .connecting s .leaving
  | greeted {s : NetClient} (h : s.result = true) : Decides .greeting s .greeted
  | notGreeted {s : NetClient} (h : s.result = false) : Decides .greeting s .rejected
  -- the source of `PipelineTransferBlocks` does not open
  | noSource {s : NetClient} : Decides .greeted s .closing
  | goesOn {s : NetClient} (h : s.result = true) : Decides .sent s .sending
  | breaksOff {s : NetClient} (h : s.result = false) : Decides .sent s .finishing
  | allSent {s : NetClient} : Decides .sending s .finishing
  | incremental {s : NetClient} : Decides .greeted s .synchronous
  | allTried {s : NetClient} : Decides .synchronous s .closing
  | notOpen {s : NetClient} (h : s.connected = false) : Decides .closing s .leaving

end BackupPoint

/-- A `Run`, as far as the connections go. -/
structure Backups where
  point : BackupPoint
  client : NetClient

/-- One step: the backup calls, the call goes on, or the thread does; the backup decides, or `Run`
comes to the next disk. -/
inductive BackupsStep : Backups → Option ClientEvent → Backups → Prop where
  | call {s : Backups} {c : ClientCall} {p : BackupPoint} {client : NetClient}
      (hp : s.point.Calls s.client c p) (hst : ClientStep s.client (.call c) client) :
      BackupsStep s (some (.call c)) ⟨p, client⟩
  | caller {s : Backups} {client : NetClient} (hst : ClientStep s.client .caller client) :
      BackupsStep s (some .caller) ⟨s.point, client⟩
  | thread {s : Backups} {client : NetClient} (hst : ClientStep s.client .thread client) :
      BackupsStep s (some .thread) ⟨s.point, client⟩
  | decide {s : Backups} {p : BackupPoint} (hcaller : s.client.caller = .outside)
      (hp : s.point.Decides s.client p) : BackupsStep s none ⟨p, s.client⟩
  | next {s : Backups} (hcaller : s.client.caller = .destroyed) :
      BackupsStep s none ⟨.constructed, .new s.client.table⟩

/-- What is so of the client, where the backup is. -/
def BackupPoint.Fits : BackupPoint → NetClient → Prop
  | .constructed, s => s.ackThread = .none ∧ s.caller = .outside ∧ s.socket = none
  | .connecting, s => s.ackThread = .none ∧ (s.caller = .connecting ∧ s.socket = none ∨
      s.caller = .outside ∧ (s.result = true → s.socket ≠ none))
  | .connected, s | .greeting, s | .greeted, s => s.ackThread = .none ∧
      (s.caller = .outside ∨ s.caller = .talking true) ∧ s.socket ≠ none
  | .synchronous, s | .goodbye, s | .rejected, s | .leaving, s => s.ackThread = .none ∧
      (s.caller = .outside ∨ s.caller = .talking true)
  | .sending, s | .sent, s | .finishing, s => s.socket ≠ none ∧
      (s.caller = .outside ∨ s.caller = .talking false ∨ s.caller = .joining .startAckReceiver ∨
        s.caller = .spawning)
  | .closing, s => s.caller = .joining .user ∧ s.socket ≠ none ∨
      s.caller = .outside ∧ s.ackThread = .none
  | .left, s => s.ackThread = .none ∧ (s.caller = .disconnecting ∨ s.caller = .destroyed)

/-- What is so of the client, wherever the backup is. -/
structure Backups.Orderly (s : Backups) : Prop where
  fits : s.point.Fits s.client
  lost : s.client.lost = []
  connected : s.client.connected = true → s.client.socket ≠ none
  talks : ∀ reads, s.client.caller = .talking reads → s.client.socket ≠ none

namespace Backups.Orderly

variable {p q : BackupPoint} {s t : NetClient}

theorem new (table : Descriptors) : (⟨.constructed, .new table⟩ : Backups).Orderly :=
  ⟨⟨rfl, rfl, rfl⟩, rfl, fun hc => Bool.noConfusion hc, fun _ hreads =>
    Caller.noConfusion hreads⟩

/-- A thread has a socket. -/
theorem socket_of_thread (h : (⟨p, s⟩ : Backups).Orderly) (hthread : s.ackThread ≠ .none) :
    s.socket ≠ none := by
  have hfits := h.fits
  cases p with
  | sending | sent | finishing => exact hfits.1
  | closing =>
      rcases hfits with ⟨-, hsocket⟩ | ⟨-, hnone⟩
      · exact hsocket
      · exact absurd hnone hthread
  | _ => exact absurd hfits.1 hthread

theorem reads_alone (h : (⟨p, s⟩ : Backups).Orderly) (hcaller : s.caller = .talking true) :
    s.ackThread = .none := by
  have hfits := h.fits
  cases p with
  | sending | sent | finishing => simp [BackupPoint.Fits, hcaller] at hfits
  | closing => simp [BackupPoint.Fits, hcaller] at hfits
  | _ => exact hfits.1

/-- What a step of the thread leaves alone. -/
theorem thread_frame (hst : ClientStep s .thread t) :
    t.caller = s.caller ∧ t.socket = s.socket ∧ t.lost = s.lost ∧ s.ackThread ≠ .none ∧
      (t.connected = true → s.connected = true) := by
  cases hst <;> simp_all

theorem thread (h : (⟨p, s⟩ : Backups).Orderly) (hst : ClientStep s .thread t) :
    (⟨p, t⟩ : Backups).Orderly := by
  obtain ⟨hcaller, hsocket, hlost, hthread, hconnected⟩ := thread_frame hst
  refine ⟨?_, hlost.trans h.lost, fun hc => ?_, fun reads hc => ?_⟩
  · have hfits := h.fits
    cases p with
    | sending | sent | finishing | closing => simp_all [BackupPoint.Fits]
    | _ => exact absurd hfits.1 hthread
  · exact hsocket ▸ h.connected (hconnected hc)
  · exact hsocket ▸ h.talks reads (hcaller ▸ hc)

/-- `Connect` is called once, by a client that has no socket. -/
theorem connecting (h : (⟨p, s⟩ : Backups).Orderly) (hcaller : s.caller = .connecting) :
    p = .connecting ∧ s.ackThread = .none ∧ s.socket = none := by
  have hfits := h.fits
  cases p <;> simp_all [BackupPoint.Fits]

theorem assign (h : (⟨p, s⟩ : Backups).Orderly) (hcaller : s.caller = .connecting)
    (socket : Option Nat) (table : Descriptors) :
    (⟨p, s.assign socket table⟩ : Backups).Orderly := by
  obtain ⟨rfl, hthread, hsocket⟩ := h.connecting hcaller
  have hclosed : s.connected = false := by simpa [hsocket] using h.connected
  have hlost : s.lost = [] := h.lost
  refine ⟨⟨hthread, .inr ⟨rfl, fun hresult => ?_⟩⟩, ?_, fun hconnected => ?_, ?_⟩
  · exact Option.isSome_iff_ne_none.mp hresult
  · simp [NetClient.assign, hlost, hsocket]
  · simpa [NetClient.assign, hclosed, Option.isSome_iff_ne_none] using hconnected
  · exact fun reads hreads => Caller.noConfusion hreads

/-- A call that talks returns. -/
theorem giveBack (h : (⟨p, s⟩ : Backups).Orderly) {reads : Bool}
    (hcaller : s.caller = .talking reads) (result connected : Bool)
    (hconnected : connected = true → s.connected = true) :
    (⟨p, { s.giveBack result with connected }⟩ : Backups).Orderly := by
  refine ⟨?_, h.lost, fun hc => h.connected (hconnected hc), ?_⟩
  · have hfits := h.fits
    cases p <;> simp_all [BackupPoint.Fits, NetClient.giveBack]
  · exact fun reads hreads => Caller.noConfusion hreads

theorem caller (h : (⟨p, s⟩ : Backups).Orderly) (hst : ClientStep s .caller t) :
    (⟨p, t⟩ : Backups).Orderly := by
  have hfits := h.fits
  cases hst with
  | noSocket hs => exact h.assign hs ..
  | refused hs _ => exact h.assign hs ..
  | connected hs _ => exact h.assign hs ..
  | talkFails hs => exact h.giveBack hs false false fun hc => Bool.noConfusion hc
  | talkRefused hs => exact h.giveBack hs false s.connected id
  | talked hs => exact h.giveBack hs true s.connected id
  | @join stopper hs hthread =>
      refine ⟨?_, h.lost, h.connected, ?_⟩
      · cases p <;> cases stopper <;> simp_all [BackupPoint.Fits, Stopper.after]
      · cases stopper <;> simp [Stopper.after]
  | spawn hs =>
      refine ⟨?_, h.lost, h.connected, fun _ hreads => Caller.noConfusion hreads⟩
      cases p <;> simp_all [BackupPoint.Fits]
  | destroy hs =>
      refine ⟨?_, h.lost, fun hc => Bool.noConfusion hc, fun _ hreads => Caller.noConfusion hreads⟩
      cases p <;> simp_all [BackupPoint.Fits, NetClient.disconnect]

theorem call {c : ClientCall} (h : (⟨p, s⟩ : Backups).Orderly) (hp : p.Calls s c q)
    (hst : ClientStep s (.call c) t) : (⟨q, t⟩ : Backups).Orderly := by
  have hfits := h.fits
  have hlost := h.lost
  have hconnected := h.connected
  have htalks := h.talks
  cases hst with
  | connect hs =>
      cases hp
      exact ⟨⟨hfits.1, .inl ⟨rfl, hfits.2.2⟩⟩, hlost, hconnected,
        fun _ hreads => Caller.noConfusion hreads⟩
  | notConnected hs hc hclosed =>
      refine ⟨?_, hlost, hconnected, fun _ hreads => Caller.noConfusion hreads⟩
      cases hp <;> simp_all [BackupPoint.Fits, NetClient.giveBack, ClientCall.talk]
  | @talk _ reads hs hc hopen =>
      refine ⟨?_, hlost, hconnected, fun _ _ => hconnected hopen⟩
      cases hp <;> simp_all [BackupPoint.Fits, ClientCall.talk]
  | @stop stopper hs =>
      refine ⟨?_, hlost, hconnected, fun reads hreads => ?_⟩
      · generalize hcall : stopper.call = c at hp
        by_cases hthread : s.ackThread = .none
        all_goals cases hp <;> cases stopper
        all_goals simp_all [BackupPoint.Fits, NetClient.stopAckReceiver, Stopper.call,
          Stopper.after]
      · rw [NetClient.stopAckReceiver] at hreads
        cases stopper <;> simp [Stopper.after, ite_eq_iff] at hreads
  | disconnect hs =>
      refine ⟨?_, hlost, fun hc => Bool.noConfusion hc, fun reads hreads => ?_⟩
      · cases hp <;> simp_all [BackupPoint.Fits, NetClient.disconnect]
      · exact Caller.noConfusion (hs.symm.trans hreads)

theorem decides (h : (⟨p, s⟩ : Backups).Orderly) (hcaller : s.caller = .outside)
    (hp : p.Decides s q) : (⟨q, s⟩ : Backups).Orderly := by
  refine ⟨?_, h.lost, h.connected, h.talks⟩
  have hfits := h.fits
  cases hp <;> simp_all [BackupPoint.Fits]

/-- **Every step keeps it.** -/
theorem step {s t : Backups} {e : Option ClientEvent} (h : s.Orderly) (hst : BackupsStep s e t) :
    t.Orderly := by
  cases hst with
  | call hp hst => exact h.call hp hst
  | caller hst => exact h.caller hst
  | thread hst => exact h.thread hst
  | decide hcaller hp => exact h.decides hcaller hp
  | next hcaller => exact .new _

end Backups.Orderly

/-- The client stays sound from one disk to the next. -/
theorem BackupsStep.sound {S : Set Nat} {s t : Backups} {e : Option ClientEvent} (h : s.Orderly)
    (hsound : s.client.Sound S) (hst : BackupsStep s e t) : t.client.Sound S := by
  cases hst with
  | call hp hst => exact hsound.step hst
  | caller hst => exact hsound.step hst
  | thread hst => exact hsound.step hst
  | decide hcaller hp => exact hsound
  | next hcaller =>
      refine .new (hsound.table.congr fun fd => ?_)
      have hgone := hsound.gone hcaller
      have hlost := h.lost
      simp [hgone, hlost]

/-- A `Run` that has constructed its first client. -/
def Backups.start (table : Descriptors) : Backups := ⟨.constructed, .new table⟩

/-- **However the backups go**: the thread, and a call that talks, are on a socket that is open;
the two never both read the acknowledgements; no socket is closed twice; and when a client is
destroyed there is no thread, and the sockets of the process are what they were before the first. -/
theorem connection_use {S : Set Nat} {table : Descriptors} (htable : table.Holds S) {s : Backups}
    (h : Transition.Reachable BackupsStep (· = .start table) s) :
    (s.client.ackThread.UsesSocket ∨ (∃ reads, s.client.caller = .talking reads) →
      ∃ fd, s.client.socket = some fd ∧ s.client.table.isOpen fd = true) ∧
    (s.client.caller = .talking true → s.client.ackThread = .none) ∧
    s.client.table.badCloses = [] ∧
    (s.client.caller = .destroyed → s.client.ackThread = .none ∧
      ∀ fd, s.client.table.isOpen fd = true ↔ fd ∈ S) := by
  obtain ⟨horderly, hsound⟩ : s.Orderly ∧ s.client.Sound S := by
    refine h.invariant (P := fun s => s.Orderly ∧ s.client.Sound S) ?_
      fun _ _ _ hs hst => ⟨hs.1.step hst, hst.sound hs.1 hs.2⟩
    rintro _ rfl
    exact ⟨.new table, .new htable⟩
  refine ⟨fun huse => ?_, horderly.reads_alone, hsound.table.badCloses_eq, fun hcaller =>
    ⟨hsound.alone (.inr (.inr hcaller)), fun fd => ?_⟩⟩
  · have hsome : s.client.socket ≠ none := by
      rcases huse with huse | ⟨reads, hreads⟩
      · exact horderly.socket_of_thread fun hnone => by rw [hnone] at huse; exact huse
      · exact horderly.talks reads hreads
    obtain ⟨fd, hfd⟩ := Option.ne_none_iff_exists'.mp hsome
    exact ⟨fd, hfd, (hsound.table.isOpen_iff fd).mpr (.inr (.inr hfd))⟩
  · rw [hsound.table.isOpen_iff fd]
    simp [hsound.gone hcaller, horderly.lost]

/-- A block is sent while the thread waits in `select`. -/
theorem connection_use_sending :
    ∃ s : Backups, Transition.Reachable BackupsStep (· = .start noSockets) s ∧
      s.client.ackThread = .selecting ∧ s.client.caller = .talking false ∧
      ∃ fd, s.client.socket = some fd ∧ s.client.table.isOpen fd = true := by
  have h₀ : Transition.Reachable BackupsStep (· = .start noSockets) (.start noSockets) :=
    ⟨_, [], rfl, .nil _⟩
  have h₁ := (h₀.next (.call .connect (.connect rfl))).next
    (.caller (@ClientStep.connected _ 5 rfl rfl))
  have h₂ := (h₁.next (.decide rfl (.connected rfl))).next (.call .hello (.talk rfl rfl rfl))
  have h₃ := (h₂.next (.caller (.talked rfl))).next (.decide rfl (.greeted rfl))
  have h₄ := (h₃.next (.call .start (@ClientStep.stop _ .startAckReceiver rfl))).next
    (.caller (.spawn rfl))
  have h₅ := (h₄.next (.call .send (.talk rfl rfl rfl))).next (.thread (.look rfl))
  exact ⟨_, h₅, rfl, rfl, (connection_use holds_noSockets h₅).1 (.inl trivial)⟩

end Go2Cbt.Engine
