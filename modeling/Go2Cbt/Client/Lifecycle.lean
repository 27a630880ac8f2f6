import Go2Cbt.Lib.Descriptors
import Go2Cbt.Lib.Transition

/-!
# Client — the socket and the thread of a `NetworkClient`

`Connect`, the calls that talk, `StartAckReceiver`, `StopAckReceiver`, `Disconnect` and the
destructor of `NetworkClient.cpp`, called in any order, while the thread of `AckReceiverLoop` runs
beside them.  A step is what one of the two does between two accesses of something that both can
see; what is said on the connection is in `Stream`.

Whatever is called, a thread is never replaced or left behind, no socket is closed twice, and the
destructor leaves only the sockets that a second `Connect` has overwritten (`client_lifecycle`).
-/

namespace Go2Cbt.Client

/-- The calls. -/
inductive ClientCall where
  | connect
  | sendHello
  | sendBlock
  | sendBlockNoWait
  | sendBye
  | startAckReceiver
  | stopAckReceiver
  | disconnect
  | destroy
  deriving DecidableEq, Repr

/-- Whether a call talks to the server, and then whether it reads the acknowledgement. -/
def ClientCall.talk : ClientCall → Option Bool
  | .sendHello | .sendBlock | .sendBye => some true
  | .sendBlockNoWait => some false
  | _ => none

/-- Where the thread of `AckReceiverLoop` is.  With `none`, `m_ackThread` is not joinable. -/
inductive AckThread where
  | none
  | top
  | selecting
  | receiving
  | callback (goesOn : Bool)
  | returned
  deriving DecidableEq, Repr

/-- The thread is inside a call on the socket. -/
def AckThread.UsesSocket : AckThread → Prop
  | .selecting | .receiving => True
  | _ => False

/-- Who has called `StopAckReceiver`. -/
inductive Stopper where
  | user
  | startAckReceiver
  | destructor
  deriving DecidableEq, Repr

/-- Where the caller is. -/
inductive Caller where
  | outside
  | connecting
  | talking (reads : Bool)
  | joining (stopper : Stopper)
  | spawning
  | disconnecting
  | destroyed
  deriving DecidableEq, Repr

/-- The call that begins with `StopAckReceiver`, and what comes after that. -/
def Stopper.call : Stopper → ClientCall
  | .user => .stopAckReceiver
  | .startAckReceiver => .startAckReceiver
  | .destructor => .destroy

def Stopper.after : Stopper → Caller
  | .user => .outside
  | .startAckReceiver => .spawning
  | .destructor => .disconnecting

/-- A `NetworkClient`, with where its two threads are and what the last call has returned, and the
sockets of the process.  `lost` is history: the sockets that `Connect` has overwritten. -/
structure NetClient where
  socket : Option Nat
  connected : Bool
  ackReceiverRunning : Bool
  ackThread : AckThread
  caller : Caller
  result : Bool
  table : Descriptors
  lost : List Nat

namespace NetClient

/-- The constructor. -/
def new (table : Descriptors) : NetClient :=
  { socket := none
    connected := false
    ackReceiverRunning := false
    ackThread := .none
    caller := .outside
    result := false
    table
    lost := [] }

/-- `Connect` assigns `m_socket`, and returns. -/
def assign (s : NetClient) (socket : Option Nat) (table : Descriptors) : NetClient :=
  { s with
    socket
    connected := s.connected || socket.isSome
    caller := .outside
    result := socket.isSome
    table
    lost := s.lost ++ s.socket.toList }

/-- A call returns. -/
def giveBack (s : NetClient) (result : Bool) : NetClient := { s with caller := .outside, result }

/-- `StopAckReceiver`, as far as the join. -/
def stopAckReceiver (s : NetClient) (stopper : Stopper) : NetClient :=
  { s with
    ackReceiverRunning := false
    caller := if s.ackThread = .none then stopper.after else .joining stopper }

/-- `Disconnect`. -/
def disconnect (s : NetClient) : NetClient :=
  { s with
    socket := none
    connected := false
    table := s.socket.elim s.table s.table.closed }

end NetClient

/-- Who takes a step. -/
inductive ClientEvent where
  | call (c : ClientCall)
  | caller
  | thread
  deriving DecidableEq, Repr

/-- One step. -/
inductive ClientStep : NetClient → ClientEvent → NetClient → Prop where
  -- `Connect`
  | connect {s : NetClient} (h : s.caller = .outside) :
      ClientStep s (.call .connect) { s with caller := .connecting }
  | noSocket {s : NetClient} (h : s.caller = .connecting) :
      ClientStep s .caller (s.assign none s.table)
  | refused {s : NetClient} {fd : Nat} (h : s.caller = .connecting)
      (hfd : s.table.isOpen fd = false) :
      ClientStep s .caller (s.assign none ((s.table.opened fd).closed fd))
  | connected {s : NetClient} {fd : Nat} (h : s.caller = .connecting)
      (hfd : s.table.isOpen fd = false) :
      ClientStep s .caller (s.assign (some fd) (s.table.opened fd))
  -- `SendHello`, `SendBlock`, `SendBlockNoWait`, `SendBye`
  | notConnected {s : NetClient} {c : ClientCall} {reads : Bool} (h : s.caller = .outside)
      (hc : c.talk = some reads) (hconnected : s.connected = false) :
      ClientStep s (.call c) (s.giveBack false)
  | talk {s : NetClient} {c : ClientCall} {reads : Bool} (h : s.caller = .outside)
      (hc : c.talk = some reads) (hconnected : s.connected = true) :
      ClientStep s (.call c) { s with caller := .talking reads }
  | talkFails {s : NetClient} {reads : Bool} (h : s.caller = .talking reads) :
      ClientStep s .caller { s.giveBack false with connected := false }
  | talkRefused {s : NetClient} (h : s.caller = .talking true) :
      ClientStep s .caller (s.giveBack false)
  | talked {s : NetClient} {reads : Bool} (h : s.caller = .talking reads) :
      ClientStep s .caller (s.giveBack true)
  -- `StartAckReceiver`, `StopAckReceiver` and the destructor
  | stop {s : NetClient} {stopper : Stopper} (h : s.caller = .outside) :
      ClientStep s (.call stopper.call) (s.stopAckReceiver stopper)
  | join {s : NetClient} {stopper : Stopper} (h : s.caller = .joining stopper)
      (hthread : s.ackThread = .returned) :
      ClientStep s .caller { s with ackThread := .none, caller := stopper.after }
  | spawn {s : NetClient} (h : s.caller = .spawning) :
      ClientStep s .caller
        { s with ackReceiverRunning := true, ackThread := .top, caller := .outside }
  | disconnect {s : NetClient} (h : s.caller = .outside) :
      ClientStep s (.call .disconnect) s.disconnect
  | destroy {s : NetClient} (h : s.caller = .disconnecting) :
      ClientStep s .caller { s.disconnect with caller := .destroyed }
  -- `AckReceiverLoop`
  | look {s : NetClient} (h : s.ackThread = .top) :
      ClientStep s .thread
        { s with ackThread := if s.ackReceiverRunning then .selecting else .returned }
  | selectFails {s : NetClient} (h : s.ackThread = .selecting) :
      ClientStep s .thread { s with ackThread := .callback false }
  | selectTimesOut {s : NetClient} (h : s.ackThread = .selecting) :
      ClientStep s .thread { s with ackThread := .top }
  | selected {s : NetClient} (h : s.ackThread = .selecting) :
      ClientStep s .thread { s with ackThread := .receiving }
  | receiveFails {s : NetClient} (h : s.ackThread = .receiving) :
      ClientStep s .thread { s with connected := false, ackThread := .callback false }
  | receivedBad {s : NetClient} (h : s.ackThread = .receiving) :
      ClientStep s .thread { s with ackThread := .callback false }
  | received {s : NetClient} (h : s.ackThread = .receiving) :
      ClientStep s .thread { s with ackThread := .callback true }
  | called {s : NetClient} {goesOn : Bool} (h : s.ackThread = .callback goesOn) :
      ClientStep s .thread { s with ackThread := if goesOn then .top else .returned }

/-! ### Whatever is called -/

/-- Where the threads are, and which sockets are open: those in `S`, which are not the client's,
the client's own, and those that it has lost. -/
structure NetClient.Sound (S : Set Nat) (s : NetClient) : Prop where
  alone : s.caller = .spawning ∨ s.caller = .disconnecting ∨ s.caller = .destroyed →
    s.ackThread = .none
  stopped : ∀ stopper, s.caller = .joining stopper →
    s.ackReceiverRunning = false ∧ s.ackThread ≠ .none
  gone : s.caller = .destroyed → s.socket = none
  table : s.table.Holds { fd | fd ∈ S ∨ fd ∈ s.lost ∨ s.socket = some fd }
  fresh : ∀ fd, s.socket = some fd → fd ∉ S ∧ fd ∉ s.lost

namespace NetClient.Sound

variable {S : Set Nat} {s t : NetClient}

theorem new {table : Descriptors} (h : table.Holds S) : (NetClient.new table).Sound S where
  alone _ := rfl
  stopped stopper hcaller := Caller.noConfusion hcaller
  gone _ := rfl
  table := h.congr fun fd => by simp [NetClient.new]
  fresh fd hfd := by cases hfd

/-- A step that leaves the socket alone. -/
theorem keep (h : s.Sound S) (hsocket : t.socket = s.socket) (htable : t.table = s.table)
    (hlost : t.lost = s.lost)
    (halone : t.caller = .spawning ∨ t.caller = .disconnecting ∨ t.caller = .destroyed →
      t.ackThread = .none)
    (hstopped : ∀ stopper, t.caller = .joining stopper →
      t.ackReceiverRunning = false ∧ t.ackThread ≠ .none)
    (hgone : t.caller = .destroyed → s.socket = none) : t.Sound S where
  alone := halone
  stopped := hstopped
  gone hcaller := hsocket.trans (hgone hcaller)
  table := by
    rw [hsocket, htable, hlost]
    exact h.table
  fresh := by
    rw [hsocket, hlost]
    exact h.fresh

/-- A step of the caller that leaves the socket alone, to where no thread is needed. -/
theorem moves (h : s.Sound S) {caller : Caller} (hsocket : t.socket = s.socket)
    (htable : t.table = s.table) (hlost : t.lost = s.lost) (hcaller : t.caller = caller)
    (hplain : caller = .outside ∨ caller = .connecting ∨ ∃ reads, caller = .talking reads) :
    t.Sound S := by
  refine h.keep hsocket htable hlost ?_ ?_ ?_
  all_goals rw [hcaller]
  all_goals rcases hplain with rfl | rfl | ⟨reads, rfl⟩
  all_goals simp

/-- **`Connect` loses the socket that the client had.** -/
theorem assign (h : s.Sound S) {socket : Option Nat} {table : Descriptors}
    (htable : table.Holds { fd | (fd ∈ S ∨ fd ∈ s.lost ∨ s.socket = some fd) ∨ socket = some fd })
    (hfresh : ∀ fd, socket = some fd → s.table.isOpen fd = false) :
    (s.assign socket table).Sound S where
  alone hcaller := by simp [NetClient.assign] at hcaller
  stopped stopper hcaller := Caller.noConfusion hcaller
  gone hcaller := Caller.noConfusion hcaller
  table := htable.congr fun fd => by
    simp [NetClient.assign, or_assoc]
  fresh fd hfd := by
    have hclosed := h.table.notMem_iff.mp (hfresh fd hfd)
    simp only [Set.mem_ofPred_eq, not_or] at hclosed
    simp [NetClient.assign, hclosed]

/-- **`Disconnect` closes the client's own socket.** -/
theorem disconnect (h : s.Sound S) {caller : Caller}
    (halone : caller = .disconnecting ∨ caller = .destroyed → s.ackThread = .none)
    (hcaller : caller = .outside ∨ caller = .destroyed) :
    ({ s.disconnect with caller } : NetClient).Sound S where
  alone hat := halone (by rcases hcaller with rfl | rfl <;> simp_all)
  stopped stopper hat := by rcases hcaller with rfl | rfl <;> exact Caller.noConfusion hat
  gone _ := rfl
  table := by
    rw [NetClient.disconnect]
    cases hsocket : s.socket with
    | none =>
        refine h.table.congr fun fd => ?_
        simp [hsocket]
    | some fd =>
        obtain ⟨hS, hlost⟩ := h.fresh fd hsocket
        refine (h.table.closed (show _ ∨ _ ∨ _ from .inr (.inr hsocket))).congr fun n => ?_
        simp only [Set.mem_ofPred_eq, Set.mem_sdiff, Set.mem_singleton_iff, hsocket,
          Option.some.injEq]
        constructor
        · rintro (hn | hn | hn)
          · exact ⟨.inl hn, fun heq => hS (heq ▸ hn)⟩
          · exact ⟨.inr (.inl hn), fun heq => hlost (heq ▸ hn)⟩
          · cases hn
        · rintro ⟨hn | hn | hn, hne⟩
          · exact .inl hn
          · exact .inr (.inl hn)
          · exact absurd hn.symm hne
  fresh fd hfd := by cases hfd

/-- A step of the thread. -/
theorem ofThread (h : s.Sound S) (hsocket : t.socket = s.socket) (htable : t.table = s.table)
    (hlost : t.lost = s.lost) (hcaller : t.caller = s.caller)
    (hrunning : t.ackReceiverRunning = s.ackReceiverRunning) (hthread : s.ackThread ≠ .none)
    (hthread' : t.ackThread ≠ .none) : t.Sound S :=
  h.keep hsocket htable hlost (fun hat => absurd (h.alone (hcaller ▸ hat)) hthread)
    (fun stopper hat => ⟨hrunning.trans (h.stopped stopper (hcaller ▸ hat)).1, hthread'⟩)
    (fun hat => h.gone (hcaller ▸ hat))

/-- **Every step keeps it**, whoever takes it. -/
theorem step {e : ClientEvent} (h : s.Sound S) (hst : ClientStep s e t) : t.Sound S := by
  cases hst with
  | connect hs => exact h.moves rfl rfl rfl rfl (.inr (.inl rfl))
  | noSocket hs => exact h.assign (h.table.congr fun fd => by simp) fun fd hfd => by cases hfd
  | @refused fd hs hfd =>
      have hclosed := (h.table.opened fd).closed (Set.mem_insert fd _)
      refine h.assign (hclosed.congr fun n => ?_) fun fd hfd => by cases hfd
      have hnot := h.table.notMem_iff.mp hfd
      simp only [Set.mem_sdiff, Set.mem_insert_iff, Set.mem_singleton_iff, reduceCtorEq, or_false]
      constructor
      · exact fun hn => ⟨.inr hn, fun heq => hnot (heq ▸ hn)⟩
      · rintro ⟨hn | hn, hne⟩
        · exact absurd hn hne
        · exact hn
  | @connected fd hs hfd =>
      refine h.assign ((h.table.opened fd).congr fun n => ?_) fun n hn => ?_
      · simp only [Set.mem_ofPred_eq, Set.mem_insert_iff, Option.some.injEq]
        tauto
      · cases hn
        exact hfd
  | notConnected hs _ _ => exact h.moves rfl rfl rfl rfl (.inl rfl)
  | talk hs _ _ => exact h.moves rfl rfl rfl rfl (.inr (.inr ⟨_, rfl⟩))
  | talkFails hs => exact h.moves rfl rfl rfl rfl (.inl rfl)
  | talkRefused hs => exact h.moves rfl rfl rfl rfl (.inl rfl)
  | talked hs => exact h.moves rfl rfl rfl rfl (.inl rfl)
  | @stop stopper hs =>
      refine h.keep rfl rfl rfl ?_ ?_ ?_
      all_goals rw [NetClient.stopAckReceiver]
      all_goals dsimp only
      all_goals split
      all_goals cases stopper <;> simp_all [Stopper.after]
  | @join stopper hs hthread =>
      refine h.keep rfl rfl rfl (fun _ => rfl) ?_ ?_
      all_goals cases stopper <;> simp [Stopper.after]
  | spawn hs => exact h.moves rfl rfl rfl rfl (.inl rfl)
  | disconnect hs =>
      have hsame : ({ s.disconnect with caller := .outside } : NetClient) = s.disconnect := by
        rw [← hs]
        rfl
      exact hsame ▸ h.disconnect (fun hat => by simp at hat) (.inl rfl)
  | destroy hs => exact h.disconnect (fun _ => h.alone (.inr (.inl hs))) (.inr rfl)
  | look ht =>
      refine h.ofThread rfl rfl rfl rfl rfl (ht ▸ nofun) ?_
      dsimp only
      split <;> exact AckThread.noConfusion
  | called ht =>
      refine h.ofThread rfl rfl rfl rfl rfl (ht ▸ nofun) ?_
      dsimp only
      split <;> exact AckThread.noConfusion
  | selectFails ht | selectTimesOut ht | selected ht | receiveFails ht | receivedBad ht
  | received ht => exact h.ofThread rfl rfl rfl rfl rfl (ht ▸ nofun) nofun

end NetClient.Sound

/-! ### The join -/

/-- The steps that the thread has still to make when it is to stop. -/
def AckThread.stepsLeft : AckThread → Nat
  | .none | .returned => 0
  | .top => 1
  | .callback goesOn => if goesOn then 2 else 1
  | .receiving => 3
  | .selecting => 4

section Join

variable {s t : NetClient}

/-- A thread that is told to stop. -/
theorem stepsLeft_lt (hrunning : s.ackReceiverRunning = false) (hst : ClientStep s .thread t) :
    t.ackReceiverRunning = false ∧ t.ackThread.stepsLeft < s.ackThread.stepsLeft := by
  cases hst with
  | look ht => simp [ht, hrunning, AckThread.stepsLeft]
  | @called goesOn ht => cases goesOn <;> simp [ht, hrunning, AckThread.stepsLeft]
  | selectFails ht | selectTimesOut ht | selected ht | receiveFails ht | receivedBad ht
  | received ht => simp [ht, hrunning, AckThread.stepsLeft]

theorem caller_of_thread (hst : ClientStep s .thread t) : t.caller = s.caller := by
  cases hst <;> rfl

/-- It has returned, or it has a step to make. -/
theorem returned_or_step (hthread : s.ackThread ≠ .none) :
    s.ackThread = .returned ∨ ∃ t, ClientStep s .thread t := by
  cases ht : s.ackThread with
  | none => exact absurd ht hthread
  | top => exact .inr ⟨_, .look ht⟩
  | selecting => exact .inr ⟨_, .selected ht⟩
  | receiving => exact .inr ⟨_, .received ht⟩
  | callback goesOn => exact .inr ⟨_, .called ht⟩
  | returned => exact .inl rfl

/-- The steps of the thread. -/
def ThreadStep (s : NetClient) (_ : Unit) (t : NetClient) : Prop := ClientStep s .thread t

/-- **The caller of `StopAckReceiver` does not wait for more than four steps of the thread.** -/
theorem join_after_four {S : Set Nat} (h : s.Sound S) {stopper : Stopper}
    (hcaller : s.caller = .joining stopper) {as : List Unit}
    (hrun : Transition.Run ThreadStep s as t) :
    as.length ≤ 4 ∧ ((∀ u, ¬ ThreadStep t () u) → ∃ u, ClientStep t .caller u) := by
  obtain ⟨hrunning, hthread⟩ := h.stopped stopper hcaller
  have hbound : as.length + t.ackThread.stepsLeft ≤ s.ackThread.stepsLeft :=
    hrun.length_add_rank_le (P := fun s : NetClient => s.ackReceiverRunning = false)
      (fun _ _ _ hs hst => (stepsLeft_lt hs hst).1)
      (fun _ _ _ hs hst => (stepsLeft_lt hs hst).2) hrunning
  have hkept := hrun.preserves (P := fun s => s.Sound S ∧ s.caller = .joining stopper)
    (fun _ _ _ hs hst => ⟨hs.1.step hst, (caller_of_thread hst).trans hs.2⟩) ⟨h, hcaller⟩
  constructor
  · have hfour : s.ackThread.stepsLeft ≤ 4 := by
      cases s.ackThread with
      | callback goesOn => cases goesOn <;> decide
      | _ => decide
    omega
  · intro hstuck
    rcases returned_or_step (hkept.1.stopped stopper hkept.2).2 with hreturned | ⟨u, hst⟩
    · exact ⟨_, .join hkept.2 hreturned⟩
    · exact absurd hst (hstuck u)

end Join

/-- **Whatever is called, in whatever order, while the thread runs**: `m_ackThread` is assigned only
when no thread is left to join; no socket is closed that is not open; once the object is destroyed
there is no thread, and of its sockets just those are open that a `Connect` has overwritten; and
whoever waits for the thread waits for at most four of its steps. -/
theorem client_lifecycle {S : Set Nat} {table : Descriptors} (htable : table.Holds S)
    {s : NetClient} (h : Transition.Reachable ClientStep (· = .new table) s) :
    (s.caller = .spawning → s.ackThread = .none) ∧
    s.table.badCloses = [] ∧
    (s.caller = .destroyed → s.ackThread = .none ∧
      ∀ fd, s.table.isOpen fd = true ↔ fd ∈ S ∨ fd ∈ s.lost) ∧
    ∀ stopper, s.caller = .joining stopper → ∀ as t, Transition.Run ThreadStep s as t →
      as.length ≤ 4 ∧ ((∀ u, ¬ ThreadStep t () u) → ∃ u, ClientStep t .caller u) := by
  have hsound : s.Sound S := by
    refine h.invariant (P := fun s => s.Sound S) ?_ fun _ _ _ hs hst => hs.step hst
    rintro _ rfl
    exact .new htable
  refine ⟨fun hcaller => hsound.alone (.inl hcaller), hsound.table.badCloses_eq,
    fun hcaller => ⟨hsound.alone (.inr (.inr hcaller)), fun fd => ?_⟩,
    fun stopper hcaller as t hrun => join_after_four hsound hcaller hrun⟩
  rw [hsound.table.isOpen_iff fd]
  simp [hsound.gone hcaller]

/-- A process with no sockets. -/
def noSockets : Descriptors := { isOpen := fun _ => false, badCloses := [] }

theorem holds_noSockets : noSockets.Holds ∅ := ⟨fun _ => by simp [noSockets], rfl⟩

/-- After two `Connect` the first socket stays open. -/
theorem client_lifecycle_twoConnects :
    ∃ s, Transition.Reachable ClientStep (· = .new noSockets) s ∧ s.caller = .destroyed ∧
      s.ackThread = .none ∧ ∀ fd, s.table.isOpen fd = true ↔ fd = 5 := by
  have h₀ : Transition.Reachable ClientStep (· = .new noSockets) (.new noSockets) :=
    ⟨_, [], rfl, .nil _⟩
  have h₁ := (h₀.next (.connect rfl)).next (@ClientStep.connected _ 5 rfl rfl)
  have h₂ := (h₁.next (.connect rfl)).next (@ClientStep.connected _ 6 rfl rfl)
  have h₃ := (h₂.next (@ClientStep.stop _ .startAckReceiver rfl)).next (.spawn rfl)
  have h₄ := (h₃.next (@ClientStep.stop _ .destructor rfl)).next (.look rfl)
  have h₅ := (h₄.next (.join rfl rfl)).next (.destroy rfl)
  obtain ⟨-, -, hdestroyed, -⟩ := client_lifecycle holds_noSockets h₅
  refine ⟨_, h₅, rfl, (hdestroyed rfl).1, fun fd => ((hdestroyed rfl).2 fd).trans ?_⟩
  simp [NetClient.disconnect, NetClient.assign, NetClient.stopAckReceiver, NetClient.new]

end Go2Cbt.Client
