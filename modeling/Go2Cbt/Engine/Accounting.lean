import Go2Cbt.Engine.Window

/-!
# Engine — what the pipeline has in flight

Every block that was sent is in flight until the callback has handled its acknowledgement: it is
on its way to the server, its acknowledgement is on its way back, or the callback is at it.  The
window and the counters follow that (`Accounts`), whatever order the two threads take their steps
in.  An acknowledgement can be handled before the sending loop has counted its block, so that
`m_inFlightCount` can be negative for a moment.
-/

namespace Go2Cbt.Engine

open Go2Cbt.Client Go2Cbt.Protocol

variable {σ : Type}

/-! ### Where the threads are -/

/-- The turn of the sending loop. -/
def Sender.pos : Sender → Nat
  | .turn i | .count i | .fail i | .drain i => i
  | .bind i _ | .read i _ | .skip i _ | .abandon i _ => i
  | .record i _ _ _ | .send i _ _ => i
  | .stop i _ | .done i _ => i

/-- The slot it has taken and not passed on, with its block. -/
def Sender.current : Sender → Option (Nat × UInt64)
  | .bind i k | .read i k | .skip i k | .abandon i k => some (k, UInt64.ofNat i)
  | .record i k _ _ | .send i k _ => some (k, UInt64.ofNat i)
  | _ => none

/-- The slot it has taken and not written to. -/
def Sender.binding : Sender → Option (Nat × UInt64)
  | .bind i k => some (k, UInt64.ofNat i)
  | _ => none

/-- Whether a block was sent and not counted. -/
def Sender.uncounted : Sender → Nat
  | .count _ => 1
  | _ => 0

/-- The blocks that were sent are below this. -/
def Sender.next (s : Sender) : Nat := s.pos + s.uncounted

/-- The numbers written in the window are below this. -/
def Sender.bound : Sender → Nat
  | .turn i | .bind i _ => i
  | s => s.pos + 1

/-- A turn is about a block of the disk. -/
def Sender.Within (total : Nat) : Sender → Prop
  | .turn i | .drain i | .stop i _ | .done i _ => i ≤ total
  | s => s.pos < total

/-- The block whose acknowledgement the callback handles, until it frees the slot. -/
def Receiver.pending : Receiver → List UInt64
  | .setAck ack | .count ack | .release ack => [ack.blockIndex]
  | _ => []

/-- Whether an acknowledgement was read and not counted. -/
def Receiver.uncounted : Receiver → Nat
  | .setAck _ | .count _ => 1
  | _ => 0

/-- Whether a slot was freed and the count not decremented. -/
def Receiver.undecremented : Receiver → Nat
  | .decrement true => 1
  | _ => 0

/-! ### The invariant -/

/-- The blocks in flight, oldest first; `acks` are the acknowledgements on their way back. -/
def Pipeline.flight (s : Pipeline σ) (acks : List AckBody) : List UInt64 :=
  s.receiver.pending ++ (acks.map AckBody.blockIndex ++ s.outgoing.map blockIndexOf)

/-- The blocks that own a slot: those in flight and the one at hand. -/
def Pipeline.held (s : Pipeline σ) (acks : List AckBody) : Set UInt64 :=
  { b | b ∈ s.flight acks ∨ ∃ k, s.sender.current = some (k, b) }

theorem Pipeline.mem_held_of_current {s : Pipeline σ} {acks : List AckBody} {k : Nat}
    {b c : UInt64} (h : s.sender.current = some (k, b)) :
    c ∈ s.held acks ↔ c ∈ s.flight acks ∨ c = b := by
  refine or_congr_right ⟨?_, ?_⟩
  · rintro ⟨k', hk'⟩
    rw [h] at hk'
    cases hk'
    rfl
  · rintro rfl
    exact ⟨k, h⟩

theorem Pipeline.held_of_none {s : Pipeline σ} (acks : List AckBody) (h : s.sender.current = none) :
    s.held acks = { b | b ∈ s.flight acks } := by
  ext c
  refine or_iff_left ?_
  rintro ⟨k, hk⟩
  rw [h] at hk
  cases hk

/-- What the counters and the window have to do with the blocks in flight. -/
structure Accounts (job : Job) (s : Pipeline σ) (acks : List AckBody) : Prop where
  within : s.sender.Within job.totalBlocks.toNat
  message : ∀ i k m, s.sender = .send i k m → blockIndexOf m = UInt64.ofNat i
  frames : Frames s.incoming acks
  fifo : ∃ handled, s.sent.map blockIndexOf = handled ++ s.flight acks
  nodup : (s.sent.map blockIndexOf).Nodup
  below : ∀ m ∈ s.sent, (blockIndexOf m).toNat < s.sender.next
  turns : s.sentCount + s.skippedCount = s.sender.pos
  sent : s.sent.length = s.sentCount + s.sender.uncounted
  inFlight : s.inFlightCount + s.sender.uncounted
    = (s.flight acks).length + s.receiver.undecremented
  counted : s.ackedCount + s.failedCount + s.receiver.uncounted + acks.length
    + s.outgoing.length = s.sent.length
  window : WindowInv s.window s.sender.binding (s.held acks) s.sender.bound
  owner : ∀ k b, s.sender.current = some (k, b) →
    ownerIn s.window s.sender.binding k = some b
  awaited : ∀ i, s.sender = .stop i true ∨ s.sender = .done i true → s.inFlightCount ≤ 0

/-- In this state the server takes the first message if any, and answers it with one
acknowledgement of its block. -/
def Outside.AnswersNext (out : Outside σ) (s : Pipeline σ) : Prop :=
  ∀ reply st' queue', out.serve s.server s.outgoing reply st' queue' →
    ∃ m ack, s.outgoing = m :: queue' ∧ IsAckFrame reply ack ∧ ack.blockIndex = blockIndexOf m

/-- The server answers the messages one by one, each with one acknowledgement of its block. -/
def Outside.AnswersEach (out : Outside σ) : Prop :=
  ∀ st queue reply st' queue', out.serve st queue reply st' queue' →
    ∃ m ack, queue = m :: queue' ∧ IsAckFrame reply ack ∧ ack.blockIndex = blockIndexOf m

namespace Accounts

variable {job : Job} {out : Outside σ} {s : Pipeline σ} {acks : List AckBody}

theorem toNat_ofNat {i : Nat} {n : UInt64} (h : i < n.toNat) : (UInt64.ofNat i).toNat = i := by
  have hn := n.toNat_lt
  rw [UInt64.toNat_ofNat']
  exact Nat.mod_eq_of_lt (h.trans hn)

/-- Blocks in flight were sent. -/
theorem mem_sent (h : Accounts job s acks) {b : UInt64} (hb : b ∈ s.flight acks) :
    ∃ m ∈ s.sent, blockIndexOf m = b := by
  obtain ⟨handled, hfifo⟩ := h.fifo
  have hmem : b ∈ s.sent.map blockIndexOf := hfifo ▸ List.mem_append_right _ hb
  exact List.mem_map.mp hmem

theorem flight_lt (h : Accounts job s acks) {b : UInt64} (hb : b ∈ s.flight acks) :
    b.toNat < s.sender.next := by
  obtain ⟨m, hm, rfl⟩ := h.mem_sent hb
  exact h.below m hm

theorem flight_nodup (h : Accounts job s acks) : (s.flight acks).Nodup := by
  obtain ⟨handled, hfifo⟩ := h.fifo
  have hnodup := h.nodup
  rw [hfifo] at hnodup
  exact hnodup.sublist (List.sublist_append_right _ _)

theorem next_le (h : Accounts job s acks) : s.sender.next ≤ job.totalBlocks.toNat := by
  have hwithin := h.within
  cases hs : s.sender <;> rw [hs] at hwithin <;>
    simp only [Sender.Within, Sender.pos, Sender.next, Sender.uncounted] at hwithin ⊢ <;> omega

/-- The block at hand is not in flight. -/
theorem current_notMem (h : Accounts job s acks) {k : Nat} {b : UInt64}
    (hb : s.sender.current = some (k, b)) : b.toNat = s.sender.pos ∧ b ∉ s.flight acks := by
  have hpos : b.toNat = s.sender.pos ∧ s.sender.next = s.sender.pos := by
    have hwithin := h.within
    cases hs : s.sender <;> rw [hs] at hb hwithin <;> cases hb <;>
      exact ⟨toNat_ofNat hwithin, rfl⟩
  refine ⟨hpos.1, fun hmem => ?_⟩
  have hlt := h.flight_lt hmem
  rw [hpos.1, hpos.2] at hlt
  exact hlt.false

/-- Fields that the accounts are not about. -/
theorem other (h : Accounts job s acks) (e : Bool) (m : BlockStateManager) (f c : Nat) (v : σ)
    (r : List AckBody) :
    Accounts job
      { s with
        pipelineError := e
        manager := m
        failedBlocks := f
        totalCompressed := c
        server := v
        received := r } acks :=
  ⟨h.within, h.message, h.frames, h.fifo, h.nodup, h.below, h.turns, h.sent, h.inFlight,
    h.counted, h.window, h.owner, h.awaited⟩

/-- The sending loop goes on in its turn, with the slot it has. -/
theorem move (h : Accounts job s acks) {v u : Sender} (hs : s.sender = v)
    (hwithin : u.Within job.totalBlocks.toNat)
    (hmessage : ∀ i k m, u = .send i k m → blockIndexOf m = UInt64.ofNat i)
    (hpos : u.pos = v.pos) (huncounted : u.uncounted = v.uncounted)
    (hcurrent : u.current = v.current) (hbinding : u.binding = v.binding)
    (hbound : v.bound ≤ u.bound)
    (hawaited : ∀ i, u = .stop i true ∨ u = .done i true → s.inFlightCount ≤ 0) :
    Accounts job { s with sender := u } acks := by
  subst hs
  exact
    { within := hwithin
      message := hmessage
      frames := h.frames
      fifo := h.fifo
      nodup := h.nodup
      below := fun m hm => by
        have hlt := h.below m hm
        rw [Sender.next] at hlt ⊢
        dsimp only
        rw [hpos, huncounted]
        exact hlt
      turns := h.turns.trans hpos.symm
      sent := h.sent.trans (by rw [huncounted])
      inFlight := by
        dsimp only
        rw [huncounted]
        exact h.inFlight
      counted := h.counted
      window := by
        have hheld : Pipeline.held { s with sender := u } acks = s.held acks := by
          simp only [Pipeline.held, Pipeline.flight, hcurrent]
        rw [hheld]
        dsimp only
        rw [hbinding]
        exact h.window.mono hbound
      owner := fun k b hb => by
        dsimp only at hb ⊢
        rw [hbinding]
        exact h.owner k b (hcurrent ▸ hb)
      awaited := hawaited }

/-- The loop starts with nothing in flight. -/
theorem start (job : Job) (windowSize : Nat) (m : BlockStateManager) (server : σ) :
    Accounts job (.start windowSize m server) [] where
  within := Nat.zero_le _
  message _ _ _ h := Sender.noConfusion h
  frames := .nil
  fifo := ⟨[], rfl⟩
  nodup := .nil
  below m hm := absurd hm List.not_mem_nil
  turns := rfl
  sent := rfl
  inFlight := rfl
  counted := rfl
  window := by
    have hheld : (Pipeline.start windowSize m server).held [] = ∅ := by
      rw [Pipeline.held_of_none [] rfl]
      exact Set.eq_empty_of_forall_notMem fun b => List.not_mem_nil
    rw [hheld]
    exact WindowInv.reset windowSize
  owner _ _ h := by cases h
  awaited i h := by
    rcases h with h | h <;> cases h

theorem acquire (h : Accounts job s acks) {i k : Nat} (hs : s.sender = .turn i)
    (hi : i < job.totalBlocks.toNat) (hk : acquireSlot s.window = some k) :
    Accounts job
      { s with
        window := s.window.modify k fun slot => { slot with inUse := true }
        sender := .bind i k } acks := by
  have hwindow := h.window
  have hturns := h.turns
  have hsent := h.sent
  have hinFlight := h.inFlight
  have hbelow := h.below
  rw [Pipeline.held_of_none acks (by rw [hs]; rfl), hs] at hwindow
  rw [hs] at hturns hsent hinFlight hbelow
  have hlt : ∀ c ∈ { b | b ∈ s.flight acks }, c.toNat < i := by
    intro c hc
    have hlt := h.flight_lt hc
    rw [hs] at hlt
    exact hlt
  have hheld : Pipeline.held
      { s with
        window := s.window.modify k fun slot => { slot with inUse := true }
        sender := .bind i k } acks = insert (UInt64.ofNat i) { b | b ∈ s.flight acks } := by
    ext c
    rw [Pipeline.mem_held_of_current (k := k) rfl]
    exact or_comm
  obtain ⟨free, hfree, -⟩ := acquireSlot_spec hk
  exact
    { within := hi
      message := fun _ _ _ h => Sender.noConfusion h
      frames := h.frames
      fifo := h.fifo
      nodup := h.nodup
      below := hbelow
      turns := hturns
      sent := hsent
      inFlight := hinFlight
      counted := h.counted
      window := by
        rw [hheld]
        exact hwindow.acquire hk (toNat_ofNat hi) hlt
      owner := fun k' b hb => by
        cases hb
        exact (congrFun (ownerIn_acquire _ hfree) k).trans (Function.update_self _ _ _)
      awaited := fun j hj => by rcases hj with hj | hj <;> cases hj }

theorem bind (h : Accounts job s acks) {i k : Nat} (hs : s.sender = .bind i k) :
    Accounts job
      { s with
        window := s.window.modify k fun slot => { slot with blockIndex := UInt64.ofNat i }
        sender := .read i k } acks := by
  have hwithin := h.within
  have hwindow := h.window
  have howner := h.owner k (UInt64.ofNat i) (by rw [hs]; rfl)
  have hturns := h.turns
  have hsent := h.sent
  have hinFlight := h.inFlight
  have hbelow := h.below
  rw [hs] at hwithin hwindow howner hturns hsent hinFlight hbelow
  have hheld : Pipeline.held
      { s with
        window := s.window.modify k fun slot => { slot with blockIndex := UInt64.ofNat i }
        sender := .read i k } acks = s.held acks := by
    simp only [Pipeline.held, Pipeline.flight, Sender.current, hs]
  exact
    { within := hwithin
      message := fun _ _ _ h => Sender.noConfusion h
      frames := h.frames
      fifo := h.fifo
      nodup := h.nodup
      below := hbelow
      turns := hturns
      sent := hsent
      inFlight := hinFlight
      counted := h.counted
      window := by
        rw [hheld]
        exact hwindow.bind (toNat_ofNat hwithin) howner
      owner := fun k' b hb => by
        cases hb
        exact (congrFun (ownerIn_bind _ _ _) k).trans howner
      awaited := fun j hj => by rcases hj with hj | hj <;> cases hj }

/-- A message goes out: its block is in flight from now on. -/
theorem send (h : Accounts job s acks) {i k : Nat} {m : ClientMessage}
    (hs : s.sender = .send i k m) :
    Accounts job
      { s with
        outgoing := s.outgoing ++ [m]
        sent := s.sent ++ [m]
        sender := .count i } acks := by
  have hm := h.message i k m hs
  have hwithin := h.within
  have hwindow := h.window
  have hturns := h.turns
  have hsent := h.sent
  have hinFlight := h.inFlight
  have hbelow := h.below
  have hcounted := h.counted
  obtain ⟨hnumber, hnew⟩ := h.current_notMem (k := k) (b := UInt64.ofNat i) (by rw [hs]; rfl)
  obtain ⟨handled, hfifo⟩ := h.fifo
  rw [hs] at hwithin hwindow hturns hsent hinFlight hbelow hnumber
  -- the slot is held for the current block before and for a block in flight after
  have hflight : Pipeline.flight
      { s with
        outgoing := s.outgoing ++ [m]
        sent := s.sent ++ [m]
        sender := .count i } acks = s.flight acks ++ [UInt64.ofNat i] := by
    simp only [Pipeline.flight, List.map_append, List.map_cons, List.map_nil, hm,
      List.append_assoc]
  have hheld : Pipeline.held
      { s with
        outgoing := s.outgoing ++ [m]
        sent := s.sent ++ [m]
        sender := .count i } acks = s.held acks := by
    rw [Pipeline.held_of_none acks rfl, hflight]
    ext c
    rw [Pipeline.mem_held_of_current (s := s) (k := k) (b := UInt64.ofNat i) (by rw [hs]; rfl)]
    exact List.mem_append.trans (or_congr_right List.mem_singleton)
  exact
    { within := hwithin
      message := fun _ _ _ h => Sender.noConfusion h
      frames := h.frames
      fifo := ⟨handled, by
        rw [hflight, List.map_append, hfifo, List.map_cons, List.map_nil, hm, List.append_assoc]⟩
      nodup := by
        rw [List.map_append, List.map_cons, List.map_nil, hm, List.nodup_append]
        refine ⟨h.nodup, List.pairwise_singleton _ _, ?_⟩
        intro a ha b hb
        obtain ⟨m', hm', rfl⟩ := List.mem_map.mp ha
        rw [List.mem_singleton.mp hb]
        intro heq
        have hlt := hbelow m' hm'
        rw [heq, hnumber] at hlt
        exact hlt.false
      below := fun m' hm' => by
        rcases List.mem_append.mp hm' with hm' | hm'
        · exact (hbelow m' hm').trans (Nat.lt_succ_self i)
        · rw [List.mem_singleton.mp hm', hm, hnumber]
          exact Nat.lt_succ_self i
      turns := hturns
      sent := by
        rw [List.length_append, hsent]
        rfl
      inFlight := by
        rw [hflight, List.length_append]
        simp only [Sender.uncounted, List.length_singleton] at hinFlight ⊢
        omega
      counted := by
        simp only [List.length_append, List.length_singleton] at hcounted ⊢
        omega
      window := by
        rw [hheld]
        exact hwindow
      owner := fun _ _ h => by cases h
      awaited := fun j hj => by rcases hj with hj | hj <;> cases hj }

/-- The block is counted. -/
theorem count (h : Accounts job s acks) {i : Nat} (hs : s.sender = .count i) :
    Accounts job
      { s with
        sentCount := s.sentCount + 1
        inFlightCount := s.inFlightCount + 1
        sender := .turn (i + 1) } acks := by
  have hwithin := h.within
  have hwindow := h.window
  have hturns := h.turns
  have hsent := h.sent
  have hinFlight := h.inFlight
  have hbelow := h.below
  rw [hs] at hwithin hwindow hturns hsent hinFlight hbelow
  have hheld : Pipeline.held
      { s with
        sentCount := s.sentCount + 1
        inFlightCount := s.inFlightCount + 1
        sender := .turn (i + 1) } acks = s.held acks := by
    simp only [Pipeline.held, Pipeline.flight, Sender.current, hs]
  exact
    { within := hwithin
      message := fun _ _ _ h => Sender.noConfusion h
      frames := h.frames
      fifo := h.fifo
      nodup := h.nodup
      below := hbelow
      turns := by
        simp only [Sender.pos] at hturns ⊢
        omega
      sent := hsent
      inFlight := by
        have hflight : Pipeline.flight
            { s with
              sentCount := s.sentCount + 1
              inFlightCount := s.inFlightCount + 1
              sender := .turn (i + 1) } acks = s.flight acks := rfl
        rw [hflight]
        simp only [Sender.uncounted] at hinFlight ⊢
        omega
      counted := h.counted
      window := by
        rw [hheld]
        exact hwindow
      owner := fun _ _ h => by cases h
      awaited := fun j hj => by rcases hj with hj | hj <;> cases hj }

/-- The slot of the block at hand is given back. -/
theorem giveBack (h : Accounts job s acks) {k : Nat} {b : UInt64} {v u : Sender}
    (hs : s.sender = v) (hcurrent : v.current = some (k, b)) (hbinding : v.binding = none)
    (hu : u.current = none) (hubinding : u.binding = none) (hbound : v.bound ≤ u.bound)
    (hwithin : u.Within job.totalBlocks.toNat) (huncounted : u.uncounted = v.uncounted)
    (hpos : v.pos ≤ u.pos) {skipped : Nat} (hturns : s.sentCount + skipped = u.pos)
    (hmessage : ∀ i k m, u ≠ .send i k m)
    (hawaited : ∀ i, ¬ (u = .stop i true ∨ u = .done i true)) :
    Accounts job
      { s with
        window := freeSlot s.window k
        skippedCount := skipped
        sender := u } acks := by
  subst hs
  have hwindow := h.window.free (h.owner k b hcurrent)
  have hnew := (h.current_notMem hcurrent).2
  have hheld : Pipeline.held
      { s with
        window := freeSlot s.window k
        skippedCount := skipped
        sender := u } acks = s.held acks \ {b} := by
    rw [Pipeline.held_of_none acks hu]
    ext c
    rw [Set.mem_sdiff, Pipeline.mem_held_of_current hcurrent]
    constructor
    · intro hc
      refine ⟨.inl hc, ?_⟩
      rintro rfl
      exact hnew hc
    · rintro ⟨hc | rfl, hne⟩
      · exact hc
      · exact absurd rfl hne
  exact
    { within := hwithin
      message := fun i k m hm => absurd hm (hmessage i k m)
      frames := h.frames
      fifo := h.fifo
      nodup := h.nodup
      below := fun m hm => by
        have hlt := h.below m hm
        rw [Sender.next] at hlt ⊢
        dsimp only
        rw [huncounted]
        omega
      turns := hturns
      sent := h.sent.trans (by rw [huncounted])
      inFlight := by
        dsimp only
        rw [huncounted]
        exact h.inFlight
      counted := h.counted
      window := by
        rw [hheld]
        dsimp only
        rw [hubinding, ← hbinding]
        exact hwindow.mono hbound
      owner := fun k' b' hb => by
        rw [hu] at hb
        cases hb
      awaited := fun i hi => absurd hi (hawaited i) }

/-- Blocks move on in the order they have. -/
theorem relay (h : Accounts job s acks) {r : Receiver} {incoming : Bytes}
    {outgoing : List ClientMessage} {acks' : List AckBody} (hframes : Frames incoming acks')
    (hflight : r.pending ++ (acks'.map AckBody.blockIndex ++ outgoing.map blockIndexOf)
      = s.flight acks)
    (hundecremented : r.undecremented = s.receiver.undecremented)
    (hcounted : r.uncounted + acks'.length + outgoing.length
      = s.receiver.uncounted + acks.length + s.outgoing.length) :
    Accounts job { s with receiver := r, incoming := incoming, outgoing := outgoing } acks' where
  within := h.within
  message := h.message
  frames := hframes
  fifo := by
    rw [Pipeline.flight]
    dsimp only
    rw [hflight]
    exact h.fifo
  nodup := h.nodup
  below := h.below
  turns := h.turns
  sent := h.sent
  inFlight := by
    rw [Pipeline.flight]
    dsimp only
    rw [hflight, hundecremented]
    exact h.inFlight
  counted := by
    have hall := h.counted
    dsimp only
    omega
  window := by
    have hheld : Pipeline.held
        { s with receiver := r, incoming := incoming, outgoing := outgoing } acks'
          = s.held acks := by
      rw [Pipeline.held, Pipeline.held, Pipeline.flight]
      dsimp only
      rw [hflight]
    rw [hheld]
    exact h.window
  owner := h.owner
  awaited := h.awaited

/-- A thread that runs no callback ends. -/
theorem stop (h : Accounts job s acks) (hr : s.receiver = .wait ∨ s.receiver = .stopped) :
    Accounts job { s with receiver := .stopped } acks := by
  have hidle : s.receiver.pending = [] ∧ s.receiver.undecremented = 0 ∧
      s.receiver.uncounted = 0 := by
    rcases hr with hr | hr
    · rw [hr]
      exact ⟨rfl, rfl, rfl⟩
    · rw [hr]
      exact ⟨rfl, rfl, rfl⟩
  refine h.relay h.frames ?_ hidle.2.1.symm ?_
  · rw [Pipeline.flight, hidle.1]
    rfl
  · rw [hidle.2.2]
    rfl

/-- An acknowledgement is counted. -/
theorem countAck (h : Accounts job s acks) {ack : AckBody} (hr : s.receiver = .count ack)
    {acked failed : Nat} (hcount : acked + failed = 1) :
    Accounts job
      { s with
        ackedCount := s.ackedCount + acked
        failedCount := s.failedCount + failed
        receiver := .release ack } acks := by
  have hcounted := h.counted
  have hflight : Pipeline.flight
      { s with
        ackedCount := s.ackedCount + acked
        failedCount := s.failedCount + failed
        receiver := .release ack } acks = s.flight acks := by
    simp only [Pipeline.flight, hr, Receiver.pending]
  exact
    { within := h.within
      message := h.message
      frames := h.frames
      fifo := hflight ▸ h.fifo
      nodup := h.nodup
      below := h.below
      turns := h.turns
      sent := h.sent
      inFlight := by
        have hinFlight := h.inFlight
        rw [hr] at hinFlight
        rw [hflight]
        exact hinFlight
      counted := by
        rw [hr] at hcounted
        simp only [Receiver.uncounted] at hcounted ⊢
        omega
      window := by
        have hheld : Pipeline.held
            { s with
              ackedCount := s.ackedCount + acked
              failedCount := s.failedCount + failed
              receiver := .release ack } acks = s.held acks := by
          rw [Pipeline.held, Pipeline.held, hflight]
        rw [hheld]
        exact h.window
      owner := h.owner
      awaited := h.awaited }

/-- **The callback frees the slot of its block**, and no other. -/
theorem releaseSlot_eq (h : Accounts job s acks) {ack : AckBody}
    (hr : s.receiver = .release ack) :
    ∃ k, ownerIn s.window s.sender.binding k = some ack.blockIndex ∧
      releaseSlot s.window ack.blockIndex = (true, freeSlot s.window k) := by
  have hmem : ack.blockIndex ∈ s.flight acks := by
    rw [Pipeline.flight, hr]
    exact List.mem_cons_self
  refine h.window.release (.inl hmem) ?_
  intro k c hbinding heq
  have hcurrent : s.sender.current = some (k, c) := by
    cases hs : s.sender <;> rw [hs] at hbinding <;> cases hbinding
    rfl
  exact (h.current_notMem hcurrent).2 (heq ▸ hmem)

theorem release (h : Accounts job s acks) {ack : AckBody} (hr : s.receiver = .release ack) :
    Accounts job
      { s with
        window := (releaseSlot s.window ack.blockIndex).2
        receiver := .decrement (releaseSlot s.window ack.blockIndex).1 } acks := by
  obtain ⟨k, howner, hrelease⟩ := h.releaseSlot_eq hr
  have hflight : s.flight acks = ack.blockIndex :: Pipeline.flight
      { s with
        window := freeSlot s.window k
        receiver := .decrement true } acks := by
    rw [Pipeline.flight, hr]
    rfl
  have hnodup := h.flight_nodup
  rw [hflight] at hnodup
  have hmem : ack.blockIndex ∈ s.flight acks := hflight ▸ List.mem_cons_self
  -- exactly the released block leaves those that hold a slot
  have hheld : Pipeline.held
      { s with
        window := freeSlot s.window k
        receiver := .decrement true } acks = s.held acks \ {ack.blockIndex} := by
    ext c
    constructor
    · rintro (hc | ⟨j, hj⟩)
      · refine ⟨.inl (hflight ▸ List.mem_cons_of_mem _ hc), ?_⟩
        rintro rfl
        exact (List.nodup_cons.mp hnodup).1 hc
      · refine ⟨.inr ⟨j, hj⟩, ?_⟩
        rintro rfl
        exact (h.current_notMem hj).2 hmem
    · rintro ⟨hc | hj, hne⟩
      · rw [hflight] at hc
        exact .inl ((List.mem_cons.mp hc).resolve_left hne)
      · exact .inr hj
  rw [hrelease]
  exact
    { within := h.within
      message := h.message
      frames := h.frames
      fifo := by
        obtain ⟨handled, hfifo⟩ := h.fifo
        refine ⟨handled ++ [ack.blockIndex], ?_⟩
        rw [List.append_assoc, List.singleton_append, ← hflight]
        exact hfifo
      nodup := h.nodup
      below := h.below
      turns := h.turns
      sent := h.sent
      inFlight := by
        have hinFlight := h.inFlight
        rw [hflight, hr] at hinFlight
        simp only [List.length_cons, Receiver.undecremented] at hinFlight ⊢
        omega
      counted := by
        have hcounted := h.counted
        rw [hr] at hcounted
        exact hcounted
      window := by
        rw [hheld]
        exact h.window.free howner
      owner := fun j b hb => by
        dsimp only
        rw [ownerIn_free, Function.update_of_ne]
        · exact h.owner j b hb
        · -- no two blocks hold one slot
          rintro rfl
          have hsame := (h.owner j b hb).symm.trans howner
          cases hsame
          exact (h.current_notMem hb).2 hmem
      awaited := h.awaited }

theorem decrement (h : Accounts job s acks) {released : Bool}
    (hr : s.receiver = .decrement released) :
    Accounts job
      { s with
        inFlightCount := s.inFlightCount - if released then 1 else 0
        receiver := .wait } acks := by
  have hflight : Pipeline.flight
      { s with
        inFlightCount := s.inFlightCount - if released then 1 else 0
        receiver := .wait } acks = s.flight acks := by
    simp only [Pipeline.flight, hr, Receiver.pending]
  have hinFlight := h.inFlight
  have hcounted := h.counted
  rw [hr] at hinFlight hcounted
  exact
    { within := h.within
      message := h.message
      frames := h.frames
      fifo := hflight ▸ h.fifo
      nodup := h.nodup
      below := h.below
      turns := h.turns
      sent := h.sent
      inFlight := by
        rw [hflight]
        cases released <;> simp only [Receiver.undecremented] at hinFlight ⊢ <;> simp <;> omega
      counted := hcounted
      window := by
        have hheld : Pipeline.held
            { s with
              inFlightCount := s.inFlightCount - if released then 1 else 0
              receiver := .wait } acks = s.held acks := by
          rw [Pipeline.held, Pipeline.held, hflight]
        rw [hheld]
        exact h.window
      owner := h.owner
      awaited := fun i hi => by
        have hzero := h.awaited i hi
        dsimp only
        split <;> omega }

end Accounts

/-- Reading an acknowledgement of an answering server. -/
theorem Accounts.read {job : Job} {s : Pipeline σ} {acks : List AckBody}
    (h : Accounts job s acks) (hr : s.receiver = .wait) {ack : AckBody}
    (hread : readAck s.incoming = .ack ack) :
    ∃ rest, acks = ack :: rest ∧ ack.blockIndex.toNat < job.totalBlocks.toNat ∧
      Accounts job
        { s with
          receiver := .setAck ack
          incoming := s.incoming.drop (headerSize + ackBodySize) } rest := by
  rcases h.frames.read with ⟨-, hmore⟩ | ⟨ack', rest, rfl, hread', hrest⟩
  · rw [hmore] at hread
    cases hread
  · obtain rfl : ack' = ack := AckRead.ack.inj (hread'.symm.trans hread)
    have hflight : s.flight (ack' :: rest)
        = ack'.blockIndex :: (rest.map AckBody.blockIndex ++ s.outgoing.map blockIndexOf) := by
      rw [Pipeline.flight, hr]
      rfl
    refine ⟨rest, rfl, ?_, h.relay hrest hflight.symm ?_ ?_⟩
    · have hmem : ack'.blockIndex ∈ s.flight (ack' :: rest) := hflight ▸ List.mem_cons_self
      exact (h.flight_lt hmem).trans_le h.next_le
    · rw [hr]
      rfl
    · rw [hr, List.length_cons]
      simp only [Receiver.uncounted]
      omega

/-- **Every step keeps the accounts**, whoever takes it. -/
theorem accounts_step {job : Job} {out : Outside σ} {s t : Pipeline σ} {p : Party}
    {acks : List AckBody} (hout : out.AnswersNext s) (h : Accounts job s acks)
    (hst : Step job out s p t) :
    ∃ acks', Accounts job t acks' := by
  have hwithin := h.within
  have hturns := h.turns
  cases hst with
  | finish hs hi =>
      -- the ways out of the loop move no slot and no count
      rw [hs] at hwithin
      exact ⟨acks, h.move hs hwithin nofun rfl rfl rfl rfl (Nat.le_succ _) nofun⟩
  | abort hs hi herror =>
      rw [hs] at hwithin
      exact ⟨acks, h.move hs hwithin nofun rfl rfl rfl rfl (Nat.le_succ _) nofun⟩
  | timeout hs hi hnone htimesOut =>
      rw [hs] at hwithin
      exact ⟨acks, h.move hs hwithin nofun rfl rfl rfl rfl (Nat.le_succ _) nofun⟩
  | acquire hs hi herror hk => exact ⟨acks, h.acquire hs hi hk⟩
  | bind hs => exact ⟨acks, h.bind hs⟩
  | readFails hs hread =>
      rw [hs] at hwithin
      exact ⟨acks, h.move (u := .skip _ _) hs hwithin nofun rfl rfl rfl rfl le_rfl nofun⟩
  | hashFails hs hread hhash =>
      rw [hs] at hwithin
      exact ⟨acks, h.move (u := .skip _ _) hs hwithin nofun rfl rfl rfl rfl le_rfl nofun⟩
  | read hs hread hhash =>
      rw [hs] at hwithin
      exact ⟨acks, h.move (u := .record _ _ _ _) hs hwithin nofun rfl rfl rfl rfl le_rfl nofun⟩
  | compressFails hs hcompress =>
      rw [hs] at hwithin
      exact ⟨acks, (h.move (u := .skip _ _) hs hwithin nofun rfl rfl rfl rfl le_rfl nofun).other
        _ _ _ _ _ _⟩
  | compress hs hcompress =>
      rw [hs] at hwithin
      refine ⟨acks, (h.move (u := .send _ _ _) hs hwithin ?_ rfl rfl rfl rfl le_rfl nofun).other
        _ _ _ _ _ _⟩
      rintro i k m ⟨⟩
      rfl
  | send hs hsend => exact ⟨acks, h.send hs⟩
  | sendFails hs hsend =>
      rw [hs] at hwithin
      exact ⟨acks, h.move (u := .abandon _ _) hs hwithin nofun rfl rfl rfl rfl le_rfl nofun⟩
  | count hs => exact ⟨acks, h.count hs⟩
  | skip hs =>
      rw [hs] at hwithin hturns
      -- the slot of a skipped block is free again
      refine ⟨acks, (h.giveBack (u := .turn _) hs rfl rfl rfl rfl le_rfl hwithin rfl (Nat.le_succ _)
        ?_ nofun nofun).other _ _ _ _ _ _⟩
      exact congrArg Nat.succ hturns
  | abandon hs =>
      rw [hs] at hwithin hturns
      exact ⟨acks, h.giveBack (u := .fail _) hs rfl rfl rfl rfl le_rfl hwithin rfl le_rfl hturns
        nofun nofun⟩
  | fail hs =>
      rw [hs] at hwithin
      exact ⟨acks, (h.move (u := .drain _) hs (Nat.le_of_lt hwithin) nofun rfl rfl rfl rfl le_rfl
        nofun).other _ _ _ _ _ _⟩
  | awaited hs hzero =>
      rw [hs] at hwithin
      exact ⟨acks, h.move (u := .stop _ true) hs hwithin nofun rfl rfl rfl rfl le_rfl
        fun _ _ => hzero⟩
  | interrupted hs hpos herror =>
      rw [hs] at hwithin
      exact ⟨acks, h.move (u := .stop _ false) hs hwithin nofun rfl rfl rfl rfl le_rfl nofun⟩
  | giveUp hs hpos htimesOut =>
      rw [hs] at hwithin
      exact ⟨acks, h.move (u := .stop _ false) hs hwithin nofun rfl rfl rfl rfl le_rfl nofun⟩
  | @join i awaited hs hr =>
      rw [hs] at hwithin
      refine ⟨acks, (h.stop hr).move (u := .done i awaited) hs hwithin nofun rfl rfl rfl rfl le_rfl
        ?_⟩
      -- the thread stops where the loop stopped
      rintro j (hj | hj)
      · cases hj
      · cases hj
        exact h.awaited i (.inl hs)
  | receive hr hread hblock =>
      obtain ⟨rest, -, -, hnext⟩ := h.read hr hread
      exact ⟨rest, hnext.other _ _ _ _ _ _⟩
  | receiveError hr hread hblock =>
      -- an answer for a block behind the last one is not on its way
      obtain ⟨rest, -, hlt, -⟩ := h.read hr hread
      have htotal := job.totalBlocks.toNat_lt
      rw [hblock] at hlt
      exact absurd hlt (not_lt.mpr (Nat.le_of_lt_succ htotal))
  | receiveBad hr hread =>
      rcases h.frames.read with ⟨-, hmore⟩ | ⟨ack, rest, -, hack, -⟩
      · exact absurd (hread.symm.trans hmore) nofun
      · exact absurd (hread.symm.trans hack) nofun
  | receiveFails hr hfails =>
      exact ⟨acks, (h.stop (.inl hr)).other _ _ _ _ _ _⟩
  | setAck hr =>
      refine ⟨acks, (h.relay (r := .count _) h.frames ?_ ?_ ?_).other _ _ _ _ _ _⟩
      · rw [Pipeline.flight, hr]
        rfl
      · rw [hr]
        rfl
      · rw [hr]
        rfl
  | countAck hr =>
      refine ⟨acks, h.countAck hr ?_⟩
      split <;> rfl
  | release hr => exact ⟨acks, h.release hr⟩
  | decrement hr => exact ⟨acks, h.decrement hr⟩
  | serve hserve =>
      -- a message becomes an answer for the same block
      obtain ⟨m, ack, hqueue, hframe, hblock⟩ := hout _ _ _ hserve
      refine ⟨acks ++ [ack], (h.relay (h.frames.snoc hframe) ?_ rfl ?_).other _ _ _ _ _ _⟩
      · rw [Pipeline.flight, hqueue]
        simp only [List.map_append, List.map_cons, List.map_nil, hblock, List.append_assoc,
          List.singleton_append]
      · simp only [hqueue, List.length_append, List.length_cons, List.length_nil]
        omega

end Go2Cbt.Engine
