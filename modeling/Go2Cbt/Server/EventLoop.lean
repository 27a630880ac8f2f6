import Go2Cbt.Lib.Descriptors
import Go2Cbt.Lib.Transition
import Go2Cbt.Server.Interest

/-!
# Server — the event loop and its descriptors

`Start`, the loop of `Run` with `HandleAccept`, and `Stop`.  `epoll_wait` reports several
descriptors at once, and the loop gets to them one after the other, while connections are closed and
accepted and the kernel gives a closed descriptor out again.  Still every event reaches the
connection it was reported for, and the lookup in `conns_` never fails; nothing is closed twice; and
`Stop` leaves nothing open that the server opened, unless `Start` had failed (`loop_descriptors`).

`Stop` is called from a signal handler.  Here the signal comes while the loop waits, or between two
of the events that it works through.  `stop_inside_handler` is about signals that come in the middle
of `CloseConn` or of `HandleAccept`: those are not safe.
-/

namespace Go2Cbt.Server

open Go2Cbt.Protocol

/-- What the calls of `Start` give: whether the address is one, the sockets, and whether `bind` and
`listen` succeed. -/
structure StartOutcome where
  address : Bool
  socket : Option Nat
  bound : Bool
  listening : Bool
  epoll : Option Nat

/-- An event of `epoll_wait`: if its descriptor is the listening socket, what `accept4` gives until
it would block. -/
structure Reported where
  fd : Nat
  ready : Ready
  accepts : List Nat

/-- The server with the descriptors of its process.  `fds` are the keys of `conns_`, and `pending`
the events that the loop has not got to.  `serial` numbers the connections in the order they were
accepted; `reported` is what it was when `epoll_wait` returned. -/
structure Loop where
  listenFd : Option Nat
  epollFd : Option Nat
  started : Bool
  running : Bool
  reactor : Reactor
  fds : List Nat
  pending : List Reported
  table : Descriptors
  accepted : Nat
  serial : Nat → Nat
  reported : Nat → Nat

namespace Loop

/-- The server before `Start`. -/
def fresh (files : Files) (table : Descriptors) : Loop :=
  { listenFd := none
    epollFd := none
    started := false
    running := false
    reactor := .start files
    fds := []
    pending := []
    table
    accepted := 0
    serial := fun _ => 0
    reported := fun _ => 0 }

/-- `SetupListenSocket`. -/
def setupListenSocket (o : StartOutcome) (s : Loop) : Bool × Loop :=
  if o.address = false then (false, s)
  else
    match o.socket with
    | none => (false, { s with listenFd := none })
    | some fd =>
        let opened := { s with listenFd := some fd, table := s.table.opened fd }
        if o.bound = false then (false, opened)
        else if o.listening = false then (false, opened)
        else (true, opened)

/-- `Start`. -/
def start (o : StartOutcome) (s : Loop) : Bool × Loop :=
  let set := setupListenSocket o s
  if set.1 = false then (false, set.2)
  else
    match o.epoll with
    | none => (false, { set.2 with epollFd := none })
    | some fd =>
        (true, { set.2 with epollFd := some fd, table := set.2.table.opened fd, running := true })

/-- The body of the loop of `HandleAccept`. -/
def acceptConn (libs : Libs) (fd : Nat) (s : Loop) : Loop :=
  { s with
    reactor := s.reactor.wake libs (.accepted fd)
    fds := s.fds ++ [fd]
    table := s.table.opened fd
    accepted := s.accepted + 1
    serial := Function.update s.serial fd (s.accepted + 1) }

/-- `HandleAccept`. -/
def handleAccept (libs : Libs) (accepts : List Nat) (s : Loop) : Loop :=
  accepts.foldl (fun s fd => acceptConn libs fd s) s

/-- The body of the loop over the events.  A connection that is closed is out of `conns_`. -/
def handleReported (libs : Libs) (e : Reported) (s : Loop) : Loop :=
  if s.listenFd = some e.fd then handleAccept libs e.accepts s
  else
    match s.reactor.conns e.fd with
    | none => s
    | some _ =>
        let handled := { s with reactor := s.reactor.wake libs (.ready e.fd e.ready) }
        match handled.reactor.conns e.fd with
        | some _ => handled
        | none => { handled with fds := s.fds.erase e.fd, table := s.table.closed e.fd }

/-- `Stop`. -/
def stop (s : Loop) : Loop :=
  if s.running = false then s
  else
    { s with
      running := false
      reactor := { s.reactor with conns := fun _ => none }
      fds := []
      listenFd := none
      epollFd := none
      table := (s.fds ++ (s.listenFd.toList ++ s.epollFd.toList)).foldl (fun t fd => t.closed fd)
        s.table }

/-- A descriptor that epoll watches. -/
def Watches (s : Loop) (fd : Nat) : Prop :=
  s.listenFd = some fd ∨ ∃ w, s.reactor.conns fd = some w ∧ w.registered.isSome

end Loop

/-- What happens to the server. -/
inductive LoopAction where
  | start (o : StartOutcome)
  | wait (events : List Reported)
  | dispatch
  | stop

/-- One step: the kernel gives out descriptors that are not open, and reports each watched
descriptor at most once.  A signal can come before each event. -/
inductive LoopStep (libs : Libs) : Loop → LoopAction → Loop → Prop where
  | start {s : Loop} {o : StartOutcome} (h : s.started = false)
      (hsocket : ∀ fd, o.socket = some fd → s.table.isOpen fd = false)
      (hepoll : ∀ fd, o.epoll = some fd → (s.setupListenSocket o).2.table.isOpen fd = false) :
      LoopStep libs s (.start o) { (s.start o).2 with started := true }
  | wait {s : Loop} {events : List Reported} (h : s.running = true) (hidle : s.pending = [])
      (hnodup : (events.map Reported.fd).Nodup) (hwatched : ∀ e ∈ events, s.Watches e.fd) :
      LoopStep libs s (.wait events) { s with pending := events, reported := s.serial }
  | dispatch {s : Loop} {e : Reported} {rest : List Reported} (h : s.pending = e :: rest)
      (hnodup : e.accepts.Nodup) (hfresh : ∀ fd ∈ e.accepts, s.table.isOpen fd = false) :
      LoopStep libs s .dispatch (({ s with pending := rest } : Loop).handleReported libs e)
  | stop {s : Loop} : LoopStep libs s .stop s.stop

namespace Loop

/-! ### What the server owns -/

/-- The descriptors that the server has opened and not closed. -/
def owned (s : Loop) : List Nat := s.fds ++ (s.listenFd.toList ++ s.epollFd.toList)

/-- The event is of the listening socket, or of the connection that it was reported for. -/
def Current (s : Loop) (e : Reported) : Prop :=
  s.listenFd = some e.fd ∨ e.fd ∈ s.fds ∧ s.serial e.fd = s.reported e.fd

/-- What the server owns is open, besides the descriptors of `base`, and every event that is left
while it runs is of a connection that is still there. -/
structure Owns (base : Set Nat) (s : Loop) : Prop where
  table : s.table.Holds (base ∪ { fd | fd ∈ s.owned })
  nodup : s.owned.Nodup
  apart : ∀ fd ∈ s.owned, fd ∉ base
  conns : ∀ fd, (s.reactor.conns fd).isSome ↔ fd ∈ s.fds
  current : s.running = true → ∀ e ∈ s.pending, s.Current e
  pendingNodup : (s.pending.map Reported.fd).Nodup
  fresh : s.started = false → s.owned = [] ∧ s.running = false ∧ s.pending = []
  idle : s.running = false → s.fds = [] ∧ s.epollFd = none
  stopped : s.running = false → s.pending ≠ [] → s.listenFd = none
  listens : s.running = true → s.listenFd ≠ none

section Owns

variable {base : Set Nat} {s : Loop} {libs : Libs}

theorem owns_fresh {table : Descriptors} (h : table.Holds base) (files : Files) :
    (fresh files table).Owns base where
  table := h.congr fun _ => or_iff_left List.not_mem_nil
  nodup := .nil
  apart _ hfd := absurd hfd List.not_mem_nil
  conns _ := iff_of_false Bool.false_ne_true List.not_mem_nil
  current _ _ he := absurd he List.not_mem_nil
  pendingNodup := .nil
  fresh _ := ⟨rfl, rfl, rfl⟩
  idle _ := ⟨rfl, rfl⟩
  stopped _ hpending := absurd rfl hpending
  listens h := Bool.noConfusion h

theorem Owns.congr (h : s.Owns base) {base' : Set Nat} (hbase : ∀ fd, fd ∈ base' ↔ fd ∈ base) :
    s.Owns base' :=
  Set.ext hbase ▸ h

/-- A descriptor that the kernel gives out is nobody's. -/
theorem Owns.notMem (h : s.Owns base) {fd : Nat} (hfd : s.table.isOpen fd = false) :
    fd ∉ base ∧ fd ∉ s.owned :=
  not_or.mp (h.table.notMem_iff.mp hfd)

/-- **A connection is accepted.** -/
theorem Owns.acceptConn (h : s.Owns base) (hrunning : s.running = true)
    (hstarted : s.started = true) {fd : Nat} (hfd : s.table.isOpen fd = false) :
    (acceptConn libs fd s).Owns base := by
  obtain ⟨hbase, howned⟩ := h.notMem hfd
  have hfds : fd ∉ s.fds := fun hmem => howned (List.mem_append_left _ hmem)
  have hperm : (Loop.acceptConn libs fd s).owned.Perm (fd :: s.owned) := by
    rw [owned, owned, Loop.acceptConn]
    dsimp only
    rw [List.append_assoc, List.singleton_append]
    exact List.perm_middle
  refine
    { table := (h.table.opened fd).congr fun n => ?_
      nodup := hperm.nodup_iff.mpr (List.nodup_cons.mpr ⟨howned, h.nodup⟩)
      apart := fun n hn => ?_
      conns := fun n => ?_
      current := fun _ e he => ?_
      pendingNodup := h.pendingNodup
      fresh := fun hfresh => absurd (hstarted.symm.trans hfresh) Bool.noConfusion
      idle := fun hidle => absurd (hrunning.symm.trans hidle) Bool.noConfusion
      stopped := fun hidle => absurd (hrunning.symm.trans hidle) Bool.noConfusion
      listens := h.listens }
  · simp only [Set.mem_union, Set.mem_ofPred_eq, hperm.mem_iff, List.mem_cons, Set.mem_insert_iff]
    tauto
  · rcases List.mem_cons.mp (hperm.mem_iff.mp hn) with rfl | hn
    · exact hbase
    · exact h.apart n hn
  · rw [Loop.acceptConn, Reactor.wake]
    dsimp only
    rw [List.mem_append, List.mem_singleton]
    by_cases hn : n = fd
    · subst hn
      rw [Function.update_self]
      exact iff_of_true rfl (.inr rfl)
    · rw [Function.update_of_ne hn, h.conns]
      exact (or_iff_left hn).symm
  · -- the descriptor of an event that is left is still open, so that it is not given out
    rcases h.current hrunning e he with hlisten | ⟨hmem, hserial⟩
    · exact .inl hlisten
    · refine .inr ⟨List.mem_append_left _ hmem, ?_⟩
      rw [Loop.acceptConn]
      dsimp only
      rw [Function.update_of_ne, hserial]
      rintro rfl
      exact hfds hmem

theorem isOpen_acceptConn {fd n : Nat} (hne : n ≠ fd) :
    (acceptConn libs fd s).table.isOpen n = s.table.isOpen n :=
  Function.update_of_ne hne _ _

/-- `HandleAccept` keeps the books. -/
theorem Owns.handleAccept (h : s.Owns base) (hrunning : s.running = true)
    (hstarted : s.started = true) {accepts : List Nat} (hnodup : accepts.Nodup)
    (hfresh : ∀ fd ∈ accepts, s.table.isOpen fd = false) :
    (handleAccept libs accepts s).Owns base := by
  induction accepts generalizing s with
  | nil => exact h
  | cons fd accepts ih =>
      obtain ⟨hfd, hnodup⟩ := List.nodup_cons.mp hnodup
      refine ih (h.acceptConn hrunning hstarted (hfresh fd List.mem_cons_self)) hrunning hstarted
        hnodup fun n hn => ?_
      have hne : n ≠ fd := fun heq => hfd (heq ▸ hn)
      rw [isOpen_acceptConn hne]
      exact hfresh n (List.mem_cons_of_mem _ hn)

/-- **A connection that an event has closed is gone**, with its descriptor. -/
theorem Owns.closeConn (h : s.Owns base) (hrunning : s.running = true)
    (hstarted : s.started = true) {fd : Nat} (hfd : fd ∈ s.fds)
    (hdone : ∀ e ∈ s.pending, e.fd ≠ fd) {reactor : Reactor}
    (hconns : ∀ n, reactor.conns n = if n = fd then none else s.reactor.conns n) :
    Owns base { s with reactor, fds := s.fds.erase fd, table := s.table.closed fd } := by
  have hmem : fd ∈ s.owned := List.mem_append_left _ hfd
  have howned : ({ s with reactor, fds := s.fds.erase fd, table := s.table.closed fd } :
      Loop).owned = s.owned.erase fd := by
    rw [owned, owned]
    dsimp only
    rw [List.erase_append_left _ hfd]
  have hfds : s.fds.Nodup := h.nodup.sublist (List.sublist_append_left _ _)
  refine
    { table := (h.table.closed (.inr hmem)).congr fun n => ?_
      nodup := howned ▸ h.nodup.erase fd
      apart := fun n hn => h.apart n (List.mem_of_mem_erase (howned ▸ hn))
      conns := fun n => ?_
      current := fun _ e he => ?_
      pendingNodup := h.pendingNodup
      fresh := fun hfresh => absurd (hstarted.symm.trans hfresh) Bool.noConfusion
      idle := fun hidle => absurd (hrunning.symm.trans hidle) Bool.noConfusion
      stopped := fun hidle => absurd (hrunning.symm.trans hidle) Bool.noConfusion
      listens := h.listens }
  · have hapart := h.apart fd hmem
    rw [Set.mem_union, Set.mem_ofPred_eq, howned, h.nodup.mem_erase_iff]
    simp only [Set.mem_sdiff, Set.mem_union, Set.mem_ofPred_eq, Set.mem_singleton_iff]
    constructor
    · rintro (hbase | ⟨hne, hn⟩)
      · exact ⟨.inl hbase, fun heq => hapart (heq ▸ hbase)⟩
      · exact ⟨.inr hn, hne⟩
    · rintro ⟨hbase | hn, hne⟩
      · exact .inl hbase
      · exact .inr ⟨hne, hn⟩
  · dsimp only
    rw [hconns, hfds.mem_erase_iff]
    split
    · next heq => exact iff_of_false Bool.false_ne_true fun hn => hn.1 heq
    · next hne => exact (h.conns n).trans (and_iff_right hne).symm
  · refine (h.current hrunning e he).imp_right fun hcurrent => ?_
    exact ⟨(List.mem_erase_of_ne (hdone e he)).mpr hcurrent.1, hcurrent.2⟩

/-- **The loop gets to an event** that is left when the server has been stopped: there is no such
descriptor any more. -/
theorem Owns.dispatch_stopped (h : s.Owns base) (hrunning : s.running = false) {e : Reported}
    {rest : List Reported} (hpending : s.pending = e :: rest) :
    (({ s with pending := rest } : Loop).handleReported libs e).Owns base := by
  have hlisten : s.listenFd = none := h.stopped hrunning (hpending ▸ List.cons_ne_nil e rest)
  have hconn : s.reactor.conns e.fd = none := by
    have hnot : e.fd ∉ s.fds := (h.idle hrunning).1 ▸ List.not_mem_nil
    simpa using mt (h.conns e.fd).mp hnot
  have hnodup := h.pendingNodup
  rw [hpending, List.map_cons] at hnodup
  have hnothing : ({ s with pending := rest } : Loop).handleReported libs e
      = { s with pending := rest } := by
    rw [handleReported]
    dsimp only
    rw [hlisten, if_neg (Option.some_ne_none e.fd).symm, hconn]
  rw [hnothing]
  exact
    { h with
      current := fun hrun => absurd (hrunning.symm.trans hrun) Bool.noConfusion
      pendingNodup := (List.nodup_cons.mp hnodup).2
      fresh := fun hfresh => by
        obtain ⟨-, -, hnone⟩ := h.fresh hfresh
        rw [hnone] at hpending
        cases hpending
      stopped := fun _ _ => hlisten }

/-- **The loop gets to an event** while the server runs. -/
theorem Owns.dispatch_running (h : s.Owns base) (hrunning : s.running = true) {e : Reported}
    {rest : List Reported} (hpending : s.pending = e :: rest) (hnodup : e.accepts.Nodup)
    (hfresh : ∀ fd ∈ e.accepts, s.table.isOpen fd = false) :
    (({ s with pending := rest } : Loop).handleReported libs e).Owns base := by
  have hstarted : s.started = true := by
    cases hstart : s.started with
    | true => rfl
    | false => exact absurd (hrunning.symm.trans (h.fresh hstart).2.1) Bool.noConfusion
  have hpendingNodup := h.pendingNodup
  rw [hpending, List.map_cons] at hpendingNodup
  obtain ⟨hhead, htail⟩ := List.nodup_cons.mp hpendingNodup
  have hdone : ∀ e' ∈ rest, e'.fd ≠ e.fd := fun e' he' heq =>
    hhead (heq ▸ List.mem_map_of_mem he')
  have hrest : ({ s with pending := rest } : Loop).Owns base :=
    { h with
      current := fun hrun e' he' => h.current hrun e' (hpending ▸ List.mem_cons_of_mem _ he')
      pendingNodup := htail
      fresh := fun hfresh => absurd (hstarted.symm.trans hfresh) Bool.noConfusion
      stopped := fun hidle => absurd (hrunning.symm.trans hidle) Bool.noConfusion }
  rw [handleReported]
  by_cases hlisten : s.listenFd = some e.fd
  · rw [if_pos hlisten]
    exact hrest.handleAccept hrunning hstarted hnodup hfresh
  · rw [if_neg hlisten]
    dsimp only
    cases hconn : s.reactor.conns e.fd with
    | none => exact hrest
    | some w =>
        have hfd : e.fd ∈ s.fds := (h.conns e.fd).mp (by rw [hconn]; rfl)
        have hwake : ∃ slot, (s.reactor.wake libs (.ready e.fd e.ready)).conns
            = Function.update s.reactor.conns e.fd slot := by
          rw [Reactor.wake, hconn]
          exact ⟨_, rfl⟩
        obtain ⟨slot, hslot⟩ := hwake
        dsimp only
        rw [hslot, Function.update_self]
        cases slot with
        | none =>
            refine hrest.closeConn hrunning hstarted hfd hdone fun n => ?_
            rw [hslot, Function.update_apply]
        | some w' =>
            refine { hrest with conns := fun n => ?_ }
            dsimp only
            rw [hslot]
            by_cases hn : n = e.fd
            · subst hn
              rw [Function.update_self]
              exact iff_of_true rfl hfd
            · rw [Function.update_of_ne hn]
              exact h.conns n

theorem Owns.wait (h : s.Owns base) (hrunning : s.running = true) {events : List Reported}
    (hnodup : (events.map Reported.fd).Nodup) (hwatched : ∀ e ∈ events, s.Watches e.fd) :
    Owns base { s with pending := events, reported := s.serial } :=
  { h with
    current := fun _ e he => (hwatched e he).imp_right fun ⟨w, hw, _⟩ =>
      ⟨(h.conns e.fd).mp (by rw [hw]; rfl), rfl⟩
    pendingNodup := hnodup
    fresh := fun hfresh => absurd (hrunning.symm.trans (h.fresh hfresh).2.1) Bool.noConfusion
    stopped := fun hidle => absurd (hrunning.symm.trans hidle) Bool.noConfusion }

theorem running_stop (s : Loop) : s.stop.running = false := by
  rw [Loop.stop]
  split
  · assumption
  · rfl

/-- **`Stop` closes what the server owns.** -/
theorem Owns.stop_table (h : s.Owns base) (hrunning : s.running = true) :
    s.stop.table.Holds base := by
  rw [Loop.stop, if_neg (by rw [hrunning]; exact Bool.noConfusion)]
  refine (h.table.foldl_closed h.nodup fun fd hfd => .inr hfd).congr fun fd => ?_
  constructor
  · exact fun hbase => ⟨.inl hbase, fun hmem => h.apart fd hmem hbase⟩
  · rintro ⟨hbase | hmem, hnot⟩
    · exact hbase
    · exact absurd hmem hnot

/-- So that it owns nothing then, whatever events are left. -/
theorem Owns.stop (h : s.Owns base) : s.stop.Owns base := by
  cases hrunning : s.running with
  | false =>
      rw [Loop.stop, if_pos hrunning]
      exact h
  | true =>
      have htable := h.stop_table hrunning
      rw [Loop.stop, if_neg (by rw [hrunning]; exact Bool.noConfusion)] at htable ⊢
      exact
        { table := htable.congr fun fd => or_iff_left List.not_mem_nil
          nodup := .nil
          apart := fun fd hfd => absurd hfd List.not_mem_nil
          conns := fun fd => iff_of_false Bool.false_ne_true List.not_mem_nil
          current := fun hrun => Bool.noConfusion hrun
          pendingNodup := h.pendingNodup
          fresh := fun hfresh => ⟨rfl, rfl, (h.fresh hfresh).2.2⟩
          idle := fun _ => ⟨rfl, rfl⟩
          stopped := fun _ _ => rfl
          listens := fun hrun => Bool.noConfusion hrun }

/-- A server that has only these sockets. -/
theorem Owns.sockets (h : s.Owns base) (hfresh : s.started = false)
    (listenFd epollFd : Option Nat) (running : Bool) {table : Descriptors}
    (htable : table.Holds (base ∪ { fd | fd ∈ listenFd.toList ++ epollFd.toList }))
    (hnodup : (listenFd.toList ++ epollFd.toList).Nodup)
    (hapart : ∀ fd ∈ listenFd.toList ++ epollFd.toList, fd ∉ base)
    (hidle : running = false → epollFd = none) (hlistens : running = true → listenFd ≠ none) :
    Owns base { s with listenFd, epollFd, running, table, started := true } := by
  obtain ⟨-, hrunning, hpending⟩ := h.fresh hfresh
  obtain ⟨hfds, -⟩ := h.idle hrunning
  have howns : ({ s with listenFd, epollFd, running, table, started := true } : Loop).owned
      = listenFd.toList ++ epollFd.toList := by
    rw [owned]
    dsimp only
    rw [hfds, List.nil_append]
  exact
    { table := howns ▸ htable
      nodup := howns ▸ hnodup
      apart := fun fd hfd => hapart fd (howns ▸ hfd)
      conns := h.conns
      current := fun _ e he => absurd (hpending ▸ he) List.not_mem_nil
      pendingNodup := h.pendingNodup
      fresh := fun hstarted => Bool.noConfusion hstarted
      idle := fun hrun => ⟨hfds, hidle hrun⟩
      stopped := fun _ hne => absurd hpending hne
      listens := hlistens }

/-- **`Start`, whichever of its calls fail.** -/
theorem Owns.start (h : s.Owns base) (hfresh : s.started = false) {o : StartOutcome}
    (hsocket : ∀ fd, o.socket = some fd → s.table.isOpen fd = false)
    (hepoll : ∀ fd, o.epoll = some fd → (s.setupListenSocket o).2.table.isOpen fd = false) :
    Owns base { (s.start o).2 with started := true } := by
  obtain ⟨howned, hrunning, -⟩ := h.fresh hfresh
  obtain ⟨hnone, hlisten, hepollFd⟩ : s.fds = [] ∧ s.listenFd = none ∧ s.epollFd = none := by
    obtain ⟨hfds, hsockets⟩ := List.append_eq_nil_iff.mp howned
    obtain ⟨hlisten, hepollFd⟩ := List.append_eq_nil_iff.mp hsockets
    exact ⟨hfds, Option.toList_eq_nil_iff.mp hlisten, Option.toList_eq_nil_iff.mp hepollFd⟩
  obtain ⟨listenFd, epollFd, started, running, reactor, fds, pending, table, accepted, serial,
    reported⟩ := s
  obtain ⟨address, socket, bound, listening, epoll⟩ := o
  dsimp only at hfresh hnone hlisten hepollFd hrunning hsocket
  subst hfresh hnone hlisten hepollFd hrunning
  -- the sockets that are opened, one after the other
  have hnothing := h.sockets rfl none none false
    (h.table.congr fun _ => Iff.rfl) .nil (fun fd hfd => absurd hfd List.not_mem_nil)
    (fun _ => rfl) (fun hrun => Bool.noConfusion hrun)
  have hlistening : ∀ fd, socket = some fd → _ := fun fd hfd =>
    h.sockets rfl (some fd) none false
      ((h.table.opened fd).congr fun n => by simp [owned, or_comm])
      (List.nodup_singleton fd)
      (fun n hn => (List.mem_singleton.mp hn) ▸ (h.notMem (hsocket fd hfd)).1)
      (fun _ => rfl) (fun hrun => Bool.noConfusion hrun)
  cases address with
  | false => exact hnothing
  | true =>
      cases socket with
      | none => exact hnothing
      | some fd =>
          cases bound with
          | false => exact hlistening fd rfl
          | true =>
              cases listening with
              | false => exact hlistening fd rfl
              | true =>
                  cases epoll with
                  | none => exact hlistening fd rfl
                  | some epollFd =>
                      have hclosed : (table.opened fd).isOpen epollFd = false := hepoll epollFd rfl
                      have htable := h.table.opened fd
                      have hnot := htable.notMem_iff.mp hclosed
                      refine h.sockets rfl (some fd) (some epollFd) true
                        ((htable.opened epollFd).congr fun n => ?_) ?_ ?_
                        (fun hrun => Bool.noConfusion hrun) (fun _ => nofun)
                      · simp [owned]
                        tauto
                      · simp only [Set.mem_insert_iff, not_or] at hnot
                        simpa using fun heq => hnot.1 heq.symm
                      · intro n hn
                        rcases List.mem_cons.mp hn with rfl | hn
                        · exact (h.notMem (hsocket n rfl)).1
                        · rw [List.mem_singleton.mp hn]
                          exact fun hbase => hnot (.inr (.inl hbase))

/-- **Every step keeps the books.** -/
theorem Owns.step {a : LoopAction} {t : Loop} (h : s.Owns base) (hst : LoopStep libs s a t) :
    t.Owns base := by
  cases hst with
  | start hfresh hsocket hepoll => exact h.start hfresh hsocket hepoll
  | wait hrunning _ hnodup hwatched => exact h.wait hrunning hnodup hwatched
  | dispatch hpending hnodup hfresh =>
      by_cases hrunning : s.running = true
      · exact h.dispatch_running hrunning hpending hnodup hfresh
      · exact h.dispatch_stopped (Bool.not_eq_true _ ▸ hrunning) hpending
  | stop => exact h.stop

end Owns

end Loop

/-- **The descriptors of the server**, in every run: however many connections come and go while the
loop works through what `epoll_wait` has reported, and whether or not it is stopped on the way, the
open descriptors are those from before and those the server has in its fields and in `conns_`; none
is closed that is not open; the event that is next is of the listening socket, or its connection is
in `conns_` and is the one that it was reported for, and after `Stop` it is of neither.  `Stop`
gives back everything exactly if the server runs or has no listening socket. -/
theorem loop_descriptors (libs : Libs) (files : Files) {base : Set Nat} {table : Descriptors}
    (htable : table.Holds base) {s : Loop}
    (h : Transition.Reachable (LoopStep libs) (· = .fresh files table) s) :
    (∀ fd, s.table.isOpen fd = true ↔ fd ∈ base ∨ s.listenFd = some fd ∨ s.epollFd = some fd ∨
      (s.reactor.conns fd).isSome) ∧
    s.table.badCloses = [] ∧
    (∀ e rest, s.pending = e :: rest →
      if s.running then s.listenFd = some e.fd ∨
        (s.reactor.conns e.fd).isSome ∧ s.serial e.fd = s.reported e.fd
      else s.listenFd = none ∧ s.reactor.conns e.fd = none) ∧
    (s.stop.table.Holds base ↔ s.running = true ∨ s.listenFd = none) := by
  have howns : s.Owns base :=
    h.invariant (by rintro s rfl; exact Loop.owns_fresh htable files) fun _ _ _ hs hst =>
      hs.step hst
  refine ⟨fun fd => ?_, howns.table.badCloses_eq, fun e rest hpending => ?_, ?_⟩
  · rw [howns.table.isOpen_iff, howns.conns, Loop.owned]
    simp only [Set.mem_union, Set.mem_ofPred_eq, List.mem_append, Option.mem_toList]
    tauto
  · split
    · next hrunning =>
      exact (howns.current hrunning e (hpending ▸ List.mem_cons_self)).imp_right fun hcurrent =>
        ⟨(howns.conns e.fd).mpr hcurrent.1, hcurrent.2⟩
    · next hrunning =>
      rw [Bool.not_eq_true] at hrunning
      refine ⟨howns.stopped hrunning (hpending ▸ List.cons_ne_nil e rest), ?_⟩
      have hnot : e.fd ∉ s.fds := (howns.idle hrunning).1 ▸ List.not_mem_nil
      simpa using mt (howns.conns e.fd).mp hnot
  · cases hrunning : s.running with
    | true => exact iff_of_true (howns.stop_table hrunning) (.inl rfl)
    | false =>
        obtain ⟨hfds, hepoll⟩ := howns.idle hrunning
        rw [Loop.stop, if_pos hrunning]
        cases hlisten : s.listenFd with
        | none =>
            refine iff_of_true (howns.table.congr fun fd => ?_) (.inr rfl)
            rw [Loop.owned, hfds, hlisten, hepoll]
            exact (or_iff_left List.not_mem_nil).symm
        | some fd =>
            -- the listening socket of a failed start stays open
            have hmem : fd ∈ s.owned := by
              rw [Loop.owned, hfds, hlisten, hepoll]
              exact List.mem_cons_self
            refine iff_of_false (fun hholds => ?_) ?_
            · have hopen := (howns.table.isOpen_iff fd).mpr (.inr hmem)
              exact howns.apart fd hmem ((hholds.isOpen_iff fd).mp hopen)
            · rintro (hrun | hnone)
              · exact Bool.noConfusion hrun
              · cases hnone

/-- **A signal in the middle of a handler.**  Between `close` and `erase` in `CloseConn`, `Stop`
closes the descriptor a second time.  Between `accept4` and the entry in `conns_`, it does not see
the descriptor, and neither does the `Stop` of the destructor. -/
theorem stop_inside_handler (libs : Libs) {base : Set Nat} {s : Loop} (h : s.Owns base)
    (hrunning : s.running = true) :
    (∀ fd ∈ s.fds, fd ∈ ({ s with table := s.table.closed fd } : Loop).stop.table.badCloses) ∧
    ∀ fd, s.table.isOpen fd = false →
      let stopped := ({ s with table := s.table.opened fd } : Loop).stop
      let entered : Loop :=
        { stopped with reactor := stopped.reactor.wake libs (.accepted fd), fds := [fd] }
      entered.stop.table.isOpen fd = true := by
  have hrun : ¬ s.running = false := by rw [hrunning]; exact Bool.noConfusion
  constructor
  · intro fd hfd
    have hmem : fd ∈ s.owned := List.mem_append_left _ hfd
    have hclosed : (s.table.closed fd).isOpen fd = false :=
      (h.table.closed (.inr hmem)).notMem_iff.mpr fun hin => hin.2 rfl
    rw [Loop.stop, if_neg hrun]
    exact Descriptors.mem_badCloses_foldl hclosed hmem
  · intro fd hfd
    obtain ⟨-, howned⟩ := h.notMem hfd
    have hopen : (s.table.opened fd).isOpen fd = true := Function.update_self ..
    have hstopped : ({ s with table := s.table.opened fd } : Loop).stop.table.isOpen fd = true := by
      rw [Loop.stop, if_neg hrun]
      exact (Descriptors.isOpen_foldl_closed howned).trans hopen
    dsimp only
    rw [Loop.stop, if_pos (Loop.running_stop _)]
    exact hstopped

/-- A process with its three standard descriptors. -/
def standardDescriptors : Descriptors := { isOpen := fun fd => fd < 3, badCloses := [] }

theorem standardDescriptors_holds : standardDescriptors.Holds { fd | fd < 3 } where
  isOpen_iff fd := by simp [standardDescriptors]
  badCloses_eq := rfl

/-- `bind` fails. -/
def bindFails : StartOutcome :=
  { address := true, socket := some 3, bound := false, listening := true, epoll := some 4 }

/-- The socket stays open. -/
theorem loop_descriptors_bindFails :
    ¬ ({ ((Loop.fresh noFiles standardDescriptors).start bindFails).2 with started := true } :
      Loop).stop.table.Holds { fd | fd < 3 } := by
  have hreached : Transition.Reachable (LoopStep noDisks) (· = .fresh noFiles standardDescriptors)
      { ((Loop.fresh noFiles standardDescriptors).start bindFails).2 with started := true } := by
    refine ⟨_, [.start bindFails], rfl, .cons (.start rfl ?_ ?_) (.nil _)⟩
    · rintro fd hfd
      cases hfd
      rfl
    · rintro fd hfd
      cases hfd
      rfl
  obtain ⟨-, -, -, hstop⟩ := loop_descriptors noDisks noFiles standardDescriptors_holds hreached
  rw [hstop]
  rintro (hrun | hnone)
  · cases hrun
  · cases hnone

end Go2Cbt.Server
