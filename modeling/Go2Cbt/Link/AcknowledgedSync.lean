import Go2Cbt.Engine.Synchronous
import Go2Cbt.Link.Acknowledged

/-!
# Link — what is acknowledged is written: the synchronous transfer

The client sends a block when everything before it has been answered, so that at most one message
or one answer is on its way.  A block that was acknowledged stays in its place as long as the client
sends none for the same place (`kept_step`), and it does not if the pending blocks have different
places (`apart_step`).
-/

namespace Go2Cbt.Link

open Go2Cbt.Protocol Go2Cbt.Client Go2Cbt.Engine Go2Cbt.Server

/-- The places of the block at hand and of those to come. -/
def places : SyncPoint → List Nat
  | .block todo => todo.map fun b => placeOf b.blockIndex
  | .attempt message _ todo | .wait message _ todo =>
      placeOf (blockIndexOf message) :: todo.map fun b => placeOf b.blockIndex

/-- What a step sends is for another place than what was acknowledged before. -/
def SendsFresh (s t : Synchronous Peer) : Prop :=
  ∀ message, t.sent = s.sent ++ [message] →
    ∀ m ∈ s.acknowledged, placeOf (blockIndexOf message) ≠ placeOf (blockIndexOf m)

/-- A step that does not send for the place of an acknowledged block. -/
def FreshStep (job : SyncJob) (out : Outside Peer) (s : Synchronous Peer) (p : Party)
    (t : Synchronous Peer) : Prop :=
  SyncStep job out s p t ∧ SendsFresh s t

/-- What is on its way on a connection that is in use: one message or its answer while the client
waits, and nothing otherwise. -/
def Channel (libs : Libs) (s : Synchronous Peer) : Prop :=
  match s.point with
  | .wait m _ _ =>
      (s.outgoing = [m] ∧ s.incoming = []) ∨
        (s.outgoing = [] ∧ ∃ ack, IsAckFrame s.incoming ack ∧
          (ack.status = 0 → (blockIndexOf m).toNat < 2 ^ 44 →
            InPlace libs s.server.serving.files m))
  | _ => s.outgoing = [] ∧ s.incoming = []

/-- What the server has to do with the acknowledged blocks. -/
structure Kept (libs : Libs) (init : BlockStateManager) (s : Synchronous Peer) : Prop where
  greeted : s.server.Greeted
  blocks : ∀ m ∈ s.outgoing, IsBlock m
  ready : ∀ m retry todo, s.point = .attempt m retry todo → IsBlock m
  fresh : ∀ m ∈ s.acknowledged, ∀ m' ∈ s.outgoing,
    placeOf (blockIndexOf m') ≠ placeOf (blockIndexOf m)
  inPlace : ∀ m ∈ s.acknowledged, (blockIndexOf m).toNat < 2 ^ 44 →
    InPlace libs s.server.serving.files m
  sent : ∀ m ∈ s.acknowledged, m ∈ s.sent
  channel : s.connected = true → Channel libs s
  waiting : ∀ m retry todo, s.point = .wait m retry todo →
    s.connected = true ∧ IsBlock m ∧ m ∈ s.sent
  recorded : ∀ (k : Nat) (bs : BlockState), s.manager.blocks[k]? = some bs →
    bs.ack = .acknowledged →
      (∃ bs₀, init.blocks[k]? = some bs₀ ∧ bs₀.ack = .acknowledged) ∨
        ∃ m ∈ s.acknowledged, (blockIndexOf m).toNat = k

section Kept

variable {libs : Libs} {init : BlockStateManager} {job : SyncJob} {out : Outside Peer}
  {s t : Synchronous Peer} {p : Party} {message : ClientMessage} {retry : Nat}
  {todo : List BlockState}

/-- The steps of the client that neither send nor record an acknowledgement. -/
theorem Kept.client (h : Kept libs init s) (hserver : t.server = s.server)
    (houtgoing : t.outgoing = s.outgoing) (hsent : t.sent = s.sent)
    (hacknowledged : t.acknowledged = s.acknowledged)
    (hready : ∀ m retry todo, t.point = .attempt m retry todo → IsBlock m)
    (hchannel : t.connected = true → Channel libs t)
    (hwaiting : ∀ m retry todo, t.point ≠ .wait m retry todo)
    (hmanager : ∀ (k : Nat) (bs : BlockState), t.manager.blocks[k]? = some bs →
      bs.ack = .acknowledged → s.manager.blocks[k]? = some bs) :
    Kept libs init t where
  greeted := hserver ▸ h.greeted
  blocks := houtgoing ▸ h.blocks
  ready := hready
  fresh := by
    rw [hacknowledged, houtgoing]
    exact h.fresh
  inPlace := by
    rw [hacknowledged, hserver]
    exact h.inPlace
  sent := by
    rw [hacknowledged, hsent]
    exact h.sent
  channel := hchannel
  waiting := fun m retry todo hw => absurd hw (hwaiting m retry todo)
  recorded := by
    rw [hacknowledged]
    exact fun k bs hbs hacked => h.recorded k bs (hmanager k bs hbs hacked) hacked

/-- Recording a failure acknowledges nothing. -/
theorem acknowledged_of_failed (m : BlockStateManager) (b : UInt64) {k : Nat} {bs : BlockState}
    (hbs : (m.setBlockAck b .failed).2.blocks[k]? = some bs) (hacked : bs.ack = .acknowledged) :
    m.blocks[k]? = some bs := by
  by_cases hk : b.toNat = k
  · subst hk
    rw [BlockStateManager.getElem?_setBlockAck_self] at hbs
    obtain ⟨old, -, rfl⟩ := Option.map_eq_some_iff.mp hbs
    cases hacked
  · rwa [BlockStateManager.getElem?_setBlockAck_ne _ _ hk] at hbs

/-- `SendBlock` returns false. -/
theorem Kept.fail (h : Kept libs init s) (hm : IsBlock message) (connected : Bool)
    (incoming : Bytes) (hchannel : connected = true → s.outgoing = [] ∧ incoming = []) :
    Kept libs init { s.fail message retry todo with connected, incoming } := by
  refine h.client rfl rfl rfl rfl ?_ hchannel (fun _ _ _ => SyncPoint.noConfusion)
    fun k bs hbs hacked => acknowledged_of_failed s.manager _ hbs hacked
  rintro m retry todo ⟨⟩
  exact hm

/-- **What the client can read while it waits**: the answer to its block, and then nothing is on
its way. -/
theorem Kept.read (h : Kept libs init s) (hp : s.point = .wait message retry todo) :
    readAck s.incoming ≠ .bad ∧ ∀ ack, readAck s.incoming = .ack ack →
      s.outgoing = [] ∧ s.incoming.drop (headerSize + ackBodySize) = [] ∧
        (ack.status = 0 → (blockIndexOf message).toNat < 2 ^ 44 →
          InPlace libs s.server.serving.files message) := by
  have hchannel := h.channel (h.waiting message retry todo hp).1
  rw [Channel, hp] at hchannel
  rcases hchannel with ⟨-, hempty⟩ | ⟨houtgoing, ack, hframe, hplace⟩
  · have hmore : readAck s.incoming = .more := by rw [hempty]; rfl
    rw [hmore]
    exact ⟨AckRead.noConfusion, fun _ hack => AckRead.noConfusion hack⟩
  · have hread := readAck_frame hframe []
    rw [List.append_nil] at hread
    rw [hread]
    refine ⟨AckRead.noConfusion, fun ack' hack' => ⟨houtgoing, ?_, ?_⟩⟩
    · exact List.drop_of_length_le hframe.length_eq.le
    · cases hack'
      exact hplace

/-- **Every step that sends for no place of an acknowledged block keeps those in their places**,
whoever takes it. -/
theorem kept_step (hserve : out.serve = takes libs) (h : Kept libs init s)
    (hst : FreshStep job out s p t) : Kept libs init t := by
  have hchannel := h.channel
  rw [Channel] at hchannel
  obtain ⟨hst, hsends⟩ := hst
  cases hst with
  | readFails hp _ | compressFails hp _ _ | exhausted hp _ =>
      rw [hp] at hchannel
      exact h.client rfl rfl rfl rfl (fun _ _ _ hq => SyncPoint.noConfusion hq) hchannel
        (fun _ _ _ => SyncPoint.noConfusion) fun _ _ hbs _ => hbs
  | compress hp _ _ =>
      rw [hp] at hchannel
      refine h.client rfl rfl rfl rfl ?_ hchannel (fun _ _ _ => SyncPoint.noConfusion)
        fun _ _ hbs _ => hbs
      rintro m retry todo ⟨⟩
      exact trivial
  | unconnected hp _ hlost =>
      exact h.fail (h.ready _ _ _ hp) s.connected s.incoming
        fun hconnected => absurd (hlost.symm.trans hconnected) Bool.noConfusion
  | sendFails hp _ _ _ =>
      exact h.fail (h.ready _ _ _ hp) false s.incoming Bool.noConfusion
  | receiveFails hp _ =>
      exact h.fail (h.waiting _ _ _ hp).2.1 false s.incoming Bool.noConfusion
  | receiveBad hp hread => exact absurd hread (h.read hp).1
  | refused hp hread _ =>
      obtain ⟨houtgoing, hempty, -⟩ := (h.read hp).2 _ hread
      exact h.fail (h.waiting _ _ _ hp).2.1 s.connected _ fun _ => ⟨houtgoing, hempty⟩
  | @send m retry todo hp _ hconnected _ =>
      rw [hp] at hchannel
      obtain ⟨houtgoing, hincoming⟩ := hchannel hconnected
      have hm := h.ready _ _ _ hp
      -- one block is on its way at a time
      rw [houtgoing, List.nil_append] at hsends ⊢
      exact
        { greeted := h.greeted
          blocks := fun m' hm' => List.mem_singleton.mp hm' ▸ hm
          ready := fun _ _ _ hq => SyncPoint.noConfusion hq
          fresh := fun m' hm' m'' hm'' => List.mem_singleton.mp hm'' ▸ hsends m rfl m' hm'
          inPlace := h.inPlace
          sent := fun m' hm' => List.mem_append_left _ (h.sent m' hm')
          channel := fun _ => .inl ⟨rfl, hincoming⟩
          waiting := fun m' _ _ hq => by
            cases hq
            exact ⟨hconnected, hm, List.mem_append_right _ (List.mem_singleton_self _)⟩
          recorded := h.recorded }
  | @accepted m retry todo ack hp hread hstatus =>
      -- the answer says where the block is, and it joins those acknowledged
      obtain ⟨houtgoing, hempty, hplace⟩ := (h.read hp).2 _ hread
      refine
        { greeted := h.greeted
          blocks := h.blocks
          ready := fun _ _ _ hq => SyncPoint.noConfusion hq
          fresh := fun m' _ m'' hm'' => absurd (houtgoing ▸ hm'') List.not_mem_nil
          inPlace := fun m' hm' hlt => ?_
          sent := fun m' hm' => ?_
          channel := fun _ => ⟨houtgoing, hempty⟩
          waiting := fun _ _ _ hq => SyncPoint.noConfusion hq
          recorded := fun k bs hbs hacked => ?_ }
      · rcases List.mem_append.mp hm' with hm' | hm'
        · exact h.inPlace m' hm' hlt
        · obtain rfl := List.mem_singleton.mp hm'
          exact hplace hstatus hlt
      · rcases List.mem_append.mp hm' with hm' | hm'
        · exact h.sent m' hm'
        · rw [List.mem_singleton.mp hm']
          exact (h.waiting _ _ _ hp).2.2
      · by_cases hk : (blockIndexOf m).toNat = k
        · exact .inr ⟨m, List.mem_append_right _ (List.mem_singleton_self m), hk⟩
        · rw [BlockStateManager.getElem?_setBlockAck_ne _ _ hk] at hbs
          refine (h.recorded k bs hbs hacked).imp_right ?_
          rintro ⟨m', hm', hnumber⟩
          exact ⟨m', List.mem_append_left _ hm', hnumber⟩
  | serve hst =>
      rw [hserve] at hst
      obtain ⟨⟨-, m, hqueue, rfl, rfl⟩, hsend⟩ := hst
      have hsendable := hsend m (hqueue ▸ rfl)
      have hm := h.blocks m (hqueue ▸ List.mem_cons_self)
      obtain ⟨hgreeted, ack, hanswer, -, hplace⟩ := answer_block libs h.greeted hm hsendable
      refine
        { greeted := hgreeted
          blocks := fun m' hm' => h.blocks m' (hqueue ▸ List.mem_cons_of_mem m hm')
          ready := h.ready
          fresh := fun m' hm' m'' hm'' =>
            h.fresh m' hm' m'' (hqueue ▸ List.mem_cons_of_mem m hm'')
          inPlace := fun m' hm' hlt => ?_
          sent := h.sent
          channel := fun hconnected => ?_
          waiting := h.waiting
          recorded := h.recorded }
      · -- a block with another number leaves those before it in place
        have hne := h.fresh m' hm' m (hqueue ▸ List.mem_cons_self)
        rw [placeOf, placeOf, Nat.mod_eq_of_lt hlt] at hne
        exact (h.inPlace m' hm' hlt).handle hlt h.greeted hm hsendable hne
      · -- only a client that waits has a block on its way
        have hbefore := hchannel hconnected
        rw [Channel]
        cases hp : s.point with
        | block todo =>
            rw [hp, hqueue] at hbefore
            cases hbefore.1
        | attempt m' retry todo =>
            rw [hp, hqueue] at hbefore
            cases hbefore.1
        | wait m' retry todo =>
            rw [hp, hqueue] at hbefore
            rcases hbefore with ⟨hone, hempty⟩ | ⟨hnone, -⟩
            · obtain ⟨rfl, rfl⟩ := List.cons.inj hone
              rw [hempty, List.nil_append, hanswer]
              exact .inr ⟨rfl, ack, ⟨_, rfl, rfl, rfl⟩, hplace⟩
            · cases hnone

/-- **What is kept in every state that such steps reach.** -/
theorem kept_of_reached (hserve : out.serve = takes libs) {m : BlockStateManager} {server : Peer}
    (hserver : server.Greeted)
    (h : Transition.Reachable (FreshStep job out) (· = .start m server) s) : Kept libs m s := by
  refine Transition.Reachable.invariant (P := Kept libs m) ?_ ?_ h
  · rintro s rfl
    exact
      { greeted := hserver
        blocks := fun _ hm => absurd hm List.not_mem_nil
        ready := fun _ _ _ hq => SyncPoint.noConfusion hq
        fresh := fun _ hm => absurd hm List.not_mem_nil
        inPlace := fun _ hm => absurd hm List.not_mem_nil
        sent := fun _ hm => absurd hm List.not_mem_nil
        channel := fun _ => ⟨rfl, rfl⟩
        waiting := fun _ _ _ hq => SyncPoint.noConfusion hq
        recorded := fun k bs hbs hacked => .inl ⟨bs, hbs, hacked⟩ }
  · exact fun _ _ _ hs hst => kept_step hserve hs hst

end Kept

/-! ### Pending blocks with different places -/

/-- The blocks to come have different places, and none that of an acknowledged block. -/
structure Apart (s : Synchronous Peer) : Prop where
  nodup : (places s.point).Nodup
  fresh : ∀ m ∈ s.acknowledged, placeOf (blockIndexOf m) ∉ places s.point

section Apart

variable {job : SyncJob} {out : Outside Peer} {s t : Synchronous Peer} {p : Party}

/-- The steps that acknowledge nothing. -/
theorem Apart.mono (h : Apart s) (hacknowledged : t.acknowledged = s.acknowledged)
    (hplaces : (places t.point).Sublist (places s.point)) : Apart t where
  nodup := h.nodup.sublist hplaces
  fresh := by
    rw [hacknowledged]
    exact fun m hm hmem => h.fresh m hm (hplaces.subset hmem)

/-- A step that sends nothing sends for no place. -/
theorem sendsFresh_of_sent_eq (h : t.sent = s.sent) : SendsFresh s t := by
  intro message hsent
  have hlength := congrArg List.length hsent
  rw [h, List.length_append, List.length_singleton] at hlength
  omega

/-- **Every step keeps the places apart**, and sends for none of an acknowledged block. -/
theorem apart_step (h : Apart s) (hst : SyncStep job out s p t) : Apart t ∧ SendsFresh s t := by
  cases hst with
  | readFails hp _ | compressFails hp _ _ | exhausted hp _ =>
      refine ⟨h.mono rfl ?_, sendsFresh_of_sent_eq rfl⟩
      rw [hp]
      exact List.sublist_cons_self _ _
  | compress hp _ _ | unconnected hp _ _ | sendFails hp _ _ _ | receiveFails hp _
  | receiveBad hp _ | refused hp _ _ =>
      refine ⟨h.mono rfl ?_, sendsFresh_of_sent_eq rfl⟩
      rw [hp]
      exact List.Sublist.refl _
  | @send message retry todo hp _ _ _ =>
      have hfresh := h.fresh
      rw [hp] at hfresh
      refine ⟨h.mono rfl ?_, fun message' hsent m hm heq => ?_⟩
      · rw [hp]
        exact List.Sublist.refl _
      · obtain rfl := List.singleton_inj.mp (List.append_cancel_left hsent)
        exact hfresh m hm (heq ▸ List.mem_cons_self)
  | @accepted message retry todo ack hp _ _ =>
      have hnodup := h.nodup
      have hfresh := h.fresh
      rw [hp] at hnodup hfresh
      obtain ⟨hmessage, htodo⟩ := List.nodup_cons.mp hnodup
      refine ⟨⟨htodo, fun m hm => ?_⟩, sendsFresh_of_sent_eq rfl⟩
      rcases List.mem_append.mp hm with hm | hm
      · exact fun hmem => hfresh m hm (List.mem_cons_of_mem _ hmem)
      · rw [List.mem_singleton.mp hm]
        exact hmessage
  | serve _ => exact ⟨h.mono rfl (List.Sublist.refl _), sendsFresh_of_sent_eq rfl⟩

/-- **A run from pending blocks with different places sends for no place of an acknowledged
block.** -/
theorem fresh_of_reached {m : BlockStateManager} {server : Peer}
    (hplaces : (m.getPendingBlocks.map fun b => placeOf b.blockIndex).Nodup)
    (h : SyncReached job out (.start m server) s) :
    Transition.Reachable (FreshStep job out) (· = .start m server) s := by
  have hboth : Apart s ∧ Transition.Reachable (FreshStep job out) (· = .start m server) s := by
    refine Transition.Reachable.invariant (P := fun s => Apart s ∧
      Transition.Reachable (FreshStep job out) (· = .start m server) s) ?_ ?_ h
    · rintro s rfl
      exact ⟨⟨hplaces, fun _ hm => absurd hm List.not_mem_nil⟩, _, _, rfl, .nil _⟩
    · rintro s p t ⟨hapart, hreached⟩ hst
      obtain ⟨hapart', hsends⟩ := apart_step hapart hst
      exact ⟨hapart', hreached.next ⟨hst, hsends⟩⟩
  exact hboth.2

end Apart

end Go2Cbt.Link
