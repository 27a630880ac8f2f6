import Go2Cbt.Lib.Confined
import Go2Cbt.Link.AllDisks
import Go2Cbt.Link.Provenance
import Go2Cbt.Server.Isolation

/-!
# Link — many backups at once

Several clients back up to one server, each with a connection and a device of its own, in whatever
order their threads and the server get on.  The connections share nothing but the files, and a
message touches no file but that of its device.  So each backup goes as it could go alone
(`fleet_alone`): what is proved of one backup holds of each of many, as far as its file is concerned
(`fleet_safe`), and full backups of several disks at once leave each disk in its file
(`fleet_copies`).
-/

namespace Go2Cbt.Link

open Go2Cbt.Protocol Go2Cbt.Client Go2Cbt.Engine Go2Cbt.Server MessageParser

/-! ### A connection and the files -/

/-- What a connection has for itself. -/
structure Seat where
  session : Session
  output : Bytes
  live : Bool

/-- The connection on these files. -/
def Seat.on (c : Seat) (files : Files) : Peer :=
  { serving := { session := c.session, files, output := c.output }, live := c.live }

def Peer.seat (p : Peer) : Seat :=
  { session := p.serving.session, output := p.serving.output, live := p.live }

/-- A connection that already has these files. -/
theorem Peer.seat_on {p : Peer} {files : Files} (h : p.serving.files = files) :
    p.seat.on files = p := by
  subst h
  rfl

theorem Seat.on_inj {c c' : Seat} {files files' : Files} (h : c.on files = c'.on files') :
    c = c' ∧ files = files' :=
  ⟨congrArg Peer.seat h, congrArg (fun p : Peer => p.serving.files) h⟩

/-- The files of a device. -/
def deviceFiles (libs : Libs) (devNo : UInt32) : Set Nat := { file | IsFileOf libs devNo file }

/-- What a file holds. -/
def imageOf (file : Nat) (files : Files) : Image := files.image file

section Handle

variable {libs : Libs} (c : Seat) (m : ClientMessage)

/-- **A message touches no file but that of its device.** -/
theorem image_handle {file : Nat} (hfile : file ∉ deviceFiles libs m.msgHeader.devNo)
    (files : Files) : ((c.on files).handle libs m).serving.files.image file = files.image file := by
  rcases files_react_cases libs c.session (parsed m) with hsame | hblock
  · exact congrArg (imageOf file) (hsame files)
  · refine (congrArg (imageOf file) (hblock files)).trans ?_
    exact image_process_of_ne libs files fun bf hdevice heq => hfile ⟨bf, hdevice, heq⟩

variable (hlibs : Reliable libs)
include hlibs

/-- **What a message does to the connection does not depend on the files**, nor does the answer. -/
theorem handle_same (files files' : Files) :
    ((c.on files).handle libs m).seat = ((c.on files').handle libs m).seat ∧
      (c.on files).answer libs m = (c.on files').answer libs m := by
  obtain ⟨hsession, hack, hcloses⟩ :=
    Watched.react_same hlibs c.session files files' (.ok (parsed m))
  have hreply : (c.on files).answer libs m = (c.on files').answer libs m :=
    congrArg (fun ack : Option AckBody => (ack.map ackMessage).getD []) hack
  refine ⟨?_, hreply⟩
  have houtput : c.output ++ (c.on files).answer libs m
      = c.output ++ (c.on files').answer libs m := congrArg (c.output ++ ·) hreply
  have hlive := congrArg (!·) hcloses
  exact Eq.trans (congrArg (Seat.mk · _ _) hsession)
    (Eq.trans (congrArg (Seat.mk _ · _) houtput) (congrArg (Seat.mk _ _) hlive))

/-- What a message makes of the file of its device depends on no other file. -/
theorem agree_handle {files files' : Files}
    (h : Transition.Agree imageOf (deviceFiles libs m.msgHeader.devNo) files files') :
    Transition.Agree imageOf (deviceFiles libs m.msgHeader.devNo)
      ((c.on files).handle libs m).serving.files ((c.on files').handle libs m).serving.files := by
  rintro file ⟨bf, hdevice, hfile⟩
  have hagree : files.image file = files'.image file := h file ⟨bf, hdevice, hfile⟩
  rcases files_react_cases libs c.session (parsed m) with hsame | hblock
  · exact (congrArg (imageOf file) (hsame files)).trans
      (hagree.trans (congrArg (imageOf file) (hsame files')).symm)
  · have hown : (BlockRequest.ofMessage (parsed m)).file libs = some file := by
      rw [BlockRequest.file, ← hfile]
      exact congrArg (Option.map _) hdevice
    have hseparate := (separates_files hlibs).own files.image files'.image
      (.ofMessage (parsed m)) (by rw [hown, Option.map_some, Option.map_some, hagree])
    rw [hown] at hseparate
    rw [imageOf, imageOf, show ((c.on files).handle libs m).serving.files = _ from hblock files,
      show ((c.on files').handle libs m).serving.files = _ from hblock files',
      (process_eq hlibs _ files).2, (process_eq hlibs _ files').2]
    exact Option.some.inj hseparate

end Handle

/-! ### A transfer of either kind -/

/-- The arguments of a transfer. -/
inductive TransferJob where
  | pipelined (job : Job)
  | synchronous (job : SyncJob)

def TransferJob.devNo : TransferJob → UInt32
  | .pipelined job => job.devNo
  | .synchronous job => job.devNo

/-- The state of a transfer. -/
inductive Transfer (σ : Type) where
  | pipelined (s : Pipeline σ)
  | synchronous (s : Synchronous σ)

/-- One step of a transfer. -/
inductive TransferStep {σ : Type} (out : Outside σ) :
    TransferJob → Transfer σ → Party → Transfer σ → Prop where
  | pipelined {job : Job} {s t : Pipeline σ} {p : Party} (h : Step job out s p t) :
      TransferStep out (.pipelined job) (.pipelined s) p (.pipelined t)
  | synchronous {job : SyncJob} {s t : Synchronous σ} {p : Party} (h : SyncStep job out s p t) :
      TransferStep out (.synchronous job) (.synchronous s) p (.synchronous t)

namespace Transfer

variable {σ τ : Type}

def server : Transfer σ → σ
  | .pipelined s => s.server
  | .synchronous s => s.server

def outgoing : Transfer σ → List ClientMessage
  | .pipelined s => s.outgoing
  | .synchronous s => s.outgoing

def sent : Transfer σ → List ClientMessage
  | .pipelined s => s.sent
  | .synchronous s => s.sent

def manager : Transfer σ → BlockStateManager
  | .pipelined s => s.manager
  | .synchronous s => s.manager

def withServer (server : τ) : Transfer σ → Transfer τ
  | .pipelined s => .pipelined (s.withServer server)
  | .synchronous s => .synchronous (s.withServer server)

theorem withServer_server (s : Transfer σ) : s.withServer s.server = s := by
  cases s <;> rfl

@[simp] theorem server_withServer (s : Transfer σ) (server : τ) :
    (s.withServer server).server = server := by
  cases s <;> rfl

@[simp] theorem outgoing_withServer (s : Transfer σ) (server : τ) :
    (s.withServer server).outgoing = s.outgoing := by
  cases s <;> rfl

@[simp] theorem withServer_withServer {υ : Type} (s : Transfer σ) (server : τ) (server' : υ) :
    (s.withServer server).withServer server' = s.withServer server' := by
  cases s <;> rfl

/-- What is so of the message that the client has at hand. -/
def AtHand (P : ClientMessage → Prop) : Transfer σ → Prop
  | .pipelined s => ∀ i k m, s.sender = .send i k m → P m
  | .synchronous s => s.point.AtHand P

/-- What the client has at hand, and what it has sent, is for this device. -/
structure Sends (devNo : UInt32) (s : Transfer σ) : Prop where
  outgoing : ∀ m ∈ s.outgoing, m.msgHeader.devNo = devNo
  sent : ∀ m ∈ s.sent, m.msgHeader.devNo = devNo
  atHand : s.AtHand fun m => m.msgHeader.devNo = devNo

theorem sends_withServer {devNo : UInt32} {s : Transfer σ} {server : τ} :
    (s.withServer server).Sends devNo ↔ s.Sends devNo := by
  cases s <;> exact ⟨fun ⟨ho, hs, ha⟩ => ⟨ho, hs, ha⟩, fun ⟨ho, hs, ha⟩ => ⟨ho, hs, ha⟩⟩

/-- The transfer of a connection, on these files. -/
def on (s : Transfer Seat) (files : Files) : Transfer Peer := s.withServer (s.server.on files)

end Transfer

/-- **The client does not see its server.** -/
theorem TransferStep.client_or_serve {σ τ : Type} {out : Outside σ} {job : TransferJob}
    {s t : Transfer σ} {p : Party} (hst : TransferStep out job s p t)
    (serve : τ → List ClientMessage → Bytes → τ → List ClientMessage → Prop) :
    (t.server = s.server ∧ ∀ server,
      TransferStep (out.servedBy serve) job (s.withServer server) p (t.withServer server)) ∨
    ∃ reply, out.serve s.server s.outgoing reply t.server t.outgoing ∧ ∀ server server',
      serve server s.outgoing reply server' t.outgoing →
        TransferStep (out.servedBy serve) job (s.withServer server) p (t.withServer server') := by
  cases hst with
  | pipelined hst =>
      rcases hst.client_or_serve serve with ⟨hserver, hclient⟩ | ⟨reply, st, queue, h, rfl, rfl⟩
      · exact .inl ⟨hserver, fun server => .pipelined (hclient server)⟩
      · exact .inr ⟨reply, h, fun _ _ hserve => .pipelined (.serve hserve)⟩
  | synchronous hst =>
      rcases hst.client_or_serve serve with ⟨hserver, hclient⟩ | ⟨reply, st, queue, h, rfl, rfl⟩
      · exact .inl ⟨hserver, fun server => .synchronous (hclient server)⟩
      · exact .inr ⟨reply, h, fun _ _ hserve => .synchronous (.serve hserve)⟩

/-- The server takes the messages one by one, and some not at all. -/
def OneByOne (libs : Libs)
    (serve : Peer → List ClientMessage → Bytes → Peer → List ClientMessage → Prop) : Prop :=
  ∃ taken : List ClientMessage → Prop, ∀ p queue reply p' queue',
    serve p queue reply p' queue' ↔ serves libs p queue reply p' queue' ∧ taken queue

theorem oneByOne_takes (libs : Libs) : OneByOne libs (takes libs) :=
  ⟨fun queue => ∀ m ∈ queue.head?, m.Sendable, fun _ _ _ _ _ => Iff.rfl⟩

theorem oneByOne_serves (libs : Libs) : OneByOne libs (serves libs) :=
  ⟨fun _ => True, fun _ _ _ _ _ => (and_iff_left trivial).symm⟩

section Fleet

variable {libs : Libs}
  {serve : Peer → List ClientMessage → Bytes → Peer → List ClientMessage → Prop}

/-- One more message for the device. -/
theorem forall_mem_sent {devNo : UInt32} {ms : List ClientMessage} {m : ClientMessage}
    (hms : ∀ m ∈ ms, m.msgHeader.devNo = devNo) (hm : m.msgHeader.devNo = devNo) :
    ∀ m' ∈ ms ++ [m], m'.msgHeader.devNo = devNo :=
  List.forall_mem_append.mpr ⟨hms, List.forall_mem_singleton.mpr hm⟩

/-- **Every message of a transfer is for its device.** -/
theorem sends_step (hserve : OneByOne libs serve) {out : Outside Peer} {job : TransferJob}
    {s t : Transfer Peer} {p : Party} (h : s.Sends job.devNo)
    (hst : TransferStep (out.servedBy serve) job s p t) : t.Sends job.devNo := by
  obtain ⟨taken, htaken⟩ := hserve
  obtain ⟨houtgoing, hsent, hready⟩ := h
  cases hst with
  | pipelined hst =>
      cases hst with
      | compress _ _ =>
          refine ⟨houtgoing, hsent, fun i k m hm => ?_⟩
          obtain ⟨-, -, rfl⟩ := Sender.send.inj hm
          rfl
      | send hp _ =>
          have hm := hready _ _ _ hp
          exact ⟨forall_mem_sent houtgoing hm, forall_mem_sent hsent hm,
            fun i k m hm => Sender.noConfusion hm⟩
      | serve hst =>
          obtain ⟨⟨-, m, hqueue, -, -⟩, -⟩ := (htaken _ _ _ _ _).mp hst
          rw [Transfer.outgoing, hqueue] at houtgoing
          exact ⟨fun m' hm' => houtgoing m' (List.mem_cons_of_mem m hm'), hsent, hready⟩
      | receive _ _ _ | receiveError _ _ _ | receiveBad _ _ | receiveFails _ _ | setAck _
      | countAck _ | release _ | decrement _ => exact ⟨houtgoing, hsent, hready⟩
      | _ => exact ⟨houtgoing, hsent, fun i k m hm => Sender.noConfusion hm⟩
  | synchronous hst =>
      rw [Transfer.AtHand] at hready
      cases hst with
      | readFails _ _ | compressFails _ _ _ | exhausted _ _ | accepted _ _ _ =>
          exact ⟨houtgoing, hsent, trivial⟩
      | compress _ _ _ => exact ⟨houtgoing, hsent, rfl⟩
      | unconnected hp _ _ | sendFails hp _ _ _ | receiveFails hp _ | receiveBad hp _
      | refused hp _ _ =>
          rw [hp] at hready
          exact ⟨houtgoing, hsent, hready⟩
      | send hp _ _ _ =>
          rw [hp] at hready
          exact ⟨forall_mem_sent houtgoing hready, forall_mem_sent hsent hready, hready⟩
      | serve hst =>
          obtain ⟨⟨-, m, hqueue, -, -⟩, -⟩ := (htaken _ _ _ _ _).mp hst
          rw [Transfer.outgoing, hqueue] at houtgoing
          exact ⟨fun m' hm' => houtgoing m' (List.mem_cons_of_mem m hm'), hsent, hready⟩

variable (serve) in
/-- One step of a backup, on the files. -/
def OnFiles (out : Outside Peer) (job : TransferJob) (s : Transfer Seat × Files) (p : Party)
    (t : Transfer Seat × Files) : Prop :=
  TransferStep (out.servedBy serve) job (s.1.on s.2) p (t.1.on t.2)

theorem onFiles_cases {out : Outside Peer} {job : TransferJob} {s t : Transfer Seat × Files}
    {p : Party} (hst : OnFiles serve out job s p t) :
    (t.1.server = s.1.server ∧ t.2 = s.2 ∧
      ∀ files, OnFiles serve out job (s.1, files) p (t.1, files)) ∨
    ∃ reply, serve (s.1.server.on s.2) s.1.outgoing reply (t.1.server.on t.2) t.1.outgoing ∧
      ∀ files files',
        serve (s.1.server.on files) s.1.outgoing reply (t.1.server.on files') t.1.outgoing →
          OnFiles serve out job (s.1, files) p (t.1, files') := by
  rcases hst.client_or_serve serve with ⟨hserver, hclient⟩ | ⟨reply, hserve, hnext⟩
  · simp only [Transfer.on, Transfer.server_withServer] at hserver
    obtain ⟨hseat, hfiles⟩ := Seat.on_inj hserver
    refine .inl ⟨hseat, hfiles, fun files => ?_⟩
    have hstep := hclient (s.1.server.on files)
    simp only [Transfer.on, Transfer.withServer_withServer] at hstep
    rw [OnFiles, Transfer.on, Transfer.on, hseat]
    exact hstep
  · simp only [Transfer.on, Transfer.server_withServer, Transfer.outgoing_withServer,
      Transfer.withServer_withServer] at hserve hnext
    exact .inr ⟨reply, hserve, fun files files' h => hnext _ _ h⟩

/-- **Backups for different devices keep to their files.** -/
theorem confined (hlibs : Reliable libs) (hserve : OneByOne libs serve) {ι : Type}
    {jobs : ι → TransferJob} (hdevices : Function.Injective fun i => (jobs i).devNo)
    (out : ι → Outside Peer) :
    Transition.Confined (fun i => OnFiles serve (out i) (jobs i))
      (fun i => deviceFiles libs (jobs i).devNo) imageOf fun i s => s.Sends (jobs i).devNo where
  apart i j hij := by
    rintro file ⟨bf, hdevice, hfile⟩ ⟨bf', hdevice', hfile'⟩
    exact hij (hdevices (hlibs.separate _ _ bf bf' hdevice hdevice' (hfile.trans hfile'.symm)))
  keeps i s p t hs hst :=
    Transfer.sends_withServer.mp (sends_step hserve (Transfer.sends_withServer.mpr hs) hst)
  frame i s p t hs hst file hfile := by
    obtain ⟨taken, htaken⟩ := hserve
    rcases onFiles_cases hst with ⟨-, hfiles, -⟩ | ⟨reply, hserved, -⟩
    · rw [hfiles]
    · obtain ⟨⟨-, m, hqueue, -, hhandled⟩, -⟩ := (htaken _ _ _ _ _).mp hserved
      have hm : m.msgHeader.devNo = (jobs i).devNo := hs.outgoing m (hqueue ▸ List.mem_cons_self)
      have hsame := @image_handle libs s.1.server m file (hm ▸ hfile) s.2
      rw [← hhandled] at hsame
      exact hsame
  replay i s p t hs hst files hagree := by
    obtain ⟨taken, htaken⟩ := hserve
    rcases onFiles_cases hst with ⟨-, hfiles, hclient⟩ | ⟨reply, hserved, hnext⟩
    · exact ⟨files, hclient files, hfiles ▸ hagree⟩
    · obtain ⟨⟨hlive, m, hqueue, hreply, hhandled⟩, hguard⟩ := (htaken _ _ _ _ _).mp hserved
      have hm : m.msgHeader.devNo = (jobs i).devNo := hs.outgoing m (hqueue ▸ List.mem_cons_self)
      obtain ⟨hseat, hanswer⟩ := handle_same s.1.server m hlibs s.2 files
      -- the same message, handled on the other files
      refine ⟨((s.1.server.on files).handle libs m).serving.files, hnext _ _
        ((htaken _ _ _ _ _).mpr ⟨⟨hlive, m, hqueue, hreply.trans hanswer, ?_⟩, hguard⟩), ?_⟩
      · rw [← hhandled] at hseat
        have hsame : t.1.server = ((s.1.server.on files).handle libs m).seat := hseat
        rw [hsame]
        rfl
      · have hafter := agree_handle s.1.server m hlibs (hm ▸ hagree)
        rw [← hhandled, hm] at hafter
        exact hafter

/-- The run of a backup on the files is a run of its transfer. -/
theorem run_on {out : Outside Peer} {job : TransferJob} {s t : Transfer Seat × Files}
    {as : List Party} (r : Transition.Run (OnFiles serve out job) s as t) :
    Transition.Run (TransferStep (out.servedBy serve) job) (s.1.on s.2) as (t.1.on t.2) := by
  induction r with
  | nil => exact .nil _
  | cons hst _ ih => exact .cons hst ih

/-- The other way round. -/
theorem exists_run_on {out : Outside Peer} {job : TransferJob} {s : Transfer Seat × Files}
    {t : Transfer Peer} {as : List Party}
    (r : Transition.Run (TransferStep (out.servedBy serve) job) (s.1.on s.2) as t) :
    ∃ u, Transition.Run (OnFiles serve out job) s as u ∧ t = u.1.on u.2 := by
  generalize hs : s.1.on s.2 = a at r
  induction r generalizing s with
  | nil => exact ⟨s, .nil s, hs.symm⟩
  | @cons a b t p as hst _ ih =>
      have hb : (b.withServer b.server.seat).on b.server.serving.files = b := by
        rw [Transfer.on, Transfer.server_withServer, Transfer.withServer_withServer]
        exact b.withServer_server
      obtain ⟨u, r, hu⟩ := ih (s := (b.withServer b.server.seat, b.server.serving.files)) hb
      refine ⟨u, .cons ?_ r, hu⟩
      rw [OnFiles, hs, hb]
      exact hst

end Fleet

/-- The backups, and the files of the server. -/
abbrev Fleet (ι : Type) := (ι → Transfer Seat) × Files

/-- One step of one of the backups. -/
def FleetStep {ι : Type}
    (serve : Peer → List ClientMessage → Bytes → Peer → List ClientMessage → Prop)
    (out : ι → Outside Peer) (jobs : ι → TransferJob) : Fleet ι → ι × Party → Fleet ι → Prop :=
  Transition.Interleaved fun i => OnFiles serve (out i) (jobs i)

section Alone

variable {libs : Libs} (hlibs : Reliable libs)
  {serve : Peer → List ClientMessage → Bytes → Peer → List ClientMessage → Prop}
  (hserve : OneByOne libs serve) {ι : Type} [DecidableEq ι] {jobs : ι → TransferJob}
  (hdevices : Function.Injective fun i => (jobs i).devNo) {out : ι → Outside Peer}
  {start : ι → Transfer Seat} (hstart : ∀ i, (start i).Sends (jobs i).devNo) {files : Files}
include hlibs hserve hdevices hstart

theorem alone_of_reached {s : Fleet ι}
    (h : Transition.Reachable (FleetStep serve out jobs) (· = (start, files)) s) (i : ι) :
    ∃ files', Transition.Reachable (TransferStep ((out i).servedBy serve) (jobs i))
        (· = (start i).on files) ((s.1 i).on files') ∧
      ∀ file, IsFileOf libs (jobs i).devNo file → files'.image file = s.2.image file := by
  obtain ⟨files', ⟨_, as, rfl, r⟩, hagree⟩ :=
    (confined hlibs hserve hdevices out).reachable_alone hstart h i
  exact ⟨files', ⟨_, as, rfl, run_on r⟩, hagree⟩

omit [DecidableEq ι] in
theorem kept_of_fleet {s : Fleet ι}
    (h : Transition.Reachable (FleetStep serve out jobs) (· = (start, files)) s) {file : Nat}
    (hfile : ∀ i, ¬ IsFileOf libs (jobs i).devNo file) : s.2.image file = files.image file := by
  obtain ⟨_, as, rfl, r⟩ := h
  exact (confined hlibs hserve hdevices out).view_run r hstart hfile

/-- **Each of many backups goes as it could go alone**: in every order of their steps, the transfer
of each is in a state that it reaches alone, with the same in the file of its device; and a file of
no device that is backed up is as it was. -/
theorem fleet_alone {s : Fleet ι}
    (h : Transition.Reachable (FleetStep serve out jobs) (· = (start, files)) s) :
    (∀ i, ∃ files', Transition.Reachable (TransferStep ((out i).servedBy serve) (jobs i))
        (· = (start i).on files) ((s.1 i).on files') ∧
      ∀ file, IsFileOf libs (jobs i).devNo file → files'.image file = s.2.image file) ∧
    ∀ file, (∀ i, ¬ IsFileOf libs (jobs i).devNo file) → s.2.image file = files.image file :=
  ⟨alone_of_reached hlibs hserve hdevices hstart h, fun _ hfile =>
    kept_of_fleet hlibs hserve hdevices hstart h hfile⟩

end Alone

/-! ### What is acknowledged, and where bytes come from -/

/-- The connection takes blocks. -/
def Seat.Greeted (c : Seat) : Prop := c.live = true ∧ c.session.helloDone = true

/-- Where a backup can start: at a full backup of a new version, or with entries in place. -/
inductive Begins : TransferJob → Transfer Seat → Prop where
  | full {devNo versionId : UInt32} {totalSize snapshotTime now : UInt64} {windowSize : Nat}
      {m : BlockStateManager} {c : Seat} (hc : c.Greeted) :
      Begins (.pipelined (.full devNo versionId totalSize)) (.pipelined (.start windowSize
        (prepare m snapshotTime now (Job.full devNo versionId totalSize).totalBlocks totalSize).2
        c))
  | incremental {job : SyncJob} {m : BlockStateManager} {c : Seat} (hc : c.Greeted)
      (hplaced : BlockStateManager.Placed m.blocks) :
      Begins (.synchronous job) (.synchronous (.start m c))

theorem Begins.sends {job : TransferJob} {s : Transfer Seat} (h : Begins job s) :
    s.Sends job.devNo := by
  cases h with
  | full _ => exact ⟨nofun, nofun, fun _ _ _ h => Sender.noConfusion h⟩
  | incremental _ _ => exact ⟨nofun, nofun, trivial⟩

theorem pipelined_run {out : Outside Peer} {job : Job} {a : Pipeline Peer} {t : Transfer Peer}
    {as : List Party} (r : Transition.Run (TransferStep out (.pipelined job)) (.pipelined a) as t) :
    ∃ b, t = .pipelined b ∧ Transition.Run (Step job out) a as b := by
  generalize hs : Transfer.pipelined a = s at r
  induction r generalizing a with
  | nil => exact ⟨a, hs.symm, .nil a⟩
  | cons hst _ ih =>
      subst hs
      cases hst with
      | pipelined hst =>
          obtain ⟨b, hb, r⟩ := ih rfl
          exact ⟨b, hb, .cons hst r⟩

/-- The other way round. -/
theorem run_pipelined {out : Outside Peer} {job : Job} {a b : Pipeline Peer} {as : List Party}
    (r : Transition.Run (Step job out) a as b) :
    Transition.Run (TransferStep out (.pipelined job)) (.pipelined a) as (.pipelined b) := by
  induction r with
  | nil => exact .nil _
  | cons hst _ ih => exact .cons (.pipelined hst) ih

theorem synchronous_run {out : Outside Peer} {job : SyncJob} {a : Synchronous Peer}
    {t : Transfer Peer} {as : List Party}
    (r : Transition.Run (TransferStep out (.synchronous job)) (.synchronous a) as t) :
    ∃ b, t = .synchronous b ∧ Transition.Run (SyncStep job out) a as b := by
  generalize hs : Transfer.synchronous a = s at r
  induction r generalizing a with
  | nil => exact ⟨a, hs.symm, .nil a⟩
  | cons hst _ ih =>
      subst hs
      cases hst with
      | synchronous hst =>
          obtain ⟨b, hb, r⟩ := ih rfl
          exact ⟨b, hb, .cons hst r⟩

theorem Transfer.server_on (s : Transfer Seat) (files : Files) :
    (s.on files).server = s.server.on files :=
  Transfer.server_withServer ..

/-- A block in its place, in another state of the files. -/
theorem InPlace.of_image {libs : Libs} {files files' : Files} {m : ClientMessage}
    (h : InPlace libs files m)
    (hsame : ∀ file, IsFileOf libs m.msgHeader.devNo file → files.image file = files'.image file) :
    InPlace libs files' m := by
  cases m with
  | block devNo blockIndex rawSize compressed hash versionId =>
      obtain ⟨hsize, bf, hdevice, hhash⟩ := h
      exact ⟨hsize, bf, hdevice, hsame _ ⟨bf, hdevice, rfl⟩ ▸ hhash⟩
  | hello _ _ _ _ _ => exact h
  | bye _ => exact h

/-- What is safe in a transfer, alone. -/
theorem safe_alone {libs : Libs} {out : Outside Peer} {job : TransferJob} {start : Transfer Seat}
    (hstart : Begins job start) {files files' : Files} {s : Transfer Seat}
    (h : Transition.Reachable (TransferStep (out.servedBy (takes libs)) job) (· = start.on files)
      (s.on files')) :
    (∀ (b : UInt64) (bs : BlockState), s.manager.blocks[b.toNat]? = some bs →
      bs.ack = .acknowledged →
        (∃ bs₀, start.manager.blocks[b.toNat]? = some bs₀ ∧ bs₀.ack = .acknowledged) ∨
          ∃ m ∈ s.sent, blockIndexOf m = b ∧ InPlace libs files' m) ∧
    (Faithful libs out → Traceable libs out job.devNo files files') := by
  obtain ⟨_, as, rfl, r⟩ := h
  cases hstart with
  | @full _ _ _ _ _ _ _ c hc =>
      obtain ⟨a, ha, r⟩ := pipelined_run r
      cases s with
      | synchronous s => cases ha
      | pipelined s =>
          cases ha
          have hreached : Reached _ (out.servedBy (takes libs)) (.start _ _ (c.on files))
              (s.withServer (s.server.on files')) := ⟨_, as, rfl, r⟩
          have hgreeted : (c.on files).Greeted := hc
          refine ⟨fun b bs hbs hacked => .inr (inPlace_of_recorded rfl hgreeted hreached hbs hacked),
            fun hcodec => ?_⟩
          have hcodec : Faithful libs (out.servedBy (takes libs)) := hcodec
          exact traceable_of_reached rfl hcodec hgreeted hreached
  | @incremental job m c hc hplaced =>
      obtain ⟨a, ha, r⟩ := synchronous_run r
      cases s with
      | pipelined s => cases ha
      | synchronous s =>
          cases ha
          have hreached : SyncReached _ (out.servedBy (takes libs)) (.start _ (c.on files))
              (s.withServer (s.server.on files')) := ⟨_, as, rfl, r⟩
          have hgreeted : (c.on files).Greeted := hc
          refine ⟨fun b bs hbs hacked => ?_, fun hcodec => ?_⟩
          · refine (sync_inPlace_of_recorded rfl hgreeted hplaced hreached hbs hacked).imp_right ?_
            rintro ⟨message, hsent, hindex, hplace⟩
            exact ⟨message, hsent, UInt64.toNat_inj.mp hindex, hplace⟩
          · have hcodec : Faithful libs (out.servedBy (takes libs)) := hcodec
            exact sync_traceable_of_reached rfl hcodec
              (fun b hb => offsetFits_of_placed hplaced hb) hgreeted hreached

/-- **In every state of many backups**, full and incremental ones, whatever fails: what one of them
has acknowledged is in its place, and a byte of a file is the original one, or one that the backup
of its device has read from the disk at its address. -/
theorem fleet_safe {libs : Libs} (hlibs : Reliable libs) {ι : Type} [DecidableEq ι]
    {jobs : ι → TransferJob} (hdevices : Function.Injective fun i => (jobs i).devNo)
    {out : ι → Outside Peer} {start : ι → Transfer Seat} (hstart : ∀ i, Begins (jobs i) (start i))
    {files : Files} {s : Fleet ι}
    (h : Transition.Reachable (FleetStep (takes libs) out jobs) (· = (start, files)) s) :
    (∀ (i : ι) (b : UInt64) (bs : BlockState), (s.1 i).manager.blocks[b.toNat]? = some bs →
      bs.ack = .acknowledged →
        (∃ bs₀, (start i).manager.blocks[b.toNat]? = some bs₀ ∧ bs₀.ack = .acknowledged) ∨
          ∃ m ∈ (s.1 i).sent, blockIndexOf m = b ∧ InPlace libs s.2 m) ∧
    ((∀ i, Faithful libs (out i)) → ∀ file address,
      s.2.image file address = files.image file address ∨
        ∃ i, IsFileOf libs (jobs i).devNo file ∧ ReadAt (out i) address (s.2.image file address)) := by
  have hsends := fun i => (hstart i).sends
  have halone := alone_of_reached hlibs (oneByOne_takes libs) hdevices hsends h
  have hafter : ∀ i, (s.1 i).Sends (jobs i).devNo := by
    obtain ⟨_, as, rfl, r⟩ := h
    exact (confined hlibs (oneByOne_takes libs) hdevices out).ok_run r hsends
  constructor
  · intro i b bs hbs hacked
    obtain ⟨files', hi, hagree⟩ := halone i
    refine ((safe_alone (hstart i) hi).1 b bs hbs hacked).imp_right ?_
    rintro ⟨m, hm, hindex, hplace⟩
    refine ⟨m, hm, hindex, hplace.of_image fun file hfile => hagree file ?_⟩
    rwa [← (hafter i).sent m hm]
  · intro hcodec file address
    by_cases hfile : ∃ i, IsFileOf libs (jobs i).devNo file
    · obtain ⟨i, hfile⟩ := hfile
      obtain ⟨files', hi, hagree⟩ := halone i
      rw [← hagree file hfile]
      exact ((safe_alone (hstart i) hi).2 (hcodec i) file address).imp_right fun h => ⟨i, h⟩
    · refine .inl (congrFun ?_ address)
      exact kept_of_fleet hlibs (oneByOne_takes libs) hdevices hsends h fun i hi => hfile ⟨i, hi⟩

/-! ### Full backups -/

/-- A full backup of a disk, and what it starts with. -/
structure DiskBackup where
  devNo : UInt32
  versionId : UInt32
  totalSize : UInt64
  disk : Image
  windowSize : Nat
  manager : BlockStateManager
  snapshotTime : UInt64
  now : UInt64

namespace DiskBackup

variable (libs : Libs) (compress : Bytes → Bytes) (files : Files) (d : DiskBackup)

def job : Job := .full d.devNo d.versionId d.totalSize

/-- The transfer after the greeting. -/
def init : Pipeline Peer :=
  fullBackupStart libs d.devNo d.totalSize files d.versionId d.windowSize d.manager d.snapshotTime
    d.now

def start : Transfer Seat :=
  .pipelined ((d.init libs files).withServer (d.init libs files).server.seat)

/-- Nothing hinders the backup. -/
structure Ready : Prop where
  unhindered : ∃ bf, Unhindered libs compress d.devNo d.totalSize bf
  window : 0 < d.windowSize

/-- The backup has come to its end, and the file of its device holds the disk. -/
def Copied (s : Transfer Seat) (after : Files) : Prop :=
  ∃ bf c, libs.diskMap.get d.devNo = some bf ∧ s.on after = .pipelined c ∧
    Complete libs bf d.disk files d.totalSize c

end DiskBackup

/-- The end of a transfer alone, as far as the file of the device goes. -/
theorem Complete.withServer {libs : Libs} {bf : BackingFile} {disk : Image} {files : Files}
    {totalSize : UInt64} {c : Pipeline Peer} (h : Complete libs bf disk files totalSize c) {p : Peer}
    (himage : p.serving.files.image (libs.fileOf bf.fd)
      = c.server.serving.files.image (libs.fileOf bf.fd)) :
    Complete libs bf disk files totalSize (c.withServer p) where
  returned := h.returned
  acknowledged := h.acknowledged
  copied := himage.trans h.copied

section Copies

variable {libs : Libs} {compress : Bytes → Bytes} {files : Files}

theorem start_on {d : DiskBackup} (hd : d.Ready libs compress) :
    (d.start libs files).on files = .pipelined (d.init libs files) := by
  obtain ⟨bf, hu⟩ := hd.unhindered
  obtain ⟨-, hfiles, -⟩ := greeted_of_hello libs files hu.device hu.large d.versionId
    d.job.totalBlocks [70, 85, 76, 76]
  have hseat : (d.init libs files).server.seat.on files = (d.init libs files).server :=
    Peer.seat_on hfiles
  rw [DiskBackup.start, Transfer.on]
  dsimp only [Transfer.server, Transfer.withServer]
  exact congrArg (fun p => Transfer.pipelined ((d.init libs files).withServer p)) hseat

theorem sends_start (d : DiskBackup) : (d.start libs files).Sends d.devNo :=
  ⟨nofun, nofun, fun _ _ _ h => Sender.noConfusion h⟩

variable (hlibs : Reliable libs) {ι : Type} [DecidableEq ι] {ds : ι → DiskBackup}
  (hdevices : Function.Injective fun i => (ds i).devNo) (hds : ∀ i, (ds i).Ready libs compress)

variable (libs compress ds) in
/-- One step of one of the full backups. -/
def CopyStep : Fleet ι → ι × Party → Fleet ι → Prop :=
  FleetStep (serves libs) (fun i => faultless libs (ds i).disk compress)
    fun i => .pipelined (ds i).job

variable (libs files ds) in
/-- All of them after the greeting. -/
def copyStart : Fleet ι := (fun i => (ds i).start libs files, files)

omit [DecidableEq ι] in
theorem copies_confined (hlibs : Reliable libs)
    (hdevices : Function.Injective fun i => (ds i).devNo) :
    Transition.Confined
      (fun i => OnFiles (serves libs) (faultless libs (ds i).disk compress) (.pipelined (ds i).job))
      (fun i => deviceFiles libs (ds i).devNo) imageOf fun i s => s.Sends (ds i).devNo :=
  confined hlibs (oneByOne_serves libs) hdevices fun i => faultless libs (ds i).disk compress

include hlibs hdevices hds

/-- Each of the transfers, alone. -/
theorem copy_alone {s : Fleet ι} {as : List (ι × Party)}
    (r : Transition.Run (CopyStep libs compress ds) (copyStart libs files ds) as s) (i : ι) :
    ∃ files' c, (s.1 i).on files' = .pipelined c ∧
      Transition.Run (Step (ds i).job (faultless libs (ds i).disk compress)) ((ds i).init libs files)
        ((as.filter fun a => a.1 = i).map Prod.snd) c ∧
      Transition.Agree imageOf (deviceFiles libs (ds i).devNo) files' s.2 := by
  have hstart : ∀ i, ((copyStart libs files ds).1 i).Sends (ds i).devNo :=
    fun i => sends_start (ds i)
  obtain ⟨files', ri, hagree⟩ :=
    (copies_confined hlibs hdevices).run_alone r hstart i (h := files) fun _ _ => rfl
  have ron := run_on ri
  dsimp only [copyStart] at ron
  rw [start_on (hds i)] at ron
  obtain ⟨c, hc, rc⟩ := pipelined_run ron
  exact ⟨files', c, hc, rc, hagree⟩

/-- No run is longer than those of the transfers together. -/
theorem length_copies_le [Fintype ι] {s : Fleet ι} {as : List (ι × Party)}
    (r : Transition.Run (CopyStep libs compress ds) (copyStart libs files ds) as s) :
    as.length ≤ ∑ i, (12 * (ds i).job.totalBlocks.toNat + 4) := by
  refine Transition.length_le_sum as fun i => ?_
  obtain ⟨files', c, -, rc, -⟩ := copy_alone hlibs hdevices hds r i
  obtain ⟨bf, hu⟩ := (hds i).unhindered
  have hle := length_run_le (answersAlong_faultless hu) rc
  rwa [List.length_map] at hle

/-- Where nothing can be done, everything is copied. -/
theorem copied_of_stuck {s : Fleet ι} {as : List (ι × Party)}
    (r : Transition.Run (CopyStep libs compress ds) (copyStart libs files ds) as s)
    (hstuck : ∀ a t, ¬ CopyStep libs compress ds s a t) (i : ι) :
    (ds i).Copied libs files (s.1 i) s.2 := by
  obtain ⟨files', c, hc, rc, hagree⟩ := copy_alone hlibs hdevices hds r i
  obtain ⟨bf, hu⟩ := (hds i).unhindered
  have hreached : Reached (ds i).job (faultless libs (ds i).disk compress)
      ((ds i).init libs files) c := ⟨_, _, rfl, rc⟩
  have hreturned : ∃ j awaited, c.sender = .done j awaited := by
    refine (returned_or_step_of_reached (answersAlong_faultless hu) (respondsAlong_faultless hu)
      (.inl (hds i).window) hreached).resolve_right ?_
    rintro ⟨p, t, hst⟩
    -- what the transfer could do alone, the backups can do
    have hon : OnFiles (serves libs) (faultless libs (ds i).disk compress) (.pipelined (ds i).job)
        (s.1 i, files') p
        (.pipelined (t.withServer t.server.seat), t.server.serving.files) := by
      rw [OnFiles, hc]
      exact .pipelined hst
    have hok : (s.1 i).Sends (ds i).devNo :=
      (copies_confined hlibs hdevices).ok_run r (fun i => sends_start (ds i)) i
    obtain ⟨t', hst'⟩ := (copies_confined hlibs hdevices).step_of_alone hok hagree hon
    exact hstuck _ _ hst'
  have hcomplete := complete_of_returned hu hreached hreturned
  refine ⟨bf, _, hu.device, ?_, hcomplete.withServer (p := (s.1 i).server.on s.2) ?_⟩
  · have hserver := congrArg (Transfer.withServer ((s.1 i).server.on s.2)) hc
    rw [Transfer.on, Transfer.withServer_withServer] at hserver
    exact hserver
  · have hfile := hagree _ ⟨bf, hu.device, rfl⟩
    have hfiles : c.server = (s.1 i).server.on files' := by
      rw [← Transfer.server_on, hc]
      rfl
    rw [hfiles]
    exact hfile.symm

/-- From every state that is reached, everything can be copied. -/
theorem exists_run_copied [Fintype ι] {s : Fleet ι} {as : List (ι × Party)}
    (r : Transition.Run (CopyStep libs compress ds) (copyStart libs files ds) as s) :
    ∃ bs t, Transition.Run (CopyStep libs compress ds) s bs t ∧
      ∀ i, (ds i).Copied libs files (t.1 i) t.2 := by
  obtain ⟨bs, t, r', hstuck⟩ := Transition.exists_run_stuck (s := s) fun bs t r' =>
    (Nat.le_add_left _ as.length).trans
      (List.length_append ▸ length_copies_le hlibs hdevices hds (r.append r'))
  exact ⟨bs, t, r', copied_of_stuck hlibs hdevices hds (r.append r') hstuck⟩

/-- **Full backups of several disks at once leave each disk in its file**, if nothing hinders them:
in whatever order they go on, there are at most twelve steps a block, they cannot stop before every
block is acknowledged and in its file, and there is no state from which they could not come to that.
A file of no device that is backed up stays as it was. -/
theorem fleet_copies [Fintype ι] :
    (∀ as s, Transition.Run (CopyStep libs compress ds) (copyStart libs files ds) as s →
      as.length ≤ ∑ i, (12 * (ds i).job.totalBlocks.toNat + 4) ∧
      ((∀ a t, ¬ CopyStep libs compress ds s a t) →
        ∀ i, (ds i).Copied libs files (s.1 i) s.2) ∧
      ∀ file, (∀ i, ¬ IsFileOf libs (ds i).devNo file) → s.2.image file = files.image file) ∧
    ∀ s, Transition.Reachable (CopyStep libs compress ds) (· = copyStart libs files ds) s →
      ∃ as t, Transition.Run (CopyStep libs compress ds) s as t ∧
        ∀ i, (ds i).Copied libs files (t.1 i) t.2 := by
  refine ⟨fun as s r => ⟨length_copies_le hlibs hdevices hds r,
    copied_of_stuck hlibs hdevices hds r, fun file hfile => ?_⟩, ?_⟩
  · exact (copies_confined hlibs hdevices).view_run r (fun i => sends_start (ds i)) hfile
  · rintro s ⟨_, as, rfl, r⟩
    exact exists_run_copied hlibs hdevices hds r

end Copies

/-! ### Two disks -/

/-- That disk, under the numbers 0 and 1. -/
def twoBackups (second : Bool) : DiskBackup where
  devNo := if second then 1 else 0
  versionId := 1
  totalSize := 1048578
  disk := oneTwoDisk
  windowSize := 1
  manager := .new
  snapshotTime := 0
  now := 0

theorem reliable_oneTwo : Reliable oneTwoLibs where
  whole := reliable_twoDisks.whole
  separate := reliable_twoDisks.separate

theorem devices_twoBackups : Function.Injective fun i => (twoBackups i).devNo := by
  decide

theorem ready_twoBackups (second : Bool) : (twoBackups second).Ready oneTwoLibs deflateOneTwo where
  unhindered := by
    cases second with
    | false => exact ⟨_, unhindered_oneTwo⟩
    | true =>
        exact ⟨{ fd := 4, sizeBytes := 2097152, path := "disk1.img" },
          { unhindered_oneTwo with device := by decide, large := by decide }⟩
  window := Nat.one_pos

theorem fleet_copies_twoBackups :
    ∃ as t, Transition.Run (CopyStep oneTwoLibs deflateOneTwo twoBackups)
        (copyStart oneTwoLibs blankFiles twoBackups) as t ∧
      ∀ i, (twoBackups i).Copied oneTwoLibs blankFiles (t.1 i) t.2 :=
  (fleet_copies reliable_oneTwo devices_twoBackups ready_twoBackups).2 _ ⟨_, [], rfl, .nil _⟩

/-- Both disks are copied, and the file of no device is as it was. -/
theorem fleet_alone_twoBackups :
    ∃ s : Fleet Bool, (∀ i, (twoBackups i).Copied oneTwoLibs blankFiles (s.1 i) s.2) ∧
      (∀ i, ∃ files', Transition.Reachable (TransferStep (faultless oneTwoLibs oneTwoDisk
          deflateOneTwo) (.pipelined (twoBackups i).job))
          (· = ((twoBackups i).start oneTwoLibs blankFiles).on blankFiles) ((s.1 i).on files') ∧
        ∀ file, IsFileOf oneTwoLibs (twoBackups i).devNo file →
          files'.image file = s.2.image file) ∧
      s.2.image 5 = blankFiles.image 5 := by
  obtain ⟨as, s, r, hcopied⟩ := exists_run_copied reliable_oneTwo devices_twoBackups
    ready_twoBackups (.nil (copyStart oneTwoLibs blankFiles twoBackups))
  have hsends : ∀ i, ((twoBackups i).start oneTwoLibs blankFiles).Sends
      (TransferJob.pipelined (twoBackups i).job).devNo := fun i => sends_start (twoBackups i)
  have halone := fleet_alone reliable_oneTwo (oneByOne_serves oneTwoLibs) devices_twoBackups
    hsends ⟨_, as, rfl, r⟩
  refine ⟨s, hcopied, halone.1, halone.2 5 ?_⟩
  rintro i ⟨bf, hdevice, hfile⟩
  have hfd : bf.fd = (twoBackups i).devNo.toNat + 3 :=
    @get_twoDisks (fun _ len => some len) _ _ hdevice
  have hfive : bf.fd = 5 := hfile
  cases i <;> exact absurd (hfd.symm.trans hfive) (by decide)

/-- A full backup of device 0, and an incremental one of device 1. -/
def mixedJobs : Bool → TransferJob
  | false => .pipelined (.full 0 1 1048578)
  | true => .synchronous { retryCount := 0, devNo := 1, versionId := 1, totalBlocks := 2 }

def mixedStart : Bool → Transfer Seat
  | false => .pipelined (.start 1 (prepare .new 0 0 (Job.full 0 1 1048578).totalBlocks 1048578).2
      oneTwoServer.seat)
  | true => .synchronous (.start (holding [entryOf 0 hashOfOneTwo, entryOf 1 hashOfOneTwo])
      oneTwoServer.seat)

/-- The full backup is done, and the incremental one about to start. -/
theorem fleet_safe_mixed :
    ∃ s : Fleet Bool, (∃ c, s.1 false = .pipelined c ∧ c.sender = .done 2 true) ∧
      (∀ (i : Bool) (b : UInt64) (bs : BlockState), (s.1 i).manager.blocks[b.toNat]? = some bs →
        bs.ack = .acknowledged →
          (∃ bs₀, (mixedStart i).manager.blocks[b.toNat]? = some bs₀ ∧ bs₀.ack = .acknowledged) ∨
            ∃ m ∈ (s.1 i).sent, blockIndexOf m = b ∧ InPlace oneTwoLibs s.2 m) ∧
      ∀ file address, s.2.image file address = blankFiles.image file address ∨
        ∃ i, IsFileOf oneTwoLibs (mixedJobs i).devNo file ∧
          ReadAt oneTwoOutside address (s.2.image file address) := by
  have hgreeted : oneTwoServer.seat.Greeted := afterHello_oneTwo.greeted
  have hbegins : ∀ i, Begins (mixedJobs i) (mixedStart i) := by
    intro i
    cases i with
    | false => exact .full hgreeted
    | true => exact .incremental hgreeted (placed_holding _ _)
  have hdevices : Function.Injective fun i => (mixedJobs i).devNo := by decide
  have hseat : oneTwoServer.seat.on blankFiles = oneTwoServer :=
    Peer.seat_on (greeted_of_hello oneTwoLibs blankFiles unhindered_oneTwo.device
      unhindered_oneTwo.large 1 (Job.full 0 1 1048578).totalBlocks [70, 85, 76, 76]).2.1
  -- the run of the full backup, while the other waits
  obtain ⟨c, ⟨_, as, rfl, r⟩, hdone⟩ := oneTwo_reached
  have hon : (mixedStart false).on blankFiles
      = .pipelined (.start 1 (prepare .new 0 0 (Job.full 0 1 1048578).totalBlocks 1048578).2
          oneTwoServer) :=
    congrArg (fun p => Transfer.pipelined (.start 1
      (prepare .new 0 0 (Job.full 0 1 1048578).totalBlocks 1048578).2 p)) hseat
  have ron := hon ▸ run_pipelined r
  obtain ⟨u, ru, hu⟩ : ∃ u, Transition.Run (OnFiles (takes oneTwoLibs) oneTwoOutside
      (mixedJobs false)) (mixedStart false, blankFiles) as u ∧ Transfer.pipelined c = u.1.on u.2 :=
    exists_run_on ron
  have hreached : Transition.Reachable (FleetStep (takes oneTwoLibs) (fun _ => oneTwoOutside)
      mixedJobs) (· = (mixedStart, blankFiles)) (Function.update mixedStart false u.1, u.2) :=
    ⟨_, _, rfl, Transition.run_of_machine (i := false) (s := (mixedStart, blankFiles)) ru⟩
  obtain ⟨hsafe, htraceable⟩ := fleet_safe reliable_oneTwo hdevices hbegins hreached
  refine ⟨_, ?_, hsafe, htraceable fun _ => faithful_oneTwo⟩
  dsimp only
  rw [Function.update_self]
  obtain ⟨a, after⟩ := u
  cases a with
  | pipelined a =>
      cases hu
      exact ⟨a, rfl, hdone⟩
  | synchronous a => cases hu

end Go2Cbt.Link
