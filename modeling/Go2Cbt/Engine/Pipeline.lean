import Go2Cbt.Client.BlockState
import Go2Cbt.Client.NetworkClient
import Go2Cbt.Lib.Transition

/-!
# Engine — the pipelined transfer

`BackupEngine::PipelineTransferBlocks`, which two threads run: the sending loop takes a slot of
the window for each block and does not wait for the answer, and the receiver thread hands every
acknowledgement to a callback that records it and frees the slot.  A step is what one thread does
between two accesses of something that both can see, so that every interleaving is a run.

The outside can fail wherever the code looks at a result.  The server is a relation between what
is on its way to it and the bytes that come back.  A dry run, which has no server, and the saves
every 100 blocks, which nothing here reads, are left out.
-/

namespace Go2Cbt.Engine

open Go2Cbt.Client Go2Cbt.Protocol

/-! ### The window -/

/-- `PipelineSlot`.  What else a slot holds is the sending loop's own until the block is sent. -/
structure Slot where
  inUse : Bool
  blockIndex : UInt64
  deriving DecidableEq, Repr

/-- `ResetPipelineWindow`. -/
def resetPipelineWindow (windowSize : Nat) : List Slot :=
  List.replicate windowSize { inUse := false, blockIndex := 0 }

/-- The slot that `AcquireSlot` takes. -/
def acquireSlot (window : List Slot) : Option Nat := window.findIdx? fun s => !s.inUse

/-- `ReleaseSlot`. -/
def releaseSlot (window : List Slot) (blockIndex : UInt64) : Bool × List Slot :=
  match window.findIdx? fun s => s.inUse && s.blockIndex = blockIndex with
  | none => (false, window)
  | some k => (true, window.modify k fun s => { s with inUse := false })

/-! ### The two threads -/

/-- Where the sending loop is, in turn `i`. -/
inductive Sender where
  | turn (i : Nat)
  | bind (i slot : Nat)
  | read (i slot : Nat)
  | record (i slot : Nat) (blockData : Bytes) (hash : Hash)
  | send (i slot : Nat) (message : ClientMessage)
  | count (i : Nat)
  | skip (i slot : Nat)
  | abandon (i slot : Nat)
  | fail (i : Nat)
  | drain (i : Nat)
  | stop (i : Nat) (awaited : Bool)
  | done (i : Nat) (awaited : Bool)

/-- Where the receiver thread is: it waits for an acknowledgement, or runs the callback. -/
inductive Receiver where
  | wait
  | setAck (ack : AckBody)
  | count (ack : AckBody)
  | release (ack : AckBody)
  | decrement (released : Bool)
  | stopped
  deriving DecidableEq

/-- The arguments of `PipelineTransferBlocks` that do not change. -/
structure Job where
  devNo : UInt32
  versionId : UInt32
  totalBlocks : UInt64
  totalSize : UInt64
  deriving DecidableEq, Repr

/-- The size of a block: the last one may be short. -/
def Job.blockSize (job : Job) (i : Nat) : UInt32 :=
  let remain := job.totalSize - UInt64.ofNat i * UInt64.ofNat Go2Cbt.blockSize
  if UInt64.ofNat i = job.totalBlocks - 1 ∧ remain < UInt64.ofNat Go2Cbt.blockSize ∧ 0 < remain then
    remain.toUInt32
  else UInt32.ofNat Go2Cbt.blockSize

/-- What the calls of the outside may give, and what the server may do: it takes messages from
the front of those on their way and sends bytes. -/
structure Outside (σ : Type) where
  readFile : UInt64 → UInt32 → Option Bytes → Prop
  computeBlockHash : Bytes → Option Hash → Prop
  compress : Bytes → Option Bytes → Prop
  sendBlockNoWait : ClientMessage → Bool → Prop
  timesOut : Prop
  receiveFails : Prop
  serve : σ → List ClientMessage → Bytes → σ → List ClientMessage → Prop

/-- The same outside with another server. -/
def Outside.servedBy {σ τ : Type} (out : Outside σ)
    (serve : τ → List ClientMessage → Bytes → τ → List ClientMessage → Prop) : Outside τ where
  readFile := out.readFile
  computeBlockHash := out.computeBlockHash
  compress := out.compress
  sendBlockNoWait := out.sendBlockNoWait
  timesOut := out.timesOut
  receiveFails := out.receiveFails
  serve := serve

/-- The state of a transfer.  `sent` and `received` are the history: the blocks that
`SendBlockNoWait` took and the acknowledgements that were read. -/
structure Pipeline (σ : Type) where
  window : List Slot
  inFlightCount : Int
  ackedCount : Nat
  failedCount : Nat
  pipelineError : Bool
  manager : BlockStateManager
  sender : Sender
  sentCount : Nat
  skippedCount : Nat
  failedBlocks : Nat
  totalCompressed : Nat
  receiver : Receiver
  outgoing : List ClientMessage
  incoming : Bytes
  server : σ
  sent : List ClientMessage
  received : List AckBody

/-- The state in which the loop starts. -/
def Pipeline.start {σ : Type} (windowSize : Nat) (manager : BlockStateManager) (server : σ) :
    Pipeline σ :=
  { window := resetPipelineWindow windowSize
    inFlightCount := 0
    ackedCount := 0
    failedCount := 0
    pipelineError := false
    manager
    sender := .turn 0
    sentCount := 0
    skippedCount := 0
    failedBlocks := 0
    totalCompressed := 0
    receiver := .wait
    outgoing := []
    incoming := []
    server
    sent := []
    received := [] }

/-- The transfer with another server. -/
def Pipeline.withServer {σ τ : Type} (s : Pipeline σ) (server : τ) : Pipeline τ :=
  { window := s.window
    inFlightCount := s.inFlightCount
    ackedCount := s.ackedCount
    failedCount := s.failedCount
    pipelineError := s.pipelineError
    manager := s.manager
    sender := s.sender
    sentCount := s.sentCount
    skippedCount := s.skippedCount
    failedBlocks := s.failedBlocks
    totalCompressed := s.totalCompressed
    receiver := s.receiver
    outgoing := s.outgoing
    incoming := s.incoming
    server
    sent := s.sent
    received := s.received }

/-- What `FullBackup` does to the block states before the transfer: a version is created and its
blocks are allocated. -/
def prepare (m : BlockStateManager) (snapshotTime now totalBlocks totalSize : UInt64) :
    VersionRecord × BlockStateManager :=
  let created := m.createVersion [70, 85, 76, 76] snapshotTime now totalBlocks totalSize
  (created.1, (created.2.initFullBlocksEmpty created.1.versionId totalBlocks).2)

/-- The arguments that `FullBackup` passes for a disk of this size. -/
def Job.full (devNo versionId : UInt32) (totalSize : UInt64) : Job :=
  { devNo
    versionId
    totalBlocks := (totalSize + UInt64.ofNat Go2Cbt.blockSize - 1) / UInt64.ofNat Go2Cbt.blockSize
    totalSize }

/-- The block of a message. -/
def blockIndexOf : ClientMessage → UInt64
  | .block _ blockIndex _ _ _ _ => blockIndex
  | _ => 0

/-- The message of block `i`. -/
def Job.message (job : Job) (i : Nat) (compressed : Bytes) (hash : Hash) : ClientMessage :=
  .block job.devNo (UInt64.ofNat i) (job.blockSize i) compressed hash job.versionId

/-- Free the slot of a block that is not sent. -/
def freeSlot (window : List Slot) (slot : Nat) : List Slot :=
  window.modify slot fun s => { s with inUse := false }

/-- The callback's code for an error of the receiver thread. -/
def connectionError : UInt64 := 0xFFFFFFFFFFFFFFFF

/-- The state that the callback records. -/
def ackStatusOf (ack : AckBody) : Client.AckStatus :=
  if ack.status = 0 then .acknowledged else .failed

/-- Who takes a step. -/
inductive Party where
  | sender
  | receiver
  | server
  deriving DecidableEq, Repr

/-- One step. -/
inductive Step {σ : Type} (job : Job) (out : Outside σ) :
    Pipeline σ → Party → Pipeline σ → Prop where
  -- the top of the loop, with `AcquireSlot`
  | finish {s : Pipeline σ} {i : Nat} (h : s.sender = .turn i) (hi : i = job.totalBlocks.toNat) :
      Step job out s .sender { s with sender := .drain i }
  | abort {s : Pipeline σ} {i : Nat} (h : s.sender = .turn i) (hi : i < job.totalBlocks.toNat)
      (herror : s.pipelineError = true) :
      Step job out s .sender { s with sender := .drain i }
  | timeout {s : Pipeline σ} {i : Nat} (h : s.sender = .turn i) (hi : i < job.totalBlocks.toNat)
      (hnone : acquireSlot s.window = none) (htimesOut : out.timesOut) :
      Step job out s .sender { s with sender := .drain i }
  | acquire {s : Pipeline σ} {i k : Nat} (h : s.sender = .turn i) (hi : i < job.totalBlocks.toNat)
      (herror : s.pipelineError = false) (hk : acquireSlot s.window = some k) :
      Step job out s .sender
        { s with
          window := s.window.modify k fun slot => { slot with inUse := true }
          sender := .bind i k }
  -- `slot.BlockIndex = i`, outside the lock
  | bind {s : Pipeline σ} {i k : Nat} (h : s.sender = .bind i k) :
      Step job out s .sender
        { s with
          window := s.window.modify k fun slot => { slot with blockIndex := UInt64.ofNat i }
          sender := .read i k }
  | readFails {s : Pipeline σ} {i k : Nat} (h : s.sender = .read i k)
      (hread : out.readFile (UInt64.ofNat i * UInt64.ofNat Go2Cbt.blockSize) (job.blockSize i)
        none) :
      Step job out s .sender { s with sender := .skip i k }
  | hashFails {s : Pipeline σ} {i k : Nat} {blockData : Bytes} (h : s.sender = .read i k)
      (hread : out.readFile (UInt64.ofNat i * UInt64.ofNat Go2Cbt.blockSize) (job.blockSize i)
        (some blockData))
      (hhash : out.computeBlockHash blockData none) :
      Step job out s .sender { s with sender := .skip i k }
  | read {s : Pipeline σ} {i k : Nat} {blockData : Bytes} {hash : Hash}
      (h : s.sender = .read i k)
      (hread : out.readFile (UInt64.ofNat i * UInt64.ofNat Go2Cbt.blockSize) (job.blockSize i)
        (some blockData))
      (hhash : out.computeBlockHash blockData (some hash)) :
      Step job out s .sender { s with sender := .record i k blockData hash }
  -- `SetBlockHash`, then `Compress`
  | compressFails {s : Pipeline σ} {i k : Nat} {blockData : Bytes} {hash : Hash}
      (h : s.sender = .record i k blockData hash) (hcompress : out.compress blockData none) :
      Step job out s .sender
        { s with
          manager := (s.manager.setBlockHash (UInt64.ofNat i) hash).2
          sender := .skip i k }
  | compress {s : Pipeline σ} {i k : Nat} {blockData compressed : Bytes} {hash : Hash}
      (h : s.sender = .record i k blockData hash)
      (hcompress : out.compress blockData (some compressed)) :
      Step job out s .sender
        { s with
          manager := (s.manager.setBlockHash (UInt64.ofNat i) hash).2
          totalCompressed := s.totalCompressed + compressed.length
          sender := .send i k (job.message i compressed hash) }
  | send {s : Pipeline σ} {i k : Nat} {message : ClientMessage} (h : s.sender = .send i k message)
      (hsend : out.sendBlockNoWait message true) :
      Step job out s .sender
        { s with
          outgoing := s.outgoing ++ [message]
          sent := s.sent ++ [message]
          sender := .count i }
  | sendFails {s : Pipeline σ} {i k : Nat} {message : ClientMessage}
      (h : s.sender = .send i k message) (hsend : out.sendBlockNoWait message false) :
      Step job out s .sender { s with sender := .abandon i k }
  -- the answer may have been handled before this
  | count {s : Pipeline σ} {i : Nat} (h : s.sender = .count i) :
      Step job out s .sender
        { s with
          sentCount := s.sentCount + 1
          inFlightCount := s.inFlightCount + 1
          sender := .turn (i + 1) }
  | skip {s : Pipeline σ} {i k : Nat} (h : s.sender = .skip i k) :
      Step job out s .sender
        { s with
          window := freeSlot s.window k
          failedBlocks := s.failedBlocks + 1
          skippedCount := s.skippedCount + 1
          sender := .turn (i + 1) }
  | abandon {s : Pipeline σ} {i k : Nat} (h : s.sender = .abandon i k) :
      Step job out s .sender
        { s with
          window := freeSlot s.window k
          sender := .fail i }
  | fail {s : Pipeline σ} {i : Nat} (h : s.sender = .fail i) :
      Step job out s .sender
        { s with
          pipelineError := true
          sender := .drain i }
  -- `WaitForAllAcks`, when there is something to wait for
  | awaited {s : Pipeline σ} {i : Nat} (h : s.sender = .drain i) (hzero : s.inFlightCount ≤ 0) :
      Step job out s .sender { s with sender := .stop i true }
  | interrupted {s : Pipeline σ} {i : Nat} (h : s.sender = .drain i) (hpos : 0 < s.inFlightCount)
      (herror : s.pipelineError = true) :
      Step job out s .sender { s with sender := .stop i false }
  | giveUp {s : Pipeline σ} {i : Nat} (h : s.sender = .drain i) (hpos : 0 < s.inFlightCount)
      (htimesOut : out.timesOut) :
      Step job out s .sender { s with sender := .stop i false }
  -- `StopAckReceiver` joins the thread at the top of its loop
  | join {s : Pipeline σ} {i : Nat} {awaited : Bool} (h : s.sender = .stop i awaited)
      (hr : s.receiver = .wait ∨ s.receiver = .stopped) :
      Step job out s .sender
        { s with
          sender := .done i awaited
          receiver := .stopped }
  -- `AckReceiverLoop`
  | receive {s : Pipeline σ} {ack : AckBody} (h : s.receiver = .wait)
      (hread : readAck s.incoming = .ack ack) (hblock : ack.blockIndex ≠ connectionError) :
      Step job out s .receiver
        { s with
          incoming := s.incoming.drop (headerSize + ackBodySize)
          received := s.received ++ [ack]
          receiver := .setAck ack }
  | receiveError {s : Pipeline σ} {ack : AckBody} (h : s.receiver = .wait)
      (hread : readAck s.incoming = .ack ack) (hblock : ack.blockIndex = connectionError) :
      Step job out s .receiver
        { s with
          incoming := s.incoming.drop (headerSize + ackBodySize)
          received := s.received ++ [ack]
          pipelineError := true }
  | receiveBad {s : Pipeline σ} (h : s.receiver = .wait) (hread : readAck s.incoming = .bad) :
      Step job out s .receiver
        { s with
          pipelineError := true
          receiver := .stopped }
  | receiveFails {s : Pipeline σ} (h : s.receiver = .wait) (hfails : out.receiveFails) :
      Step job out s .receiver
        { s with
          pipelineError := true
          receiver := .stopped }
  -- the callback
  | setAck {s : Pipeline σ} {ack : AckBody} (h : s.receiver = .setAck ack) :
      Step job out s .receiver
        { s with
          manager := (s.manager.setBlockAck ack.blockIndex (ackStatusOf ack)).2
          receiver := .count ack }
  | countAck {s : Pipeline σ} {ack : AckBody} (h : s.receiver = .count ack) :
      Step job out s .receiver
        { s with
          ackedCount := s.ackedCount + if ack.status = 0 then 1 else 0
          failedCount := s.failedCount + if ack.status = 0 then 0 else 1
          receiver := .release ack }
  | release {s : Pipeline σ} {ack : AckBody} (h : s.receiver = .release ack) :
      Step job out s .receiver
        { s with
          window := (releaseSlot s.window ack.blockIndex).2
          receiver := .decrement (releaseSlot s.window ack.blockIndex).1 }
  | decrement {s : Pipeline σ} {released : Bool} (h : s.receiver = .decrement released) :
      Step job out s .receiver
        { s with
          inFlightCount := s.inFlightCount - if released then 1 else 0
          receiver := .wait }
  -- the other end
  | serve {s : Pipeline σ} {reply : Bytes} {server : σ} {outgoing : List ClientMessage}
      (h : out.serve s.server s.outgoing reply server outgoing) :
      Step job out s .server
        { s with
          outgoing
          incoming := s.incoming ++ reply
          server }

/-- **The client does not see its server**: a step is one of the client, that it could take with any
other server, or one of the server. -/
theorem Step.client_or_serve {σ τ : Type} {job : Job} {out : Outside σ} {s t : Pipeline σ}
    {p : Party} (hst : Step job out s p t)
    (serve : τ → List ClientMessage → Bytes → τ → List ClientMessage → Prop) :
    (t.server = s.server ∧
      ∀ server, Step job (out.servedBy serve) (s.withServer server) p (t.withServer server)) ∨
    ∃ reply server outgoing, out.serve s.server s.outgoing reply server outgoing ∧ p = .server ∧
      t = { s with outgoing, incoming := s.incoming ++ reply, server } := by
  cases hst with
  | finish h hi => exact .inl ⟨rfl, fun _ => .finish h hi⟩
  | abort h hi herror => exact .inl ⟨rfl, fun _ => .abort h hi herror⟩
  | timeout h hi hnone htimesOut => exact .inl ⟨rfl, fun _ => .timeout h hi hnone htimesOut⟩
  | acquire h hi herror hk => exact .inl ⟨rfl, fun _ => .acquire h hi herror hk⟩
  | bind h => exact .inl ⟨rfl, fun _ => .bind h⟩
  | readFails h hread => exact .inl ⟨rfl, fun _ => .readFails h hread⟩
  | hashFails h hread hhash => exact .inl ⟨rfl, fun _ => .hashFails h hread hhash⟩
  | read h hread hhash => exact .inl ⟨rfl, fun _ => .read h hread hhash⟩
  | compressFails h hcompress => exact .inl ⟨rfl, fun _ => .compressFails h hcompress⟩
  | compress h hcompress => exact .inl ⟨rfl, fun _ => .compress h hcompress⟩
  | send h hsend => exact .inl ⟨rfl, fun _ => .send h hsend⟩
  | sendFails h hsend => exact .inl ⟨rfl, fun _ => .sendFails h hsend⟩
  | count h => exact .inl ⟨rfl, fun _ => .count h⟩
  | skip h => exact .inl ⟨rfl, fun _ => .skip h⟩
  | abandon h => exact .inl ⟨rfl, fun _ => .abandon h⟩
  | fail h => exact .inl ⟨rfl, fun _ => .fail h⟩
  | awaited h hzero => exact .inl ⟨rfl, fun _ => .awaited h hzero⟩
  | interrupted h hpos herror => exact .inl ⟨rfl, fun _ => .interrupted h hpos herror⟩
  | giveUp h hpos htimesOut => exact .inl ⟨rfl, fun _ => .giveUp h hpos htimesOut⟩
  | join h hr => exact .inl ⟨rfl, fun _ => .join h hr⟩
  | receive h hread hblock => exact .inl ⟨rfl, fun _ => .receive h hread hblock⟩
  | receiveError h hread hblock => exact .inl ⟨rfl, fun _ => .receiveError h hread hblock⟩
  | receiveBad h hread => exact .inl ⟨rfl, fun _ => .receiveBad h hread⟩
  | receiveFails h hfails => exact .inl ⟨rfl, fun _ => .receiveFails h hfails⟩
  | setAck h => exact .inl ⟨rfl, fun _ => .setAck h⟩
  | countAck h => exact .inl ⟨rfl, fun _ => .countAck h⟩
  | release h => exact .inl ⟨rfl, fun _ => .release h⟩
  | decrement h => exact .inl ⟨rfl, fun _ => .decrement h⟩
  | serve h => exact .inr ⟨_, _, _, h, rfl, rfl⟩

/-- A state that the transfer can reach. -/
def Reached {σ : Type} (job : Job) (out : Outside σ) (init s : Pipeline σ) : Prop :=
  Transition.Reachable (Step job out) (· = init) s

/-- The fields of `BackupStats` that the transfer sets. -/
structure BackupStats where
  sentBlocks : Nat
  ackedBlocks : Nat
  failedBlocks : Nat
  skippedBlocks : Nat
  compressedBytes : Nat
  deriving DecidableEq, Repr

/-- What the transfer reports. -/
def Pipeline.stats {σ : Type} (s : Pipeline σ) : BackupStats :=
  { sentBlocks := s.sentCount
    ackedBlocks := s.ackedCount
    failedBlocks := s.failedBlocks + s.failedCount
    skippedBlocks := s.skippedCount
    compressedBytes := s.totalCompressed }

theorem ackStatusOf_eq_acknowledged_iff {ack : AckBody} :
    ackStatusOf ack = .acknowledged ↔ ack.status = 0 := by
  rw [ackStatusOf]
  split
  · next h => exact iff_of_true rfl h
  · next h => exact iff_of_false nofun h

section Prepared

variable (m : BlockStateManager) (snapshotTime now totalBlocks totalSize : UInt64)

theorem find?_createVersion :
    (m.createVersion [70, 85, 76, 76] snapshotTime now totalBlocks totalSize).2.versions.find?
        m.nextVersionId.toNat
      = some (m.createVersion [70, 85, 76, 76] snapshotTime now totalBlocks totalSize).1 :=
  SortedMap.find?_insert_self _ _ _

/-- All blocks are there, and none is acknowledged. -/
theorem blocks_prepare :
    (prepare m snapshotTime now totalBlocks totalSize).2.blocks
      = (List.range totalBlocks.toNat).map
          (BlockStateManager.fullBlock m.nextVersionId .zero) := by
  rw [prepare, BlockStateManager.initFullBlocksEmpty]
  dsimp only
  rw [show (m.createVersion [70, 85, 76, 76] snapshotTime now totalBlocks totalSize).1.versionId
    = m.nextVersionId from rfl, find?_createVersion]

theorem ack_prepare : ∀ bs ∈ (prepare m snapshotTime now totalBlocks totalSize).2.blocks,
    bs.ack ≠ .acknowledged := by
  rw [blocks_prepare]
  intro bs hbs
  obtain ⟨i, -, rfl⟩ := List.mem_map.mp hbs
  exact AckStatus.noConfusion

/-- So does their version say. -/
theorem versions_prepare :
    ∃ ver, (prepare m snapshotTime now totalBlocks totalSize).2.versions.find?
        m.nextVersionId.toNat = some ver ∧ ver.ackedBlocks = 0 := by
  rw [prepare, BlockStateManager.initFullBlocksEmpty]
  dsimp only
  rw [show (m.createVersion [70, 85, 76, 76] snapshotTime now totalBlocks totalSize).1.versionId
    = m.nextVersionId from rfl, find?_createVersion]
  dsimp only
  rw [SortedMap.find?_modify, if_pos rfl, find?_createVersion]
  exact ⟨_, rfl, rfl⟩

end Prepared

end Go2Cbt.Engine
