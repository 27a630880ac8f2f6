import Go2Cbt.Client.AckRange
import Go2Cbt.Engine.Pipeline
import Go2Cbt.Engine.Transfer

/-!
# Engine — the synchronous transfer, step by step

`TransferBlocks` with the other end at its own pace: the client sends a block and waits, and in the
meantime the server handles what is on its way.  A step is what one of the two does between two
accesses of the connection.  Once a call of `send` or `recv` fails the client uses the connection no
more, but what it has sent may still be handled.

The outside is that of the pipeline, without the hash, which the block state has.
-/

namespace Go2Cbt.Engine

open Go2Cbt.Client Go2Cbt.Protocol

/-- Where `TransferBlocks` is: at the top of its loop, in the retry loop, or in `ReceiveAck`, with
the blocks still to come. -/
inductive SyncPoint where
  | block (todo : List BlockState)
  | attempt (message : ClientMessage) (retry : Nat) (todo : List BlockState)
  | wait (message : ClientMessage) (retry : Nat) (todo : List BlockState)

/-- What is so of the message that the retry loop has at hand. -/
def SyncPoint.AtHand (P : ClientMessage → Prop) : SyncPoint → Prop
  | .block _ => True
  | .attempt m _ _ | .wait m _ _ => P m

/-- The arguments of `TransferBlocks` that do not change. -/
structure SyncJob where
  retryCount : Int
  devNo : UInt32
  versionId : UInt32
  totalBlocks : UInt64
  deriving DecidableEq, Repr

/-- The message of a block. -/
def SyncJob.message (job : SyncJob) (block : BlockState) (compressed : Bytes) : ClientMessage :=
  .block job.devNo block.blockIndex (transferSize job.totalBlocks block.place) compressed block.hash
    job.versionId

/-- The state of a transfer.  `sent` and `acknowledged` are the history: the messages that were
sent, and those whose blocks were recorded as acknowledged. -/
structure Synchronous (σ : Type) where
  manager : BlockStateManager
  connected : Bool
  point : SyncPoint
  outgoing : List ClientMessage
  incoming : Bytes
  server : σ
  sent : List ClientMessage
  acknowledged : List ClientMessage

variable {σ : Type}

/-- The state in which the loop starts. -/
def Synchronous.start (manager : BlockStateManager) (server : σ) : Synchronous σ :=
  { manager
    connected := true
    point := .block manager.getPendingBlocks
    outgoing := []
    incoming := []
    server
    sent := []
    acknowledged := [] }

/-- The transfer with another server. -/
def Synchronous.withServer {τ : Type} (s : Synchronous σ) (server : τ) : Synchronous τ :=
  { manager := s.manager
    connected := s.connected
    point := s.point
    outgoing := s.outgoing
    incoming := s.incoming
    server
    sent := s.sent
    acknowledged := s.acknowledged }

/-- `SendBlock` has returned false: the block is recorded as failed, and the retry loop goes on. -/
def Synchronous.fail (s : Synchronous σ) (message : ClientMessage) (retry : Nat)
    (todo : List BlockState) : Synchronous σ :=
  { s with
    manager := (s.manager.setBlockAck (blockIndexOf message) .failed).2
    point := .attempt message (retry + 1) todo }

/-- One step. -/
inductive SyncStep (job : SyncJob) (out : Outside σ) :
    Synchronous σ → Party → Synchronous σ → Prop where
  | readFails {s : Synchronous σ} {b : BlockState} {todo : List BlockState}
      (h : s.point = .block (b :: todo))
      (hread : out.readFile b.offset (transferSize job.totalBlocks b.place) none) :
      SyncStep job out s .sender { s with point := .block todo }
  | compressFails {s : Synchronous σ} {b : BlockState} {todo : List BlockState} {blockData : Bytes}
      (h : s.point = .block (b :: todo))
      (hread : out.readFile b.offset (transferSize job.totalBlocks b.place) (some blockData))
      (hcompress : out.compress blockData none) :
      SyncStep job out s .sender { s with point := .block todo }
  | compress {s : Synchronous σ} {b : BlockState} {todo : List BlockState}
      {blockData compressed : Bytes} (h : s.point = .block (b :: todo))
      (hread : out.readFile b.offset (transferSize job.totalBlocks b.place) (some blockData))
      (hcompress : out.compress blockData (some compressed)) :
      SyncStep job out s .sender { s with point := .attempt (job.message b compressed) 0 todo }
  -- the condition of the retry loop
  | exhausted {s : Synchronous σ} {message : ClientMessage} {retry : Nat} {todo : List BlockState}
      (h : s.point = .attempt message retry todo) (hretry : job.retryCount < retry) :
      SyncStep job out s .sender { s with point := .block todo }
  -- `SendBlock`
  | unconnected {s : Synchronous σ} {message : ClientMessage} {retry : Nat}
      {todo : List BlockState} (h : s.point = .attempt message retry todo)
      (hretry : retry ≤ job.retryCount) (hlost : s.connected = false) :
      SyncStep job out s .sender (s.fail message retry todo)
  | sendFails {s : Synchronous σ} {message : ClientMessage} {retry : Nat} {todo : List BlockState}
      (h : s.point = .attempt message retry todo) (hretry : retry ≤ job.retryCount)
      (hconnected : s.connected = true) (hsend : out.sendBlockNoWait message false) :
      SyncStep job out s .sender { s.fail message retry todo with connected := false }
  | send {s : Synchronous σ} {message : ClientMessage} {retry : Nat} {todo : List BlockState}
      (h : s.point = .attempt message retry todo) (hretry : retry ≤ job.retryCount)
      (hconnected : s.connected = true) (hsend : out.sendBlockNoWait message true) :
      SyncStep job out s .sender
        { s with
          outgoing := s.outgoing ++ [message]
          sent := s.sent ++ [message]
          point := .wait message retry todo }
  -- `ReceiveAck`
  | receiveFails {s : Synchronous σ} {message : ClientMessage} {retry : Nat}
      {todo : List BlockState} (h : s.point = .wait message retry todo)
      (hfails : out.receiveFails) :
      SyncStep job out s .sender { s.fail message retry todo with connected := false }
  | receiveBad {s : Synchronous σ} {message : ClientMessage} {retry : Nat} {todo : List BlockState}
      (h : s.point = .wait message retry todo) (hread : readAck s.incoming = .bad) :
      SyncStep job out s .sender
        { s.fail message retry todo with incoming := s.incoming.drop headerSize }
  | refused {s : Synchronous σ} {message : ClientMessage} {retry : Nat} {todo : List BlockState}
      {ack : AckBody} (h : s.point = .wait message retry todo)
      (hread : readAck s.incoming = .ack ack) (hstatus : ack.status ≠ 0) :
      SyncStep job out s .sender
        { s.fail message retry todo with
          incoming := s.incoming.drop (headerSize + ackBodySize) }
  | accepted {s : Synchronous σ} {message : ClientMessage} {retry : Nat} {todo : List BlockState}
      {ack : AckBody} (h : s.point = .wait message retry todo)
      (hread : readAck s.incoming = .ack ack) (hstatus : ack.status = 0) :
      SyncStep job out s .sender
        { s with
          incoming := s.incoming.drop (headerSize + ackBodySize)
          manager := (s.manager.setBlockAck (blockIndexOf message) .acknowledged).2
          acknowledged := s.acknowledged ++ [message]
          point := .block todo }
  -- the other end
  | serve {s : Synchronous σ} {reply : Bytes} {server : σ} {outgoing : List ClientMessage}
      (h : out.serve s.server s.outgoing reply server outgoing) :
      SyncStep job out s .server
        { s with
          outgoing
          incoming := s.incoming ++ reply
          server }

/-- **The client does not see its server**: a step is one of the client, that it could take with any
other server, or one of the server. -/
theorem SyncStep.client_or_serve {τ : Type} {job : SyncJob} {out : Outside σ} {s t : Synchronous σ}
    {p : Party} (hst : SyncStep job out s p t)
    (serve : τ → List ClientMessage → Bytes → τ → List ClientMessage → Prop) :
    (t.server = s.server ∧
      ∀ server, SyncStep job (out.servedBy serve) (s.withServer server) p (t.withServer server)) ∨
    ∃ reply server outgoing, out.serve s.server s.outgoing reply server outgoing ∧ p = .server ∧
      t = { s with outgoing, incoming := s.incoming ++ reply, server } := by
  cases hst with
  | readFails h hread => exact .inl ⟨rfl, fun _ => .readFails h hread⟩
  | compressFails h hread hcompress => exact .inl ⟨rfl, fun _ => .compressFails h hread hcompress⟩
  | compress h hread hcompress => exact .inl ⟨rfl, fun _ => .compress h hread hcompress⟩
  | exhausted h hretry => exact .inl ⟨rfl, fun _ => .exhausted h hretry⟩
  | unconnected h hretry hlost => exact .inl ⟨rfl, fun _ => .unconnected h hretry hlost⟩
  | sendFails h hretry hconnected hsend =>
      exact .inl ⟨rfl, fun _ => .sendFails h hretry hconnected hsend⟩
  | send h hretry hconnected hsend => exact .inl ⟨rfl, fun _ => .send h hretry hconnected hsend⟩
  | receiveFails h hfails => exact .inl ⟨rfl, fun _ => .receiveFails h hfails⟩
  | receiveBad h hread => exact .inl ⟨rfl, fun _ => .receiveBad h hread⟩
  | refused h hread hstatus => exact .inl ⟨rfl, fun _ => .refused h hread hstatus⟩
  | accepted h hread hstatus => exact .inl ⟨rfl, fun _ => .accepted h hread hstatus⟩
  | serve h => exact .inr ⟨_, _, _, h, rfl, rfl⟩

/-- A state that the transfer can reach. -/
def SyncReached (job : SyncJob) (out : Outside σ) (init s : Synchronous σ) : Prop :=
  Transition.Reachable (SyncStep job out) (· = init) s

end Go2Cbt.Engine
