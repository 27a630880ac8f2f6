import Go2Cbt.Client.BlockState

/-!
# Engine — the synchronous transfer

`BackupEngine::TransferBlocks` with the retry loop and `NetworkClient::SendBlock`: each pending
block is read, compressed and sent, and the client waits for the answer before the next.  A
block that cannot be read or compressed is skipped, a refused one is sent again up to
`RetryCount` times, and a lost connection makes every later send fail at once.

Reads and compressions can fail at any block and the network at any attempt, so these take the
number of the block in the list and of the attempt.  The network carries a state of its own.
-/

namespace Go2Cbt.Engine

open Go2Cbt.Client

/-- A `DATA_BLOCK` message. -/
structure BlockMessage where
  devNo : UInt32
  blockIndex : UInt64
  dataSize : UInt32
  hash : Hash
  versionId : UInt32
  payload : Bytes
  deriving DecidableEq

/-- How one exchange with the server ends: an acknowledgement with status 0, a refusal that
leaves the connection up, or a socket error. -/
inductive SendResult where
  | acked
  | refused
  | lost
  deriving DecidableEq, Repr

/-- What the transfer needs of the outside: the data source, the compressor and the server. -/
structure TransferOps (σ : Type) where
  readSource : Nat → UInt64 → UInt32 → Option Bytes
  compress : Nat → Bytes → Option Bytes
  exchange : Nat → Nat → BlockMessage → σ → SendResult × σ

/-- The parts of `BackupConfig` the transfer reads. -/
structure TransferConfig where
  dryRun : Bool
  retryCount : Int
  deriving DecidableEq, Repr

/-- The state of a transfer, with `stats.AckedBlocks`.  The rest is history: the blocks that the
server acknowledged, those that the loop came to, and the turns of the retry loop with what
`SendBlock` returned. -/
structure TransferState (σ : Type) where
  manager : BlockStateManager
  connected : Bool
  net : σ
  sentCount : Nat
  ackedBlocks : Nat
  acknowledged : List UInt64
  visited : List UInt64
  tries : List (UInt64 × Bool)

variable {σ : Type}

/-- `NetworkClient::SendBlock`. -/
def sendBlock (ops : TransferOps σ) (pos retry : Nat) (msg : BlockMessage)
    (s : TransferState σ) : Bool × TransferState σ :=
  if s.connected then
    match ops.exchange pos retry msg s.net with
    | (.acked, net) =>
        (true, { s with net := net, acknowledged := s.acknowledged ++ [msg.blockIndex] })
    | (.refused, net) => (false, { s with net := net })
    | (.lost, net) => (false, { s with net := net, connected := false })
  else (false, s)

/-- `SimulatedAck`. -/
def simulatedAck (blockIndex : UInt64) (s : TransferState σ) : Bool × TransferState σ :=
  (true, { s with manager := (s.manager.setBlockAck blockIndex .acknowledged).2 })

/-- The retry loop, with `left` attempts to go. -/
def retryFrom (config : TransferConfig) (ops : TransferOps σ) (pos : Nat) (msg : BlockMessage) :
    (left retry : Nat) → TransferState σ → TransferState σ
  | 0, _, s => s
  | left + 1, retry, s =>
      let sent := if config.dryRun then simulatedAck msg.blockIndex s
        else sendBlock ops pos retry msg s
      if sent.1 then
        { sent.2 with
          manager := (sent.2.manager.setBlockAck msg.blockIndex .acknowledged).2
          sentCount := sent.2.sentCount + 1
          ackedBlocks := sent.2.ackedBlocks + 1
          tries := sent.2.tries ++ [(msg.blockIndex, true)] }
      else
        retryFrom config ops pos msg left (retry + 1)
          { sent.2 with
            manager := (sent.2.manager.setBlockAck msg.blockIndex .failed).2
            tries := sent.2.tries ++ [(msg.blockIndex, false)] }

/-- The attempts the retry loop makes at most. -/
def TransferConfig.attempts (config : TransferConfig) : Nat := (config.retryCount + 1).toNat

/-- The size `TransferBlocks` reads for a block. -/
def transferSize (totalBlocks : UInt64) (place : UInt64 × UInt64) : UInt32 :=
  let remain := totalBlocks * UInt64.ofNat blockSize - place.2
  if place.1 = totalBlocks - 1 ∧ remain < UInt64.ofNat blockSize then remain.toUInt32
  else UInt32.ofNat blockSize

/-- The loop comes to a block. -/
def TransferState.visit (s : TransferState σ) (blockIndex : UInt64) : TransferState σ :=
  { s with visited := s.visited ++ [blockIndex] }

/-- The body of the loop of `TransferBlocks`.  A dry run goes on with a zeroed buffer when the
read fails. -/
def transferBlock (config : TransferConfig) (ops : TransferOps σ) (devNo versionId : UInt32)
    (totalBlocks : UInt64) (pos : Nat) (block : BlockState) (s : TransferState σ) :
    TransferState σ :=
  let size := transferSize totalBlocks block.place
  match ops.readSource pos block.offset size, config.dryRun with
  | none, false => s.visit block.blockIndex
  | read, _ =>
      let blockData := read.getD (List.replicate size.toNat 0)
      match ops.compress pos blockData with
      | none => s.visit block.blockIndex
      | some compressed =>
          retryFrom config ops pos
            { devNo := devNo
              blockIndex := block.blockIndex
              dataSize := size
              hash := block.hash
              versionId := versionId
              payload := compressed }
            config.attempts 0 (s.visit block.blockIndex)

/-- The loop of `TransferBlocks` from its `pos`-th block on. -/
def transferFrom (config : TransferConfig) (ops : TransferOps σ) (devNo versionId : UInt32)
    (totalBlocks : UInt64) : (pos : Nat) → List BlockState → TransferState σ → TransferState σ
  | _, [], s => s
  | pos, block :: rest, s =>
      transferFrom config ops devNo versionId totalBlocks (pos + 1) rest
        (transferBlock config ops devNo versionId totalBlocks pos block s)

/-- `TransferBlocks`. -/
def transferBlocks (config : TransferConfig) (ops : TransferOps σ) (devNo versionId : UInt32)
    (totalBlocks : UInt64) (s : TransferState σ) : TransferState σ :=
  transferFrom config ops devNo versionId totalBlocks 0 s.manager.getPendingBlocks s

/-! ### A call of `SendBlock` -/

/-- It touches the connection only. -/
theorem sendBlock_keeps (ops : TransferOps σ) (pos retry : Nat) (msg : BlockMessage)
    (s : TransferState σ) :
    (sendBlock ops pos retry msg s).2.manager = s.manager ∧
      (sendBlock ops pos retry msg s).2.visited = s.visited ∧
      (sendBlock ops pos retry msg s).2.tries = s.tries ∧
      (sendBlock ops pos retry msg s).2.sentCount = s.sentCount ∧
      (sendBlock ops pos retry msg s).2.ackedBlocks = s.ackedBlocks := by
  rw [sendBlock]
  split
  · split <;> exact ⟨rfl, rfl, rfl, rfl, rfl⟩
  · exact ⟨rfl, rfl, rfl, rfl, rfl⟩

/-- It lists its block when it succeeds. -/
theorem acknowledged_sendBlock (ops : TransferOps σ) (pos retry : Nat) (msg : BlockMessage)
    (s : TransferState σ) :
    (sendBlock ops pos retry msg s).2.acknowledged
      = if (sendBlock ops pos retry msg s).1 then s.acknowledged ++ [msg.blockIndex]
        else s.acknowledged := by
  rw [sendBlock]
  cases s.connected with
  | false => rfl
  | true =>
      rw [if_pos rfl]
      cases ops.exchange pos retry msg s.net with
      | mk a net => cases a <;> rfl

/-! ### A dry run -/

theorem retryFrom_of_dryRun {config : TransferConfig} (hdry : config.dryRun = true)
    (ops : TransferOps σ) (pos : Nat) (msg : BlockMessage) (left retry : Nat)
    (s : TransferState σ) :
    (retryFrom config ops pos msg left retry s).acknowledged = s.acknowledged ∧
      (retryFrom config ops pos msg left retry s).net = s.net := by
  cases left with
  | zero => exact ⟨rfl, rfl⟩
  | succ left => rw [retryFrom, hdry]; exact ⟨rfl, rfl⟩

/-- The server acknowledges nothing in a dry run, and is sent nothing. -/
theorem transferBlocks_of_dryRun {config : TransferConfig} (hdry : config.dryRun = true)
    (ops : TransferOps σ) (devNo versionId : UInt32) (totalBlocks : UInt64)
    (s : TransferState σ) :
    (transferBlocks config ops devNo versionId totalBlocks s).acknowledged = s.acknowledged ∧
      (transferBlocks config ops devNo versionId totalBlocks s).net = s.net := by
  have hturn : ∀ (pos : Nat) (block : BlockState) (s : TransferState σ),
      (transferBlock config ops devNo versionId totalBlocks pos block s).acknowledged
          = s.acknowledged ∧
        (transferBlock config ops devNo versionId totalBlocks pos block s).net = s.net := by
    intro pos block s
    rw [transferBlock, hdry]
    split
    · exact ⟨rfl, rfl⟩
    · dsimp only
      split
      · exact ⟨rfl, rfl⟩
      · exact retryFrom_of_dryRun hdry ops pos _ _ _ (s.visit block.blockIndex)
  have hloop : ∀ (blocks : List BlockState) (pos : Nat) (s : TransferState σ),
      (transferFrom config ops devNo versionId totalBlocks pos blocks s).acknowledged
          = s.acknowledged ∧
        (transferFrom config ops devNo versionId totalBlocks pos blocks s).net = s.net := by
    intro blocks
    induction blocks with
    | nil => exact fun _ _ => ⟨rfl, rfl⟩
    | cons block rest ih =>
        intro pos s
        obtain ⟨hacked, hnet⟩ := hturn pos block s
        rw [transferFrom, (ih _ _).1, (ih _ _).2]
        exact ⟨hacked, hnet⟩
  exact hloop _ _ s

/-! ### The retry loop against any server -/

section Retry

variable {config : TransferConfig} (hdry : config.dryRun = false) {ops : TransferOps σ}
  {pos : Nat} {msg : BlockMessage}
include hdry

/-- A block that is acknowledged is sent once. -/
theorem retryFrom_of_acked {retry : Nat} {s : TransferState σ} {net : σ}
    (hconnected : s.connected = true) (h : ops.exchange pos retry msg s.net = (.acked, net))
    (left : Nat) :
    (retryFrom config ops pos msg (left + 1) retry s).connected = true ∧
      (retryFrom config ops pos msg (left + 1) retry s).net = net := by
  have hsent : sendBlock ops pos retry msg s
      = (true, { s with net, acknowledged := s.acknowledged ++ [msg.blockIndex] }) := by
    rw [sendBlock, if_pos hconnected, h]
  rw [retryFrom, hdry, if_neg Bool.false_ne_true, hsent, if_pos rfl]
  exact ⟨hconnected, rfl⟩

/-- A block that is always refused changes nothing that a refusal keeps. -/
theorem retryFrom_of_refused {P : σ → Prop}
    (hrefused : ∀ retry net, P net → ∃ net', ops.exchange pos retry msg net = (.refused, net') ∧
      P net')
    (left retry : Nat) {s : TransferState σ} (hconnected : s.connected = true) (h : P s.net) :
    (retryFrom config ops pos msg left retry s).connected = true ∧
      P (retryFrom config ops pos msg left retry s).net := by
  induction left generalizing retry s with
  | zero => exact ⟨hconnected, h⟩
  | succ left ih =>
      obtain ⟨net', hexchange, hnet'⟩ := hrefused retry s.net h
      have hsent : sendBlock ops pos retry msg s = (false, { s with net := net' }) := by
        rw [sendBlock, if_pos hconnected, hexchange]
      rw [retryFrom, hdry, if_neg Bool.false_ne_true, hsent, if_neg Bool.false_ne_true]
      exact ih _ hconnected hnet'

/-- A block that is read and compressed is sent. -/
theorem transferBlock_of_read {totalBlocks : UInt64} {block : BlockState} {size : UInt32}
    {data compressed : Bytes} (hsize : transferSize totalBlocks block.place = size)
    (hread : ops.readSource pos block.offset size = some data)
    (hcompress : ops.compress pos data = some compressed) (devNo versionId : UInt32)
    (s : TransferState σ) :
    transferBlock config ops devNo versionId totalBlocks pos block s
      = retryFrom config ops pos
          { devNo
            blockIndex := block.blockIndex
            dataSize := size
            hash := block.hash
            versionId
            payload := compressed }
          config.attempts 0 (s.visit block.blockIndex) := by
  rw [transferBlock, hsize, hread, hdry]
  dsimp only
  rw [Option.getD_some, hcompress]

end Retry

/-! ### A transfer against a fixed pattern of failures -/

/-- A pattern of failures: what each read and each compression gives, and how each attempt to
send ends. -/
structure Faults where
  readSource : Nat → UInt64 → UInt32 → Option Bytes
  compress : Nat → Bytes → Option Bytes
  answer : Nat → Nat → SendResult

/-- The outside that fails in that pattern. -/
def Faults.ops (f : Faults) : TransferOps Unit where
  readSource := f.readSource
  compress := f.compress
  exchange pos retry _ _ := (f.answer pos retry, ())

/-- The answer that ends the retry loop: the first that is not a refusal. -/
def firstAnswer (answer : Nat → SendResult) : (left retry : Nat) → SendResult
  | 0, _ => .refused
  | left + 1, retry =>
      match answer retry with
      | .refused => firstAnswer answer left (retry + 1)
      | a => a

/-- The `pos`-th block is read and compressed. -/
def Faults.Sendable (f : Faults) (totalBlocks : UInt64) (pos : Nat) (place : UInt64 × UInt64) :
    Prop :=
  ∃ data ∈ f.readSource pos place.2 (transferSize totalBlocks place),
    (f.compress pos data).isSome

/-- How the `pos`-th block comes out on a live connection. -/
def Faults.Outcome (f : Faults) (config : TransferConfig) (totalBlocks : UInt64) (pos : Nat)
    (place : UInt64 × UInt64) (a : SendResult) : Prop :=
  f.Sendable totalBlocks pos place ∧ firstAnswer (f.answer pos) config.attempts 0 = a

/-- Block `i` is among the blocks to send, it is read, compressed and acknowledged, and no block
before it loses the connection. -/
def Faults.Delivers (f : Faults) (config : TransferConfig) (totalBlocks : UInt64) (pos : Nat)
    (places : List (UInt64 × UInt64)) (i : UInt64) : Prop :=
  ∃ k place, places[k]? = some place ∧ place.1 = i ∧
    f.Outcome config totalBlocks (pos + k) place .acked ∧
    ∀ j < k, ∀ q ∈ places[j]?, ¬ f.Outcome config totalBlocks (pos + j) q .lost

/-- Once the connection is lost every attempt fails. -/
theorem retryFrom_of_not_connected {config : TransferConfig} (hdry : config.dryRun = false)
    (ops : TransferOps σ) (pos : Nat) (msg : BlockMessage) (left retry : Nat)
    {s : TransferState σ} (hs : s.connected = false) :
    (retryFrom config ops pos msg left retry s).acknowledged = s.acknowledged ∧
      (retryFrom config ops pos msg left retry s).connected = false := by
  induction left generalizing retry s with
  | zero => exact ⟨rfl, hs⟩
  | succ left ih =>
      have hsend : sendBlock ops pos retry msg s = (false, s) := by
        rw [sendBlock, hs]; rfl
      rw [retryFrom, hdry]
      simp only [Bool.false_eq_true, if_false, hsend]
      exact ih (retry + 1) hs

/-- The retry loop ends with the first answer that is not a refusal. -/
theorem retryFrom_spec {config : TransferConfig} (hdry : config.dryRun = false) (f : Faults)
    (pos : Nat) (msg : BlockMessage) (left retry : Nat) {s : TransferState Unit}
    (hs : s.connected = true) :
    (retryFrom config f.ops pos msg left retry s).acknowledged
        = (if firstAnswer (f.answer pos) left retry = .acked then
            s.acknowledged ++ [msg.blockIndex] else s.acknowledged) ∧
      (retryFrom config f.ops pos msg left retry s).connected
        = decide (firstAnswer (f.answer pos) left retry ≠ .lost) := by
  induction left generalizing retry s with
  | zero => exact ⟨rfl, hs⟩
  | succ left ih =>
      rw [retryFrom, firstAnswer, hdry]
      simp only [Bool.false_eq_true, if_false, sendBlock, hs, if_true, Faults.ops]
      cases f.answer pos retry with
      | acked => exact ⟨rfl, rfl⟩
      | refused => exact ih (retry + 1) rfl
      | lost =>
          exact retryFrom_of_not_connected hdry f.ops pos msg left (retry + 1) rfl

/-- What one turn of the loop does to the acknowledged blocks and to the connection. -/
theorem transferBlock_spec {config : TransferConfig} (hdry : config.dryRun = false) (f : Faults)
    (devNo versionId : UInt32) (totalBlocks : UInt64) (pos : Nat) (block : BlockState)
    {s : TransferState Unit} (hs : s.connected = true) :
    let t := transferBlock config f.ops devNo versionId totalBlocks pos block s
    (∀ i, i ∈ t.acknowledged ↔ i ∈ s.acknowledged ∨
        (i = block.blockIndex ∧ f.Outcome config totalBlocks pos block.place .acked)) ∧
      (t.connected = true ↔ ¬ f.Outcome config totalBlocks pos block.place .lost) := by
  intro t
  by_cases hsend : f.Sendable totalBlocks pos block.place
  · obtain ⟨data, hread, hcompress⟩ := hsend
    obtain ⟨compressed, hcompress'⟩ := Option.isSome_iff_exists.mp hcompress
    have hout : ∀ a, f.Outcome config totalBlocks pos block.place a ↔
        firstAnswer (f.answer pos) config.attempts 0 = a :=
      fun a => ⟨And.right, fun h => ⟨⟨data, hread, hcompress⟩, h⟩⟩
    have ht : t = retryFrom config f.ops pos
        { devNo := devNo
          blockIndex := block.blockIndex
          dataSize := transferSize totalBlocks block.place
          hash := block.hash
          versionId := versionId
          payload := compressed } config.attempts 0 (s.visit block.blockIndex) := by
      have hread' : f.readSource pos block.offset (transferSize totalBlocks block.place)
          = some data := hread
      simp only [t, transferBlock, Faults.ops, hread', Option.getD_some, hcompress']
    obtain ⟨hacked, hconn⟩ := retryFrom_spec hdry f pos
      { devNo := devNo
        blockIndex := block.blockIndex
        dataSize := transferSize totalBlocks block.place
        hash := block.hash
        versionId := versionId
        payload := compressed } config.attempts 0 (s := s.visit block.blockIndex) hs
    have hsame : (s.visit block.blockIndex).acknowledged = s.acknowledged := rfl
    rw [ht, hacked, hconn, hsame]
    simp only [hout, decide_eq_true_iff]
    refine ⟨fun i => ?_, trivial⟩
    split
    · next h => simp [h]
    · next h => simp [h]
  · have hout : ∀ a, ¬ f.Outcome config totalBlocks pos block.place a := fun a h => hsend h.1
    have ht : t = s.visit block.blockIndex := by
      simp only [t, transferBlock, Faults.ops, hdry]
      cases hread : f.readSource pos block.offset (transferSize totalBlocks block.place) with
      | none => rfl
      | some data =>
          have hnone : f.compress pos data = none := by
            by_contra h
            exact hsend ⟨data, hread, Option.isSome_iff_ne_none.mpr h⟩
          simp only [Option.getD_some, hnone]
    have hsame : (s.visit block.blockIndex).acknowledged = s.acknowledged ∧
        (s.visit block.blockIndex).connected = s.connected := ⟨rfl, rfl⟩
    rw [ht, hsame.1, hsame.2]
    exact ⟨fun i => by simp [hout], by simp [hout, hs]⟩

/-- Nothing is acknowledged after the connection is lost. -/
theorem transferFrom_of_not_connected {config : TransferConfig} (hdry : config.dryRun = false)
    (ops : TransferOps σ) (devNo versionId : UInt32) (totalBlocks : UInt64) (pos : Nat)
    (blocks : List BlockState) {s : TransferState σ} (hs : s.connected = false) :
    (transferFrom config ops devNo versionId totalBlocks pos blocks s).acknowledged
      = s.acknowledged := by
  induction blocks generalizing pos s with
  | nil => rfl
  | cons block rest ih =>
      have hblock : (transferBlock config ops devNo versionId totalBlocks pos block s).acknowledged
            = s.acknowledged ∧
          (transferBlock config ops devNo versionId totalBlocks pos block s).connected = false := by
        rw [transferBlock]
        split
        · exact ⟨rfl, hs⟩
        · dsimp only
          split
          · exact ⟨rfl, hs⟩
          · exact retryFrom_of_not_connected hdry ops pos _ _ _ hs
      rw [transferFrom, ih (pos + 1) hblock.2, hblock.1]

theorem Faults.delivers_cons (f : Faults) (config : TransferConfig) (totalBlocks : UInt64)
    (pos : Nat) (place : UInt64 × UInt64) (rest : List (UInt64 × UInt64)) (i : UInt64) :
    f.Delivers config totalBlocks pos (place :: rest) i ↔
      (i = place.1 ∧ f.Outcome config totalBlocks pos place .acked) ∨
        (¬ f.Outcome config totalBlocks pos place .lost ∧
          f.Delivers config totalBlocks (pos + 1) rest i) := by
  have hshift : ∀ k, pos + (k + 1) = pos + 1 + k := fun k => by omega
  constructor
  · rintro ⟨k, b, hk, hi, hout, hbefore⟩
    cases k with
    | zero => cases hk; exact .inl ⟨hi.symm, hout⟩
    | succ k =>
        refine .inr ⟨hbefore 0 (Nat.succ_pos k) place rfl, k, b, hk, hi, hshift k ▸ hout, ?_⟩
        intro j hj q hq
        exact hshift j ▸ hbefore (j + 1) (by omega) q hq
  · rintro (⟨hi, hout⟩ | ⟨hlost, k, b, hk, hi, hout, hbefore⟩)
    · exact ⟨0, place, rfl, hi.symm, hout, fun j hj => absurd hj (Nat.not_lt_zero j)⟩
    · refine ⟨k + 1, b, hk, hi, hshift k ▸ hout, fun j hj q hq => ?_⟩
      cases j with
      | zero => cases hq; exact hlost
      | succ j => exact hshift j ▸ hbefore j (by omega) q hq

/-- **Which blocks a transfer gets acknowledged**: those that come out acknowledged with no
block before them losing the connection. -/
theorem mem_acknowledged_transferFrom {config : TransferConfig} (hdry : config.dryRun = false)
    (f : Faults) (devNo versionId : UInt32) (totalBlocks : UInt64) (pos : Nat)
    (blocks : List BlockState) {s : TransferState Unit} (hs : s.connected = true) (i : UInt64) :
    i ∈ (transferFrom config f.ops devNo versionId totalBlocks pos blocks s).acknowledged ↔
      i ∈ s.acknowledged ∨
        f.Delivers config totalBlocks pos (blocks.map BlockState.place) i := by
  induction blocks generalizing pos s with
  | nil => simp [transferFrom, Faults.Delivers]
  | cons block rest ih =>
      obtain ⟨hacked, hconn⟩ := transferBlock_spec hdry f devNo versionId totalBlocks pos block hs
      rw [transferFrom, List.map_cons, Faults.delivers_cons]
      by_cases hlost : f.Outcome config totalBlocks pos block.place .lost
      · have hdown : (transferBlock config f.ops devNo versionId totalBlocks pos block s).connected
            = false := by
          rw [← Bool.not_eq_true, hconn]
          exact not_not.mpr hlost
        rw [transferFrom_of_not_connected hdry _ _ _ _ _ _ hdown, hacked]
        simp only [hlost, not_true_eq_false, false_and, or_false]
        rfl
      · rw [ih (pos + 1) (hconn.mpr hlost), hacked, or_assoc]
        simp only [hlost, not_false_eq_true, true_and]
        rfl

end Go2Cbt.Engine
