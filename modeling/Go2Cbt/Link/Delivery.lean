import Go2Cbt.Engine.Geometry
import Go2Cbt.Engine.ListedHashes
import Go2Cbt.Lib.BlockCopy
import Go2Cbt.Link.FullBackup

/-!
# Link — what the synchronous transfer delivers

`TransferBlocks` against the server, from a disk that can be read up to its end, when the network
and the server do not fail.  A block arrives if the disk has it whole and its hash is the one in its
entry; then the server's file has it in its place.  Every other block leaves the file as it was
(`transferFrom_delivers`).
-/

namespace Go2Cbt.Link

open Go2Cbt.Protocol Go2Cbt.Client Go2Cbt.Engine Go2Cbt.Server

/-- The message on the wire. -/
def wireMessage (m : BlockMessage) : ClientMessage :=
  .block m.devNo m.blockIndex m.dataSize m.payload m.hash m.versionId

/-- What `ReceiveAck` makes of an answer. -/
def resultOf (reply : Bytes) : SendResult :=
  match readAck reply with
  | .ack ack => if ack.status = 0 then .acked else .refused
  | .bad => .refused
  | .more => .lost

/-- `SendBlock`, and the server's turn. -/
def exchange (libs : Libs) (m : BlockMessage) (p : Peer) : SendResult × Peer :=
  if p.live then (resultOf (p.answer libs (wireMessage m)), p.handle libs (wireMessage m))
  else (.lost, p)

/-- `SendHello`, and the server's turn. -/
def sendHello (libs : Libs) (m : HelloMessage) (p : Peer) : Bool × Peer :=
  let message := ClientMessage.hello m.versionId m.devNo m.totalBlocks m.totalSize m.versionType
  (resultOf (p.answer libs message) = .acked, p.handle libs message)

/-- The open disk: its first `totalSize` bytes can be read. -/
def openDisk (libs : Libs) (disk : Image) (totalSize : UInt64) : HashOps :=
  contentSource (disk.slice 0 totalSize.toNat) libs.sha256

/-- What a transfer from that disk needs. -/
def deliveryOps (libs : Libs) (compress : Bytes → Bytes) (disk : Image) (totalSize : UInt64) :
    TransferOps Peer where
  readSource := (openDisk libs disk totalSize).readAt
  compress _ data := some (compress data)
  exchange _ _ m p := exchange libs m p

theorem readAt_openDisk (libs : Libs) (disk : Image) (totalSize : UInt64) (call : Nat)
    (offset : UInt64) (size : UInt32) :
    (openDisk libs disk totalSize).readAt call offset size
      = if offset.toNat + size.toNat ≤ totalSize.toNat then
          some (disk.slice offset.toNat size.toNat)
        else none := by
  rw [openDisk, readAt_contentSource, Image.length_slice]
  split
  · next hle =>
      have hfield : LittleEndian.field (disk.slice 0 totalSize.toNat) offset.toNat size.toNat
          = disk.slice (0 + offset.toNat) size.toNat := Image.field_slice hle
      rw [Nat.zero_add] at hfield
      exact congrArg some hfield
  · rfl

theorem resultOf_ackMessage (ack : AckBody) :
    resultOf (ackMessage ack) = if ack.status = 0 then .acked else .refused := by
  have hframe : IsAckFrame (ackMessage ack) ack := ⟨_, rfl, rfl, rfl⟩
  have hread := readAck_frame hframe []
  rw [List.append_nil] at hread
  rw [resultOf, hread]

/-! ### One block -/

/-- The message of block `i`, read whole. -/
def wholeBlock (devNo versionId : UInt32) (i : Nat) (hash : Hash) (payload : Bytes) :
    BlockMessage :=
  { devNo
    blockIndex := UInt64.ofNat i
    dataSize := UInt32.ofNat blockSize
    hash
    versionId
    payload }

section Served

variable {libs : Libs} {compress : Bytes → Bytes} {devNo : UInt32} {totalSize : UInt64}
  {bf : BackingFile} (hu : Unhindered libs compress devNo totalSize bf) {p : Peer}
  (versionId : UInt32) {i : Nat} (hi : (i + 1) * blockSize ≤ totalSize.toNat) {data : Bytes}
  (hlength : data.length = blockSize)
include hu hi hlength

/-- A whole block of the disk passes every check if its hash is the one announced. -/
theorem accepts_whole {hash : Hash} (hhash : libs.sha256 data = hash) :
    Accepts libs
      (requestOf devNo (UInt64.ofNat i) (UInt32.ofNat blockSize) (compress data) hash versionId)
      bf data := by
  have hsize := hu.size_lt
  have hlarge := UInt64.le_iff_toNat_le.mp hu.large
  have hstart : (UInt64.ofNat i * UInt64.ofNat blockSize).toNat = i * blockSize := by
    refine toNat_offset ?_
    rw [blockSize_eq] at hi
    omega
  have hwhole : (UInt32.ofNat blockSize).toNat = blockSize := rfl
  refine
    { device := hu.device
      size := show UInt32.ofNat blockSize ≠ 0 ∧ (UInt32.ofNat blockSize).toNat ≤ blockSize by decide
      range := UInt64.le_iff_toNat_le.mpr ?_
      inflates := hu.inflates data hlength.le
      length := hlength
      hash := hhash }
  rw [UInt64.toNat_add, UInt32.toNat_toUInt64]
  refine (Nat.mod_le _ _).trans ?_
  have hend := (Nat.add_le_add_right hstart.le blockSize).trans
    ((Nat.succ_mul i blockSize).ge.trans (hi.trans hlarge))
  exact hend

variable (hp : p.Greeted)
include hp

/-- **A block with its own hash is written**, and acknowledged. -/
theorem exchange_acked {hash : Hash} (hhash : libs.sha256 data = hash) :
    ∃ p', exchange libs (wholeBlock devNo versionId i hash (compress data)) p = (.acked, p') ∧
      p'.Greeted ∧ p'.serving.files.image (libs.fileOf bf.fd)
        = (p.serving.files.image (libs.fileOf bf.fd)).write (i * blockSize) data := by
  have hnumber : i < 2 ^ 43 := by
    have hsize := hu.size_lt
    rw [blockSize_eq] at hi
    omega
  have htoNat : (UInt64.ofNat i).toNat = i := by
    rw [UInt64.toNat_ofNat', Nat.mod_eq_of_lt (by omega)]
  obtain ⟨hgreeted, himage, ack, hanswer, -, hstatus⟩ :=
    handle_accepted libs hp (hu.shrinks data hlength.le)
      (accepts_whole hu versionId hi hlength hhash) (fun call => hu.writes call _)
      (htoNat.trans_lt hnumber)
  rw [htoNat] at himage
  refine ⟨_, ?_, hgreeted, himage⟩
  rw [exchange, if_pos hp.1, wireMessage, wholeBlock]
  dsimp only
  rw [hanswer, resultOf_ackMessage, if_pos hstatus]

omit hi in
/-- A block with another hash is refused, and no file is touched. -/
theorem exchange_refused {hash : Hash} (hhash : libs.sha256 data ≠ hash) :
    ∃ p', exchange libs (wholeBlock devNo versionId i hash (compress data)) p = (.refused, p') ∧
      p'.Greeted ∧ p'.serving.files = p.serving.files := by
  obtain ⟨hgreeted, hfiles, hanswer⟩ := handle_block libs hp devNo (UInt64.ofNat i)
    (UInt32.ofNat blockSize) (hu.shrinks data hlength.le) hash versionId
  have hnot : ¬ ∃ found, (requestOf devNo (UInt64.ofNat i) (UInt32.ofNat blockSize) (compress data)
      hash versionId).check libs = .ok found := by
    rintro ⟨⟨bf', raw⟩, hok⟩
    have haccepts := check_eq_ok_iff.mp hok
    obtain rfl : data = raw :=
      Option.some.inj ((hu.inflates data hlength.le).symm.trans haccepts.inflates)
    exact hhash haccepts.hash
  cases hcheck : (requestOf devNo (UInt64.ofNat i) (UInt32.ofNat blockSize) (compress data)
      hash versionId).check libs with
  | ok found => exact absurd ⟨found, hcheck⟩ hnot
  | error status =>
      obtain ⟨hne, hstatus, huntouched⟩ := process_of_refused hcheck p.serving.files
      refine ⟨_, ?_, hgreeted, hfiles.trans huntouched⟩
      rw [exchange, if_pos hp.1, wireMessage, wholeBlock]
      dsimp only
      rw [hanswer, resultOf_ackMessage, processRequest_ack, hstatus, if_neg]
      exact fun hzero => hne ((AckStatus.code_eq_zero_iff status).mp hzero)

end Served

/-! ### The transfer -/

/-- Block `i` arrives if it is sent with this hash: it is sent at all, the disk has it whole, and
the hash is its own. -/
structure Arrives (config : TransferConfig) (libs : Libs) (disk : Image) (totalSize : UInt64)
    (hash : Hash) (i : Nat) : Prop where
  sent : 0 ≤ config.retryCount
  whole : (i + 1) * blockSize ≤ totalSize.toNat
  hash : libs.sha256 (disk.slice (i * blockSize) blockSize) = hash

/-- The server of a transfer is there, and its file is `image` with these blocks of the disk. -/
structure Delivered (libs : Libs) (bf : BackingFile) (disk image : Image) (blocks : Nat → Prop)
    (t : TransferState Peer) : Prop where
  connected : t.connected = true
  greeted : t.net.Greeted
  copied : Image.CopiesBlocks blockSize disk image (t.net.serving.files.image (libs.fileOf bf.fd))
    blocks

section Transfer

variable {libs : Libs} {compress : Bytes → Bytes} {devNo : UInt32} {totalSize : UInt64}
  {bf : BackingFile} (hu : Unhindered libs compress devNo totalSize bf) (disk : Image)
  {config : TransferConfig} (hdry : config.dryRun = false) (versionId : UInt32)
include hu hdry

/-- **One turn of the loop**: the block is copied if it arrives. -/
theorem transferBlock_delivers {block : BlockState} {i : Nat}
    (hi : i < (Job.full devNo versionId totalSize).totalBlocks.toNat)
    (hplace : block.place = (UInt64.ofNat i, UInt64.ofNat i * UInt64.ofNat blockSize))
    (pos : Nat) {s : TransferState Peer} (hconnected : s.connected = true)
    (hgreeted : s.net.Greeted) :
    Delivered libs bf disk (s.net.serving.files.image (libs.fileOf bf.fd))
      (fun j => j = i ∧ Arrives config libs disk totalSize block.hash i)
      (transferBlock config (deliveryOps libs compress disk totalSize) devNo versionId
        (Job.full devNo versionId totalSize).totalBlocks pos block s) := by
  obtain ⟨hindex, hoffset⟩ := Prod.mk.inj hplace
  have hstart : block.offset.toNat = i * blockSize := by
    rw [hoffset, toNat_offset (hi.trans (totalBlocks_full_lt devNo versionId totalSize))]
  have hsize : transferSize (Job.full devNo versionId totalSize).totalBlocks block.place
      = UInt32.ofNat blockSize := hplace ▸ transferSize_eq hi
  have hread : (deliveryOps libs compress disk totalSize).readSource pos block.offset
        (UInt32.ofNat blockSize)
      = if i * blockSize + blockSize ≤ totalSize.toNat then
          some (disk.slice (i * blockSize) blockSize)
        else none := by
    refine (readAt_openDisk libs disk totalSize pos block.offset _).trans ?_
    rw [hstart]
    rfl
  rw [← Nat.succ_mul] at hread
  by_cases hwhole : (i + 1) * blockSize ≤ totalSize.toNat
  · rw [if_pos hwhole] at hread
    have hsend : transferBlock config (deliveryOps libs compress disk totalSize) devNo versionId
          (Job.full devNo versionId totalSize).totalBlocks pos block s
        = retryFrom config (deliveryOps libs compress disk totalSize) pos
            (wholeBlock devNo versionId i block.hash
              (compress (disk.slice (i * blockSize) blockSize)))
            config.attempts 0 (s.visit (UInt64.ofNat i)) := by
      rw [transferBlock_of_read hdry hsize hread rfl, hindex]
      rfl
    rw [hsend]
    have hlength : (disk.slice (i * blockSize) blockSize).length = blockSize :=
      Image.length_slice ..
    by_cases hhash : libs.sha256 (disk.slice (i * blockSize) blockSize) = block.hash
    · by_cases hsent : 0 ≤ config.retryCount
      · obtain ⟨p', hexchange, hgreeted', himage⟩ :=
          exchange_acked hu versionId hwhole hlength hgreeted hhash
        have hattempts : config.attempts = config.retryCount.toNat + 1 := by
          rw [TransferConfig.attempts]
          omega
        obtain ⟨hconnected', hnet⟩ := retryFrom_of_acked (s := s.visit (UInt64.ofNat i)) hdry
          hconnected (show (deliveryOps libs compress disk totalSize).exchange pos 0 _ s.net = _ from
            hexchange) config.retryCount.toNat
        rw [hattempts]
        refine ⟨hconnected', hnet ▸ hgreeted', ?_⟩
        rw [hnet, himage]
        refine (Image.copiesBlocks_write blockSize_pos disk _ i).congr fun j => ?_
        exact (and_iff_left ⟨hsent, hwhole, hhash⟩).symm
      · have hattempts : config.attempts = 0 := by
          rw [TransferConfig.attempts]
          omega
        rw [hattempts]
        exact ⟨hconnected, hgreeted, Image.copiesBlocks_of_none fun j hj => hsent hj.2.sent⟩
    · have hrefused : ∀ (retry : Nat) (net : Peer),
          net.Greeted ∧ net.serving.files = s.net.serving.files →
          ∃ net', (deliveryOps libs compress disk totalSize).exchange pos retry
              (wholeBlock devNo versionId i block.hash
                (compress (disk.slice (i * blockSize) blockSize))) net = (.refused, net') ∧
            net'.Greeted ∧ net'.serving.files = s.net.serving.files := by
        rintro retry net ⟨hnet, hfiles⟩
        obtain ⟨net', hexchange, hnet', hfiles'⟩ :=
          exchange_refused hu versionId hlength hnet hhash
        exact ⟨net', hexchange, hnet', hfiles'.trans hfiles⟩
      obtain ⟨hconnected', hgreeted', hfiles⟩ := retryFrom_of_refused hdry hrefused
        config.attempts 0 (s := s.visit (UInt64.ofNat i)) hconnected ⟨hgreeted, rfl⟩
      refine ⟨hconnected', hgreeted', ?_⟩
      rw [hfiles]
      exact Image.copiesBlocks_of_none fun j hj => hhash hj.2.hash
  · rw [if_neg hwhole] at hread
    rw [transferBlock, hsize, hread, hdry]
    exact ⟨hconnected, hgreeted, Image.copiesBlocks_of_none fun j hj => hwhole hj.2.whole⟩

/-- **The transfer copies the blocks that arrive**, and no other. -/
theorem transferFrom_delivers {blocks : List BlockState}
    (hplaces : ∀ block ∈ blocks, ∃ i < (Job.full devNo versionId totalSize).totalBlocks.toNat,
      block.place = (UInt64.ofNat i, UInt64.ofNat i * UInt64.ofNat blockSize))
    (pos : Nat) {s : TransferState Peer} (hconnected : s.connected = true)
    (hgreeted : s.net.Greeted) :
    Delivered libs bf disk (s.net.serving.files.image (libs.fileOf bf.fd))
      (fun j => ∃ block ∈ blocks, block.blockIndex.toNat = j ∧
        Arrives config libs disk totalSize block.hash j)
      (transferFrom config (deliveryOps libs compress disk totalSize) devNo versionId
        (Job.full devNo versionId totalSize).totalBlocks pos blocks s) := by
  induction blocks generalizing pos s with
  | nil =>
      refine ⟨hconnected, hgreeted, Image.copiesBlocks_of_none ?_⟩
      rintro j ⟨block, hmem, -⟩
      exact absurd hmem List.not_mem_nil
  | cons block rest ih =>
      obtain ⟨⟨i, hi, hplace⟩, hrest⟩ := List.forall_mem_cons.mp hplaces
      have hnumber : block.blockIndex.toNat = i := by
        rw [(Prod.mk.inj hplace).1]
        exact Accounts.toNat_ofNat hi
      have hturn := transferBlock_delivers hu disk hdry versionId hi hplace pos hconnected hgreeted
      have hloop := ih hrest (pos + 1) hturn.connected hturn.greeted
      refine ⟨hloop.connected, hloop.greeted, (hturn.copied.trans hloop.copied).congr fun j => ?_⟩
      rw [List.exists_mem_cons_iff, hnumber]
      refine or_congr_left ⟨?_, ?_⟩
      · rintro ⟨rfl, harrives⟩
        exact ⟨rfl, harrives⟩
      · rintro ⟨rfl, harrives⟩
        exact ⟨rfl, harrives⟩

end Transfer

end Go2Cbt.Link
