import Go2Cbt.Client.DataCompressor
import Go2Cbt.Client.StateShape
import Go2Cbt.Engine.ListedHashes
import Go2Cbt.Link.AcknowledgedSync

/-!
# Link — acknowledged means written

Both transfers, after a greeting that was answered with status 0.  In the pipelined one every block
recorded as acknowledged is in its place, whatever fails.  So it is in the synchronous one if no
block is sent for the place of an acknowledged one (`acknowledged_means_written`): entry `i` of the
block state being block `i` is enough, but nothing checks that of a state file, and with two entries
of one block the second overwrites the first (`overwritten_after_ack`).
-/

namespace Go2Cbt.Link

open Go2Cbt.Protocol Go2Cbt.Client Go2Cbt.Engine Go2Cbt.Server

/-- The server when `Connect` returns true: it has answered a greeting with status 0. -/
def AfterHello (libs : Libs) (p : Peer) : Prop :=
  ∃ (files : Files) (versionId devNo : UInt32) (totalBlocks totalSize : UInt64)
    (versionType : List UInt16) (ack : AckBody),
    (Peer.accept files).answer libs (.hello versionId devNo totalBlocks totalSize versionType)
        = ackMessage ack ∧
      ack.status = 0 ∧
      p = (Peer.accept files).handle libs
        (.hello versionId devNo totalBlocks totalSize versionType)

theorem AfterHello.greeted {libs : Libs} {p : Peer} (h : AfterHello libs p) : p.Greeted := by
  obtain ⟨files, versionId, devNo, totalBlocks, totalSize, versionType, ack, hanswer, hstatus,
    rfl⟩ := h
  exact greeted_of_answer libs files hanswer hstatus

/-- What the pipelined transfer has recorded is written.  It starts with no block acknowledged. -/
def RecordedWritten (libs : Libs) (s : Pipeline Peer) : Prop :=
  ∀ (b : UInt64) (bs : BlockState), s.manager.blocks[b.toNat]? = some bs →
    bs.ack = .acknowledged →
      ∃ m ∈ s.sent, blockIndexOf m = b ∧ InPlace libs s.server.serving.files m

/-- What the synchronous transfer has recorded is written; an entry may have been acknowledged
before it started. -/
structure SyncWritten (libs : Libs) (init : BlockStateManager) (s : Synchronous Peer) : Prop where
  written : ∀ m ∈ s.acknowledged, m ∈ s.sent ∧
    ((blockIndexOf m).toNat < 2 ^ 44 → InPlace libs s.server.serving.files m)
  recorded : ∀ (k : Nat) (bs : BlockState), s.manager.blocks[k]? = some bs →
    bs.ack = .acknowledged →
      (∃ bs₀, init.blocks[k]? = some bs₀ ∧ bs₀.ack = .acknowledged) ∨
        ∃ m ∈ s.acknowledged, (blockIndexOf m).toNat = k

theorem Kept.syncWritten {libs : Libs} {init : BlockStateManager} {s : Synchronous Peer}
    (h : Kept libs init s) : SyncWritten libs init s where
  written m hm := ⟨h.sent m hm, h.inPlace m hm⟩
  recorded := h.recorded

/-- **Entries in place have different places.** -/
theorem nodup_places {m : BlockStateManager} (h : BlockStateManager.Placed m.blocks) :
    (m.getPendingBlocks.map fun b => placeOf b.blockIndex).Nodup := by
  have hblocks : m.blocks.map (fun b => placeOf b.blockIndex) = List.range m.blocks.length := by
    refine List.ext_getElem (by simp) fun i hi _ => ?_
    rw [List.length_map] at hi
    obtain ⟨hindex, hoffset, -⟩ := h i m.blocks[i] (List.getElem?_eq_getElem hi)
    have hlt := m.blocks[i].offset.toNat_lt
    rw [hoffset, blockSize_eq] at hlt
    rw [List.getElem_map, List.getElem_range, placeOf, hindex, Nat.mod_eq_of_lt (by omega)]
  refine List.Nodup.sublist (List.filter_sublist.map _) ?_
  rw [hblocks]
  exact List.nodup_range

/-- **Acknowledged means written**: in every state of a pipelined transfer, in every state of a
synchronous one whose steps send for no place of an acknowledged block, and in every state of a
synchronous one whose entries are in place. -/
theorem acknowledged_means_written {libs : Libs} {out : Outside Peer}
    (hserve : out.serve = takes libs) {server : Peer} (hhello : AfterHello libs server) :
    (∀ (devNo versionId : UInt32) (totalSize snapshotTime now : UInt64) (windowSize : Nat)
      (m : BlockStateManager) (s : Pipeline Peer),
      Reached (Job.full devNo versionId totalSize) out (.start windowSize
        (prepare m snapshotTime now (Job.full devNo versionId totalSize).totalBlocks totalSize).2
          server) s →
        RecordedWritten libs s) ∧
    (∀ (job : SyncJob) (m : BlockStateManager) (s : Synchronous Peer),
      Transition.Reachable (FreshStep job out) (· = .start m server) s → SyncWritten libs m s) ∧
    ∀ (job : SyncJob) (m : BlockStateManager) (s : Synchronous Peer),
      BlockStateManager.Placed m.blocks → SyncReached job out (.start m server) s →
        SyncWritten libs m s := by
  have hfresh : ∀ (job : SyncJob) (m : BlockStateManager) (s : Synchronous Peer),
      Transition.Reachable (FreshStep job out) (· = .start m server) s → SyncWritten libs m s :=
    fun _ _ _ h => (kept_of_reached hserve hhello.greeted h).syncWritten
  refine ⟨?_, hfresh, ?_⟩
  · intro devNo versionId totalSize snapshotTime now windowSize m s h b bs hbs hacked
    exact inPlace_of_recorded hserve hhello.greeted h hbs hacked
  · intro job m s hplaced h
    exact hfresh job m s (fresh_of_reached (nodup_places hplaced) h)

/-! ### A block twice -/

section Rounds

variable {job : SyncJob} {out : Outside Peer} {init s : Synchronous Peer}

/-- Between two blocks, with nothing on its way and nothing that has failed. -/
structure Settled (s : Synchronous Peer) (todo : List BlockState) : Prop where
  point : s.point = .block todo
  connected : s.connected = true
  outgoing : s.outgoing = []
  incoming : s.incoming = []
  greeted : s.server.Greeted

variable {b : BlockState} {todo : List BlockState} (hs : Settled s (b :: todo))
  (h : SyncReached job out init s) (hretry : 0 ≤ job.retryCount) {blockData compressed : Bytes}
  (hread : out.readFile b.offset (transferSize job.totalBlocks b.place) (some blockData))
  (hcompress : out.compress blockData (some compressed))
  (hsend : out.sendBlockNoWait (job.message b compressed) true) {ack : AckBody} {server : Peer}
  (hserve : out.serve s.server [job.message b compressed] (ackMessage ack) server [])
include hs h hretry hread hcompress hsend hserve

/-- A block is read, sent and handled. -/
theorem Settled.served :
    SyncReached job out init
      { s with
        point := .wait (job.message b compressed) 0 todo
        outgoing := []
        incoming := ackMessage ack
        server
        sent := s.sent ++ [job.message b compressed] } := by
  have hready := h.next (.compress hs.point hread hcompress)
  have hsent := hready.next (.send rfl hretry hs.connected hsend)
  have hserved : SyncReached job out init
      { s with
        point := .wait (job.message b compressed) 0 todo
        outgoing := []
        incoming := s.incoming ++ ackMessage ack
        server
        sent := s.sent ++ [job.message b compressed] } := by
    refine hsent.next (.serve ?_)
    rw [hs.outgoing]
    exact hserve
  rwa [hs.incoming, List.nil_append] at hserved

/-- Its acknowledgement is recorded. -/
theorem Settled.recorded (hstatus : ack.status = 0) (hserver : server.Greeted) :
    ∃ t, SyncReached job out init t ∧ Settled t todo ∧
      t.manager = (s.manager.setBlockAck (blockIndexOf (job.message b compressed))
        .acknowledged).2 ∧
      t.acknowledged = s.acknowledged ++ [job.message b compressed] := by
  have hframe : IsAckFrame (ackMessage ack) ack := ⟨_, rfl, rfl, rfl⟩
  have hread' : readAck (ackMessage ack) = .ack ack := by
    have hframed := readAck_frame hframe []
    rwa [List.append_nil] at hframed
  have hserved := hs.served h hretry hread hcompress hsend hserve
  refine ⟨_, hserved.next (.accepted rfl hread' hstatus), ?_, rfl, rfl⟩
  exact ⟨rfl, hs.connected, rfl, List.drop_of_length_le hframe.length_eq.le, hserver⟩

end Rounds

/-- A block of one byte value. -/
def filled (b : UInt8) : Bytes := List.replicate blockSize b

/-- Libraries with the hashes of a block of zeros and of one of ones, that inflate stored
streams. -/
def storedLibs : Libs :=
  { twoDisks fun _ len => some len with
    sha256 := zerosAndOnesSha256
    uncompress2 := fun _ data => Zlib.decodeStoredStream data }

/-- The file of the disk. -/
def backingFile : BackingFile := { fd := 3, sizeBytes := 2097152, path := "disk0.img" }

/-- A disk in use: what is read is zeros or ones. -/
def diskInUse : Outside Peer where
  readFile _ size r := ∃ b ∈ [0, 1], r = some (List.replicate size.toNat b)
  computeBlockHash data r := r = some (storedLibs.sha256 data)
  compress data r := r = createStoredZlib data
  sendBlockNoWait _ sent := sent = true
  timesOut := False
  receiveFails := False
  serve := takes storedLibs

/-- A pending entry. -/
def entryOf (blockIndex : UInt64) (hash : Hash) : BlockState :=
  { blockIndex, offset := blockIndex * UInt64.ofNat blockSize, hash, versionId := 1, ack := .pending,
    changed := true }

/-- The block state of a file with these entries. -/
def holding (blocks : List BlockState) : BlockStateManager :=
  { BlockStateManager.new with blocks, totalBlocks := UInt64.ofNat blocks.length }

/-- A block of zeros and a block of ones, with these numbers. -/
def zerosAndOnes (first second : UInt64) : BlockStateManager :=
  holding [entryOf first (zerosAndOnesSha256 (filled 0)),
    entryOf second (zerosAndOnesSha256 (filled 1))]

/-- The transfer of a disk of 2 MB. -/
def twoBlocks : SyncJob := { retryCount := 3, devNo := 0, versionId := 1, totalBlocks := 2 }

/-- The server after the greeting. -/
def greetedServer : Peer :=
  (Peer.accept blankFiles).handle storedLibs (.hello 1 0 2 2097152 [73, 78, 67, 82])

theorem afterHello_greetedServer : AfterHello storedLibs greetedServer := by
  have hdevice : storedLibs.diskMap.get 0 = some backingFile := by decide
  have hsize : 2097152 ≤ backingFile.sizeBytes := by decide
  obtain ⟨-, -, ack, hanswer, hstatus⟩ :=
    greeted_of_hello storedLibs blankFiles hdevice hsize 1 2 [73, 78, 67, 82]
  exact ⟨blankFiles, 1, 0, 2, 2097152, [73, 78, 67, 82], ack, hanswer, hstatus, rfl⟩

section Filled

variable {blockIndex : UInt64} (hindex : blockIndex = 0 ∨ blockIndex = 1) (b : UInt8)
include hindex

/-- Both blocks of the disk are whole. -/
theorem transferSize_entryOf (hash : Hash) :
    transferSize twoBlocks.totalBlocks (entryOf blockIndex hash).place = 1048576 := by
  rcases hindex with rfl | rfl
  · exact (by decide : transferSize 2 (0, 0 * UInt64.ofNat blockSize) = 1048576)
  · exact (by decide : transferSize 2 (1, 1 * UInt64.ofNat blockSize) = 1048576)

theorem message_entryOf (hash : Hash) (compressed : Bytes) :
    twoBlocks.message (entryOf blockIndex hash) compressed
      = .block 0 blockIndex 1048576 compressed hash 1 :=
  congrArg (ClientMessage.block 0 blockIndex · compressed hash 1) (transferSize_entryOf hindex hash)

/-- **A block full of one byte value is accepted**, and then it is in its place. -/
theorem handle_filled {p : Peer} (hp : p.Greeted) :
    ∃ compressed, createStoredZlib (filled b) = some compressed ∧
      let m := twoBlocks.message (entryOf blockIndex (zerosAndOnesSha256 (filled b))) compressed
      m.Sendable ∧ (p.handle storedLibs m).Greeted ∧
        ((p.handle storedLibs m).serving.files.image 3).slice (blockIndex.toNat * blockSize)
          blockSize = filled b ∧
        ∃ ack, p.answer storedLibs m = ackMessage ack ∧ ack.status = 0 := by
  have hlength : (filled b).length = 1048576 := List.length_replicate
  have hne : filled b ≠ [] := List.ne_nil_of_length_pos (by omega)
  obtain ⟨compressed, hcompressed, hsize, hdecodes, -⟩ := createStoredZlib_decodes hne (by omega)
  have hsend : compressed.length ≤ 2 * blockSize := by
    rw [hsize, hlength]
    decide
  have hrange : blockIndex * UInt64.ofNat blockSize + (1048576 : UInt32).toUInt64
      ≤ backingFile.sizeBytes := by
    rcases hindex with rfl | rfl <;> decide
  have hlt : blockIndex.toNat < 2 ^ 43 := by
    rcases hindex with rfl | rfl <;> decide
  have haccepts : Accepts storedLibs
      (requestOf 0 blockIndex 1048576 compressed (zerosAndOnesSha256 (filled b)) 1) backingFile
      (filled b) :=
    { device := show storedLibs.diskMap.get 0 = some backingFile by decide
      size := show (1048576 : UInt32) ≠ 0 ∧ (1048576 : UInt32).toNat ≤ blockSize by decide
      range := hrange
      inflates := hdecodes
      length := hlength
      hash := rfl }
  obtain ⟨hgreeted, himage, ack, hanswer, -, hstatus⟩ :=
    handle_accepted storedLibs hp hsend haccepts (fun _ => rfl) hlt
  refine ⟨compressed, hcompressed, ?_⟩
  rw [message_entryOf hindex]
  refine ⟨hsend, hgreeted, ?_, ack, hanswer, hstatus⟩
  refine (congrArg (fun m => Image.slice m (blockIndex.toNat * blockSize) blockSize) himage).trans ?_
  exact (congrArg (Image.slice _ _) hlength.symm).trans (Image.slice_write_self _ _ (filled b))

end Filled

section Sent

variable {blockIndex : UInt64} (hindex : blockIndex = 0 ∨ blockIndex = 1) {b : UInt8}
  (hb : b ∈ [(0 : UInt8), 1]) {init s : Synchronous Peer} {todo : List BlockState}
  (hs : Settled s (entryOf blockIndex (zerosAndOnesSha256 (filled b)) :: todo))
  (h : SyncReached twoBlocks diskInUse init s)
include hindex hb hs h

/-- A block of zeros or ones is read, sent and handled, and the answer is on its way. -/
theorem filled_reached :
    ∃ compressed server ack,
      let message := twoBlocks.message (entryOf blockIndex (zerosAndOnesSha256 (filled b)))
        compressed
      SyncReached twoBlocks diskInUse init
        { s with
          point := .wait message 0 todo
          outgoing := []
          incoming := ackMessage ack
          server
          sent := s.sent ++ [message] } ∧
        (server.serving.files.image 3).slice (blockIndex.toNat * blockSize) blockSize
          = filled b ∧
        ∃ t, SyncReached twoBlocks diskInUse init t ∧ Settled t todo ∧
          t.acknowledged = s.acknowledged ++ [message] := by
  obtain ⟨compressed, hcompressed, hsend, hserver, hslice, ack, hanswer, hstatus⟩ :=
    handle_filled hindex b hs.greeted
  have hread : diskInUse.readFile (entryOf blockIndex (zerosAndOnesSha256 (filled b))).offset
      (transferSize twoBlocks.totalBlocks
        (entryOf blockIndex (zerosAndOnesSha256 (filled b))).place) (some (filled b)) := by
    rw [transferSize_entryOf hindex]
    exact ⟨b, hb, rfl⟩
  have hserve : diskInUse.serve s.server
      [twoBlocks.message (entryOf blockIndex (zerosAndOnesSha256 (filled b))) compressed]
      (ackMessage ack) _ [] :=
    ⟨⟨hs.greeted.1, _, rfl, hanswer.symm, rfl⟩, fun m hm => Option.some.inj hm ▸ hsend⟩
  obtain ⟨t, ht, hsettled, -, hacked⟩ :=
    hs.recorded h (by decide) hread hcompressed.symm rfl hserve hstatus hserver
  exact ⟨compressed, _, ack, hs.served h (by decide) hread hcompressed.symm rfl hserve, hslice, t,
    ht, hsettled, hacked⟩

end Sent

/-- The first block is acknowledged. -/
theorem first_reached (second : UInt64) :
    ∃ s compressed, SyncReached twoBlocks diskInUse (.start (zerosAndOnes 0 second) greetedServer)
        s ∧
      Settled s [entryOf second (zerosAndOnesSha256 (filled 1))] ∧
        s.acknowledged
          = [twoBlocks.message (entryOf 0 (zerosAndOnesSha256 (filled 0))) compressed] := by
  have hsettled : Settled (.start (zerosAndOnes 0 second) greetedServer)
      [entryOf 0 (zerosAndOnesSha256 (filled 0)), entryOf second (zerosAndOnesSha256 (filled 1))] :=
    ⟨rfl, rfl, rfl, rfl, afterHello_greetedServer.greeted⟩
  obtain ⟨compressed, -, -, -, -, s, hs, hnext, hacked⟩ :=
    filled_reached (.inl rfl) List.mem_cons_self hsettled ⟨_, _, rfl, .nil _⟩
  exact ⟨s, compressed, hs, hnext, hacked⟩

theorem one_mem : (1 : UInt8) ∈ [(0 : UInt8), 1] := List.mem_cons_of_mem _ List.mem_cons_self

/-- The entries of two blocks are in place. -/
theorem placed_holding (first second : Hash) :
    BlockStateManager.Placed (holding [entryOf 0 first, entryOf 1 second]).blocks := by
  intro i b hb
  match i with
  | 0 =>
      obtain rfl := Option.some.inj hb
      exact ⟨rfl, rfl, trivial⟩
  | 1 =>
      obtain rfl := Option.some.inj hb
      exact ⟨rfl, rfl, trivial⟩
  | i + 2 => cases hb

/-- A block of zeros and one of ones, on a disk in use. -/
theorem acknowledged_means_written_twoBlocks :
    ∃ s, SyncReached twoBlocks diskInUse (.start (zerosAndOnes 0 1) greetedServer) s ∧
      s.acknowledged.length = 2 ∧ SyncWritten storedLibs (zerosAndOnes 0 1) s := by
  obtain ⟨s, compressed, hs, hsettled, hacked⟩ := first_reached 1
  obtain ⟨compressed', -, -, -, -, t, ht, -, hacked'⟩ :=
    filled_reached (.inr rfl) one_mem hsettled hs
  have hserve : diskInUse.serve = takes storedLibs := rfl
  have hwritten := acknowledged_means_written hserve afterHello_greetedServer
  exact ⟨t, ht, by rw [hacked', hacked]; rfl, hwritten.2.2 _ _ t (placed_holding _ _) ht⟩

/-- **The second entry of block 0 overwrites the first**, after its acknowledgement. -/
theorem overwritten_after_ack :
    AfterHello storedLibs greetedServer ∧ diskInUse.serve = takes storedLibs ∧
      ∃ s, SyncReached twoBlocks diskInUse (.start (zerosAndOnes 0 0) greetedServer) s ∧
        ¬ SyncWritten storedLibs (zerosAndOnes 0 0) s := by
  obtain ⟨s, compressed, hs, hsettled, hacked⟩ := first_reached 0
  obtain ⟨compressed', server, ack, hserved, hslice, -⟩ :=
    filled_reached (.inl rfl) one_mem hsettled hs
  refine ⟨afterHello_greetedServer, rfl, _, hserved, fun hwritten => ?_⟩
  have hmem : twoBlocks.message (entryOf 0 (zerosAndOnesSha256 (filled 0))) compressed
      ∈ s.acknowledged := hacked ▸ List.mem_singleton_self _
  obtain ⟨-, bf, hdevice, hhash⟩ := (hwritten.written _ hmem).2
    (show (0 : UInt64).toNat < 2 ^ 44 by decide)
  have hbf : storedLibs.diskMap.get 0 = some backingFile := by decide
  obtain rfl : bf = backingFile := Option.some.inj (hdevice.symm.trans hbf)
  have hsize : (transferSize twoBlocks.totalBlocks
      (entryOf 0 (zerosAndOnesSha256 (filled 0))).place).toNat = blockSize :=
    show (transferSize 2 (0, 0)).toNat = blockSize by decide
  have hstart : (entryOf 0 (zerosAndOnesSha256 (filled 0))).blockIndex.toNat * blockSize
      = (0 : UInt64).toNat * blockSize := rfl
  have hsha : storedLibs.sha256 = zerosAndOnesSha256 := rfl
  have hfile : storedLibs.fileOf backingFile.fd = 3 := rfl
  have hhashOf : ∀ hash, (entryOf 0 hash).hash = hash := fun _ => rfl
  rw [hsize, hstart, hsha, hfile, hslice, hhashOf] at hhash
  rw [filled, filled, sha256_replicate, sha256_replicate] at hhash
  exact absurd hhash (by decide)

end Go2Cbt.Link
