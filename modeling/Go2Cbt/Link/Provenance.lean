import Go2Cbt.Link.FullBackup
import Go2Cbt.Link.Written

/-!
# Link — where the bytes of a file come from

Whatever fails, in either transfer, and whatever `pwrite` makes of a block: a byte of a file on the
server is the byte that was there, or one that the client has read from the disk at that very
address.  No file but the one of the job's device is touched at all (`bytes_come_from_disk`).

The synchronous transfer reads at the offset of an entry and the server writes where its number
says, so that the two have to go together; they do in every state that the calls of the manager make
(`offsetFits_calls`).
-/

namespace Go2Cbt.Link

open Go2Cbt.Protocol Go2Cbt.Client Go2Cbt.Engine Go2Cbt.Server

/-- What inflates at all inflates to what was compressed. -/
def Faithful {σ : Type} (libs : Libs) (out : Outside σ) : Prop :=
  ∀ data compressed raw, out.compress data (some compressed) →
    libs.uncompress2 rawBufSize compressed = some raw → raw = data

/-- The message carries what was read at its place. -/
def FromDisk {σ : Type} (out : Outside σ) (devNo : UInt32) : ClientMessage → Prop
  | .block devNo' blockIndex rawSize compressed _ _ =>
      devNo' = devNo ∧ ∃ data,
        out.readFile (blockIndex * UInt64.ofNat blockSize) rawSize (some data) ∧
          out.compress data (some compressed)
  | _ => False

/-- A byte of the disk: it was read at this address. -/
def ReadAt {σ : Type} (out : Outside σ) (address : Nat) (byte : UInt8) : Prop :=
  ∃ offset size data k, out.readFile offset size (some data) ∧ data[k]? = some byte ∧
    address = offset.toNat + k

/-- The file is the one of the device. -/
def IsFileOf (libs : Libs) (devNo : UInt32) (file : Nat) : Prop :=
  ∃ bf, libs.diskMap.get devNo = some bf ∧ libs.fileOf bf.fd = file

/-- Every byte is the original one, or was read from the disk at its address and is in the file of
the device. -/
def Traceable {σ : Type} (libs : Libs) (out : Outside σ) (devNo : UInt32)
    (original files : Files) : Prop :=
  ∀ file address, files.image file address = original.image file address ∨
    IsFileOf libs devNo file ∧ ReadAt out address (files.image file address)

section Serve

variable {libs : Libs} {out : Outside Peer} {devNo : UInt32} {original : Files}

/-- A patch of bytes that were read at its place. -/
theorem Traceable.apply {images : Nat → Image} {p : Patch Nat} {offset : UInt64} {size : UInt32}
    {data : Bytes} (hfile : IsFileOf libs devNo p.image) (hoff : p.off = offset.toNat)
    (hdata : p.data <+: data) (hread : out.readFile offset size (some data))
    (h : ∀ file address, images file address = original.image file address ∨
      IsFileOf libs devNo file ∧ ReadAt out address (images file address))
    (file address : Nat) :
    p.apply images file address = original.image file address ∨
      IsFileOf libs devNo file ∧ ReadAt out address (p.apply images file address) := by
  by_cases hin : file = p.image ∧ p.off ≤ address ∧ address < p.off + p.data.length
  · obtain ⟨rfl, hle, hlt⟩ := hin
    obtain ⟨k, rfl⟩ := Nat.exists_eq_add_of_le hle
    have hk : k < p.data.length := by omega
    have hbyte : p.apply images p.image (p.off + k) = p.data.getD k 0 := by
      rw [Patch.apply, Function.update_self, Image.write_of_inside hk]
    refine .inr ⟨hfile, offset, size, data, k, hread, ?_, by rw [hoff]⟩
    rw [hbyte, List.getD_eq_getElem?_getD, List.getElem?_eq_getElem hk, Option.getD_some]
    exact (List.prefix_iff_getElem?.mp hdata k hk)
  · rw [Patch.apply_of_outside images fun heq => ?_]
    · exact h file address
    · have hout := fun hle => mt (And.intro heq ∘ And.intro hle) hin
      omega

/-- **The server puts only such bytes into its files**, also when a write falls short. -/
theorem traceable_process (hcodec : Faithful libs out) {blockIndex : UInt64} {rawSize : UInt32}
    {compressed : Bytes} {hash : Hash} {versionId : UInt32} {files : Files}
    (hm : FromDisk out devNo (.block devNo blockIndex rawSize compressed hash versionId))
    (h : Traceable libs out devNo original files) :
    Traceable libs out devNo original
      (processRequest libs (requestOf devNo blockIndex rawSize compressed hash versionId)
        files).2.2 := by
  obtain ⟨-, data, hread, hcompress⟩ := hm
  cases hcheck : (requestOf devNo blockIndex rawSize compressed hash versionId).check libs with
  | error status =>
      rw [(process_of_refused hcheck files).2.2]
      exact h
  | ok found =>
      have haccepts := check_eq_ok_iff.mp hcheck
      cases hwrote : (requestOf devNo blockIndex rawSize compressed hash versionId).wrote libs
          found.2 files with
      | none =>
          rw [Traceable, (process_of_write_failed haccepts hwrote).2.1]
          exact h
      | some n =>
          rw [Traceable, (process_of_write haccepts hwrote).2.1]
          have hraw : found.2 = data := hcodec data compressed found.2 hcompress haccepts.inflates
          exact Traceable.apply ⟨found.1, haccepts.device, rfl⟩ rfl
            (hraw ▸ List.take_prefix n found.2) hread h

/-- **The server handles a message of the transfer.** -/
theorem traceable_takes (hcodec : Faithful libs out) {p p' : Peer} {queue queue' : List ClientMessage}
    {reply : Bytes} (hp : p.Greeted) (hqueue : ∀ m ∈ queue, FromDisk out devNo m)
    (h : Traceable libs out devNo original p.serving.files)
    (hst : takes libs p queue reply p' queue') :
    p'.Greeted ∧ (∀ m ∈ queue', FromDisk out devNo m) ∧
      Traceable libs out devNo original p'.serving.files := by
  obtain ⟨⟨-, m, rfl, -, rfl⟩, hsend⟩ := hst
  obtain ⟨hm, hrest⟩ := List.forall_mem_cons.mp hqueue
  have hsendable : m.Sendable := hsend m rfl
  cases m with
  | block devNo' blockIndex rawSize compressed hash versionId =>
      obtain rfl : devNo' = devNo := hm.1
      obtain ⟨hgreeted, hfiles, -⟩ := handle_block libs hp devNo' blockIndex rawSize hsendable hash
        versionId
      refine ⟨hgreeted, hrest, ?_⟩
      rw [hfiles]
      exact traceable_process hcodec hm h
  | hello _ _ _ _ _ => exact hm.elim
  | bye _ => exact hm.elim

end Serve

/-! ### The pipeline -/

/-- What the sending loop has at hand comes from the disk. -/
def Carried (job : Job) (out : Outside Peer) : Sender → Prop
  | .record i _ data _ =>
      out.readFile (UInt64.ofNat i * UInt64.ofNat blockSize) (job.blockSize i) (some data)
  | .send _ _ m => FromDisk out job.devNo m
  | _ => True

/-- Every byte that is on its way or in a file comes from the disk. -/
structure Sourced (libs : Libs) (job : Job) (out : Outside Peer) (original : Files)
    (s : Pipeline Peer) : Prop where
  greeted : s.server.Greeted
  carried : Carried job out s.sender
  outgoing : ∀ m ∈ s.outgoing, FromDisk out job.devNo m
  files : Traceable libs out job.devNo original s.server.serving.files

theorem sourced_step {libs : Libs} {job : Job} {out : Outside Peer} (hserve : out.serve = takes libs)
    (hcodec : Faithful libs out) {original : Files} {s t : Pipeline Peer} {p : Party}
    (h : Sourced libs job out original s) (hst : Step job out s p t) :
    Sourced libs job out original t := by
  have hcarried := h.carried
  cases hst with
  | finish _ _ | abort _ _ _ | timeout _ _ _ _ | acquire _ _ _ _ | bind _ | readFails _ _
  | hashFails _ _ _ | compressFails _ _ | sendFails _ _ | count _ | skip _ | abandon _ | fail _
  | awaited _ _ | interrupted _ _ _ | giveUp _ _ _ | join _ _ =>
      exact ⟨h.greeted, trivial, h.outgoing, h.files⟩
  | read _ hread _ => exact ⟨h.greeted, hread, h.outgoing, h.files⟩
  | compress hs hcompress =>
      rw [hs] at hcarried
      exact ⟨h.greeted, ⟨rfl, _, hcarried, hcompress⟩, h.outgoing, h.files⟩
  | send hs _ =>
      rw [hs] at hcarried
      refine ⟨h.greeted, trivial, fun m hm => ?_, h.files⟩
      rcases List.mem_append.mp hm with hm | hm
      · exact h.outgoing m hm
      · rw [List.mem_singleton.mp hm]
        exact hcarried
  | receive _ _ _ | receiveError _ _ _ | receiveBad _ _ | receiveFails _ _ | setAck _ | countAck _
  | release _ | decrement _ => exact ⟨h.greeted, h.carried, h.outgoing, h.files⟩
  | serve hst =>
      rw [hserve] at hst
      obtain ⟨hgreeted, hrest, hfiles⟩ := traceable_takes hcodec h.greeted h.outgoing h.files hst
      exact ⟨hgreeted, h.carried, hrest, hfiles⟩

theorem traceable_of_reached {libs : Libs} {job : Job} {out : Outside Peer}
    (hserve : out.serve = takes libs) (hcodec : Faithful libs out) {windowSize : Nat}
    {m : BlockStateManager} {server : Peer} (hserver : server.Greeted) {s : Pipeline Peer}
    (h : Reached job out (.start windowSize m server) s) :
    Traceable libs out job.devNo server.serving.files s.server.serving.files := by
  have hsourced : Sourced libs job out server.serving.files s := by
    refine Transition.Reachable.invariant
      (P := fun s => Sourced libs job out server.serving.files s) ?_
      (fun _ _ _ hs hst => sourced_step hserve hcodec hs hst) h
    rintro s rfl
    exact ⟨hserver, trivial, fun m hm => absurd hm List.not_mem_nil, fun _ _ => .inl rfl⟩
  exact hsourced.files

/-! ### The synchronous transfer -/

/-- The entry is read where it is written. -/
def OffsetFits (b : BlockState) : Prop := b.offset = b.blockIndex * UInt64.ofNat blockSize

theorem offsetFits_changes {blocks blocks' : List BlockState} (h : ∀ b ∈ blocks, OffsetFits b)
    (hchanges : BlockStateManager.ChangesInPlace blocks blocks') : ∀ b ∈ blocks', OffsetFits b := by
  obtain ⟨f, hget, hf⟩ := hchanges
  intro b' hb'
  obtain ⟨i, hi⟩ := List.mem_iff_getElem?.mp hb'
  rw [hget, Option.map_eq_some_iff] at hi
  obtain ⟨b, hb, rfl⟩ := hi
  have hplace := (hf i b).1
  rw [BlockState.place, BlockState.place, Prod.mk.injEq] at hplace
  rw [OffsetFits, hplace.1, hplace.2]
  exact h b (List.mem_of_getElem? hb)

theorem offsetFits_readBlocks (slack : Nat → Vector UInt8 4) (left i : Nat) (rest : Bytes) :
    ∀ b ∈ (BlockStateManager.readBlocks slack left i rest).1, OffsetFits b := by
  intro b hb
  obtain ⟨k, hk⟩ := List.mem_iff_getElem?.mp hb
  rw [BlockStateManager.getElem?_readBlocks] at hk
  split at hk
  · cases hk
    rfl
  · cases hk

theorem offsetFits_call {m : BlockStateManager} (h : ∀ b ∈ m.blocks, OffsetFits b)
    (c : BlockStateManager.Call) : ∀ b ∈ (m.call c).blocks, OffsetFits b := by
  cases c with
  | save =>
      rw [BlockStateManager.call, BlockStateManager.save]
      split <;> exact h
  | operation op =>
      rw [BlockStateManager.call]
      rcases BlockStateManager.blocks_apply m op with ⟨versionId, totalBlocks, hash, hfull, -⟩ |
        ⟨-, hchanges⟩
      · rw [hfull, BlockStateManager.fullBlocks]
        exact List.forall_mem_map.mpr fun _ _ => rfl
      · exact offsetFits_changes h hchanges
  | initializeFrom slack file devNo =>
      rw [BlockStateManager.call]
      by_cases hheader : ∃ content, file = some content ∧
          stateHeaderSize ≤ content.length
      · obtain ⟨content, rfl, hlen⟩ := hheader
        rw [BlockStateManager.load_of_header slack hlen]
        split
        · exact fun b hb => offsetFits_readBlocks slack _ 0 _ b hb
        · exact h
      · rw [BlockStateManager.load_of_short slack fun content hfile => not_le.mp fun hlen =>
          hheader ⟨content, hfile, hlen⟩]
        exact h

/-- **The entries of a state are read where they are written**, whatever was called before, and
whatever was in the files that were loaded. -/
theorem offsetFits_calls (calls : List BlockStateManager.Call) :
    ∀ b ∈ (calls.foldl BlockStateManager.call .new).blocks, OffsetFits b :=
  List.foldlRecOn calls BlockStateManager.call (motive := fun m => ∀ b ∈ m.blocks, OffsetFits b)
    (fun _ hb => absurd hb List.not_mem_nil) fun _ h c _ => offsetFits_call h c

/-- The blocks to come are read where they are written, and the one at hand comes from the disk. -/
def SyncCarried (job : SyncJob) (out : Outside Peer) : SyncPoint → Prop
  | .block todo => ∀ b ∈ todo, OffsetFits b
  | .attempt m _ todo | .wait m _ todo =>
      FromDisk out job.devNo m ∧ ∀ b ∈ todo, OffsetFits b

/-- Every byte that is on its way or in a file comes from the disk. -/
structure SyncSourced (libs : Libs) (job : SyncJob) (out : Outside Peer) (original : Files)
    (s : Synchronous Peer) : Prop where
  greeted : s.server.Greeted
  carried : SyncCarried job out s.point
  outgoing : ∀ m ∈ s.outgoing, FromDisk out job.devNo m
  files : Traceable libs out job.devNo original s.server.serving.files

theorem syncSourced_step {libs : Libs} {job : SyncJob} {out : Outside Peer}
    (hserve : out.serve = takes libs) (hcodec : Faithful libs out) {original : Files}
    {s t : Synchronous Peer} {p : Party} (h : SyncSourced libs job out original s)
    (hst : SyncStep job out s p t) : SyncSourced libs job out original t := by
  have hcarried := h.carried
  cases hst with
  | readFails hp _ | compressFails hp _ _ =>
      rw [hp] at hcarried
      exact ⟨h.greeted, fun b hb => hcarried b (List.mem_cons_of_mem _ hb), h.outgoing, h.files⟩
  | compress hp hread hcompress =>
      rw [hp] at hcarried
      obtain ⟨hb, hrest⟩ := List.forall_mem_cons.mp hcarried
      rw [hb] at hread
      exact ⟨h.greeted, ⟨⟨rfl, _, hread, hcompress⟩, hrest⟩, h.outgoing, h.files⟩
  | exhausted hp _ | accepted hp _ _ =>
      rw [hp] at hcarried
      exact ⟨h.greeted, hcarried.2, h.outgoing, h.files⟩
  | unconnected hp _ _ | sendFails hp _ _ _ | receiveFails hp _ | receiveBad hp _
  | refused hp _ _ =>
      rw [hp] at hcarried
      exact ⟨h.greeted, hcarried, h.outgoing, h.files⟩
  | send hp _ _ _ =>
      rw [hp] at hcarried
      refine ⟨h.greeted, hcarried, fun m hm => ?_, h.files⟩
      rcases List.mem_append.mp hm with hm | hm
      · exact h.outgoing m hm
      · rw [List.mem_singleton.mp hm]
        exact hcarried.1
  | serve hst =>
      rw [hserve] at hst
      obtain ⟨hgreeted, hrest, hfiles⟩ := traceable_takes hcodec h.greeted h.outgoing h.files hst
      exact ⟨hgreeted, h.carried, hrest, hfiles⟩

theorem sync_traceable_of_reached {libs : Libs} {job : SyncJob} {out : Outside Peer}
    (hserve : out.serve = takes libs) (hcodec : Faithful libs out) {m : BlockStateManager}
    (hfits : ∀ b ∈ m.blocks, OffsetFits b) {server : Peer} (hserver : server.Greeted)
    {s : Synchronous Peer} (h : SyncReached job out (.start m server) s) :
    Traceable libs out job.devNo server.serving.files s.server.serving.files := by
  have hsourced : SyncSourced libs job out server.serving.files s := by
    refine Transition.Reachable.invariant
      (P := fun s => SyncSourced libs job out server.serving.files s) ?_
      (fun _ _ _ hs hst => syncSourced_step hserve hcodec hs hst) h
    rintro s rfl
    exact ⟨hserver, fun b hb => hfits b (List.mem_of_mem_filter hb),
      fun m hm => absurd hm List.not_mem_nil, fun _ _ => .inl rfl⟩
  exact hsourced.files

/-! ### Entries in place -/

/-- No step adds or removes an entry. -/
theorem length_blocks_step {σ : Type} {job : SyncJob} {out : Outside σ} {s t : Synchronous σ}
    {p : Party} (hst : SyncStep job out s p t) :
    t.manager.blocks.length = s.manager.blocks.length := by
  have hset : ∀ (b : UInt64) (status : Client.AckStatus),
      (s.manager.setBlockAck b status).2.blocks.length = s.manager.blocks.length := by
    intro b status
    rw [BlockStateManager.blocks_setBlockAck, List.length_modify]
  cases hst with
  | unconnected _ _ _ | sendFails _ _ _ _ | receiveFails _ _ | receiveBad _ _ | refused _ _ _
  | accepted _ _ _ => exact hset _ _
  | _ => rfl

theorem length_blocks_of_reached {σ : Type} {job : SyncJob} {out : Outside σ}
    {m : BlockStateManager} {server : σ} {s : Synchronous σ}
    (h : SyncReached job out (.start m server) s) : s.manager.blocks.length = m.blocks.length := by
  refine h.invariant (P := fun s => s.manager.blocks.length = m.blocks.length) ?_
    fun _ _ _ hs hst => (length_blocks_step hst).trans hs
  rintro s rfl
  rfl

/-- The number of an entry in place, and its offset. -/
theorem lt_of_placed {blocks : List BlockState} (h : BlockStateManager.Placed blocks) {k : Nat}
    (hk : k < blocks.length) : k < 2 ^ 44 := by
  obtain ⟨-, hoffset, -⟩ := h k blocks[k] (List.getElem?_eq_getElem hk)
  have hlt := blocks[k].offset.toNat_lt
  rw [hoffset, blockSize_eq] at hlt
  omega

theorem offsetFits_of_placed {blocks : List BlockState} (h : BlockStateManager.Placed blocks)
    {b : BlockState} (hb : b ∈ blocks) : OffsetFits b := by
  obtain ⟨i, hi⟩ := List.mem_iff_getElem?.mp hb
  obtain ⟨hindex, hoffset, -⟩ := h i b hi
  have hlt := lt_of_placed h (List.getElem?_eq_some_iff.mp hi).1
  refine UInt64.toNat_inj.mp ?_
  rw [hoffset, UInt64.toNat_mul, hindex, toNat_ofNat_blockSize, blockSize_eq,
    Nat.mod_eq_of_lt (by omega)]

/-- **An entry in place that is recorded as acknowledged was so before, or is written.** -/
theorem sync_inPlace_of_recorded {libs : Libs} {job : SyncJob} {out : Outside Peer}
    (hserve : out.serve = takes libs) {server : Peer} (hserver : server.Greeted)
    {m : BlockStateManager} (hplaced : BlockStateManager.Placed m.blocks) {s : Synchronous Peer}
    (h : SyncReached job out (.start m server) s) {k : Nat} {bs : BlockState}
    (hbs : s.manager.blocks[k]? = some bs) (hacked : bs.ack = .acknowledged) :
    (∃ bs₀, m.blocks[k]? = some bs₀ ∧ bs₀.ack = .acknowledged) ∨
      ∃ message ∈ s.sent, (blockIndexOf message).toNat = k ∧
        InPlace libs s.server.serving.files message := by
  have hkept := kept_of_reached hserve hserver (fresh_of_reached (nodup_places hplaced) h)
  refine (hkept.recorded k bs hbs hacked).imp_right ?_
  rintro ⟨message, hmessage, rfl⟩
  have hlt : (blockIndexOf message).toNat < m.blocks.length := by
    rw [← length_blocks_of_reached h]
    exact (List.getElem?_eq_some_iff.mp hbs).1
  exact ⟨message, hkept.sent message hmessage, rfl,
    hkept.inPlace message hmessage (lt_of_placed hplaced hlt)⟩

/-! ### Both -/

/-- **The bytes of a file come from the disk.**  In every state of a pipelined transfer, and in
every state of a synchronous one whose entries are read where they are written, whatever fails on
either side: each byte of each file is the original one, or is in the file of the job's device and
was read from the disk at its address. -/
theorem bytes_come_from_disk {libs : Libs} {out : Outside Peer} (hserve : out.serve = takes libs)
    (hcodec : Faithful libs out) {server : Peer} (hhello : AfterHello libs server) :
    (∀ (job : Job) (windowSize : Nat) (m : BlockStateManager) (s : Pipeline Peer),
      Reached job out (.start windowSize m server) s →
        Traceable libs out job.devNo server.serving.files s.server.serving.files) ∧
    ∀ (job : SyncJob) (m : BlockStateManager) (s : Synchronous Peer),
      (∀ b ∈ m.blocks, OffsetFits b) → SyncReached job out (.start m server) s →
        Traceable libs out job.devNo server.serving.files s.server.serving.files := by
  refine ⟨fun job windowSize m s h => ?_, fun job m s hfits h => ?_⟩
  · exact traceable_of_reached hserve hcodec hhello.greeted h
  · exact sync_traceable_of_reached hserve hcodec hfits hhello.greeted h

/-! ### A megabyte and two bytes -/

theorem copiesBlock_takes {libs : Libs} {compress : Bytes → Bytes} {devNo versionId : UInt32}
    {totalSize : UInt64} {bf : BackingFile} (hu : Unhindered libs compress devNo totalSize bf)
    (disk : Image) {i : Nat} (hi : i < (Job.full devNo versionId totalSize).totalBlocks.toNat) :
    CopiesBlock libs compress disk devNo versionId totalSize
      { faultless libs disk compress with serve := takes libs } i where
  reads := (copiesBlock_faultless libs compress disk hi).reads
  hashes := rfl
  compresses := rfl
  sends := rfl
  serves p hp := by
    obtain ⟨-, hle, -⟩ := blockSize_full_bounds hu.size_lt hi
    refine ⟨⟨hp.1, _, rfl, rfl, rfl⟩, fun m hm => Option.some.inj hm ▸ ?_⟩
    exact hu.shrinks _ ((Image.length_slice ..).trans_le hle)

/-- The disk of the bytes `1 2`. -/
def oneTwoOutside : Outside Peer :=
  { faultless oneTwoLibs oneTwoDisk deflateOneTwo with serve := takes oneTwoLibs }

theorem faithful_oneTwo : Faithful oneTwoLibs oneTwoOutside := by
  intro data compressed raw hcompress hraw
  have hsame : compressed = deflateOneTwo data := Option.some.inj hcompress
  have hinflates : some (inflateOneTwo compressed) = some raw := hraw
  rw [← Option.some.inj hinflates, hsame, inflateOneTwo_deflateOneTwo]

/-- The server that has been greeted for that disk. -/
def oneTwoServer : Peer :=
  (Peer.accept blankFiles).handle oneTwoLibs
    (.hello 1 0 (Job.full 0 1 1048578).totalBlocks 1048578 [70, 85, 76, 76])

theorem answer_oneTwo : ∃ ack, (Peer.accept blankFiles).answer oneTwoLibs
    (.hello 1 0 (Job.full 0 1 1048578).totalBlocks 1048578 [70, 85, 76, 76]) = ackMessage ack ∧
      ack.status = 0 :=
  (greeted_of_hello oneTwoLibs blankFiles unhindered_oneTwo.device unhindered_oneTwo.large 1
    (Job.full 0 1 1048578).totalBlocks [70, 85, 76, 76]).2.2

theorem afterHello_oneTwo : AfterHello oneTwoLibs oneTwoServer := by
  obtain ⟨ack, hanswer, hstatus⟩ := answer_oneTwo
  exact ⟨blankFiles, 1, 0, _, 1048578, [70, 85, 76, 76], ack, hanswer, hstatus, rfl⟩

theorem oneTwo_reached :
    ∃ s, Reached (Job.full 0 1 1048578) oneTwoOutside
        (.start 1 (prepare .new 0 0 (Job.full 0 1 1048578).totalBlocks 1048578).2 oneTwoServer) s ∧
      s.sender = .done 2 true := by
  have htotal : (Job.full 0 1 1048578).totalBlocks.toNat = 2 := by decide
  obtain ⟨s, hs, hdone⟩ := exists_copied unhindered_oneTwo
    (fun _ hi => copiesBlock_takes unhindered_oneTwo oneTwoDisk hi) afterHello_oneTwo.greeted .new
    0 0
  exact ⟨s, hs, htotal ▸ hdone⟩

theorem bytes_come_from_disk_oneTwo :
    ∃ s : Pipeline Peer, s.sender = .done 2 true ∧
      Traceable oneTwoLibs oneTwoOutside 0 oneTwoServer.serving.files s.server.serving.files := by
  obtain ⟨s, hs, hdone⟩ := oneTwo_reached
  exact ⟨s, hdone,
    (bytes_come_from_disk rfl faithful_oneTwo afterHello_oneTwo).1 _ _ _ s hs⟩

end Go2Cbt.Link
