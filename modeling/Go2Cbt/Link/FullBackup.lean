import Go2Cbt.Engine.Tally
import Go2Cbt.Engine.Tiling
import Go2Cbt.Link.Peer

/-!
# Link — a full backup from end to end

The pipelined transfer of a disk that does not change, against the server, when nothing fails.
The server handles the blocks in the order of the disk, so that at any time its file starts with
what it has handled of the disk (`Copies`).  When the transfer returns, everything is handled
(`fullBackup_copies`).
-/

namespace Go2Cbt.Link

open Go2Cbt.Protocol Go2Cbt.Client Go2Cbt.Engine Go2Cbt.Server

/-- A disk that can be read, and a network and a server that do not fail. -/
def faultless (libs : Libs) (disk : Image) (compress : Bytes → Bytes) : Outside Peer where
  readFile offset size r := r = some (disk.slice offset.toNat size.toNat)
  computeBlockHash data r := r = some (libs.sha256 data)
  compress data r := r = some (compress data)
  sendBlockNoWait _ sent := sent = true
  timesOut := False
  receiveFails := False
  serve := serves libs

/-- What the backup of a disk rests on: its device has a file that is large enough, writes are
whole, and what was compressed inflates to what it was. -/
structure Unhindered (libs : Libs) (compress : Bytes → Bytes) (devNo : UInt32) (totalSize : UInt64)
    (bf : BackingFile) : Prop where
  size_lt : totalSize.toNat < 2 ^ 63
  device : libs.diskMap.get devNo = some bf
  large : totalSize ≤ bf.sizeBytes
  writes : ∀ call len, libs.pwrite call len = some len
  shrinks : ∀ data : Bytes, data.length ≤ blockSize → (compress data).length ≤ 2 * blockSize
  inflates : ∀ data : Bytes, data.length ≤ blockSize →
    libs.uncompress2 rawBufSize (compress data) = some data

section Copy

variable (libs : Libs) (compress : Bytes → Bytes) (disk : Image) (devNo versionId : UInt32)
  (totalSize : UInt64)

/-- The bytes of a block. -/
def blockData (i : Nat) : Bytes :=
  disk.slice (i * blockSize) ((Job.full devNo versionId totalSize).blockSize i).toNat

/-- The message of a block. -/
def copyOf (i : Nat) : ClientMessage :=
  (Job.full devNo versionId totalSize).message i
    (compress (blockData disk devNo versionId totalSize i))
    (libs.sha256 (blockData disk devNo versionId totalSize i))

/-- What the server gets to see of it. -/
def copyRequest (i : Nat) : BlockRequest :=
  requestOf devNo (UInt64.ofNat i) ((Job.full devNo versionId totalSize).blockSize i)
    (compress (blockData disk devNo versionId totalSize i))
    (libs.sha256 (blockData disk devNo versionId totalSize i)) versionId

end Copy

section Served

variable {libs : Libs} {compress : Bytes → Bytes} {disk : Image} {devNo versionId : UInt32}
  {totalSize : UInt64} {bf : BackingFile}
  (h : Unhindered libs compress devNo totalSize bf) {i : Nat}
  (hi : i < (Job.full devNo versionId totalSize).totalBlocks.toNat)
include h hi

variable (disk)

/-- **The server accepts the block.** -/
theorem accepts_copy :
    Accepts libs (copyRequest libs compress disk devNo versionId totalSize i) bf
      (blockData disk devNo versionId totalSize i) := by
  obtain ⟨hpos, hle, hend⟩ := blockSize_full_bounds h.size_lt hi
  have hlength : (blockData disk devNo versionId totalSize i).length
      = ((Job.full devNo versionId totalSize).blockSize i).toNat := Image.length_slice ..
  have hoffset := toNat_offset (hi.trans (totalBlocks_full_lt devNo versionId totalSize))
  refine
    { device := h.device
      size := ⟨fun hzero => ?_, hle⟩
      range := ?_
      inflates := h.inflates _ (hlength.trans_le hle)
      length := hlength
      hash := rfl }
  · rw [show (Job.full devNo versionId totalSize).blockSize i = 0 from hzero] at hpos
    exact absurd hpos (Nat.lt_irrefl 0)
  · have hlarge := UInt64.le_iff_toNat_le.mp h.large
    have hsize := h.size_lt
    refine UInt64.le_iff_toNat_le.mpr ?_
    rw [UInt64.toNat_add, UInt32.toNat_toUInt64]
    refine (Nat.mod_le _ _).trans ?_
    exact (Nat.add_le_add_right hoffset.le _).trans (hend.trans hlarge)

/-- **The server writes the block behind those before it**, and says so. -/
theorem handle_copy {p : Peer} (hp : p.Greeted) :
    let m := copyOf libs compress disk devNo versionId totalSize i
    (p.handle libs m).Greeted ∧
      (p.handle libs m).serving.files.image (libs.fileOf bf.fd)
        = (p.serving.files.image (libs.fileOf bf.fd)).write (i * blockSize)
            (blockData disk devNo versionId totalSize i) ∧
      ∃ ack, p.answer libs m = ackMessage ack ∧ ack.blockIndex = UInt64.ofNat i ∧
        ack.status = 0 := by
  intro m
  obtain ⟨-, hle, hend⟩ := blockSize_full_bounds h.size_lt hi
  have hnumber : (UInt64.ofNat i).toNat = i := Accounts.toNat_ofNat hi
  have hlength : (blockData disk devNo versionId totalSize i).length ≤ blockSize :=
    (Image.length_slice ..).trans_le hle
  have hstart := start_full_lt h.size_lt hi
  have hsize := h.size_lt
  rw [blockSize_eq] at hstart
  have hhandled := handle_accepted libs hp (h.shrinks _ hlength) (accepts_copy disk h hi)
    (fun call => h.writes call _) (hnumber.trans_lt (by omega))
  rw [hnumber] at hhandled
  exact hhandled

end Served

/-! ### What the transfer keeps -/

section Copies

variable (libs : Libs) (compress : Bytes → Bytes) (disk : Image) (devNo versionId : UInt32)
  (totalSize : UInt64)

/-- Where the sending loop can be, and with what, if nothing has failed. -/
def OnCourse : Sender → Prop
  | .record i _ data hash =>
      data = blockData disk devNo versionId totalSize i ∧
        hash = libs.sha256 (blockData disk devNo versionId totalSize i)
  | .send i _ m => m = copyOf libs compress disk devNo versionId totalSize i
  | .skip _ _ | .abandon _ _ | .fail _ => False
  | .drain i => i = (Job.full devNo versionId totalSize).totalBlocks.toNat
  | .stop i awaited | .done i awaited =>
      i = (Job.full devNo versionId totalSize).totalBlocks.toNat ∧ awaited = true
  | _ => True

/-- The acknowledgement at hand says that the block was written. -/
def Confirms : Receiver → Prop
  | .setAck ack | .count ack | .release ack => ack.status = 0
  | _ => True

/-- **The file starts with the blocks that were handled**, those behind them are on their way in
order, and nothing has failed. -/
structure Copies (original : Image) (file : Nat) (s : Pipeline Peer) (acks : List AckBody) :
    Prop where
  greeted : s.server.Greeted
  noError : s.pipelineError = false
  noneSkipped : s.skippedCount = 0
  noneFailed : s.failedCount = 0
  sender : OnCourse libs compress disk devNo versionId totalSize s.sender
  confirmed : ∀ ack ∈ acks, ack.status = 0
  confirms : Confirms s.receiver
  handled : ∃ n ≤ s.sender.next,
    s.outgoing = (List.range' n (s.sender.next - n)).map
        (copyOf libs compress disk devNo versionId totalSize) ∧
      s.server.serving.files.image file
        = original.splice disk (min (n * blockSize) totalSize.toNat)

end Copies

namespace Copies

variable {libs : Libs} {compress : Bytes → Bytes} {disk original : Image}
  {devNo versionId : UInt32} {totalSize : UInt64} {bf : BackingFile} {file : Nat}
  {s t : Pipeline Peer} {acks acks' : List AckBody}

/-- The message that the server handles next is the block behind those it has handled. -/
theorem next_handled
    (h : Copies libs compress disk devNo versionId totalSize original file s acks)
    (ha : Accounts (Job.full devNo versionId totalSize) s acks) {m : ClientMessage}
    {queue : List ClientMessage} (hqueue : s.outgoing = m :: queue) :
    ∃ n < (Job.full devNo versionId totalSize).totalBlocks.toNat,
      n + 1 ≤ s.sender.next ∧ m = copyOf libs compress disk devNo versionId totalSize n ∧
        queue = (List.range' (n + 1) (s.sender.next - (n + 1))).map
          (copyOf libs compress disk devNo versionId totalSize) ∧
        s.server.serving.files.image file
          = original.splice disk (min (n * blockSize) totalSize.toNat) := by
  obtain ⟨n, hn, houtgoing, himage⟩ := h.handled
  have hne : s.sender.next - n ≠ 0 := by
    intro hzero
    rw [hqueue, hzero] at houtgoing
    cases houtgoing
  obtain ⟨left, hleft⟩ := Nat.exists_eq_succ_of_ne_zero hne
  rw [hqueue, hleft, List.range'_succ, List.map_cons] at houtgoing
  obtain ⟨rfl, rfl⟩ := List.cons.inj houtgoing
  have htotal := ha.next_le
  have hrest : s.sender.next - (n + 1) = left := by omega
  exact ⟨n, by omega, by omega, rfl, by rw [hrest], himage⟩

/-- The server answers what comes next. -/
theorem answersNext (hu : Unhindered libs compress devNo totalSize bf)
    (ha : Accounts (Job.full devNo versionId totalSize) s acks)
    (h : Copies libs compress disk devNo versionId totalSize original (libs.fileOf bf.fd) s acks) :
    (faultless libs disk compress).AnswersNext s := by
  rintro reply st' queue' ⟨-, m, hqueue, rfl, rfl⟩
  obtain ⟨n, hn, -, rfl, -, -⟩ := h.next_handled ha hqueue
  obtain ⟨-, -, ack, hanswer, hblock, -⟩ := handle_copy disk hu hn h.greeted
  exact ⟨_, ack, hqueue, hanswer ▸ ⟨_, rfl, rfl, rfl⟩, hblock⟩

/-- Nothing is sent and nothing is handled. -/
theorem keep
    (h : Copies libs compress disk devNo versionId totalSize original file s acks)
    (hserver : t.server = s.server) (houtgoing : t.outgoing = s.outgoing)
    (hnext : t.sender.next = s.sender.next)
    (hfine : t.pipelineError = s.pipelineError ∧ t.skippedCount = s.skippedCount ∧
      t.failedCount = 0)
    (hsender : OnCourse libs compress disk devNo versionId totalSize t.sender)
    (hconfirmed : ∀ ack ∈ acks', ack.status = 0) (hconfirms : Confirms t.receiver) :
    Copies libs compress disk devNo versionId totalSize original file t acks' where
  greeted := hserver ▸ h.greeted
  noError := hfine.1.trans h.noError
  noneSkipped := hfine.2.1.trans h.noneSkipped
  noneFailed := hfine.2.2
  sender := hsender
  confirmed := hconfirmed
  confirms := hconfirms
  handled := by
    rw [hserver, houtgoing, hnext]
    exact h.handled

/-- **Every step keeps the copy**, whoever takes it. -/
theorem step {p : Party} (hu : Unhindered libs compress devNo totalSize bf)
    (ha : Accounts (Job.full devNo versionId totalSize) s acks)
    (ha' : Accounts (Job.full devNo versionId totalSize) t acks')
    (h : Copies libs compress disk devNo versionId totalSize original (libs.fileOf bf.fd) s acks)
    (hst : Step (Job.full devNo versionId totalSize) (faultless libs disk compress) s p t) :
    Copies libs compress disk devNo versionId totalSize original (libs.fileOf bf.fd) t acks' := by
  have hsame : t.incoming = s.incoming → acks' = acks := fun heq =>
    Frames.unique ha'.frames (heq ▸ ha.frames)
  have hcourse := h.sender
  have hconfirms := h.confirms
  have hfine := And.intro (Eq.refl s.pipelineError) (And.intro (Eq.refl s.skippedCount) h.noneFailed)
  cases hst with
  | finish hs hi =>
      rw [hsame rfl]
      exact h.keep rfl rfl (by rw [hs]; rfl) hfine hi h.confirmed hconfirms
  | abort hs hi herror => exact absurd (herror.symm.trans h.noError) Bool.noConfusion
  | timeout hs hi hnone htimesOut => exact htimesOut.elim
  | acquire hs hi herror hk =>
      rw [hsame rfl]
      exact h.keep rfl rfl (by rw [hs]; rfl) hfine trivial h.confirmed hconfirms
  | bind hs =>
      rw [hsame rfl]
      exact h.keep rfl rfl (by rw [hs]; rfl) hfine trivial h.confirmed hconfirms
  | readFails hs hread => cases hread
  | hashFails hs hread hhash => cases hhash
  | @read i k data hash hs hread hhash =>
      rw [hsame rfl]
      have hwithin := ha.within
      rw [hs] at hwithin
      have hi : i < (Job.full devNo versionId totalSize).totalBlocks.toNat := hwithin
      have hoffset := toNat_offset (hi.trans (totalBlocks_full_lt devNo versionId totalSize))
      have hdata : data = blockData disk devNo versionId totalSize i := by
        rw [Option.some.inj hread, hoffset]
        rfl
      have hhashed : hash = libs.sha256 (blockData disk devNo versionId totalSize i) := by
        rw [← hdata]
        exact Option.some.inj hhash
      exact h.keep rfl rfl (by rw [hs]; rfl) hfine ⟨hdata, hhashed⟩ h.confirmed hconfirms
  | compressFails hs hcompress => cases hcompress
  | @compress i k data compressed hash hs hcompress =>
      rw [hsame rfl]
      rw [hs] at hcourse
      obtain ⟨rfl, rfl⟩ := hcourse
      cases hcompress
      exact h.keep rfl rfl (by rw [hs]; rfl) hfine rfl h.confirmed hconfirms
  | @send i k m hs hsend =>
      rw [hsame rfl]
      rw [hs] at hcourse
      obtain rfl : m = copyOf libs compress disk devNo versionId totalSize i := hcourse
      obtain ⟨n, hn, houtgoing, himage⟩ := h.handled
      rw [hs] at hn houtgoing
      have hbehind : n ≤ i := hn
      refine ⟨h.greeted, h.noError, h.noneSkipped, h.noneFailed, trivial, h.confirmed, hconfirms,
        n, hbehind.trans (Nat.le_succ i), ?_, himage⟩
      have hlast : n + 1 * (i - n) = i := by omega
      -- the queue grows by the copy of block `i` at its end
      rw [show (Sender.count i).next - n = (i - n) + 1 by
        simp only [Sender.next, Sender.pos, Sender.uncounted]
        omega, List.range'_concat, List.map_append, hlast]
      exact congrArg (· ++ _) houtgoing
  | sendFails hs hsend => exact Bool.noConfusion hsend
  | count hs =>
      rw [hsame rfl]
      exact h.keep rfl rfl (by rw [hs]; rfl) hfine trivial h.confirmed hconfirms
  | skip hs =>
      rw [hs] at hcourse
      exact hcourse.elim
  | abandon hs =>
      rw [hs] at hcourse
      exact hcourse.elim
  | fail hs =>
      rw [hs] at hcourse
      exact hcourse.elim
  | awaited hs hzero =>
      rw [hsame rfl]
      rw [hs] at hcourse
      exact h.keep rfl rfl (by rw [hs]; rfl) hfine ⟨hcourse, rfl⟩ h.confirmed hconfirms
  | interrupted hs hpos herror => exact absurd (herror.symm.trans h.noError) Bool.noConfusion
  | giveUp hs hpos htimesOut => exact htimesOut.elim
  | join hs hr =>
      rw [hsame rfl]
      rw [hs] at hcourse
      exact h.keep rfl rfl (by rw [hs]; rfl) hfine hcourse h.confirmed trivial
  | receive hr hread hblock =>
      obtain ⟨rest, rfl, -, hnext⟩ := ha.read hr hread
      rw [Frames.unique ha'.frames hnext.frames]
      exact h.keep rfl rfl rfl hfine hcourse
        (fun ack hack => h.confirmed ack (List.mem_cons_of_mem _ hack))
        (h.confirmed _ List.mem_cons_self)
  | receiveError hr hread hblock =>
      obtain ⟨rest, -, hlt, -⟩ := ha.read hr hread
      have htotal := (Job.full devNo versionId totalSize).totalBlocks.toNat_lt
      rw [hblock] at hlt
      exact absurd hlt (not_lt.mpr (Nat.le_of_lt_succ htotal))
  | receiveBad hr hread =>
      rcases ha.frames.read with ⟨-, hmore⟩ | ⟨ack, rest, -, hack, -⟩
      · cases hmore.symm.trans hread
      · cases hack.symm.trans hread
  | receiveFails hr hfails => exact hfails.elim
  | setAck hr =>
      rw [hsame rfl]
      rw [hr] at hconfirms
      exact h.keep rfl rfl rfl hfine hcourse h.confirmed hconfirms
  | @countAck ack hr =>
      rw [hsame rfl]
      rw [hr] at hconfirms
      have hstatus : ack.status = 0 := hconfirms
      refine h.keep rfl rfl rfl ⟨rfl, rfl, ?_⟩ hcourse h.confirmed hconfirms
      dsimp only
      rw [h.noneFailed, if_pos hstatus]
  | release hr =>
      rw [hsame rfl]
      exact h.keep rfl rfl rfl hfine hcourse h.confirmed trivial
  | decrement hr =>
      rw [hsame rfl]
      exact h.keep rfl rfl rfl hfine hcourse h.confirmed trivial
  | serve hserve =>
      -- the server takes the copy at the front: block `n` follows those it has written
      obtain ⟨-, m, hqueue, rfl, rfl⟩ := hserve
      obtain ⟨n, hn, hnext, rfl, hrest, himage⟩ := h.next_handled ha hqueue
      obtain ⟨hgreeted, hwritten, ack, hanswer, -, hstatus⟩ :=
        handle_copy disk hu hn h.greeted
      have hframe : IsAckFrame (s.server.answer libs
          (copyOf libs compress disk devNo versionId totalSize n)) ack :=
        hanswer ▸ ⟨_, rfl, rfl, rfl⟩
      rw [Frames.unique ha'.frames (ha.frames.snoc hframe)]
      refine ⟨hgreeted, h.noError, h.noneSkipped, h.noneFailed, hcourse, ?_, hconfirms, n + 1,
        hnext, hrest, ?_⟩
      · intro a hmem
        rcases List.mem_append.mp hmem with hmem | hmem
        · exact h.confirmed a hmem
        · rw [List.mem_singleton.mp hmem]
          exact hstatus
      · have hstart := (start_full_lt hu.size_lt hn).le
        -- the written prefix of the disk grows by block `n`
        rw [hwritten, himage, min_eq_left hstart, blockData, Image.write_splice_slice,
          end_full_eq hu.size_lt hn]

end Copies

theorem next_done (i : Nat) (awaited : Bool) : (Sender.done i awaited).next = i := rfl

/-- Nothing is on its way any more when the transfer has returned. -/
theorem outgoing_eq_nil {job : Job} {s : Pipeline Peer} {acks : List AckBody}
    (ha : Accounts job s acks) {i : Nat} (hdone : s.sender = .done i true) : s.outgoing = [] := by
  have hzero := ha.awaited i (.inr hdone)
  have hinFlight := ha.inFlight
  rw [hdone] at hinFlight
  simp only [Sender.uncounted, Pipeline.flight, List.length_append, List.length_map] at hinFlight
  exact List.eq_nil_of_length_eq_zero (by omega)

/-- The blocks cover the disk. -/
theorem totalSize_le_mul {devNo versionId : UInt32} {totalSize : UInt64}
    (hsize : totalSize.toNat < 2 ^ 63) :
    totalSize.toNat ≤ (Job.full devNo versionId totalSize).totalBlocks.toNat * blockSize := by
  rw [toNat_totalBlocks_full hsize, blockSize_lit]
  omega

section Backup

variable {libs : Libs} {compress : Bytes → Bytes} {devNo : UInt32} {totalSize : UInt64}
  {bf : BackingFile}

/-- The transfer starts after the greeting, on the blocks of a new version. -/
def fullBackupStart (libs : Libs) (devNo : UInt32) (totalSize : UInt64) (files : Files)
    (versionId : UInt32) (windowSize : Nat) (m : BlockStateManager) (snapshotTime now : UInt64) :
    Pipeline Peer :=
  .start windowSize
    (prepare m snapshotTime now (Job.full devNo versionId totalSize).totalBlocks totalSize).2
    ((Peer.accept files).handle libs
      (.hello versionId devNo (Job.full devNo versionId totalSize).totalBlocks totalSize
        [70, 85, 76, 76]))

variable (hu : Unhindered libs compress devNo totalSize bf) {disk : Image} {files : Files}
  {versionId : UInt32} {windowSize : Nat} {m : BlockStateManager} {snapshotTime now : UInt64}
  {s : Pipeline Peer}
  (h : Reached (Job.full devNo versionId totalSize) (faultless libs disk compress)
    (fullBackupStart libs devNo totalSize files versionId windowSize m snapshotTime now) s)
include hu h

/-- The file starts with what was handled, at any time. -/
theorem copies_reached :
    ∃ acks, Accounts (Job.full devNo versionId totalSize) s acks ∧
      Records (Job.full devNo versionId totalSize) m.nextVersionId s acks ∧
      Copies libs compress disk devNo versionId totalSize (files.image (libs.fileOf bf.fd))
        (libs.fileOf bf.fd) s acks := by
  obtain ⟨hgreeted, hfiles, -⟩ := greeted_of_hello libs files hu.device hu.large versionId
    (Job.full devNo versionId totalSize).totalBlocks [70, 85, 76, 76]
  refine accounts_with
    (Q := Copies libs compress disk devNo versionId totalSize
      (files.image (libs.fileOf bf.fd)) (libs.fileOf bf.fd)) ?_
    (fun _ _ ha hc => hc.answersNext hu ha)
    (fun _ _ _ _ _ ha ha' _ hc hst => hc.step hu ha ha' hst) h
  exact
    { greeted := hgreeted
      noError := rfl
      noneSkipped := rfl
      noneFailed := rfl
      sender := trivial
      confirmed := fun _ hack => absurd hack List.not_mem_nil
      confirms := trivial
      handled := by
        refine ⟨0, le_rfl, rfl, ?_⟩
        rw [Nat.zero_mul, Nat.zero_min, Image.splice_zero]
        exact congrArg (fun f : Files => f.image (libs.fileOf bf.fd)) hfiles }

variable {i : Nat} {awaited : Bool} (hdone : s.sender = .done i awaited)
include hdone

/-- When the transfer returns, all blocks were sent and none of them was refused. -/
theorem all_acknowledged : ∀ bs ∈ s.manager.blocks, bs.ack = .acknowledged := by
  obtain ⟨acks, ha, hr, hcopies⟩ := copies_reached hu h
  have hcourse := hcopies.sender
  rw [hdone] at hcourse
  obtain ⟨rfl, rfl⟩ := hcourse
  obtain ⟨hcounted, hblocks, hacked, -⟩ := hr.totals ha hdone
  have hall : s.manager.acknowledgedCount = s.manager.blocks.length := by
    have hskipped := hcopies.noneSkipped
    have hfailed := hcopies.noneFailed
    simp only [Pipeline.stats] at hblocks hacked
    rw [hr.length]
    omega
  rw [BlockStateManager.acknowledgedCount, List.countP_eq_length] at hall
  exact fun bs hbs => of_decide_eq_true (hall bs hbs)

/-- And the file is the disk, as far as that goes. -/
theorem image_copied :
    s.server.serving.files.image (libs.fileOf bf.fd)
      = (files.image (libs.fileOf bf.fd)).splice disk totalSize.toNat := by
  obtain ⟨acks, ha, -, hcopies⟩ := copies_reached hu h
  have hcourse := hcopies.sender
  rw [hdone] at hcourse
  obtain ⟨rfl, rfl⟩ := hcourse
  obtain ⟨n, hn, houtgoing, himage⟩ := hcopies.handled
  have hnext : s.sender.next = (Job.full devNo versionId totalSize).totalBlocks.toNat := by
    rw [hdone, next_done]
  rw [outgoing_eq_nil ha hdone] at houtgoing
  have hleft := List.range'_eq_nil_iff.mp (List.map_eq_nil_iff.mp houtgoing.symm)
  have hall : n = (Job.full devNo versionId totalSize).totalBlocks.toNat :=
    hnext ▸ hn.antisymm (Nat.sub_eq_zero_iff_le.mp hleft)
  rw [himage, hall, min_eq_right (totalSize_le_mul hu.size_lt)]

end Backup

/-- **A full backup copies the disk.**  However the sending loop, the callback, the server and the
two channels take their turns: when nothing fails and the transfer returns, every block is
acknowledged, the file of the device starts with the disk, and what is behind it in the file is as
it was. -/
theorem fullBackup_copies {libs : Libs} {compress : Bytes → Bytes} {devNo : UInt32}
    {totalSize : UInt64} {bf : BackingFile} (hu : Unhindered libs compress devNo totalSize bf)
    (disk : Image) (files : Files) (versionId : UInt32) (windowSize : Nat) (m : BlockStateManager)
    (snapshotTime now : UInt64) {s : Pipeline Peer}
    (h : Reached (Job.full devNo versionId totalSize) (faultless libs disk compress)
      (.start windowSize
        (prepare m snapshotTime now (Job.full devNo versionId totalSize).totalBlocks totalSize).2
        ((Peer.accept files).handle libs
          (.hello versionId devNo (Job.full devNo versionId totalSize).totalBlocks totalSize
            [70, 85, 76, 76]))) s)
    {i : Nat} {awaited : Bool} (hdone : s.sender = .done i awaited) :
    (∀ b < (Job.full devNo versionId totalSize).totalBlocks.toNat,
      ∃ bs, s.manager.blocks[b]? = some bs ∧ bs.ack = .acknowledged) ∧
    ∀ k, s.server.serving.files.image (libs.fileOf bf.fd) k
      = if k < totalSize.toNat then disk k else files.image (libs.fileOf bf.fd) k := by
  constructor
  · obtain ⟨acks, ha, hr, -⟩ := copies_reached hu h
    intro b hb
    rw [← hr.length] at hb
    exact ⟨_, List.getElem?_eq_getElem hb, all_acknowledged hu h hdone _ (List.getElem_mem hb)⟩
  · rw [image_copied hu h hdone]
    exact fun k => rfl

/-! ### A copy that is made -/

/-- With block `i` the outside does what it does when nothing hinders it. -/
structure CopiesBlock (libs : Libs) (compress : Bytes → Bytes) (disk : Image)
    (devNo versionId : UInt32) (totalSize : UInt64) (out : Outside Peer) (i : Nat) : Prop where
  reads : out.readFile (UInt64.ofNat i * UInt64.ofNat blockSize)
    ((Job.full devNo versionId totalSize).blockSize i)
    (some (blockData disk devNo versionId totalSize i))
  hashes : out.computeBlockHash (blockData disk devNo versionId totalSize i)
    (some (libs.sha256 (blockData disk devNo versionId totalSize i)))
  compresses : out.compress (blockData disk devNo versionId totalSize i)
    (some (compress (blockData disk devNo versionId totalSize i)))
  sends : out.sendBlockNoWait (copyOf libs compress disk devNo versionId totalSize i) true
  serves : ∀ p : Peer, p.Greeted →
    out.serve p [copyOf libs compress disk devNo versionId totalSize i]
      (p.answer libs (copyOf libs compress disk devNo versionId totalSize i))
      (p.handle libs (copyOf libs compress disk devNo versionId totalSize i)) []

theorem copiesBlock_faultless (libs : Libs) (compress : Bytes → Bytes) (disk : Image)
    {devNo versionId : UInt32} {totalSize : UInt64} {i : Nat}
    (hi : i < (Job.full devNo versionId totalSize).totalBlocks.toNat) :
    CopiesBlock libs compress disk devNo versionId totalSize (faultless libs disk compress) i where
  reads := congrArg (fun offset => some (disk.slice offset _))
    (toNat_offset (hi.trans (totalBlocks_full_lt devNo versionId totalSize))).symm
  hashes := rfl
  compresses := rfl
  sends := rfl
  serves _ hp := ⟨hp.1, _, rfl, rfl, rfl⟩

section Made

variable {libs : Libs} {compress : Bytes → Bytes} {devNo : UInt32} {totalSize : UInt64}
  {bf : BackingFile} (hu : Unhindered libs compress devNo totalSize bf)
include hu

/-- **A transfer that copies every block comes to its end.** -/
theorem exists_copied {disk : Image} {versionId : UInt32} {out : Outside Peer}
    (hout : ∀ i < (Job.full devNo versionId totalSize).totalBlocks.toNat,
      CopiesBlock libs compress disk devNo versionId totalSize out i)
    {p : Peer} (hp : p.Greeted) (m : BlockStateManager) (snapshotTime now : UInt64) :
    ∃ s, Reached (Job.full devNo versionId totalSize) out
        (.start 1
          (prepare m snapshotTime now (Job.full devNo versionId totalSize).totalBlocks totalSize).2
          p) s ∧
      s.sender = .done (Job.full devNo versionId totalSize).totalBlocks.toNat true := by
  let server : Nat → Peer := fun n => (List.range n).foldl
    (fun p i => p.handle libs (copyOf libs compress disk devNo versionId totalSize i)) p
  have hserver : ∀ n, server (n + 1)
      = (server n).handle libs (copyOf libs compress disk devNo versionId totalSize n) := fun n => by
    simp [server, List.range_succ]
  have hgreeted : ∀ n ≤ (Job.full devNo versionId totalSize).totalBlocks.toNat,
      (server n).Greeted := by
    intro n hn
    induction n with
    | zero => exact hp
    | succ n ih => exact hserver n ▸ (handle_copy disk hu hn (ih (Nat.le_of_succ_le hn))).1
  have hex : ∀ i, ∃ ack, i < (Job.full devNo versionId totalSize).totalBlocks.toNat →
      Exchanges (Job.full devNo versionId totalSize) out i (server i) ack (server (i + 1)) := by
    intro i
    by_cases hi : i < (Job.full devNo versionId totalSize).totalBlocks.toNat
    · obtain ⟨-, -, ack, hanswer, hblock, -⟩ := handle_copy disk hu hi (hgreeted i hi.le)
      have hcopies := hout i hi
      refine ⟨ack, fun _ => ⟨hblock, _, _, _, _, hcopies.reads, hcopies.hashes, hcopies.compresses,
        hcopies.sends, hserver i ▸ hcopies.serves _ (hgreeted i hi.le), ?_⟩⟩
      exact hanswer ▸ ⟨_, rfl, rfl, rfl⟩
    · exact ⟨⟨0, 0, 0, .zero⟩, fun h => absurd h hi⟩
  choose ack hack using hex
  obtain ⟨s, hs, hdone, -⟩ := allBlocks_reached m snapshotTime now hack
  exact ⟨s, hs, hdone⟩

end Made

/-- A disk of the bytes `1 2`, over and over. -/
def oneTwoDisk : Image := fun k => if k % 2 = 0 then 1 else 2

/-- zlib on the bytes `1 2`; other bytes are kept behind a zero. -/
def deflateOneTwo (data : Bytes) : Bytes := if data = [1, 2] then deflatedOneTwo else 0 :: data

def inflateOneTwo (data : Bytes) : Bytes := if data = deflatedOneTwo then [1, 2] else data.tail

theorem inflateOneTwo_deflateOneTwo (data : Bytes) : inflateOneTwo (deflateOneTwo data) = data := by
  rw [deflateOneTwo]
  split
  · next h => exact (if_pos rfl).trans h.symm
  · have hmarked : (0 : UInt8) :: data ≠ deflatedOneTwo := by
      intro h
      cases h
    exact if_neg hmarked

/-- The libraries on the bytes `1 2`. -/
def oneTwoLibs : Libs :=
  { twoDisks fun _ len => some len with uncompress2 := fun _ data => some (inflateOneTwo data) }

theorem unhindered_oneTwo :
    Unhindered oneTwoLibs deflateOneTwo 0 1048578
      { fd := 3, sizeBytes := 2097152, path := "disk0.img" } where
  size_lt := by decide
  device := by decide
  large := by decide
  writes _ _ := rfl
  shrinks data hdata := by
    rw [deflateOneTwo]
    split
    · decide
    · rw [List.length_cons]
      have hpos := blockSize_pos
      omega
  inflates data _ := congrArg some (inflateOneTwo_deflateOneTwo data)

/-- A megabyte and two bytes. -/
theorem fullBackup_copies_oneTwo :
    ∃ s : Pipeline Peer, s.sender = .done 2 true ∧
      (∀ b < (Job.full 0 1 1048578).totalBlocks.toNat,
        ∃ bs, s.manager.blocks[b]? = some bs ∧ bs.ack = .acknowledged) ∧
      ∀ k, s.server.serving.files.image 3 k
        = if k < (1048578 : UInt64).toNat then oneTwoDisk k else blankFiles.image 3 k := by
  have htotal : (Job.full 0 1 1048578).totalBlocks.toNat = 2 := by decide
  obtain ⟨hgreeted, -⟩ := greeted_of_hello oneTwoLibs blankFiles unhindered_oneTwo.device
    unhindered_oneTwo.large 1 (Job.full 0 1 1048578).totalBlocks [70, 85, 76, 76]
  obtain ⟨s, hs, hdone⟩ := exists_copied unhindered_oneTwo
    (fun _ hi => copiesBlock_faultless oneTwoLibs deflateOneTwo oneTwoDisk hi) hgreeted .new 0 0
  exact ⟨s, htotal ▸ hdone,
    fullBackup_copies unhindered_oneTwo oneTwoDisk blankFiles 1 1 .new 0 0 hs hdone⟩

end Go2Cbt.Link
