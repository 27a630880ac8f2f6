import Go2Cbt.Client.Scan
import Go2Cbt.Engine.Tally
import Go2Cbt.Engine.Tiling

/-!
# Engine — one pass and two

The pipeline allocates the block states without hashes and writes each hash when it has read the
block, while the callback sets statuses in the same entries.  The flow that it replaced built a
manifest of the disk first and made the block states from that.  `onePass_eq_twoPass`: once the
last hash is written the two have left the same block states, statuses aside, whatever the order
of the steps.
-/

namespace Go2Cbt.Client

/-- A block state, status aside. -/
def BlockState.exceptAck (bs : BlockState) : BlockState := { bs with ack := .pending }

/-- A version, the acknowledged count aside. -/
def VersionRecord.exceptAcked (ver : VersionRecord) : VersionRecord := { ver with ackedBlocks := 0 }

namespace BlockStateManager

/-- The same block array and the same versions, but for what acknowledgements change. -/
structure SameButAcks (m m' : BlockStateManager) : Prop where
  blocks : m.blocks.map BlockState.exceptAck = m'.blocks.map BlockState.exceptAck
  versions : ∀ k, (m.versions.find? k).map VersionRecord.exceptAcked
    = (m'.versions.find? k).map VersionRecord.exceptAcked

/-- **Setting a status** changes nothing else. -/
theorem sameButAcks_setBlockAck (m : BlockStateManager) (blockIndex : UInt64)
    (status : AckStatus) : SameButAcks (m.setBlockAck blockIndex status).2 m where
  blocks := by
    refine List.ext_getElem? fun i => ?_
    rw [blocks_setBlockAck, List.getElem?_map, List.getElem?_map, List.getElem?_modify]
    cases m.blocks[i]? with
    | none => rfl
    | some b =>
        refine congrArg some ?_
        dsimp only
        split <;> rfl
  versions k := by
    rw [setBlockAck]
    split
    · rfl
    · next old hold =>
      dsimp only
      split
      · rw [SortedMap.find?_modify]
        split
        · rw [Option.map_map]
          rfl
        · rfl
      · rfl

end BlockStateManager

end Go2Cbt.Client

namespace Go2Cbt.Engine

open Go2Cbt.Client
open Chunks (chunk)

/-- The two-pass flow: a manifest of the disk, and the block states of the version from it. -/
def twoPass (ops : HashOps) (m : BlockStateManager) (snapshotTime now built totalSize : UInt64)
    (volumePath : List UInt16) (manifest : FullManifest) : BlockStateManager :=
  let totalBlocks := (Job.full 0 0 totalSize).totalBlocks
  let created := m.createVersion [70, 85, 76, 76] snapshotTime now totalBlocks totalSize
  let scanned := (buildManifest ops built 0 totalSize volumePath manifest).2
  (created.2.initFullBlocks created.1.versionId scanned.totalBlocks scanned.entries).2

/-- The disk has these contents, and reading and hashing do not fail. -/
structure Outside.ReadsFrom {σ : Type} (out : Outside σ) (ops : HashOps) : Prop where
  readFile : ∀ {offset size r}, out.readFile offset size r → r = ops.readAt 0 offset size
  computeBlockHash : ∀ {data r}, out.computeBlockHash data r → r = ops.computeBlockHash 0 data

/-- The blocks whose hash is written are those below this. -/
def Sender.hashed : Sender → Nat
  | .send i _ _ | .count i | .skip i _ | .abandon i _ | .fail i => i + 1
  | s => s.pos

variable {σ : Type}

/-- The turns stay on the disk. -/
theorem Step.within {job : Job} {out : Outside σ} {s t : Pipeline σ} {p : Party}
    (h : Step job out s p t) (hs : s.sender.Within job.totalBlocks.toNat) :
    t.sender.Within job.totalBlocks.toNat := by
  cases h
  case finish hi => exact hi.le
  case abort hi _ => exact hi.le
  case timeout hi _ _ => exact hi.le
  case acquire hi _ _ => exact hi
  all_goals first
    | exact hs
    | rw [‹s.sender = _›] at hs
      first | exact hs | exact Nat.le_of_lt hs

section

variable {job : Job} {out : Outside σ} {s t : Pipeline σ} {p : Party}

/-- **What a step does to the block states**, when reading and hashing do not fail: the loop
writes the hash of its block, the callback sets a status, and nothing else touches them. -/
theorem Step.manager_cases (h : Step job out s p t)
    (hread : ∀ i k, s.sender = .read i k →
      ¬ out.readFile (UInt64.ofNat i * UInt64.ofNat blockSize) (job.blockSize i) none)
    (hhash : ∀ data, ¬ out.computeBlockHash data none) :
    (t.manager = s.manager ∧ t.sender.hashed ≤ s.sender.hashed) ∨
    (∃ i k data hash, s.sender = .record i k data hash ∧
      t.manager = (s.manager.setBlockHash (UInt64.ofNat i) hash).2 ∧ t.sender.hashed = i + 1) ∨
    ∃ blockIndex status, t.manager = (s.manager.setBlockAck blockIndex status).2 ∧
      t.sender = s.sender := by
  cases h
  case readFails h hfails => exact absurd hfails (hread _ _ h)
  case hashFails hfails => exact absurd hfails (hhash _)
  case compressFails h _ => exact .inr (.inl ⟨_, _, _, _, h, rfl, rfl⟩)
  case compress h _ => exact .inr (.inl ⟨_, _, _, _, h, rfl, rfl⟩)
  case setAck h => exact .inr (.inr ⟨_, _, rfl, rfl⟩)
  all_goals first
    | exact .inl ⟨rfl, le_rfl⟩
    | refine .inl ⟨rfl, ?_⟩
      rw [‹s.sender = _›]
      first | exact le_rfl | exact Nat.le_succ _

/-- The hash that the loop is about to write is that of the block it has read. -/
theorem Step.record_hash (h : Step job out s p t) {i k : Nat} {data : Bytes} {hash : Hash}
    (ht : t.sender = .record i k data hash) :
    s.sender = .record i k data hash ∨
      s.sender = .read i k ∧
        out.readFile (UInt64.ofNat i * UInt64.ofNat blockSize) (job.blockSize i) (some data) ∧
        out.computeBlockHash data (some hash) := by
  cases h
  case read h hread hhash =>
    cases ht
    exact .inr ⟨h, hread, hhash⟩
  all_goals first
    | exact .inl ht
    | cases ht

end

/-! ### The two flows -/

/-- The block states on the way: a block has its hash, or none as long as it is to come. -/
structure Fills (hash : Nat → Hash) (job : Job) (versionId : UInt64) (init : BlockStateManager)
    (s : Pipeline σ) : Prop where
  within : s.sender.Within job.totalBlocks.toNat
  current : ∀ i k data h, s.sender = .record i k data h → h = hash i
  length : s.manager.blocks.length = job.totalBlocks.toNat
  block : ∀ j b, s.manager.blocks[j]? = some b →
    b.exceptAck = BlockStateManager.fullBlock versionId (hash j) j ∨
      s.sender.hashed ≤ j ∧ b.exceptAck = BlockStateManager.fullBlock versionId .zero j
  versions : ∀ k, (s.manager.versions.find? k).map VersionRecord.exceptAcked
    = (init.versions.find? k).map VersionRecord.exceptAcked

section

variable {content : Bytes} {sha256 : Bytes → Hash} {totalSize : UInt64} {devNo version : UInt32}
  {out : Outside σ}

/-- The hash of a block of the disk. -/
def diskHash (content : Bytes) (sha256 : Bytes → Hash) (totalSize : UInt64) (i : Nat) : Hash :=
  sha256 (chunk blockSize (content.take totalSize.toNat) i)

/-- What the pipeline reads for a block of the disk. -/
theorem readFile_eq (hsize : totalSize.toNat < 2 ^ 63) (hcontent : totalSize.toNat ≤ content.length)
    (hout : out.ReadsFrom (contentSource content sha256)) {i : Nat}
    (hi : i < (Job.full devNo version totalSize).totalBlocks.toNat) {r : Option Bytes}
    (hread : out.readFile (UInt64.ofNat i * UInt64.ofNat blockSize)
      ((Job.full devNo version totalSize).blockSize i) r) :
    r = some (chunk blockSize (content.take totalSize.toNat) i) := by
  have hcount : i < Chunks.count blockSize totalSize.toNat := by
    rw [toNat_totalBlocks_full hsize] at hi
    exact hi
  have hoffset := toNat_offset (hi.trans (totalBlocks_full_lt devNo version totalSize))
  have hend := end_full_eq hsize hi
  rw [← Chunks.mul_add_length blockSize_pos hcount] at hend
  have hlen := Nat.add_left_cancel hend
  have hfits := Chunks.mul_add_length blockSize_pos hcount
  rw [hout.readFile hread, readAt_contentSource, hoffset, hlen, if_pos (by omega)]
  have hchunk := Chunks.chunk_take_drop (n := blockSize) content 0 totalSize.toNat i
  rw [List.drop_zero, Nat.zero_add] at hchunk
  rw [hchunk]

/-- A step of the transfer keeps the block states on the way. -/
theorem Fills.step (hsize : totalSize.toNat < 2 ^ 63) (hcontent : totalSize.toNat ≤ content.length)
    (hout : out.ReadsFrom (contentSource content sha256)) {versionId : UInt64}
    {init : BlockStateManager} {s t : Pipeline σ} {p : Party}
    (h : Fills (diskHash content sha256 totalSize) (Job.full devNo version totalSize) versionId
      init s)
    (hst : Step (Job.full devNo version totalSize) out s p t) :
    Fills (diskHash content sha256 totalSize) (Job.full devNo version totalSize) versionId init
      t := by
  -- what is read of block `i` is the chunk that the two-pass flow hashes
  have hreads : ∀ i k, s.sender = .read i k → ∀ r,
      out.readFile (UInt64.ofNat i * UInt64.ofNat blockSize)
        ((Job.full devNo version totalSize).blockSize i) r →
      r = some (chunk blockSize (content.take totalSize.toNat) i) := by
    intro i k hs r hr
    have hwithin := h.within
    rw [hs] at hwithin
    exact readFile_eq hsize hcontent hout hwithin hr
  have hcurrent : ∀ i k data hash, t.sender = .record i k data hash →
      hash = diskHash content sha256 totalSize i := by
    intro i k data hash ht
    rcases hst.record_hash ht with hs | ⟨hs, hread, hhash⟩
    · exact h.current i k data hash hs
    · have hdata := hreads i k hs _ hread
      have hsha := hout.computeBlockHash hhash
      rw [computeBlockHash_contentSource, Option.some.injEq] at hsha
      rw [Option.some.injEq] at hdata
      rw [hsha, hdata, diskHash]
  have hwithin := hst.within h.within
  -- three things can happen to the block states
  rcases hst.manager_cases (fun i k hs hnone => by cases hreads i k hs none hnone)
      (fun data hnone => by cases hout.computeBlockHash hnone) with
    ⟨hmanager, hle⟩ | ⟨i, k, data, hash, hs, hmanager, hnext⟩ | ⟨b, status, hmanager, hsender⟩
  · exact ⟨hwithin, hcurrent, hmanager ▸ h.length,
      fun j b hb => (h.block j b (hmanager ▸ hb)).imp_right (And.imp_left hle.trans),
      hmanager ▸ h.versions⟩
  · -- the hash of block `i`
    have hthis : i < (Job.full devNo version totalSize).totalBlocks.toNat := by
      have hi := h.within
      rwa [hs] at hi
    have hval : (UInt64.ofNat i).toNat = i :=
      UInt64.toNat_ofNat_of_lt (hthis.trans (UInt64.toNat_lt _))
    have hblocks : t.manager.blocks
        = s.manager.blocks.modify i fun bs => { bs with hash := hash } := by
      rw [hmanager, BlockStateManager.blocks_setBlockHash, hval]
    refine ⟨hwithin, hcurrent, ?_, fun j b hb => ?_, fun k => ?_⟩
    · rw [hblocks, List.length_modify]
      exact h.length
    · rw [hblocks, List.getElem?_modify] at hb
      obtain ⟨b', hb', rfl⟩ := Option.map_eq_some_iff.mp hb
      rcases eq_or_ne i j with rfl | hne
      · left
        rw [if_pos rfl, h.current i _ _ _ hs]
        rcases h.block i b' hb' with hold | ⟨-, hold⟩ <;>
          exact congrArg
            (fun bs : BlockState => { bs with hash := diskHash content sha256 totalSize i }) hold
      · rw [if_neg hne]
        refine (h.block j b' hb').imp_right (And.imp_left fun hle => ?_)
        rw [hs] at hle
        rw [hnext]
        exact Nat.lt_of_le_of_ne hle hne
    · rw [hmanager, BlockStateManager.versions_setBlockHash]
      exact h.versions k
  · -- a status
    have hsame := BlockStateManager.sameButAcks_setBlockAck s.manager b status
    rw [← hmanager] at hsame
    refine ⟨hwithin, hcurrent, ?_, fun j bs hbs => ?_,
      fun k => (hsame.versions k).trans (h.versions k)⟩
    · have hlen := congrArg List.length hsame.blocks
      rw [List.length_map, List.length_map] at hlen
      exact hlen.trans h.length
    · have hget := congrArg (·[j]?) hsame.blocks
      simp only [List.getElem?_map, hbs, Option.map_some] at hget
      obtain ⟨bs', hbs', heq⟩ := Option.map_eq_some_iff.mp hget.symm
      rw [hsender, ← heq]
      exact h.block j bs' hbs'

variable (devNo version) in
/-- What the two-pass flow leaves. -/
theorem twoPass_eq (hsize : totalSize.toNat < 2 ^ 63) (hcontent : totalSize.toNat ≤ content.length)
    (m : BlockStateManager) (snapshotTime now built : UInt64) (volumePath : List UInt16)
    (manifest : FullManifest) :
    (twoPass (contentSource content sha256) m snapshotTime now built totalSize volumePath
        manifest).blocks
      = (List.range (Job.full devNo version totalSize).totalBlocks.toNat).map (fun i =>
          BlockStateManager.fullBlock m.nextVersionId (diskHash content sha256 totalSize i) i) ∧
    (twoPass (contentSource content sha256) m snapshotTime now built totalSize volumePath
        manifest).versions
      = (prepare m snapshotTime now (Job.full devNo version totalSize).totalBlocks
          totalSize).2.versions := by
  have hzero : (0 : UInt64).toNat = 0 := rfl
  have hbelow : (0 : UInt64).toNat + totalSize.toNat < 2 ^ 63 := by omega
  have hread : (0 : UInt64).toNat + totalSize.toNat ≤ content.length := by omega
  have hversion : (m.createVersion [70, 85, 76, 76] snapshotTime now (manifestBlocks totalSize)
      totalSize).1.versionId = m.nextVersionId := rfl
  have hjob : (Job.full devNo version totalSize).totalBlocks = manifestBlocks totalSize := rfl
  have hjob' : (Job.full 0 0 totalSize).totalBlocks = manifestBlocks totalSize := rfl
  rw [twoPass, buildManifest_contentSource hbelow hread, hjob, hjob', prepare,
    BlockStateManager.initFullBlocks, BlockStateManager.initFullBlocksEmpty]
  dsimp only
  rw [hversion, find?_createVersion]
  dsimp only
  refine ⟨List.map_congr_left fun i hi => ?_, rfl⟩
  rw [List.mem_range, toNat_manifestBlocks_eq_count hsize] at hi
  rw [List.getElem?_map, List.getElem?_range hi, Option.map_some, Option.map_some,
    Option.getD_some, scanEntry, hzero, List.drop_zero, diskHash]

end

/-- **The pipeline leaves the block states of the two-pass flow**, once the hash of the last block
is written, however the acknowledgements come in. -/
theorem onePass_eq_twoPass (content : Bytes) (sha256 : Bytes → Hash) (out : Outside σ)
    (hout : out.ReadsFrom (contentSource content sha256)) (m : BlockStateManager)
    (snapshotTime now built totalSize : UInt64) (hsize : totalSize.toNat < 2 ^ 63)
    (hcontent : totalSize.toNat ≤ content.length) (devNo version : UInt32) (windowSize : Nat)
    (server : σ) (volumePath : List UInt16) (manifest : FullManifest) {s : Pipeline σ}
    (hs : Reached (Job.full devNo version totalSize) out
      (.start windowSize (prepare m snapshotTime now (Job.full devNo version totalSize).totalBlocks
        totalSize).2 server) s)
    (hlast : s.sender.hashed = (Job.full devNo version totalSize).totalBlocks.toNat) :
    s.manager.SameButAcks
      (twoPass (contentSource content sha256) m snapshotTime now built totalSize volumePath
        manifest) := by
  obtain ⟨hblocks, hversions⟩ : _ ∧
      (twoPass (contentSource content sha256) m snapshotTime now built totalSize volumePath
        manifest).versions = _ :=
    twoPass_eq devNo version hsize hcontent m snapshotTime now built volumePath manifest
  have hprepared := blocks_prepare m snapshotTime now
    (Job.full devNo version totalSize).totalBlocks totalSize
  have hfills : Fills (diskHash content sha256 totalSize) (Job.full devNo version totalSize)
      m.nextVersionId
      (prepare m snapshotTime now (Job.full devNo version totalSize).totalBlocks totalSize).2 s := by
    refine Transition.Reachable.invariant ?_ (fun s p t h hst => h.step hsize hcontent hout hst) hs
    rintro s rfl
    refine ⟨Nat.zero_le _, ?_, ?_, ?_, fun _ => rfl⟩
    · intro i k data h hs
      cases hs
    · rw [Pipeline.start, hprepared, List.length_map, List.length_range]
    · intro j b hb
      refine .inr ⟨Nat.zero_le _, ?_⟩
      rw [Pipeline.start, hprepared, List.getElem?_map] at hb
      obtain ⟨i, hi, rfl⟩ := Option.map_eq_some_iff.mp hb
      obtain ⟨-, rfl⟩ := List.getElem?_eq_some_iff.mp hi
      rw [List.getElem_range]
      rfl
  constructor
  · rw [hblocks]
    refine List.ext_getElem ?_ fun j hj _ => ?_
    · rw [List.length_map, List.length_map, List.length_map, List.length_range, hfills.length]
    · rw [List.length_map] at hj
      rw [List.getElem_map, List.getElem_map, List.getElem_map, List.getElem_range]
      -- every block is behind the last hash that was written
      rcases hfills.block j _ (List.getElem?_eq_getElem hj) with heq | ⟨hle, -⟩
      · exact heq
      · rw [hlast, ← hfills.length] at hle
        exact absurd hj (not_lt.mpr hle)
  · intro k
    rw [hversions]
    exact hfills.versions k

/-- The zeros of a megabyte and one byte. -/
def zeroContent : Bytes := List.replicate 1048577 0

theorem length_zeroContent : (1048577 : UInt64).toNat ≤ zeroContent.length := by
  rw [zeroContent, List.length_replicate]
  decide

/-- A disk with these contents, and a server that acknowledges every block. -/
def zeroFilled : Outside Unit where
  readFile offset size r := r = (contentSource zeroContent zeroSha256).readAt 0 offset size
  computeBlockHash data r := r = (contentSource zeroContent zeroSha256).computeBlockHash 0 data
  compress _ r := r = some []
  sendBlockNoWait _ sent := sent = true
  timesOut := False
  receiveFails := False
  serve _ queue reply _ queue' := ∃ m, queue = m :: queue' ∧ reply = okAck m

/-- Each block is acknowledged before the loop goes on. -/
theorem onePass_eq_twoPass_zeroFilled :
    ∃ s : Pipeline Unit, s.sender = .done 2 true ∧
      s.manager.SameButAcks
        (twoPass (contentSource zeroContent zeroSha256) .new 0 0 0 1048577 [] .blank) := by
  have htotal : (Job.full 0 1 1048577).totalBlocks.toNat = 2 := by decide
  have hreads : zeroFilled.ReadsFrom (contentSource zeroContent zeroSha256) := ⟨id, id⟩
  have hex : ∀ i < (Job.full 0 1 1048577).totalBlocks.toNat, Exchanges (Job.full 0 1 1048577)
      zeroFilled i () (Protocol.AckBody.mk (UInt64.ofNat i) 0 0 .zero) () := fun i hi =>
    { block := rfl
      calls := ⟨_, _, [], _, (readFile_eq (by decide) length_zeroContent hreads hi rfl).symm, rfl,
        rfl, rfl, ⟨_, rfl, rfl⟩, isAckFrame_okAck _⟩ }
  obtain ⟨s, hs, hdone, -⟩ := allBlocks_reached .new 0 0 hex
  rw [htotal] at hdone
  refine ⟨s, hdone, ?_⟩
  exact onePass_eq_twoPass zeroContent zeroSha256 zeroFilled hreads .new 0 0 0 1048577 (by decide)
    length_zeroContent 0 1 1 () [] .blank hs (by rw [hdone, htotal]; rfl)

end Go2Cbt.Engine
