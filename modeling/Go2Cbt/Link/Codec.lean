import Go2Cbt.Client.DataCompressor
import Go2Cbt.Lib.Inflate
import Go2Cbt.Link.Completion
import Go2Cbt.Link.Provenance

/-!
# Link — compressing and inflating

`DataCompressor::Compress` on the client and zlib on the server are two programs.  Of the system's
compressor it is assumed that it returns a stream for its input, of zlib that it returns what a
stream at the front of its input decodes to, and nothing of the two together: what the client makes
of a block inflates to the block (`compress_inflates`).  So a backup through both is traced to the
disk, and ends with the copy (`codec_backup`).
-/

namespace Go2Cbt.Link

open Go2Cbt.Protocol Go2Cbt.Client Go2Cbt.Engine Go2Cbt.Server Zlib

/-! ### A block -/

/-- What the system's compressor may return: a stream that decodes to the input, or one behind "CK",
or less than two bytes. -/
def AsDocumented (api : CompressApi) (input : Bytes) : Prop :=
  ∀ compressed, Returns api input compressed →
    Deflate.Decodes compressed input ∨
    (∃ stream, compressed = 0x43 :: 0x4B :: stream ∧ Deflate.Decodes stream input) ∨
    compressed.length < 2

/-- `uncompress2` returns nothing but what the stream at the front of its input decodes to. -/
def Sound (uncompress2 : Nat → Bytes → Option Bytes) : Prop :=
  ∀ max src data, uncompress2 max src = some data → inflate src = some data

theorem returns_of_compress {initialized : Bool} {api : CompressApi} {input out : Bytes}
    (h : Client.compress initialized api input = some out) :
    ∃ compressed, Returns api input compressed ∧ toZlib input compressed = some out := by
  rw [Client.compress] at h
  split at h
  case isFalse => cases h
  case isTrue =>
    dsimp only at h
    split at h
    · next hdone => exact ⟨_, .inl hdone, h⟩
    · next error hfailed =>
        split at h
        case isFalse => cases h
        case isTrue herror =>
          subst herror
          split at h
          · next hdone => exact ⟨_, .inr ⟨hfailed, hdone⟩, h⟩
          · cases h

/-- The header that `WrapDeflateAsZlib` writes. -/
theorem stream_wrapped {stream input : Bytes} (h : Deflate.Decodes stream input) :
    Stream (0x78 :: 0x9C :: (stream ++ bigEndian (adler32 input))) input :=
  ⟨0x78, 0x9C, stream, rfl, by decide, h⟩

/-- Nothing has no stored block. -/
theorem createStoredZlib_nil :
    createStoredZlib [] = some [0x78, 0x01, 0x00, 0x00, 0x00, 0x01] := by
  have hloop : ∀ output, storedBlocks [] 0 0 output = some output := by
    intro output
    rw [storedBlocks, dif_neg (by decide)]
  rw [createStoredZlib]
  change (do
    let output ← (Cursor.reserve (storedSize 0)).put [0x78]
    let output ← output.put [0x01]
    let output ← storedBlocks [] 0 0 output
    let output ← output.put (adlerBytes (computeAdler32 []))
    return output.written) = _
  simp only [hloop]
  rfl

/-- **What becomes of the compressor's answer is a stream of the input.**  Only of nothing, when the
answer is too short, comes a header and a checksum without a block. -/
theorem stream_of_toZlib {input compressed out : Bytes} (hlen : input.length < 2 ^ 32 - 65534)
    (hdoc : Deflate.Decodes compressed input ∨
      (∃ stream, compressed = 0x43 :: 0x4B :: stream ∧ Deflate.Decodes stream input) ∨
      compressed.length < 2)
    (h : toZlib input compressed = some out) :
    Stream out input ∨ input = [] ∧ out = [0x78, 0x01, 0x00, 0x00, 0x00, 0x01] := by
  rcases hdoc with hraw | ⟨stream, rfl, hck⟩ | hshort
  · rw [toZlib_raw hraw] at h
    cases h
    exact .inl (stream_wrapped hraw)
  · rw [toZlib_ck] at h
    cases h
    exact .inl (stream_wrapped hck)
  · rw [toZlib, if_pos hshort] at h
    by_cases hne : input = []
    · subst hne
      rw [createStoredZlib_nil] at h
      cases h
      exact .inr ⟨rfl, rfl⟩
    · obtain ⟨out', hout, -, -, hstream⟩ := createStoredZlib_decodes hne hlen
      rw [h] at hout
      cases hout
      exact .inl hstream

section Compress

variable {initialized : Bool} {api : CompressApi} {input out : Bytes}
  (hapi : AsDocumented api input) (hlen : input.length < 2 ^ 32 - 65534)
  (h : Client.compress initialized api input = some out)
include hapi hlen h

theorem stream_of_compress :
    Stream out input ∨ input = [] ∧ out = [0x78, 0x01, 0x00, 0x00, 0x00, 0x01] := by
  obtain ⟨compressed, hreturns, hzlib⟩ := returns_of_compress h
  exact stream_of_toZlib hlen (hapi compressed hreturns) hzlib

/-- A decoder gets the input back, if anything. -/
theorem eq_of_uncompress {uncompress2 : Nat → Bytes → Option Bytes} (hsound : Sound uncompress2)
    {max : Nat} {data : Bytes} (hdata : uncompress2 max out = some data) : data = input := by
  have hinflate := hsound max out data hdata
  rcases stream_of_compress hapi hlen h with hstream | ⟨rfl, rfl⟩
  · have hsame := hstream.inflate []
    rw [List.append_nil, hinflate] at hsame
    exact Option.some.inj hsame
  · have hnone : inflate [0x78, 0x01, 0x00, 0x00, 0x00, 0x01] = none := by decide +kernel
    rw [hnone] at hinflate
    cases hinflate

/-- **What `Compress` makes of its input inflates to it**: with any bytes behind it, and whatever
decoder there is that returns nothing but what a stream decodes to. -/
theorem compress_inflates :
    (input ≠ [] → ∀ behind, inflate (out ++ behind) = some input) ∧
      ∀ uncompress2, Sound uncompress2 → ∀ max data, uncompress2 max out = some data →
        data = input := by
  refine ⟨fun hne behind => ?_, fun uncompress2 hsound max data hdata =>
    eq_of_uncompress hapi hlen h hsound hdata⟩
  rcases stream_of_compress hapi hlen h with hstream | ⟨rfl, -⟩
  · exact hstream.inflate behind
  · exact absurd rfl hne

end Compress

/-! ### A backup -/

/-- The client compresses with `DataCompressor` what it has read of a block, whatever the system's
compressor answers this time. -/
def ByDataCompressor (out : Outside Peer) : Prop :=
  ∀ data r, out.compress data r → data.length ≤ blockSize ∧
    ∃ api, AsDocumented api data ∧ r = Client.compress true api data

theorem length_lt_of_block {data : Bytes} (h : data.length ≤ blockSize) :
    data.length < 2 ^ 32 - 65534 := by
  rw [blockSize_eq] at h
  omega

/-- What inflates at all inflates to the block. -/
theorem faithful_of_sound {libs : Libs} (hzlib : Sound libs.uncompress2) {out : Outside Peer}
    (hout : ByDataCompressor out) : Faithful libs out := by
  intro data compressed raw hcompress hraw
  obtain ⟨hlen, api, hapi, h⟩ := hout data _ hcompress
  exact eq_of_uncompress hapi (length_lt_of_block hlen) h.symm hzlib hraw

/-- Compressing that does not fail, and whose streams are not too long and are not refused. -/
structure Zips (libs : Libs) (zip : Bytes → Bytes) : Prop where
  compresses : ∀ data : Bytes, data.length ≤ blockSize →
    ∃ api, AsDocumented api data ∧ Client.compress true api data = some (zip data)
  shrinks : ∀ data : Bytes, data.length ≤ blockSize → (zip data).length ≤ 2 * blockSize
  accepted : ∀ data : Bytes, data.length ≤ blockSize →
    ∃ raw, libs.uncompress2 rawBufSize (zip data) = some raw

theorem Zips.inflates {libs : Libs} {zip : Bytes → Bytes} (h : Zips libs zip)
    (hzlib : Sound libs.uncompress2) {data : Bytes} (hdata : data.length ≤ blockSize) :
    libs.uncompress2 rawBufSize (zip data) = some data := by
  obtain ⟨api, hapi, hcompress⟩ := h.compresses data hdata
  obtain ⟨raw, hraw⟩ := h.accepted data hdata
  rw [hraw, eq_of_uncompress hapi (length_lt_of_block hdata) hcompress hzlib hraw]

/-- **A backup through both programs.**  Nothing is assumed of the two together.  Whatever fails, in
either transfer, each byte of each file is the original one, or is in the file of the job's device
and was read from the disk at its address.  If nothing fails and nothing is refused, a full backup
cannot stop before every block is acknowledged and the disk is in its file, and can always come to
that. -/
theorem codec_backup {libs : Libs} (hzlib : Sound libs.uncompress2) :
    (∀ (out : Outside Peer) (server : Peer), out.serve = takes libs → ByDataCompressor out →
      AfterHello libs server →
      (∀ (job : Job) (windowSize : Nat) (m : BlockStateManager) (s : Pipeline Peer),
        Reached job out (.start windowSize m server) s →
          Traceable libs out job.devNo server.serving.files s.server.serving.files) ∧
      ∀ (job : SyncJob) (m : BlockStateManager) (s : Synchronous Peer),
        (∀ b ∈ m.blocks, OffsetFits b) → SyncReached job out (.start m server) s →
          Traceable libs out job.devNo server.serving.files s.server.serving.files) ∧
    ∀ (zip : Bytes → Bytes) (disk : Image) (files : Files) (bf : BackingFile)
      (devNo versionId : UInt32) (totalSize : UInt64) (windowSize : Nat) (m : BlockStateManager)
      (snapshotTime now : UInt64), Zips libs zip → totalSize.toNat < 2 ^ 63 →
      libs.diskMap.get devNo = some bf → totalSize ≤ bf.sizeBytes →
      (∀ call len, libs.pwrite call len = some len) → 0 < windowSize → ∀ s,
      Reached (Job.full devNo versionId totalSize) (faultless libs disk zip)
          (fullBackupStart libs devNo totalSize files versionId windowSize m snapshotTime now) s →
        ((∀ p t, ¬ Step (Job.full devNo versionId totalSize) (faultless libs disk zip) s p t) →
          Complete libs bf disk files totalSize s) ∧
        ∃ as t, Transition.Run
            (Step (Job.full devNo versionId totalSize) (faultless libs disk zip)) s as t ∧
          Complete libs bf disk files totalSize t := by
  constructor
  · intro out server hserve hout hhello
    have hcodec := faithful_of_sound hzlib hout
    refine ⟨fun job windowSize m s h => ?_, fun job m s hfits h => ?_⟩
    · exact traceable_of_reached hserve hcodec hhello.greeted h
    · exact sync_traceable_of_reached hserve hcodec hfits hhello.greeted h
  · intro zip disk files bf devNo versionId totalSize windowSize m snapshotTime now hzip hsize
      hdevice hlarge hwrites hwindow s h
    have hu : Unhindered libs zip devNo totalSize bf :=
      ⟨hsize, hdevice, hlarge, hwrites, hzip.shrinks, fun data hdata => hzip.inflates hzlib hdata⟩
    exact ⟨complete_of_stuck hu hwindow h, exists_run_complete hu hwindow h⟩

/-! ### That disk -/

/-- A compressor with "CK" in front of a stream, for the bytes `1 2`; with the bare stream of
nothing; and too short for all others. -/
def shortAnswers : CompressApi := fun input _ =>
  if input = [1, 2] then .done [0x43, 0x4B, 0x63, 0x64, 0x02, 0x00]
  else if input = [] then .done [0x03, 0x00]
  else .done []

theorem decodes_oneTwo : Deflate.Decodes [0x63, 0x64, 0x02, 0x00] [1, 2] := by
  have hread : Deflate.inflateBlocks 32 [] (Deflate.bitsOf [0x63, 0x64, 0x02, 0x00])
      = some ([1, 2], [false, false, false, false, false, false]) := by decide +kernel
  exact ⟨_, Deflate.blocks_of_inflate hread, by decide⟩

theorem decodes_nothing : Deflate.Decodes [0x03, 0x00] [] := by
  have hread : Deflate.inflateBlocks 16 [] (Deflate.bitsOf [0x03, 0x00])
      = some ([], [false, false, false, false, false, false]) := by decide +kernel
  exact ⟨_, Deflate.blocks_of_inflate hread, by decide⟩

theorem asDocumented_shortAnswers (input : Bytes) : AsDocumented shortAnswers input := by
  intro compressed hreturns
  have hdone : shortAnswers input (getMaxCompressedSize input.length) = .done compressed := by
    rcases hreturns with h | ⟨h, -⟩
    · exact h
    · rw [shortAnswers] at h
      split at h <;> [cases h; split at h <;> cases h]
  rw [shortAnswers] at hdone
  split at hdone
  · next htwo =>
      cases hdone
      exact .inr (.inl ⟨_, rfl, htwo ▸ decodes_oneTwo⟩)
  split at hdone
  · next hnothing =>
      cases hdone
      exact .inl (hnothing ▸ decodes_nothing)
  · cases hdone
    exact .inr (.inr (by decide))

/-- What becomes of a block. -/
def zipped (data : Bytes) : Bytes := (Client.compress true shortAnswers data).getD []

theorem compress_shortAnswers {data : Bytes} (hlen : data.length ≤ blockSize) :
    ∃ out, Client.compress true shortAnswers data = some out ∧ Stream out data ∧
      out.length ≤ 2 * blockSize := by
  have hblock := blockSize_eq
  by_cases htwo : data = [1, 2]
  · subst htwo
    refine ⟨[0x78, 0x9C, 0x63, 0x64, 0x02, 0x00, 0x00, 0x06, 0x00, 0x04], by decide,
      stream_wrapped decodes_oneTwo, ?_⟩
    rw [hblock]
    decide
  by_cases hnothing : data = []
  · subst hnothing
    refine ⟨[0x78, 0x9C, 0x03, 0x00, 0x00, 0x00, 0x00, 0x01], by decide,
      stream_wrapped decodes_nothing, ?_⟩
    rw [hblock]
    decide
  · -- too short: the block is stored
    obtain ⟨out, hout, hsize, -, hstream⟩ :=
      createStoredZlib_decodes hnothing (length_lt_of_block hlen)
    have hdone : shortAnswers data (getMaxCompressedSize data.length) = .done [] := by
      rw [shortAnswers, if_neg htwo, if_neg hnothing]
    refine ⟨out, ?_, hstream, ?_⟩
    · rw [compress_of_returns (.inl hdone), toZlib, if_pos (by decide), hout]
    · rw [hsize, storedSize_eq (length_lt_of_block hlen), storedLength]
      omega

/-- The libraries with the decoder. -/
def zlibLibs : Libs :=
  { oneTwoLibs with
    uncompress2 := fun max src => (inflate src).filter fun data => data.length ≤ max }

theorem sound_zlibLibs : Sound zlibLibs.uncompress2 :=
  fun _ _ _ h => (Option.filter_eq_some_iff.mp h).1

theorem zips_zlibLibs : Zips zlibLibs zipped where
  compresses data hdata := by
    obtain ⟨out, hout, -⟩ := compress_shortAnswers hdata
    exact ⟨shortAnswers, asDocumented_shortAnswers data, by rw [zipped, hout, Option.getD_some]⟩
  shrinks data hdata := by
    obtain ⟨out, hout, -, hlen⟩ := compress_shortAnswers hdata
    rwa [zipped, hout, Option.getD_some]
  accepted data hdata := by
    obtain ⟨out, hout, hstream, -⟩ := compress_shortAnswers hdata
    have hinflate := hstream.inflate []
    rw [List.append_nil] at hinflate
    refine ⟨data, ?_⟩
    rw [zipped, hout, Option.getD_some]
    refine Option.filter_eq_some_iff.mpr ⟨hinflate, decide_eq_true ?_⟩
    exact hdata.trans (Nat.le_add_right _ _)

theorem compress_inflates_oneTwo :
    inflate ([0x78, 0x9C, 0x63, 0x64, 0x02, 0x00, 0x00, 0x06, 0x00, 0x04] ++ [7]) = some [1, 2] :=
  (compress_inflates (asDocumented_shortAnswers [1, 2]) (by decide)
    (show Client.compress true shortAnswers [1, 2] = some _ by decide)).1 (by decide) [7]

/-- A client that compresses so, against that server. -/
def zlibOutside : Outside Peer :=
  { faultless zlibLibs oneTwoDisk zipped with
    serve := takes zlibLibs
    compress := fun data r => data.length ≤ blockSize ∧ r = Client.compress true shortAnswers data }

theorem unhindered_zlibLibs :
    Unhindered zlibLibs zipped 0 1048578
      { fd := 3, sizeBytes := 2097152, path := "disk0.img" } where
  size_lt := by decide
  device := by decide
  large := by decide
  writes _ _ := rfl
  shrinks := zips_zlibLibs.shrinks
  inflates _ hdata := zips_zlibLibs.inflates sound_zlibLibs hdata

theorem copiesBlock_zlibOutside {versionId : UInt32} {i : Nat}
    (hi : i < (Job.full 0 versionId 1048578).totalBlocks.toNat) :
    CopiesBlock zlibLibs zipped oneTwoDisk 0 versionId 1048578 zlibOutside i where
  reads := (copiesBlock_takes unhindered_zlibLibs oneTwoDisk hi).reads
  hashes := rfl
  compresses := by
    obtain ⟨-, hle, -⟩ := blockSize_full_bounds unhindered_zlibLibs.size_lt hi
    have hdata : (blockData oneTwoDisk 0 versionId 1048578 i).length ≤ blockSize :=
      (Image.length_slice ..).trans_le hle
    obtain ⟨out, hout, -⟩ := compress_shortAnswers hdata
    exact ⟨hdata, by rw [zipped, hout, Option.getD_some]⟩
  sends := rfl
  serves := (copiesBlock_takes unhindered_zlibLibs oneTwoDisk hi).serves

/-- A megabyte that is stored and two bytes behind `CK`: a transfer to its end, and a backup that
ends with the copy. -/
theorem codec_backup_oneTwo :
    (∃ (server : Peer) (s : Pipeline Peer), s.sender = .done 2 true ∧
      Traceable zlibLibs zlibOutside 0 server.serving.files s.server.serving.files) ∧
    ∃ as t, Transition.Run (Step (Job.full 0 1 1048578) (faultless zlibLibs oneTwoDisk zipped))
        (fullBackupStart zlibLibs 0 1048578 blankFiles 1 1 .new 0 0) as t ∧
      Complete zlibLibs { fd := 3, sizeBytes := 2097152, path := "disk0.img" } oneTwoDisk
        blankFiles 1048578 t := by
  have hu := unhindered_zlibLibs
  obtain ⟨htraced, hcopied⟩ := codec_backup sound_zlibLibs
  constructor
  · have htotal : (Job.full 0 1 1048578).totalBlocks.toNat = 2 := by decide
    obtain ⟨hgreeted, -, hello, hanswered, hstatus⟩ := greeted_of_hello zlibLibs blankFiles
      hu.device hu.large 1 (Job.full 0 1 1048578).totalBlocks [70, 85, 76, 76]
    obtain ⟨s, hs, hdone⟩ := exists_copied hu (fun _ hi => copiesBlock_zlibOutside hi) hgreeted
      .new 0 0
    have hout : ByDataCompressor zlibOutside := fun data r h =>
      ⟨h.1, shortAnswers, asDocumented_shortAnswers data, h.2⟩
    exact ⟨_, s, htotal ▸ hdone, (htraced zlibOutside _ rfl hout
      ⟨blankFiles, 1, 0, _, 1048578, [70, 85, 76, 76], hello, hanswered, hstatus, rfl⟩).1 _ _ _ s
        hs⟩
  · exact (hcopied zipped oneTwoDisk blankFiles _ 0 1 1048578 1 .new 0 0 zips_zlibLibs hu.size_lt
      hu.device hu.large hu.writes Nat.one_pos _ ⟨_, [], rfl, .nil _⟩).2

end Go2Cbt.Link
