import Go2Cbt.Driver.Marking

/-!
# Driver — the caller's buffer

Device control is buffered: the system copies `Information` bytes of the system buffer back to the
caller, so a handler may neither write nor report more than `OutputBufferLength`.
`respectsBuffer_query_iff` says for which requests a query keeps to that, over all bitmaps that
`InitCbtState` leaves and that marking and clearing make of them.
-/

namespace Go2Cbt.Driver

open LittleEndian

/-- The bitmaps of a running driver: zeroed memory, what `InitCbtState` makes of it, and what
marking and clearing make of that. -/
inductive DiskCbtState.Produced : DiskCbtState → Prop where
  | zero : Produced .zero
  | init {s : DiskCbtState} (allocated : Bool) (diskSizeBytes : UInt64) (h : Produced s) :
      Produced (initCbtState allocated s diskSizeBytes).2
  | setBits {s : DiskCbtState} (start count : UInt32) (h : Produced s) :
      Produced (s.rtlSetBits start count)
  | clearAllBits {s : DiskCbtState} (h : Produced s) : Produced s.rtlClearAllBits

/-- **The byte count is that of the words**, also where 32 bits do not hold that of the disk. -/
theorem DiskCbtState.Produced.toNat_totalBytes {s : DiskCbtState} (h : s.Produced) :
    s.totalBytes.toNat = 4 * s.words.length ∧ s.totalBytes.toNat < 2 ^ 32 := by
  induction h with
  | zero => exact ⟨rfl, by decide⟩
  | @init s allocated diskSizeBytes _ ih =>
      rw [initCbtState]
      split
      · exact ih
      · cases allocated with
        | false => exact ⟨rfl, show (0 : Nat) < 2 ^ 32 by decide⟩
        | true =>
            dsimp only
            rw [if_pos rfl]
            generalize (diskSizeBytes + cbtBlockSize - 1) / cbtBlockSize = totalBits
            have hfour : ((totalBits + 31) / 32 * 4).toUInt32.toNat % 4 = 0 := by
              have h4 : (4 : UInt64).toNat = 4 := rfl
              rw [UInt64.toNat_toUInt32, UInt64.toNat_mul, h4]
              omega
            generalize ((totalBits + 31) / 32 * 4).toUInt32 = totalBytes at hfour ⊢
            have hwords : (List.replicate (totalBytes.toNat / 4) (0 : UInt32)).length
                = totalBytes.toNat / 4 := List.length_replicate
            rw [UInt32.toNat_toUInt64, DiskCbtState.words, Option.getD_some, hwords]
            exact ⟨by omega, totalBytes.toNat_lt⟩
  | @setBits s start count _ ih =>
      have hwords : (s.rtlSetBits start count).words.length = s.words.length := by
        rw [rtlSetBits, words, words]
        cases s.buffer with
        | none => rfl
        | some ws => exact BitWords.length_setBits ws _ _
      rw [hwords]
      exact ih
  | @clearAllBits s _ ih =>
      have hwords : s.rtlClearAllBits.words.length = s.words.length := by
        rw [rtlClearAllBits, words, words]
        cases s.buffer with
        | none => rfl
        | some ws => exact BitWords.length_clear ws
      rw [hwords]
      exact ih

/-- A handler that does not look at an input that was not supplied completely, and that writes and
reports no more than the caller has room for. -/
structure RespectsBuffer (handler : IoctlRequest → IoctlReply) (req : IoctlRequest) : Prop where
  input : ∀ input : Bytes, req.inputBuffer.length < 4 → input.length < 4 →
    handler { req with inputBuffer := input } = handler req
  written : (handler req).written.length ≤ req.outputBufferLength.toNat
  bytesReturned : (handler req).bytesReturned.toNat ≤ req.outputBufferLength.toNat

/-- The query finds a disk with a bitmap. -/
def QueryFinds (diskMap : DiskMap) (req : IoctlRequest) (e : DiskMapEntry) : Prop :=
  4 ≤ req.inputBuffer.length ∧
    findDiskMapEntryByNumber diskMap (u32 req.inputBuffer 0) = some e ∧
    ¬ (e.cbtState.buffer = none ∨ e.cbtState.totalBits = 0)

/-- There is room for the header, and the size of the reply fits into 32 bits. -/
def ReplyFits (req : IoctlRequest) (e : DiskMapEntry) : Prop :=
  16 ≤ req.outputBufferLength.toNat ∧ 16 + e.cbtState.totalBytes.toNat < 4294967296

theorem length_queryHeader (totalBits : UInt64) (totalBytes : UInt32) :
    (queryHeader totalBits totalBytes).length = 16 := by
  rw [queryHeader, List.length_append, length_ofU64, length_ofU64]

theorem within_of_bare {reply : IoctlReply} (h : ∃ status, reply = .bare status) (n : Nat) :
    reply.written.length ≤ n ∧ reply.bytesReturned.toNat ≤ n := by
  obtain ⟨status, rfl⟩ := h
  exact ⟨Nat.zero_le _, Nat.zero_le _⟩

section Query

variable {diskMap : DiskMap} {req : IoctlRequest}

/-- A query that finds no disk with a bitmap replies with a status only. -/
theorem handleIoctlQuery_of_not_finds (h : ∀ e, ¬ QueryFinds diskMap req e) :
    ∃ status, handleIoctlQuery diskMap req = .bare status := by
  rw [handleIoctlQuery]
  split
  · exact ⟨_, rfl⟩
  · next hinput =>
      cases hfind : findDiskMapEntryByNumber diskMap (u32 req.inputBuffer 0) with
      | none => exact ⟨_, rfl⟩
      | some e =>
          dsimp only
          split
          · exact ⟨_, rfl⟩
          · next hlive => exact absurd ⟨not_lt.mp hinput, hfind, hlive⟩ (h e)

/-- What a query that finds a disk writes and reports. -/
theorem handleIoctlQuery_of_finds {e : DiskMapEntry} (h : QueryFinds diskMap req e) :
    (handleIoctlQuery diskMap req).written.length
        = (if req.outputBufferLength < bitmapDataOffset + e.cbtState.totalBytes.toUInt32 then
            if req.outputBufferLength ≥ bitmapDataOffset then 16 else 0
          else 16 + min e.cbtState.totalBytes.toUInt32.toNat (4 * e.cbtState.words.length)) ∧
      (handleIoctlQuery diskMap req).bytesReturned
        = (if req.outputBufferLength < bitmapDataOffset + e.cbtState.totalBytes.toUInt32 ∧
              req.outputBufferLength ≥ bitmapDataOffset then bitmapDataOffset
          else bitmapDataOffset + e.cbtState.totalBytes.toUInt32) := by
  obtain ⟨hinput, hfind, hlive⟩ := h
  rw [handleIoctlQuery, if_neg (not_lt.mpr hinput), hfind]
  dsimp only
  rw [if_neg hlive]
  by_cases hsmall : req.outputBufferLength < bitmapDataOffset + e.cbtState.totalBytes.toUInt32
  · by_cases hheader : req.outputBufferLength ≥ bitmapDataOffset
    · simp only [hsmall, hheader, if_true, and_self, length_queryHeader]
    · simp only [hsmall, hheader, if_true, if_false, and_false, List.length_nil, and_self]
  · simp only [hsmall, if_false, false_and, List.length_append, length_queryHeader,
      List.length_take, BitWords.length_bytes, and_self]

/-- A query that finds a disk keeps to the buffer exactly when the reply fits: short of the header
it reports the size it would need, and a size past 32 bits looks small. -/
theorem within_iff_of_finds {e : DiskMapEntry} (hproduced : e.cbtState.Produced)
    (h : QueryFinds diskMap req e) :
    (handleIoctlQuery diskMap req).written.length ≤ req.outputBufferLength.toNat ∧
        (handleIoctlQuery diskMap req).bytesReturned.toNat ≤ req.outputBufferLength.toNat ↔
      ReplyFits req e := by
  obtain ⟨hwritten, hreturned⟩ := handleIoctlQuery_of_finds h
  obtain ⟨hbytes, hlt⟩ := hproduced.toNat_totalBytes
  have hnarrow : e.cbtState.totalBytes.toUInt32.toNat = e.cbtState.totalBytes.toNat := by
    rw [UInt64.toNat_toUInt32]
    exact Nat.mod_eq_of_lt hlt
  have hsixteen : bitmapDataOffset.toNat = 16 := rfl
  have hrequired : (bitmapDataOffset + e.cbtState.totalBytes.toUInt32).toNat
      = (16 + e.cbtState.totalBytes.toNat) % 2 ^ 32 := by
    rw [UInt32.toNat_add, hnarrow, hsixteen]
  have hout := req.outputBufferLength.toNat_lt
  rw [hwritten, hreturned, ReplyFits]
  by_cases hsmall : req.outputBufferLength < bitmapDataOffset + e.cbtState.totalBytes.toUInt32
  · have hsmall' := UInt32.lt_iff_toNat_lt.mp hsmall
    rw [hrequired] at hsmall'
    by_cases hheader : req.outputBufferLength ≥ bitmapDataOffset
    · have hheader' := UInt32.le_iff_toNat_le.mp hheader
      rw [hsixteen] at hheader'
      rw [if_pos hsmall, if_pos hheader, if_pos ⟨hsmall, hheader⟩, hsixteen]
      omega
    · have hheader' := mt UInt32.le_iff_toNat_le.mpr hheader
      rw [hsixteen] at hheader'
      rw [if_pos hsmall, if_neg hheader, if_neg fun hboth => hheader hboth.2, hrequired]
      omega
  · have hsmall' := mt UInt32.lt_iff_toNat_lt.mpr hsmall
    rw [hrequired] at hsmall'
    rw [if_neg hsmall, if_neg fun hboth => hsmall hboth.1, hrequired, hnarrow, ← hbytes,
      Nat.min_self]
    omega

/-- An input of fewer than four bytes is not looked at. -/
theorem handleIoctlQuery_short {req : IoctlRequest} (h : req.inputBuffer.length < 4) :
    handleIoctlQuery diskMap req = .bare .invalidParameter := if_pos h

theorem dispatch_short {input : Bytes} (h : req.inputBuffer.length < 4) (hinput : input.length < 4) :
    (cbtDispatchDeviceControl diskMap { req with inputBuffer := input }).1
      = (cbtDispatchDeviceControl diskMap req).1 := by
  rw [cbtDispatchDeviceControl, cbtDispatchDeviceControl]
  split
  · exact (handleIoctlQuery_short hinput).trans (handleIoctlQuery_short h).symm
  · split
    · rw [handleIoctlReset, handleIoctlReset, if_pos hinput, if_pos h]
    · rfl

/-- A reset writes and reports nothing. -/
theorem handleIoctlReset_bare (diskMap : DiskMap) (req : IoctlRequest) :
    ∃ status, (handleIoctlReset diskMap req).1 = .bare status := by
  rw [handleIoctlReset]
  split
  · exact ⟨_, rfl⟩
  · dsimp only
    split
    · exact ⟨_, rfl⟩
    · split <;> exact ⟨_, rfl⟩

end Query

/-- **A query keeps to the caller's buffer exactly when the reply fits**, if it finds a disk with a
bitmap at all, and so does the dispatch routine, which respects the buffer for every other code. -/
theorem respectsBuffer_query_iff (diskMap : DiskMap)
    (hproduced : ∀ e ∈ diskMap, e.cbtState.Produced) (req : IoctlRequest) :
    (RespectsBuffer (handleIoctlQuery diskMap) req ↔
        ∀ e, QueryFinds diskMap req e → ReplyFits req e) ∧
      (RespectsBuffer (fun r => (cbtDispatchDeviceControl diskMap r).1) req ↔
        (req.ioControlCode = ioctlQueryCbtData →
          ∀ e, QueryFinds diskMap req e → ReplyFits req e)) := by
  have hwithin : ((handleIoctlQuery diskMap req).written.length ≤ req.outputBufferLength.toNat ∧
      (handleIoctlQuery diskMap req).bytesReturned.toNat ≤ req.outputBufferLength.toNat) ↔
        ∀ e, QueryFinds diskMap req e → ReplyFits req e := by
    by_cases hfinds : ∃ e, QueryFinds diskMap req e
    · obtain ⟨e, he⟩ := hfinds
      have hiff := within_iff_of_finds (hproduced e (List.mem_of_find?_eq_some he.2.1)) he
      refine hiff.trans ⟨fun hfits e' he' => ?_, fun hall => hall e he⟩
      obtain rfl : e = e' := Option.some.inj (he.2.1.symm.trans he'.2.1)
      exact hfits
    · have hnone : ∀ e, ¬ QueryFinds diskMap req e := fun e he => hfinds ⟨e, he⟩
      exact iff_of_true (within_of_bare (handleIoctlQuery_of_not_finds hnone) _)
        fun e he => absurd he (hnone e)
  refine ⟨⟨fun h => hwithin.mp ⟨h.written, h.bytesReturned⟩, fun h => ?_⟩, ?_⟩
  · obtain ⟨hwritten, hreturned⟩ := hwithin.mpr h
    refine ⟨fun input hshort hinput => ?_, hwritten, hreturned⟩
    exact (handleIoctlQuery_short hinput).trans (handleIoctlQuery_short hshort).symm
  · by_cases hcode : req.ioControlCode = ioctlQueryCbtData
    · have hquery : (cbtDispatchDeviceControl diskMap req).1 = handleIoctlQuery diskMap req :=
        congrArg Prod.fst (if_pos hcode)
      constructor
      · intro h _
        exact hwithin.mp ⟨hquery ▸ h.written, hquery ▸ h.bytesReturned⟩
      · intro h
        obtain ⟨hwritten, hreturned⟩ := hwithin.mpr (h hcode)
        refine ⟨fun input hshort hinput => dispatch_short hshort hinput, ?_, ?_⟩
        · exact hquery ▸ hwritten
        · exact hquery ▸ hreturned
    · -- every other code replies with a status only
      have hbare : ∃ status, (cbtDispatchDeviceControl diskMap req).1 = .bare status := by
        rw [cbtDispatchDeviceControl, if_neg hcode]
        split
        · exact handleIoctlReset_bare diskMap req
        · exact ⟨_, rfl⟩
      obtain ⟨hwritten, hreturned⟩ := within_of_bare hbare req.outputBufferLength.toNat
      refine iff_of_true ?_ fun h => absurd h hcode
      exact ⟨fun input hshort hinput => dispatch_short hshort hinput, hwritten, hreturned⟩

/-- A query for the sizes of the disk of two blocks. -/
theorem respectsBuffer_query_iff_header :
    (RespectsBuffer (handleIoctlQuery twoBlockDisk) (.forDisk ioctlQueryCbtData 0 16) ↔
        ∀ e, QueryFinds twoBlockDisk (.forDisk ioctlQueryCbtData 0 16) e →
          ReplyFits (.forDisk ioctlQueryCbtData 0 16) e) ∧
      (RespectsBuffer (fun r => (cbtDispatchDeviceControl twoBlockDisk r).1)
          (.forDisk ioctlQueryCbtData 0 16) ↔
        (ioctlQueryCbtData = ioctlQueryCbtData →
          ∀ e, QueryFinds twoBlockDisk (.forDisk ioctlQueryCbtData 0 16) e →
            ReplyFits (.forDisk ioctlQueryCbtData 0 16) e)) :=
  respectsBuffer_query_iff twoBlockDisk
    (List.forall_mem_singleton.mpr (.init true 2097152 .zero)) (.forDisk ioctlQueryCbtData 0 16)

/-- A query for them with no room at all. -/
theorem query_without_room :
    ¬ RespectsBuffer (fun r => (cbtDispatchDeviceControl twoBlockDisk r).1)
      (.forDisk ioctlQueryCbtData 0 0) := by
  intro h
  exact absurd h.bytesReturned (by decide)

end Go2Cbt.Driver
