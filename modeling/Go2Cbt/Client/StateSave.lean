import Go2Cbt.Lib.OpenFile
import Go2Cbt.Lib.Transition
import Go2Cbt.Client.StateRoundTrip

/-!
# Client — saving, one file operation after the other

`Save` writes a new file next to the old one and moves it into place.  It looks at the results of
`CreateFileW` and `MoveFileExW` only: a write or a seek that fails is passed over, and the move
then puts what there is in place of the old file.

`atomic_iff` gives the outcomes for which a save, or what a crash leaves of it, is atomic.
-/

namespace Go2Cbt.Client

open LittleEndian Transition

/-- What `Save` writes for a row of the version table, write by write. -/
def versionFields (ver : VersionRecord) : List Bytes :=
  [ofU64 ver.versionId, ofU32 ver.devNo, ofUnits (typeBuffer ver.versionType),
    ofU64 ver.snapshotTime, ofU64 ver.totalBlocks, ofU64 ver.changedBlocks, ofU64 ver.totalSize,
    ofU64 ver.ackedBlocks, ofU64 ver.createTimestamp]

theorem flatten_versionFields (ver : VersionRecord) :
    (versionFields ver).flatten = versionRow ver := by
  simp [versionFields, versionRow]

/-- An operation on the files, with its outcome.  A write has put `written` bytes at most. -/
inductive SaveAct where
  | create (ok : Bool)
  | write (data : Bytes) (written : Nat)
  | seek (ok : Bool)
  | flush (ok : Bool)
  | close
  | move (ok : Bool)
  | delete (ok : Bool)

/-- How the file operations of a save turn out.  `steps` is the number of them that the process
makes. -/
structure SaveOutcome where
  create : Bool
  written : Nat → Nat
  seek : Bool
  rewritten : Nat
  flush : Bool
  move : Bool
  delete : Bool
  steps : Nat

/-- The two files during a save, `m_dirty`, and what `Save` has returned. -/
structure Saving where
  dat : Option Bytes
  tmp : Option OpenFile
  dirty : Bool
  returned : Option Bool

/-- What an operation does. -/
def Saving.perform (s : Saving) : SaveAct → Saving
  | .create ok => if ok then { s with tmp := some .empty } else { s with returned := some false }
  | .write data written => { s with tmp := s.tmp.map fun f => f.write (data.take written) }
  | .seek ok => if ok then { s with tmp := s.tmp.map OpenFile.rewind } else s
  -- a flush that fails is logged
  | .flush _ => s
  | .close => s
  | .move ok =>
      if ok then
        { dat := s.tmp.map OpenFile.content, tmp := none, dirty := false, returned := some true }
      else s
  | .delete ok => { s with tmp := if ok then none else s.tmp, returned := some false }

/-- One operation, unless `Save` has returned. -/
def Saving.act (s : Saving) (a : SaveAct) : Saving :=
  if s.returned.isSome then s else s.perform a

namespace BlockStateManager

/-- The checksum that `Save` puts in the header. -/
def savedCrc (m : BlockStateManager) : UInt32 := computeCrc32 ((m.stateHeader 0).take 36)

/-- What `Save` writes before it goes back to the header, write by write. -/
def pieces (m : BlockStateManager) : List Bytes :=
  m.stateHeader 0 :: (m.blocks.map blockRecord
    ++ m.versions.entries.flatMap fun e => versionFields e.2)

/-- Those writes with their outcomes. -/
def writes (m : BlockStateManager) (o : SaveOutcome) : List (Bytes × Nat) :=
  m.pieces.zipIdx.map fun p => (p.1, o.written p.2)

/-- The file operations of `Save`. -/
def saveActs (m : BlockStateManager) (o : SaveOutcome) : List SaveAct :=
  .create o.create :: ((m.writes o).map fun w => SaveAct.write w.1 w.2)
    ++ [.seek o.seek, .write (m.stateHeader m.savedCrc) o.rewritten, .flush o.flush, .close,
      .move o.move, .delete o.delete]

/-- `Save`, as far as the process gets. -/
def saveWith (m : BlockStateManager) (o : SaveOutcome) (dat : Option Bytes)
    (tmp : Option OpenFile) : Saving :=
  if m.initialized then
    ((m.saveActs o).take o.steps).foldl Saving.act { dat, tmp, dirty := m.dirty, returned := none }
  else { dat, tmp, dirty := m.dirty, returned := some false }

/-- The old file or the whole new one, as `Save` returns; after `false` the flag is as before. -/
structure Atomic (m : BlockStateManager) (dat : Option Bytes) (s : Saving) : Prop where
  oldOrNew : s.dat = dat ∨ s.dat = some m.stateFile
  onTrue : s.returned = some true → s.dat = some m.stateFile
  onFalse : s.returned = some false → s.dat = dat ∧ s.dirty = m.dirty

/-- The save gets to the move, and the move works. -/
def Moves (m : BlockStateManager) (o : SaveOutcome) : Prop :=
  m.initialized = true ∧ o.create = true ∧ o.move = true ∧ (m.saveActs o).length ≤ o.steps + 1

/-- The writes spell the file.  With the pointer back at the header, each is whole and the second
header, as far as it was written, completes the first; or there is only the header, and the second
is whole.  If the pointer did not go back, the bytes happen to be right as they follow each
other. -/
def Spells (m : BlockStateManager) (o : SaveOutcome) : Prop :=
  if o.seek then
    (∀ w ∈ m.writes o, w.1.length ≤ w.2) ∧
        (m.stateHeader m.savedCrc).drop o.rewritten = (m.stateHeader 0).drop o.rewritten ∨
      (m.blocks = [] ∧ m.versions.entries = []) ∧ stateHeaderSize ≤ o.rewritten
  else OpenFile.wrote (m.writes o) ++ (m.stateHeader m.savedCrc).take o.rewritten = m.stateFile

end BlockStateManager

/-! ### One operation after the other -/

namespace Saving

/-- The old file is in place, the flag is as before, and `Save` has not returned `true`. -/
structure Untouched (dat : Option Bytes) (dirty : Bool) (s : Saving) : Prop where
  dat : s.dat = dat
  dirty : s.dirty = dirty
  returned : s.returned ≠ some true

section Acts

variable {dat : Option Bytes} {dirty : Bool} {s : Saving}

/-- **Only a move that works touches the old file.** -/
theorem Untouched.act (h : Untouched dat dirty s) {a : SaveAct} (ha : a ≠ .move true) :
    Untouched dat dirty (s.act a) := by
  have hfalse : some false ≠ some true := by decide
  rw [Saving.act]
  split
  · exact h
  · cases a with
    | create ok =>
        rw [perform]
        split
        · exact ⟨h.dat, h.dirty, h.returned⟩
        · exact ⟨h.dat, h.dirty, hfalse⟩
    | write data written => exact ⟨h.dat, h.dirty, h.returned⟩
    | seek ok =>
        rw [perform]
        split
        · exact ⟨h.dat, h.dirty, h.returned⟩
        · exact h
    | flush ok => exact h
    | close => exact h
    | move ok =>
        cases ok with
        | true => exact absurd rfl ha
        | false => exact h
    | delete ok => exact ⟨h.dat, h.dirty, hfalse⟩

theorem Untouched.foldl (h : Untouched dat dirty s) {acts : List SaveAct}
    (hacts : ∀ a ∈ acts, a ≠ .move true) : Untouched dat dirty (acts.foldl Saving.act s) := by
  induction acts generalizing s with
  | nil => exact h
  | cons a acts ih =>
      obtain ⟨ha, hrest⟩ := List.forall_mem_cons.mp hacts
      exact ih (h.act ha) hrest

/-- Nothing happens after `Save` has returned. -/
theorem foldl_of_returned {ok : Bool} (h : s.returned = some ok) (acts : List SaveAct) :
    acts.foldl Saving.act s = s := by
  induction acts with
  | nil => rfl
  | cons a acts ih =>
      rw [List.foldl_cons, Saving.act, h]
      exact ih

theorem act_of_none (h : s.returned = none) (a : SaveAct) : s.act a = s.perform a := by
  rw [Saving.act, h]
  exact if_neg Bool.false_ne_true

/-- A row of writes. -/
theorem foldl_writes {f : OpenFile} (hreturned : s.returned = none) (htmp : s.tmp = some f)
    (ws : List (Bytes × Nat)) :
    (ws.map fun w => SaveAct.write w.1 w.2).foldl Saving.act s
      = { s with tmp := some (ws.foldl (fun f w => f.write (w.1.take w.2)) f) } := by
  induction ws generalizing s f with
  | nil => rw [List.map_nil, List.foldl_nil, List.foldl_nil, ← htmp]
  | cons w ws ih =>
      have hact : s.act (.write w.1 w.2) = { s with tmp := some (f.write (w.1.take w.2)) } := by
        rw [act_of_none hreturned, perform, htmp, Option.map_some]
      have htail := ih (s := s.act (.write w.1 w.2)) (by rw [hact]; exact hreturned) (by rw [hact])
      rw [List.map_cons, List.foldl_cons, htail, hact, List.foldl_cons]

end Acts

end Saving

namespace BlockStateManager

/-- The operations before the move. -/
def actsBeforeMove (m : BlockStateManager) (o : SaveOutcome) : List SaveAct :=
  .create o.create :: ((m.writes o).map fun w => SaveAct.write w.1 w.2)
    ++ [.seek o.seek, .write (m.stateHeader m.savedCrc) o.rewritten, .flush o.flush, .close]

theorem saveActs_eq (m : BlockStateManager) (o : SaveOutcome) :
    m.saveActs o = m.actsBeforeMove o ++ [.move o.move, .delete o.delete] := by
  rw [saveActs, actsBeforeMove, List.append_assoc]
  rfl

theorem ne_move_of_mem_actsBeforeMove {m : BlockStateManager} {o : SaveOutcome} {a : SaveAct}
    (h : a ∈ m.actsBeforeMove o) : a ≠ .move true := by
  rw [actsBeforeMove, List.mem_append, List.mem_cons, List.mem_map] at h
  rcases h with (rfl | ⟨w, -, rfl⟩) | h
  · exact fun heq => nomatch heq
  · exact fun heq => nomatch heq
  · intro heq
    rw [heq] at h
    simp at h

/-- What the temporary file holds when it is moved. -/
def movedBytes (m : BlockStateManager) (o : SaveOutcome) : Bytes :=
  if o.seek then
    (m.stateHeader m.savedCrc).take o.rewritten
      ++ (OpenFile.wrote (m.writes o)).drop ((m.stateHeader m.savedCrc).take o.rewritten).length
  else OpenFile.wrote (m.writes o) ++ (m.stateHeader m.savedCrc).take o.rewritten

/-- **Up to the move.** -/
theorem foldl_actsBeforeMove {m : BlockStateManager} {o : SaveOutcome} (hcreate : o.create = true)
    (s : Saving) (hreturned : s.returned = none) :
    ∃ f : OpenFile, f.content = m.movedBytes o ∧
      (m.actsBeforeMove o).foldl Saving.act s = { s with tmp := some f } := by
  have hcreated : s.act (.create o.create) = { s with tmp := some .empty } := by
    rw [Saving.act_of_none hreturned, Saving.perform, if_pos hcreate]
  have hwritten := Saving.foldl_writes (s := { s with tmp := some .empty }) hreturned rfl (m.writes o)
  rw [OpenFile.foldl_write rfl] at hwritten
  rw [actsBeforeMove, List.cons_append, List.foldl_cons, hcreated, List.foldl_append, hwritten,
    movedBytes]
  obtain ⟨dat, tmp, dirty, returned⟩ := s
  cases hreturned
  generalize OpenFile.wrote (m.writes o) = wrote
  generalize m.stateHeader m.savedCrc = header
  cases o.seek with
  | true =>
      exact ⟨OpenFile.write (OpenFile.rewind ⟨wrote, wrote.length⟩) (header.take o.rewritten),
        OpenFile.content_rewind_write _ _, rfl⟩
  | false =>
      refine ⟨OpenFile.write ⟨wrote, wrote.length⟩ (header.take o.rewritten), ?_, rfl⟩
      rw [OpenFile.write_end rfl]
      rfl

/-- **A save that moves** puts those bytes in place and returns `true`. -/
theorem saveWith_of_moves {m : BlockStateManager} {o : SaveOutcome} (h : m.Moves o)
    (dat : Option Bytes) (tmp : Option OpenFile) :
    m.saveWith o dat tmp
      = { dat := some (m.movedBytes o), tmp := none, dirty := false, returned := some true } := by
  obtain ⟨hinit, hcreate, hmove, hsteps⟩ := h
  obtain ⟨f, hcontent, hfold⟩ := foldl_actsBeforeMove (m := m) (o := o) hcreate
    { dat, tmp, dirty := m.dirty, returned := none } rfl
  have hmoved : (m.actsBeforeMove o ++ [SaveAct.move o.move]).foldl Saving.act
      { dat, tmp, dirty := m.dirty, returned := none }
        = { dat := some (m.movedBytes o), tmp := none, dirty := false, returned := some true } := by
    rw [List.foldl_append, hfold, ← hcontent, hmove]
    rfl
  have hacts : m.saveActs o = (m.actsBeforeMove o ++ [SaveAct.move o.move]) ++ [.delete o.delete] := by
    rw [saveActs_eq, List.append_assoc]
    rfl
  have hlen : (m.actsBeforeMove o ++ [SaveAct.move o.move]).length ≤ o.steps := by
    rw [hacts, List.length_append] at hsteps
    exact Nat.le_of_succ_le_succ hsteps
  rw [saveWith, if_pos hinit, hacts, List.take_append, List.take_of_length_le hlen,
    List.foldl_append, hmoved]
  exact Saving.foldl_of_returned rfl _

/-- **A save that does not move** leaves the old file. -/
theorem untouched_of_not_moves {m : BlockStateManager} {o : SaveOutcome} (h : ¬ m.Moves o)
    (dat : Option Bytes) (tmp : Option OpenFile) :
    Saving.Untouched dat m.dirty (m.saveWith o dat tmp) := by
  have hstart : Saving.Untouched dat m.dirty { dat, tmp, dirty := m.dirty, returned := none } :=
    ⟨rfl, rfl, Option.some_ne_none _ |>.symm⟩
  have hfalse : some false ≠ some true := by decide
  rw [saveWith]
  split
  · next hinit =>
    by_cases hcreate : o.create = true
    · -- no operation that is made is a move that works
      refine hstart.foldl fun a ha => ?_
      by_cases hmove : o.move = true
      · have hshort : o.steps ≤ (m.actsBeforeMove o).length := by
          by_contra hlong
          refine h ⟨hinit, hcreate, hmove, ?_⟩
          rw [saveActs_eq, List.length_append]
          exact Nat.add_le_add_right (not_le.mp hlong) 1
        rw [saveActs_eq, List.take_append_of_le_length hshort] at ha
        exact ne_move_of_mem_actsBeforeMove (List.mem_of_mem_take ha)
      · have hmem := List.mem_of_mem_take ha
        rw [saveActs_eq, List.mem_append, List.mem_cons, List.mem_singleton] at hmem
        rcases hmem with hmem | rfl | rfl
        · exact ne_move_of_mem_actsBeforeMove hmem
        · exact fun heq => hmove (SaveAct.move.inj heq)
        · exact fun heq => SaveAct.noConfusion heq
    · -- nothing happens after the file was not created
      rw [saveActs, List.cons_append]
      cases o.steps with
      | zero => exact hstart
      | succ steps =>
          rw [List.take_succ_cons, List.foldl_cons, Saving.act_of_none rfl, Saving.perform,
            if_neg hcreate, Saving.foldl_of_returned rfl]
          exact ⟨rfl, rfl, hfalse⟩
  · exact ⟨rfl, rfl, hfalse⟩

/-! ### What the writes spell -/

theorem savedCrc_eq (m : BlockStateManager) : m.savedCrc = computeCrc32 m.headerFields := by
  rw [savedCrc, (checksums m 0).1]

/-- The writes, whole, are the first header and what follows it. -/
theorem flatMap_writes (m : BlockStateManager) (o : SaveOutcome) :
    (m.writes o).flatMap Prod.fst
      = m.stateHeader 0
        ++ (m.blocks.flatMap blockRecord ++ m.versions.entries.flatMap fun e => versionRow e.2) := by
  have hpieces : (m.writes o).map Prod.fst = m.pieces := by
    rw [writes, List.map_map]
    exact List.zipIdx_map_fst 0 m.pieces
  have hrows : (m.versions.entries.flatMap fun e => versionFields e.2).flatten
      = m.versions.entries.flatMap fun e => versionRow e.2 := by
    simp only [List.flatMap_def, List.flatten_flatten, List.map_map, Function.comp_def,
      flatten_versionFields]
  rw [List.flatMap_def, hpieces, pieces, List.flatten_cons, List.flatten_append, hrows,
    ← List.flatMap_def]

/-- There is nothing behind the header exactly when there are no blocks and no versions. -/
theorem body_eq_nil_iff (m : BlockStateManager) :
    (m.blocks.flatMap blockRecord ++ m.versions.entries.flatMap fun e => versionRow e.2) = [] ↔
      m.blocks = [] ∧ m.versions.entries = [] := by
  have hrow : ∀ e : Nat × VersionRecord, (versionRow e.2).length = versionRowSize := fun e =>
    length_versionRow e.2
  rw [← List.length_eq_zero_iff, List.length_append,
    length_flatMap_of_length length_blockRecord, length_flatMap_of_length hrow,
    ← List.length_eq_zero_iff, ← List.length_eq_zero_iff, blockRecordSize, versionRowSize]
  omega

theorem movedBytes_eq_iff (m : BlockStateManager) (o : SaveOutcome) :
    m.movedBytes o = m.stateFile ↔ m.Spells o := by
  rw [movedBytes, Spells]
  split
  · have hlen : (m.stateHeader 0).length = (m.stateHeader m.savedCrc).length := by
      rw [length_stateHeader, length_stateHeader]
    have hiff := OpenFile.overwrite_eq_iff hlen (flatMap_writes m o) o.rewritten
    rw [body_eq_nil_iff, length_stateHeader, savedCrc_eq, ← stateFile_eq] at hiff
    rw [savedCrc_eq]
    exact hiff
  · exact Iff.rfl

/-- **When a save is atomic**, whatever the outcomes and wherever the process stops. -/
theorem atomic_iff (m : BlockStateManager) (o : SaveOutcome) (dat : Option Bytes)
    (tmp : Option OpenFile) :
    m.Atomic dat (m.saveWith o dat tmp) ↔ (m.Moves o → m.Spells o) := by
  by_cases hmoves : m.Moves o
  · rw [forall_prop_of_true hmoves, ← movedBytes_eq_iff, saveWith_of_moves hmoves]
    constructor
    · exact fun h => Option.some.inj (h.onTrue rfl)
    · intro heq
      rw [heq]
      exact ⟨.inr rfl, fun _ => rfl, fun h => Bool.noConfusion (Option.some.inj h)⟩
  · have huntouched := untouched_of_not_moves hmoves dat tmp
    refine iff_of_true ⟨.inl huntouched.dat, fun h => absurd h huntouched.returned, fun _ => ?_⟩
      fun h => absurd h hmoves
    exact ⟨huntouched.dat, huntouched.dirty⟩

/-- When every operation works and every write is whole, this is `save`. -/
theorem saveWith_of_whole {m : BlockStateManager} {o : SaveOutcome} (hcreate : o.create = true)
    (hseek : o.seek = true) (hmove : o.move = true)
    (hwhole : ∀ w ∈ m.writes o, w.1.length ≤ w.2) (hheader : stateHeaderSize ≤ o.rewritten)
    (hsteps : (m.saveActs o).length ≤ o.steps) (dat : Option Bytes) (tmp : Option OpenFile) :
    (m.saveWith o dat tmp).returned = some m.save.1 ∧
      (m.saveWith o dat tmp).dat = m.save.2.1.or dat ∧
      (m.saveWith o dat tmp).dirty = m.save.2.2.dirty := by
  by_cases hinit : m.initialized = true
  · have hspells : m.Spells o := by
      rw [Spells, if_pos hseek]
      refine .inl ⟨hwhole, ?_⟩
      rw [List.drop_eq_nil_of_le, List.drop_eq_nil_of_le] <;>
        rw [length_stateHeader] <;> exact hheader
    rw [saveWith_of_moves ⟨hinit, hcreate, hmove, hsteps.trans (Nat.le_succ _)⟩,
      (movedBytes_eq_iff m o).mpr hspells, save, if_pos hinit]
    exact ⟨rfl, rfl, rfl⟩
  · rw [saveWith, if_neg hinit, save, if_neg hinit]
    exact ⟨rfl, rfl, rfl⟩

/-- A disk that is full when the record of block 0 is written. -/
def fullDisk : SaveOutcome where
  create := true
  written i := if i = 1 then 0 else 64
  seek := true
  rewritten := 64
  flush := true
  move := true
  delete := true
  steps := 100

/-- **A truncated file in place of a good one**: the saved state of one block, of which the block
has been sent since. -/
theorem full_disk_truncates :
    let good := oneBlockState 0
    let m := (good.setBlockAck 0 .sent).2
    let saved := m.saveWith fullDisk (some good.stateFile) none
    saved.returned = some true ∧ saved.dirty = false ∧ saved.dat.map List.length = some 156 ∧
      good.stateFile.length = 204 ∧ m.stateFile.length = 204 ∧
      ¬ m.Atomic (some good.stateFile) saved := by
  intro good m saved
  have hreturned : saved.returned = some true := by decide +kernel
  have hdat : saved.dat.map List.length = some 156 := by decide +kernel
  have hfile : m.stateFile.length = 204 := by decide +kernel
  refine ⟨hreturned, by decide +kernel, hdat, by decide +kernel, hfile, fun h => ?_⟩
  rw [h.onTrue hreturned, Option.map_some, hfile] at hdat
  exact absurd hdat (by decide)

end BlockStateManager

end Go2Cbt.Client
