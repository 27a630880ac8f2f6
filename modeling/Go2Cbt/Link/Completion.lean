import Go2Cbt.Engine.Progress
import Go2Cbt.Link.FullBackup

/-!
# Link — a full backup ends with the copy

`fullBackup_copies` says what holds when the transfer returns.  The server answers every block as
long as it is there, and nothing takes it away, so that the transfer does return
(`fullBackup_completes`).
-/

namespace Go2Cbt.Link

open Go2Cbt.Protocol Go2Cbt.Client Go2Cbt.Engine Go2Cbt.Server

/-- The outside responds while the server is there. -/
theorem responds_faultless {libs : Libs} {disk : Image} {compress : Bytes → Bytes}
    {s : Pipeline Peer} (hlive : s.server.live) : (faultless libs disk compress).Responds s where
  readFile _ _ := ⟨_, rfl⟩
  computeBlockHash _ := ⟨_, rfl⟩
  compress _ := ⟨_, rfl⟩
  sendBlockNoWait _ := ⟨_, rfl⟩
  serve hqueue := by
    obtain ⟨m, queue, hcons⟩ := List.exists_cons_of_ne_nil hqueue
    exact ⟨_, _, queue, hlive, m, hcons, rfl, rfl⟩

section Backup

variable {libs : Libs} {compress : Bytes → Bytes} {devNo : UInt32} {totalSize : UInt64}
  {bf : BackingFile} (hu : Unhindered libs compress devNo totalSize bf) {disk : Image}
  {files : Files} {versionId : UInt32} {windowSize : Nat} {m : BlockStateManager}
  {snapshotTime now : UInt64}
include hu

/-- The server answers the blocks one by one, all along the transfer. -/
theorem answersAlong_faultless :
    (faultless libs disk compress).AnswersAlong (Job.full devNo versionId totalSize)
      (fullBackupStart libs devNo totalSize files versionId windowSize m snapshotTime now) := by
  intro s hs
  obtain ⟨acks, ha, -, hcopies⟩ := copies_reached hu hs
  exact hcopies.answersNext hu ha

/-- And it stays there. -/
theorem respondsAlong_faultless :
    (faultless libs disk compress).RespondsAlong (Job.full devNo versionId totalSize)
      (fullBackupStart libs devNo totalSize files versionId windowSize m snapshotTime now) := by
  intro s hs
  obtain ⟨acks, -, -, hcopies⟩ := copies_reached hu hs
  exact responds_faultless hcopies.greeted.1

/-- The transfer has returned, every block is acknowledged, and the file of the device starts with
the disk. -/
structure Complete (libs : Libs) (bf : BackingFile) (disk : Image) (files : Files)
    (totalSize : UInt64) (s : Pipeline Peer) : Prop where
  returned : ∃ i awaited, s.sender = .done i awaited
  acknowledged : ∀ bs ∈ s.manager.blocks, bs.ack = .acknowledged
  copied : s.server.serving.files.image (libs.fileOf bf.fd)
    = (files.image (libs.fileOf bf.fd)).splice disk totalSize.toNat

theorem complete_of_returned {s : Pipeline Peer}
    (h : Reached (Job.full devNo versionId totalSize) (faultless libs disk compress)
      (fullBackupStart libs devNo totalSize files versionId windowSize m snapshotTime now) s)
    (hreturned : ∃ i awaited, s.sender = .done i awaited) :
    Complete libs bf disk files totalSize s := by
  obtain ⟨i, awaited, hdone⟩ := hreturned
  exact ⟨⟨i, awaited, hdone⟩, all_acknowledged hu h hdone, image_copied hu h hdone⟩

/-- Where nothing can be done, everything is copied. -/
theorem complete_of_stuck (hwindow : 0 < windowSize) {s : Pipeline Peer}
    (h : Reached (Job.full devNo versionId totalSize) (faultless libs disk compress)
      (fullBackupStart libs devNo totalSize files versionId windowSize m snapshotTime now) s)
    (hstuck : ∀ p t,
      ¬ Step (Job.full devNo versionId totalSize) (faultless libs disk compress) s p t) :
    Complete libs bf disk files totalSize s := by
  refine complete_of_returned hu h ((returned_or_step_of_reached (answersAlong_faultless hu)
    (respondsAlong_faultless hu) (.inl hwindow) h).resolve_right ?_)
  rintro ⟨p, t, hst⟩
  exact hstuck p t hst

/-- From every state that is reached, everything can be copied. -/
theorem exists_run_complete (hwindow : 0 < windowSize) {s : Pipeline Peer}
    (h : Reached (Job.full devNo versionId totalSize) (faultless libs disk compress)
      (fullBackupStart libs devNo totalSize files versionId windowSize m snapshotTime now) s) :
    ∃ as t, Transition.Run
      (Step (Job.full devNo versionId totalSize) (faultless libs disk compress)) s as t ∧
      Complete libs bf disk files totalSize t := by
  obtain ⟨as, t, hrun, hreturned⟩ := exists_run_returned (answersAlong_faultless hu)
    (respondsAlong_faultless hu) (.inl hwindow) h
  exact ⟨as, t, hrun, complete_of_returned hu
    (hrun.preserves (fun _ _ _ h hst => Transition.Reachable.next h hst) h) hreturned⟩

/-- **A full backup that nothing hinders ends with the copy**, in whatever order the threads and the
server take their turns: it has at most twelve steps a block, it cannot stop before every block is
acknowledged and in the file, and there is no state from which it could not come to that. -/
theorem fullBackup_completes (hwindow : 0 < windowSize) :
    (∀ as s, Transition.Run
        (Step (Job.full devNo versionId totalSize) (faultless libs disk compress))
        (fullBackupStart libs devNo totalSize files versionId windowSize m snapshotTime now) as s →
      as.length ≤ 12 * (Job.full devNo versionId totalSize).totalBlocks.toNat + 4 ∧
        ((∀ p t, ¬ Step (Job.full devNo versionId totalSize) (faultless libs disk compress) s p t) →
          Complete libs bf disk files totalSize s)) ∧
    ∀ s, Reached (Job.full devNo versionId totalSize) (faultless libs disk compress)
        (fullBackupStart libs devNo totalSize files versionId windowSize m snapshotTime now) s →
      ∃ as t, Transition.Run
        (Step (Job.full devNo versionId totalSize) (faultless libs disk compress)) s as t ∧
        Complete libs bf disk files totalSize t := by
  exact ⟨fun as s hrun => ⟨length_run_le (answersAlong_faultless hu) hrun,
      complete_of_stuck hu hwindow ⟨_, as, rfl, hrun⟩⟩,
    fun s hs => exists_run_complete hu hwindow hs⟩

end Backup

/-- A window of one slot and a disk of a megabyte and two bytes. -/
theorem fullBackup_completes_oneTwo :
    ∃ as t, Transition.Run
      (Step (Job.full 0 1 1048578) (faultless oneTwoLibs oneTwoDisk deflateOneTwo))
      (fullBackupStart oneTwoLibs 0 1048578 blankFiles 1 1 .new 0 0) as t ∧
      Complete oneTwoLibs { fd := 3, sizeBytes := 2097152, path := "disk0.img" } oneTwoDisk
        blankFiles 1048578 t :=
  (fullBackup_completes unhindered_oneTwo Nat.one_pos).2 _ ⟨_, [], rfl, .nil _⟩

end Go2Cbt.Link
