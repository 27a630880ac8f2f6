import Go2Cbt.Client.FreeSpace
import Go2Cbt.Lib.SortedMap
import Go2Cbt.Lib.Transition

/-!
# Client — VssManager

The snapshots of a backup: `StartSnapshotSet` opens a set, `AddVolumeToSnapshotSet` puts volumes
into it, `DoSnapshotSet` takes the snapshots and `Cleanup` deletes the set.  What the VSS service
answers is an argument of every call.

The id of the set is kept in `m_snapshotSetId`, and adding a volume writes it too.
`deletes_created_iff` says in which sequences of calls every deletion is that of the set which the
round has started, and `documented_round` what the order of the class comment comes to.
-/

namespace Go2Cbt.Client

open Transition
open Go2Cbt.Disk (Guid)

/-- `SnapshotVolumeInfo`. -/
structure SnapshotVolumeInfo (κ : Type) where
  originalVolumeGuid : κ
  snapshotDevicePath : List UInt16
  snapshotId : Guid
  snapshotSetId : Guid

/-- `VssManager`, with volumes named by `κ`.  `hasVss` says whether `m_pVss` is set; messages and
the provider's name are left out. -/
structure VssManager (κ : Type) [LinearOrder κ] where
  initialized : Bool
  snapshotCreated : Bool
  hasVss : Bool
  snapshotSetId : Guid
  snapshotMap : SortedMap κ (SnapshotVolumeInfo κ)
  volumeToSnapshotId : SortedMap κ Guid

/-- A call on the manager, with what the service answers: an id or a failure, and for
`DoSnapshotSet` whether the snapshots were taken and the device of each. -/
inductive VssCall (κ : Type) where
  | initializeVss (ok : Bool)
  | startSnapshotSet (reply : Option Guid)
  | addVolumeToSnapshotSet (volumeGuid : κ) (reply : Option Guid)
  | doSnapshotSet (done : Bool) (properties : Guid → Option (List UInt16))
  | cleanup

namespace VssManager

variable {κ : Type} [LinearOrder κ]

/-- The constructor. -/
def new : VssManager κ where
  initialized := false
  snapshotCreated := false
  hasVss := false
  snapshotSetId := .zero
  snapshotMap := .empty
  volumeToSnapshotId := .empty

/-- The check that the methods begin with. -/
def ready (m : VssManager κ) : Bool := m.initialized && m.hasVss

/-- `Initialize`. -/
def initializeVss (m : VssManager κ) (ok : Bool) : Bool × VssManager κ :=
  if m.initialized then (true, m)
  else if ok then (true, { m with hasVss := true, initialized := true })
  else (false, { m with hasVss := false })

/-- `StartSnapshotSet`. -/
def startSnapshotSet (m : VssManager κ) (reply : Option Guid) : Bool × VssManager κ :=
  if m.ready then
    match reply with
    | none => (false, m)
    | some snapshotSetId => (true, { m with snapshotSetId })
  else (false, m)

/-- `AddVolumeToSnapshotSet`, with the id that it hands out. -/
def addVolumeToSnapshotSet (m : VssManager κ) (volumeGuid : κ) (reply : Option Guid) :
    Option Guid × VssManager κ :=
  if m.ready then
    match reply with
    | none => (none, m)
    | some snapshotId =>
        (some snapshotId,
          { m with
            volumeToSnapshotId := m.volumeToSnapshotId.insert volumeGuid snapshotId
            -- meant for the first volume, but the map is filled only by `DoSnapshotSet`
            snapshotSetId :=
              if m.snapshotMap.entries = [] then snapshotId else m.snapshotSetId })
  else (none, m)

/-- `AddSnapshotInfo`. -/
def addSnapshotInfo (m : VssManager κ) (snapshotId : Guid) (volumeGuid : κ)
    (snapshotDevice : List UInt16) : VssManager κ :=
  { m with
    snapshotMap := m.snapshotMap.insert volumeGuid
      { originalVolumeGuid := volumeGuid
        snapshotDevicePath := snapshotDevice
        snapshotId
        snapshotSetId := m.snapshotSetId } }

/-- `GetSnapshotProperties`: the volumes whose snapshot the service knows. -/
def getSnapshotProperties (m : VssManager κ) (properties : Guid → Option (List UInt16)) :
    Bool × VssManager κ :=
  if m.hasVss then
    let m := m.volumeToSnapshotId.entries.foldl
      (fun m e => (properties e.2).elim m (m.addSnapshotInfo e.2 e.1)) m
    (decide (m.snapshotMap.entries ≠ []), m)
  else (false, m)

/-- `DoSnapshotSet`. -/
def doSnapshotSet (m : VssManager κ) (done : Bool) (properties : Guid → Option (List UInt16)) :
    Bool × VssManager κ :=
  if m.ready then
    if m.volumeToSnapshotId.entries = [] then (false, m)
    else if done then
      let found := m.getSnapshotProperties properties
      if found.1 then (true, { found.2 with snapshotCreated := true }) else (false, found.2)
    else (false, m)
  else (false, m)

/-- `Cleanup` calls `DeleteSnapshots`. -/
def deletes (m : VssManager κ) : Bool := m.hasVss && m.snapshotCreated

/-- `Cleanup`, with the id it passes to `DeleteSnapshots` if it calls that. -/
def cleanup (m : VssManager κ) : Option Guid × VssManager κ :=
  (if m.deletes then some m.snapshotSetId else none,
    { m with
      snapshotCreated := if m.deletes then false else m.snapshotCreated
      hasVss := false
      initialized := false
      snapshotMap := .empty
      volumeToSnapshotId := .empty })

/-- What a call leaves. -/
def apply (m : VssManager κ) : VssCall κ → VssManager κ
  | .initializeVss ok => (m.initializeVss ok).2
  | .startSnapshotSet reply => (m.startSnapshotSet reply).2
  | .addVolumeToSnapshotSet volumeGuid reply => (m.addVolumeToSnapshotSet volumeGuid reply).2
  | .doSnapshotSet done properties => (m.doSnapshotSet done properties).2
  | .cleanup => m.cleanup.2

/-- The ids that the service returns in a call: it is asked only when the manager is ready. -/
def returned (m : VssManager κ) : VssCall κ → List Guid
  | .startSnapshotSet reply => if m.ready then reply.toList else []
  | .addVolumeToSnapshotSet _ reply => if m.ready then reply.toList else []
  | _ => []

theorem addVolumeToSnapshotSet_of_not_ready {m : VssManager κ} (h : ¬ m.ready = true)
    (volumeGuid : κ) (reply : Option Guid) :
    (m.addVolumeToSnapshotSet volumeGuid reply).2 = m :=
  congrArg Prod.snd (if_neg h)

theorem addVolumeToSnapshotSet_none (m : VssManager κ) (volumeGuid : κ) :
    (m.addVolumeToSnapshotSet volumeGuid none).2 = m := by
  unfold addVolumeToSnapshotSet
  split <;> rfl

theorem addVolumeToSnapshotSet_some {m : VssManager κ} (h : m.ready = true) (volumeGuid : κ)
    (snapshotId : Guid) :
    (m.addVolumeToSnapshotSet volumeGuid (some snapshotId)).2
      = { m with
          volumeToSnapshotId := m.volumeToSnapshotId.insert volumeGuid snapshotId
          snapshotSetId :=
            if m.snapshotMap.entries = [] then snapshotId else m.snapshotSetId } :=
  congrArg Prod.snd (if_pos h)

/-- Recording snapshots fills the map. -/
theorem exists_foldl_eq (properties : Guid → Option (List UInt16)) (es : List (κ × Guid))
    (m : VssManager κ) :
    ∃ snapshotMap, es.foldl (fun m e => (properties e.2).elim m (m.addSnapshotInfo e.2 e.1)) m
      = { m with snapshotMap } := by
  induction es generalizing m with
  | nil => exact ⟨m.snapshotMap, rfl⟩
  | cons e es ih =>
      rw [List.foldl_cons]
      cases properties e.2 with
      | none => exact ih m
      | some device => exact ih (m.addSnapshotInfo e.2 e.1 device)

theorem exists_getSnapshotProperties_eq (m : VssManager κ)
    (properties : Guid → Option (List UInt16)) :
    ∃ snapshotMap, (m.getSnapshotProperties properties).2 = { m with snapshotMap } := by
  rw [getSnapshotProperties]
  split
  · exact exists_foldl_eq properties _ m
  · exact ⟨m.snapshotMap, rfl⟩

/-- What `DoSnapshotSet` does: it fills the map, and it says that there are snapshots only when the
service was there and volumes were added. -/
theorem doSnapshotSet_cases (m : VssManager κ) (done : Bool)
    (properties : Guid → Option (List UInt16)) :
    ∃ snapshotMap, (m.doSnapshotSet done properties).2 = { m with snapshotMap } ∨
      m.ready = true ∧ m.volumeToSnapshotId.entries ≠ [] ∧
        (m.doSnapshotSet done properties).2 = { m with snapshotMap, snapshotCreated := true } := by
  obtain ⟨snapshotMap, hfound⟩ := m.exists_getSnapshotProperties_eq properties
  rw [doSnapshotSet]
  split
  · next hready =>
      split
      · exact ⟨m.snapshotMap, .inl rfl⟩
      · next hvolumes =>
          split
          · dsimp only
            rw [hfound]
            split
            · exact ⟨snapshotMap, .inr ⟨hready, hvolumes, rfl⟩⟩
            · exact ⟨snapshotMap, .inl rfl⟩
          · exact ⟨m.snapshotMap, .inl rfl⟩
  · exact ⟨m.snapshotMap, .inl rfl⟩

theorem snapshotSetId_doSnapshotSet (m : VssManager κ) (done : Bool)
    (properties : Guid → Option (List UInt16)) :
    (m.doSnapshotSet done properties).2.snapshotSetId = m.snapshotSetId := by
  obtain ⟨snapshotMap, heq | ⟨-, -, heq⟩⟩ := m.doSnapshotSet_cases done properties
  · rw [heq]
  · rw [heq]

end VssManager

/-! ### Runs -/

/-- A manager with its history: the ids that the service has returned, the set id that
`StartSnapshotSet` returned last in this round, each deletion with that id and the one passed, and
the calls with the manager they found. -/
structure VssSession (κ : Type) [LinearOrder κ] where
  manager : VssManager κ
  issued : List Guid
  roundSet : Option Guid
  deletions : List (Option Guid × Guid)
  steps : List (VssManager κ × VssCall κ)

namespace VssSession

variable {κ : Type} [LinearOrder κ]

/-- Before the first call. -/
def new : VssSession κ where
  manager := .new
  issued := []
  roundSet := none
  deletions := []
  steps := []

/-- The set of the round after a call; a round ends with `Cleanup`. -/
def roundSetAfter (s : VssSession κ) : VssCall κ → Option Guid
  | .startSnapshotSet (some id) => if s.manager.ready then some id else s.roundSet
  | .cleanup => none
  | _ => s.roundSet

/-- The deletion that a call makes. -/
def deletion (s : VssSession κ) : VssCall κ → List (Option Guid × Guid)
  | .cleanup => s.manager.cleanup.1.toList.map fun id => (s.roundSet, id)
  | _ => []

/-- One call. -/
def next (s : VssSession κ) (call : VssCall κ) : VssSession κ where
  manager := s.manager.apply call
  issued := s.issued ++ s.manager.returned call
  roundSet := s.roundSetAfter call
  deletions := s.deletions ++ s.deletion call
  steps := s.steps ++ [(s.manager, call)]

/-- A row of calls on a new manager. -/
def run (calls : List (VssCall κ)) : VssSession κ := calls.foldl next new

theorem run_concat (calls : List (VssCall κ)) (call : VssCall κ) :
    run (calls ++ [call]) = (run calls).next call := by
  rw [run, List.foldl_append]
  rfl

end VssSession

variable {κ : Type} [LinearOrder κ]

/-- The call starts a set. -/
def StartsSet : VssManager κ × VssCall κ → Prop
  | (m, .startSnapshotSet reply) => m.ready = true ∧ reply ≠ none
  | _ => False

/-- The call puts another id in the place of the set's, or ends the round. -/
def LosesSet : VssManager κ × VssCall κ → Prop
  | (m, .addVolumeToSnapshotSet _ reply) =>
      m.ready = true ∧ reply ≠ none ∧ m.snapshotMap.entries = []
  | (_, .cleanup) => True
  | _ => False

/-! ### What the manager's id is -/

/-- **The manager has the id of the round's set** exactly since that set was started and nothing
has lost it. -/
structure VssSession.Tracks (s : VssSession κ) : Prop where
  current : s.roundSet = some s.manager.snapshotSetId ↔ Since StartsSet LosesSet s.steps
  issued : ∀ id ∈ s.roundSet, id ∈ s.issued

namespace VssSession

variable {s : VssSession κ}

theorem tracks_new : (new : VssSession κ).Tracks where
  current := iff_of_false (fun h => by cases h) (not_since_nil _ _)
  issued := fun id h => by cases h

/-- A call that writes neither id. -/
theorem Tracks.same (h : s.Tracks) {call : VssCall κ}
    (hset : (s.manager.apply call).snapshotSetId = s.manager.snapshotSetId)
    (hround : s.roundSetAfter call = s.roundSet) (hstarts : ¬ StartsSet (s.manager, call))
    (hloses : ¬ LosesSet (s.manager, call)) : (s.next call).Tracks where
  current := by
    change s.roundSetAfter call = some (s.manager.apply call).snapshotSetId ↔
      Since StartsSet LosesSet (s.steps ++ [(s.manager, call)])
    rw [hround, hset, h.current, since_append_singleton, or_iff_right hstarts,
      and_iff_right hloses]
  issued := fun id hid => by
    change id ∈ s.roundSetAfter call at hid
    rw [hround] at hid
    exact List.mem_append_left _ (h.issued id hid)

/-- A set is started. -/
theorem Tracks.started (hready : s.manager.ready = true) (id : Guid) :
    (s.next (.startSnapshotSet (some id))).Tracks := by
  have hround : (s.next (.startSnapshotSet (some id))).roundSet = some id := if_pos hready
  have hset : (s.next (.startSnapshotSet (some id))).manager.snapshotSetId = id := by
    change (s.manager.startSnapshotSet (some id)).2.snapshotSetId = id
    rw [VssManager.startSnapshotSet, if_pos hready]
  have hissued : (s.next (.startSnapshotSet (some id))).issued = s.issued ++ [id] := by
    change s.issued ++ (if s.manager.ready = true then [id] else []) = _
    rw [if_pos hready]
  constructor
  · rw [hround, hset]
    refine iff_of_true rfl (since_append_singleton.mpr (.inl ⟨hready, ?_⟩))
    exact Option.some_ne_none id
  · intro id' hid'
    rw [hround] at hid'
    obtain rfl := Option.some.inj hid'
    rw [hissued]
    exact List.mem_append_right _ (List.mem_singleton_self _)

/-- The first volumes are added: the id is now that of a snapshot. -/
theorem Tracks.lost (h : s.Tracks) (hready : s.manager.ready = true)
    (hempty : s.manager.snapshotMap.entries = []) {volumeGuid : κ} {id : Guid}
    (hnodup : (s.next (.addVolumeToSnapshotSet volumeGuid (some id))).issued.Nodup) :
    (s.next (.addVolumeToSnapshotSet volumeGuid (some id))).Tracks := by
  have hissued : (s.next (.addVolumeToSnapshotSet volumeGuid (some id))).issued
      = s.issued ++ [id] := by
    change s.issued ++ (if s.manager.ready = true then [id] else []) = _
    rw [if_pos hready]
  have hset : (s.next (.addVolumeToSnapshotSet volumeGuid (some id))).manager.snapshotSetId
      = id := by
    change (s.manager.addVolumeToSnapshotSet volumeGuid (some id)).2.snapshotSetId = id
    rw [VssManager.addVolumeToSnapshotSet_some hready]
    exact if_pos hempty
  rw [hissued] at hnodup
  have hfresh : id ∉ s.issued := (List.nodup_append_comm.mp hnodup |> List.nodup_cons.mp).1
  constructor
  · rw [hset]
    refine iff_of_false ?_ ?_
    · -- the id of the set was returned earlier, so this one is another
      intro hround
      exact hfresh (h.issued id hround)
    · intro hsince
      rcases since_append_singleton.mp hsince with hstarts | ⟨hkeeps, -⟩
      · exact hstarts
      · exact hkeeps ⟨hready, Option.some_ne_none id, hempty⟩
  · intro id' hid'
    rw [hissued]
    exact List.mem_append_left _ (h.issued id' hid')

/-- The round ends. -/
theorem Tracks.cleaned (s : VssSession κ) : (s.next .cleanup).Tracks where
  current := by
    refine iff_of_false (fun h => by cases h) fun hsince => ?_
    rcases since_append_singleton.mp hsince with hstarts | ⟨hkeeps, -⟩
    · exact hstarts
    · exact hkeeps trivial
  issued := fun id h => by cases h

/-- **One call.** -/
theorem Tracks.next (h : s.Tracks) (call : VssCall κ) (hnodup : (s.next call).issued.Nodup) :
    (s.next call).Tracks := by
  cases call with
  | initializeVss ok =>
      refine h.same ?_ rfl id id
      change (s.manager.initializeVss ok).2.snapshotSetId = _
      rw [VssManager.initializeVss]
      split
      · rfl
      · split <;> rfl
  | startSnapshotSet reply =>
      cases reply with
      | none =>
          refine h.same ?_ rfl (fun hstarts => hstarts.2 rfl) id
          change (s.manager.startSnapshotSet none).2.snapshotSetId = _
          rw [VssManager.startSnapshotSet]
          split <;> rfl
      | some id' =>
          by_cases hready : s.manager.ready = true
          · exact Tracks.started hready id'
          · refine h.same ?_ (if_neg hready) (fun hstarts => hready hstarts.1) id
            change (s.manager.startSnapshotSet (some id')).2.snapshotSetId = _
            rw [VssManager.startSnapshotSet, if_neg hready]
  | addVolumeToSnapshotSet volumeGuid reply =>
      by_cases hlost : LosesSet (s.manager, .addVolumeToSnapshotSet volumeGuid reply)
      · obtain ⟨hready, hreply, hempty⟩ := hlost
        obtain ⟨id', rfl⟩ := Option.ne_none_iff_exists'.mp hreply
        exact h.lost hready hempty hnodup
      · refine h.same ?_ rfl id hlost
        change (s.manager.addVolumeToSnapshotSet volumeGuid reply).2.snapshotSetId = _
        by_cases hready : s.manager.ready = true
        · cases reply with
          | none => rw [VssManager.addVolumeToSnapshotSet_none]
          | some id' =>
              rw [VssManager.addVolumeToSnapshotSet_some hready]
              exact if_neg fun hempty => hlost ⟨hready, Option.some_ne_none id', hempty⟩
        · rw [VssManager.addVolumeToSnapshotSet_of_not_ready hready]
  | doSnapshotSet done properties =>
      exact h.same (s.manager.snapshotSetId_doSnapshotSet done properties) rfl id id
  | cleanup => exact Tracks.cleaned s

/-- **A run.** -/
theorem tracks_run {calls : List (VssCall κ)} (hnodup : (run calls).issued.Nodup) :
    (run calls).Tracks := by
  induction calls using List.reverseRecOn with
  | nil => exact tracks_new
  | append_singleton calls call ih =>
      rw [run_concat] at hnodup ⊢
      exact (ih (List.nodup_append.mp hnodup).1).next call hnodup

/-- What the service has returned stays returned. -/
theorem issued_foldl (s : VssSession κ) (calls : List (VssCall κ)) :
    s.issued <+: (calls.foldl VssSession.next s).issued := by
  induction calls generalizing s with
  | nil => exact List.prefix_refl _
  | cons call calls ih => exact (List.prefix_append _ _).trans (ih (s.next call))

/-- The deletions of a run are those of its cleanups. -/
theorem forall_deletions_iff (calls : List (VssCall κ)) :
    (∀ d ∈ (run calls).deletions, d.1 = some d.2) ↔
      ∀ before, before ++ [.cleanup] <+: calls → (run before).manager.deletes = true →
        (run before).roundSet = some (run before).manager.snapshotSetId := by
  induction calls using List.reverseRecOn with
  | nil =>
      refine iff_of_true (fun d hd => by cases hd) fun before hbefore => ?_
      exact absurd (List.prefix_nil.mp hbefore) (List.append_ne_nil_of_right_ne_nil _ (by simp))
  | append_singleton calls call ih =>
      have hdeletions : (run (calls ++ [call])).deletions
          = (run calls).deletions ++ (run calls).deletion call := by
        rw [run_concat]
        rfl
      have hcall : (∀ d ∈ (run calls).deletion call, d.1 = some d.2) ↔
          (call = .cleanup → (run calls).manager.deletes = true →
            (run calls).roundSet = some (run calls).manager.snapshotSetId) := by
        cases call with
        | cleanup =>
            rw [deletion, VssManager.cleanup]
            by_cases hdeletes : (run calls).manager.deletes = true
            · simp [hdeletes]
            · simp [hdeletes]
        | initializeVss | startSnapshotSet | addVolumeToSnapshotSet | doSnapshotSet =>
            exact iff_of_true (fun d hd => by cases hd) fun h => by cases h
      rw [hdeletions, List.forall_mem_append, ih, hcall]
      constructor
      · rintro ⟨hbefore, hlast⟩ before hbegin
        rcases List.prefix_concat_iff.mp hbegin with heq | hbegin
        · obtain ⟨rfl, hone⟩ := List.append_inj' heq rfl
          exact hlast (List.cons.inj hone).1.symm
        · exact hbefore before hbegin
      · intro hall
        refine ⟨fun before hbegin => hall before (hbegin.trans (List.prefix_append _ _)), ?_⟩
        rintro rfl
        exact hall calls (List.prefix_refl _)

end VssSession

/-- **The set that was created is the one deleted exactly when nothing was added after it was
started**: a deletion passes the id of the set, if the round started one after the last volume that
was added while no snapshot was recorded, and the id of a snapshot otherwise. -/
theorem deletes_created_iff (calls : List (VssCall κ))
    (hdistinct : (VssSession.run calls).issued.Nodup) :
    (∀ d ∈ (VssSession.run calls).deletions, d.1 = some d.2) ↔
      ∀ before, before ++ [.cleanup] <+: calls →
        (VssSession.run before).manager.deletes = true →
        Since StartsSet LosesSet (VssSession.run before).steps := by
  rw [VssSession.forall_deletions_iff]
  refine forall₃_congr fun before hbegin _ => ?_
  obtain ⟨after, rfl⟩ := (List.prefix_append before [.cleanup]).trans hbegin
  have hissued : (VssSession.run before).issued.Nodup := by
    have hle := VssSession.issued_foldl (VssSession.run before) after
    rw [VssSession.run, ← List.foldl_append] at hle
    exact hdistinct.sublist hle.sublist
  exact (VssSession.tracks_run hissued).current

/-- A round of one volume: the service returns the ids 1 for the set and 2 for the snapshot. -/
def oneVolumeRound : List (VssCall Nat) :=
  [.initializeVss true, .startSnapshotSet (some ⟨1, 0, 0, []⟩),
    .addVolumeToSnapshotSet 0 (some ⟨2, 0, 0, []⟩), .doSnapshotSet true (fun _ => some []),
    .cleanup]

theorem deletes_created_iff_oneVolume :
    (∀ d ∈ (VssSession.run oneVolumeRound).deletions, d.1 = some d.2) ↔
      ∀ before, before ++ [.cleanup] <+: oneVolumeRound →
        (VssSession.run before).manager.deletes = true →
        Since StartsSet LosesSet (VssSession.run before).steps :=
  deletes_created_iff oneVolumeRound (by decide)

/-- The round deletes the set 2. -/
theorem oneVolume_deletes_snapshot :
    (VssSession.run oneVolumeRound).issued.Nodup ∧
      ¬ ∀ d ∈ (VssSession.run oneVolumeRound).deletions, d.1 = some d.2 := by
  decide

/-! ### The order of the class comment -/

namespace VssManager

/-- Nothing has been added and no snapshot taken. -/
structure Fresh (m : VssManager κ) : Prop where
  noSnapshot : m.snapshotMap.entries = []
  noVolume : m.volumeToSnapshotId.entries = []
  notCreated : m.snapshotCreated = false

/-- The interface is there while the manager is set up, and so it is when snapshots are. -/
structure Consistent (m : VssManager κ) : Prop where
  vss : m.hasVss = m.initialized
  created : m.snapshotCreated = true → m.initialized = true

variable {m : VssManager κ}

theorem consistent_new : (new : VssManager κ).Consistent where
  vss := rfl
  created := fun h => by cases h

theorem Consistent.apply (h : m.Consistent) (call : VssCall κ) : (m.apply call).Consistent := by
  obtain ⟨hvss, hcreated⟩ := h
  cases call with
  | initializeVss ok =>
      change (m.initializeVss ok).2.Consistent
      rw [initializeVss]
      split
      · exact ⟨hvss, hcreated⟩
      · next hinit =>
          split
          · exact ⟨rfl, fun _ => rfl⟩
          · exact ⟨(Bool.not_eq_true _ ▸ hinit).symm, hcreated⟩
  | startSnapshotSet reply =>
      change (m.startSnapshotSet reply).2.Consistent
      unfold startSnapshotSet
      split
      · cases reply <;> exact ⟨hvss, hcreated⟩
      · exact ⟨hvss, hcreated⟩
  | addVolumeToSnapshotSet volumeGuid reply =>
      change (m.addVolumeToSnapshotSet volumeGuid reply).2.Consistent
      by_cases hready : m.ready = true
      · cases reply with
        | none =>
            rw [addVolumeToSnapshotSet_none]
            exact ⟨hvss, hcreated⟩
        | some id =>
            rw [addVolumeToSnapshotSet_some hready]
            exact ⟨hvss, hcreated⟩
      · rw [addVolumeToSnapshotSet_of_not_ready hready]
        exact ⟨hvss, hcreated⟩
  | doSnapshotSet done properties =>
      change (m.doSnapshotSet done properties).2.Consistent
      obtain ⟨snapshotMap, heq | ⟨hready, -, heq⟩⟩ := m.doSnapshotSet_cases done properties
      · rw [heq]
        exact ⟨hvss, hcreated⟩
      · rw [heq]
        exact ⟨hvss, fun _ => (Bool.and_eq_true_iff.mp hready).1⟩
  | cleanup =>
      refine ⟨rfl, fun h => ?_⟩
      -- a snapshot that was taken has been deleted
      change (if m.deletes = true then false else m.snapshotCreated) = true at h
      rw [deletes] at h
      cases hold : m.snapshotCreated with
      | false => simp [hold] at h
      | true => simp [hold, hvss, hcreated hold] at h

theorem consistent_run (calls : List (VssCall κ)) :
    (VssSession.run calls).manager.Consistent :=
  foldl_preserves (P := fun s : VssSession κ => s.manager.Consistent)
    (fun _ call h => h.apply call) consistent_new calls

theorem Consistent.fresh_cleanup (h : m.Consistent) : m.cleanup.2.Fresh := by
  refine ⟨rfl, rfl, ?_⟩
  change (if m.deletes = true then false else m.snapshotCreated) = false
  rw [deletes, h.vss]
  cases hold : m.snapshotCreated with
  | false => simp
  | true => simp [h.created hold]

/-- **Every round begins afresh.** -/
theorem fresh_run_cleanup (calls : List (VssCall κ)) :
    (VssSession.run (calls ++ [.cleanup])).manager.Fresh := by
  rw [VssSession.run_concat]
  exact (consistent_run calls).fresh_cleanup

/-- `AddVolumeToSnapshotSet` for one volume after the other. -/
def addVolumes (m : VssManager κ) (volumes : List (κ × Option Guid)) : VssManager κ :=
  volumes.foldl (fun m v => (m.addVolumeToSnapshotSet v.1 v.2).2) m

/-- The manager while volumes are added: its id is that of the last of them. -/
structure Adding (m : VssManager κ) (volumes : List (κ × Option Guid)) : Prop where
  ready : m.ready = true
  noSnapshot : m.snapshotMap.entries = []
  notCreated : m.snapshotCreated = false
  last : (volumes.filterMap Prod.snd).getLast? = some m.snapshotSetId ∨
    m.volumeToSnapshotId.entries = []

theorem adding_addVolumes (hfresh : m.Fresh) (hready : m.ready = true)
    (volumes : List (κ × Option Guid)) : (m.addVolumes volumes).Adding volumes := by
  induction volumes using List.reverseRecOn with
  | nil => exact ⟨hready, hfresh.noSnapshot, hfresh.notCreated, .inr hfresh.noVolume⟩
  | append_singleton volumes v ih =>
      obtain ⟨volumeGuid, reply⟩ := v
      have hstep : m.addVolumes (volumes ++ [(volumeGuid, reply)])
          = ((m.addVolumes volumes).addVolumeToSnapshotSet volumeGuid reply).2 := by
        rw [addVolumes, List.foldl_append]
        rfl
      rw [hstep]
      cases reply with
      | none =>
          rw [addVolumeToSnapshotSet_none]
          refine ⟨ih.ready, ih.noSnapshot, ih.notCreated, ?_⟩
          simpa using ih.last
      | some id =>
          rw [addVolumeToSnapshotSet_some ih.ready]
          refine ⟨ih.ready, ih.noSnapshot, ih.notCreated, .inl ?_⟩
          simp [ih.noSnapshot]

/-- Without the service nothing is added. -/
theorem addVolumes_of_not_ready (h : ¬ m.ready = true) (volumes : List (κ × Option Guid)) :
    m.addVolumes volumes = m := by
  induction volumes with
  | nil => rfl
  | cons v volumes ih =>
      rw [addVolumes, List.foldl_cons, addVolumeToSnapshotSet_of_not_ready h]
      exact ih

theorem Fresh.initializeVss (h : m.Fresh) (ok : Bool) : (m.initializeVss ok).2.Fresh := by
  rw [VssManager.initializeVss]
  split
  · exact h
  · split <;> exact ⟨h.noSnapshot, h.noVolume, h.notCreated⟩

theorem Fresh.startSnapshotSet (h : m.Fresh) (reply : Option Guid) :
    (m.startSnapshotSet reply).2.Fresh := by
  unfold VssManager.startSnapshotSet
  split
  · cases reply <;> exact ⟨h.noSnapshot, h.noVolume, h.notCreated⟩
  · exact h

/-- Snapshots come from a set with volumes. -/
theorem volumes_of_created {done : Bool} {properties : Guid → Option (List UInt16)}
    (hnot : m.snapshotCreated = false)
    (h : (m.doSnapshotSet done properties).2.snapshotCreated = true) :
    m.ready = true ∧ m.volumeToSnapshotId.entries ≠ [] := by
  obtain ⟨snapshotMap, heq | ⟨hready, hvolumes, -⟩⟩ := m.doSnapshotSet_cases done properties
  · rw [heq, hnot] at h
    cases h
  · exact ⟨hready, hvolumes⟩

/-- **What the documented order comes to**: in a round that starts a set, adds volumes and takes the
snapshots, a deletion passes the id of the snapshot of the volume that was added last. -/
theorem documented_round (hfresh : m.Fresh) (ok : Bool) (reply : Option Guid)
    (volumes : List (κ × Option Guid)) (done : Bool) (properties : Guid → Option (List UInt16))
    {id : Guid}
    (hdeleted : ((((m.initializeVss ok).2.startSnapshotSet reply).2.addVolumes
      volumes).doSnapshotSet done properties).2.cleanup.1 = some id) :
    (volumes.filterMap Prod.snd).getLast? = some id := by
  have hbegun := (hfresh.initializeVss ok).startSnapshotSet reply
  generalize ((m.initializeVss ok).2.startSnapshotSet reply).2 = begun at hbegun hdeleted
  rw [cleanup] at hdeleted
  split at hdeleted
  · next hdeletes =>
      obtain ⟨-, hcreated⟩ := Bool.and_eq_true_iff.mp hdeletes
      have hid := Option.some.inj hdeleted
      rw [snapshotSetId_doSnapshotSet] at hid
      by_cases hready : begun.ready = true
      · have hadding := adding_addVolumes hbegun hready volumes
        obtain ⟨-, hvolumes⟩ := volumes_of_created hadding.notCreated hcreated
        rw [← hid]
        exact hadding.last.resolve_right hvolumes
      · rw [addVolumes_of_not_ready hready] at hcreated
        exact absurd (volumes_of_created hbegun.notCreated hcreated).1 hready
  · cases hdeleted

end VssManager

end Go2Cbt.Client
