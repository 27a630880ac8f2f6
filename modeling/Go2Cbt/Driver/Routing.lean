import Go2Cbt.Driver.Interleaving

/-!
# Driver — where the writes go

The interleavings of loading, unloading and the writes in which no write meets the two gaps of
the hook: the slot of a driver holds `HwReadWrite` before `g_HookListCount` counts its entry, and
unloading zeroes the tables without waiting for the writes that are inside `HwReadWrite`.

`Routing` is what every step keeps that meets `Careful`: what the tables say of a published entry,
where the driver's own thread is, and where each write is.
-/

namespace Go2Cbt.Driver

open Transition

/-- The write still has a field of the tables to read. -/
def IrpStatement.usesTables : IrpStatement → Bool
  | .diskTest _ | .diskCompare _ | .hookTest _ | .hookCompare _ => true
  | .checkInstalled _ | .callHooked _ => true
  | .readHookEntry _ | .readOriginalWrite _ _ | .addStartingOffset _ _ | .mark _ _ _ => true
  | .emergency | .callOriginal _ | .done | .crashed => false

/-- `g_HookList` has been zeroed. -/
def DriverThread.zeroed : DriverThread → Bool
  | .scanning _ | .loading _ _ _ | .loaded => false
  | .unloading next =>
      match next with
      | .clearHookListCount | .zeroDiskMap | .clearDiskMapCount => true
      | _ => false
  | .unloaded => true

/-- Loading goes on. -/
def DriverThread.inLoad : DriverThread → Bool
  | .scanning _ | .loading _ _ _ => true
  | .loaded | .unloading _ | .unloaded => false

section

variable (m : Machine)

/-- The slot of the driver has been exchanged and its entry is not counted yet. -/
def DriverThread.Window (thread : DriverThread) (drv : Nat) : Prop :=
  match thread with
  | .loading d _ .verify | .loading d _ (.setHookInstalled _) | .loading d _ .countHook =>
      m.driverOf d.2.deviceObject = drv
  | _ => False

/-- The steps that stay clear of the gaps: no write comes to the end of `g_HookList` while the
entry of its driver is not counted yet, and `g_HookList` is not zeroed while a write inside
`HwReadWrite` still has the tables to read. -/
def Careful (s : Traffic) : Turn → Prop
  | .irp id =>
      ∀ irp i, s.irps id = some irp → irp.next = .hookTest i → s.hookListCount ≤ i →
        ¬ s.thread.Window m (m.driverOf irp.device)
  | .driver =>
      s.thread = .unloading .zeroHookList →
        ∀ id irp, s.irps id = some irp → irp.next.usesTables = false
  | .unload | .issue .. => True

/-- `g_HookList` has an entry of the driver. -/
def Listed (s : DriverMemory) (drv : Nat) : Prop :=
  ∃ j, j < s.hookListCount ∧ (s.hookList j).driverObject = drv

/-- The slot of the driver has been exchanged. -/
def Hooking (s : DriverMemory) (drv : Nat) : Prop := Listed s drv ∨ s.thread.Window m drv

/-- The new entry of `g_DiskMap` is a device and the hook entry of its driver. -/
def NewDisk (s : DriverMemory) : Prop :=
  s.diskMapCount < maxDiskMapEntries ∧
    ∃ h < s.hookListCount, (s.diskMap s.diskMapCount).hookEntry = some h ∧
      (s.hookList h).driverObject = m.driverOf (s.diskMap s.diskMapCount).deviceObject

/-- Where the driver's own thread is. -/
def ThreadAt (s : DriverMemory) : Prop :=
  match s.thread with
  | .scanning _ | .loaded => True
  | .loading d _ next =>
      let drv := m.driverOf d.2.deviceObject
      match next with
      | .searchTest i => ∀ j < i, (s.hookList j).driverObject ≠ drv
      | .searchCompare i => i < s.hookListCount ∧ ∀ j < i, (s.hookList j).driverObject ≠ drv
      | .addReference i => i < s.hookListCount ∧ (s.hookList i).driverObject = drv
      | .checkRoom => ¬ Listed s drv
      | .setDriverObject => s.hookListCount < maxHookedDrivers ∧ ¬ Listed s drv
      | .setRefCount | .saveOriginalWrite =>
          s.hookListCount < maxHookedDrivers ∧ ¬ Listed s drv ∧
            (s.hookList s.hookListCount).driverObject = drv
      | .exchange =>
          s.hookListCount < maxHookedDrivers ∧ (s.hookList s.hookListCount).driverObject = drv ∧
            (s.hookList s.hookListCount).originalWrite = m.before drv
      | .verify =>
          s.hookListCount < maxHookedDrivers ∧ (s.hookList s.hookListCount).driverObject = drv ∧
            (s.hookList s.hookListCount).originalWrite = m.before drv ∧ s.slots drv = m.hook
      | .setHookInstalled installed =>
          s.hookListCount < maxHookedDrivers ∧ (s.hookList s.hookListCount).driverObject = drv ∧
            (s.hookList s.hookListCount).originalWrite = m.before drv ∧ installed = true
      | .countHook =>
          s.hookListCount < maxHookedDrivers ∧ (s.hookList s.hookListCount).driverObject = drv ∧
            (s.hookList s.hookListCount).originalWrite = m.before drv ∧
            (s.hookList s.hookListCount).hookInstalled = true
      | .checkMapRoom h => h < s.hookListCount ∧ (s.hookList h).driverObject = drv
      | .setDeviceObject h =>
          s.diskMapCount < maxDiskMapEntries ∧ h < s.hookListCount ∧
            (s.hookList h).driverObject = drv
      | .setHookEntry h =>
          s.diskMapCount < maxDiskMapEntries ∧ h < s.hookListCount ∧
            (s.hookList h).driverObject = drv ∧
            (s.diskMap s.diskMapCount).deviceObject = d.2.deviceObject
      | .setDiskNumber | .queryPartitionInfoEx | .clearStartingOffset | .clearLength
      | .initCbtState | .countDisk => NewDisk m s
  | .unloading next =>
      match next with
      | .restoreTest i =>
          ∀ j < i, s.slots (s.hookList j).driverObject = m.before (s.hookList j).driverObject
      | .checkInstalled i | .readCurrent i =>
          i < s.hookListCount ∧
            ∀ j < i, s.slots (s.hookList j).driverObject = m.before (s.hookList j).driverObject
      | .restore i currentWrite =>
          i < s.hookListCount ∧ currentWrite = s.slots (s.hookList i).driverObject ∧
            ∀ j < i, s.slots (s.hookList j).driverObject = m.before (s.hookList j).driverObject
      | .cleanupTest _ | .cleanup _ | .zeroHookList => ∀ drv, s.slots drv = m.before drv
      | .clearHookListCount | .zeroDiskMap | .clearDiskMapCount =>
          s.hookListZeroed = true ∧ ∀ drv, s.slots drv = m.before drv
  | .unloaded => s.hookListZeroed = true ∧ ∀ drv, s.slots drv = m.before drv

/-- The tables, the slots and the driver's own thread. -/
structure Tables (s : DriverMemory) : Prop where
  hooks : s.hookListCount ≤ maxHookedDrivers
  disks : s.diskMapCount ≤ maxDiskMapEntries
  entry : s.hookListZeroed = false → ∀ j < s.hookListCount,
    (s.hookList j).originalWrite = m.before (s.hookList j).driverObject ∧
      (s.hookList j).hookInstalled = true
  disk : s.hookListZeroed = false → ∀ e < s.diskMapCount, ∃ h < s.hookListCount,
    (s.diskMap e).hookEntry = some h ∧
      (s.hookList h).driverObject = m.driverOf (s.diskMap e).deviceObject
  slot : ∀ drv, s.slots drv = m.before drv ∨
    s.slots drv = m.hook ∧ s.hookListZeroed = false ∧ Hooking m s drv
  zeroed : s.hookListZeroed = s.thread.zeroed
  order : s.diskMapZeroed = true → s.hookListZeroed = true
  unfreed : s.thread.inLoad = true → ∀ e, s.freed e = false
  freed : ∀ e, s.freed e = true → (s.diskMap e).cbtState.buffer = none
  thread : ThreadAt m s

/-- What the place of a write says of the tables. -/
def IrpPlace (s : DriverMemory) (irp : Irp) : Prop :=
  let drv := m.driverOf irp.device
  match irp.next with
  | .diskTest _ => True
  | .diskCompare i => i < s.diskMapCount
  | .hookTest i => i ≤ s.hookListCount ∧ ∀ j < i, (s.hookList j).driverObject ≠ drv
  | .hookCompare i => i < s.hookListCount ∧ ∀ j < i, (s.hookList j).driverObject ≠ drv
  | .checkInstalled h | .callHooked h => h < s.hookListCount ∧ (s.hookList h).driverObject = drv
  | .readHookEntry e => e < s.diskMapCount ∧ (s.diskMap e).deviceObject = irp.device
  | .readOriginalWrite e h =>
      e < s.diskMapCount ∧ ∃ j < s.hookListCount, h = some j ∧ (s.hookList j).driverObject = drv
  | .addStartingOffset e originalWrite | .mark e originalWrite _ =>
      e < s.diskMapCount ∧ originalWrite = m.before drv
  | .callOriginal originalWrite => originalWrite = m.before drv
  | .done => irp.passedTo = [m.before drv]
  | .emergency | .crashed => False

/-- Where a write is. -/
structure IrpAt (s : DriverMemory) (irp : Irp) : Prop where
  unpassed : irp.next ≠ .done → irp.passedTo = []
  live : irp.next.usesTables = true →
    s.hookListZeroed = false ∧ Hooking m s (m.driverOf irp.device)
  place : IrpPlace m s irp

/-- **What the careful steps keep.** -/
structure Routing (s : Traffic) : Prop where
  tables : Tables m s.toDriverMemory
  irps : ∀ id irp, s.irps id = some irp → IrpAt m s.toDriverMemory irp
  selfCalled : s.selfCalled = false
  zeroedUsed : s.zeroedUsed = false
  freedMarked : s.freedMarked = false

theorem routing_initial : Routing m m.initial where
  tables :=
    { hooks := Nat.zero_le _
      disks := Nat.zero_le _
      entry := fun _ _ hj => absurd hj (Nat.not_lt_zero _)
      disk := fun _ _ he => absurd he (Nat.not_lt_zero _)
      slot := fun _ => .inl rfl
      zeroed := rfl
      order := fun h => by cases h
      unfreed := fun _ _ => rfl
      freed := fun _ h => by cases h
      thread := trivial }
  irps := fun _ _ h => by cases h
  selfCalled := rfl
  zeroedUsed := rfl
  freedMarked := rfl

end

/-! ### The steps of the driver's own thread -/

/-- A table that another one goes on from, as the writes see it. -/
structure Extends (m : Machine) (s t : DriverMemory) : Prop where
  zeroed : t.hookListZeroed = s.hookListZeroed
  hookCount : s.hookListCount ≤ t.hookListCount
  diskCount : s.diskMapCount ≤ t.diskMapCount
  driver : ∀ j < s.hookListCount, (t.hookList j).driverObject = (s.hookList j).driverObject
  device : ∀ e < s.diskMapCount, (t.diskMap e).deviceObject = (s.diskMap e).deviceObject
  hooking : ∀ drv, Hooking m s drv → Hooking m t drv

/-- The thread goes on without a change of phase, and the window of a driver stays open. -/
structure Continues (m : Machine) (before after : DriverThread) : Prop where
  zeroed : after.zeroed = before.zeroed
  inLoad : after.inLoad = true → before.inLoad = true
  window : ∀ drv, before.Window m drv → after.Window m drv

/-- The slots and what the tables say of counted entries are the same. -/
structure SameTables (s t : DriverMemory) : Prop where
  slots : t.slots = s.slots
  hookCount : t.hookListCount = s.hookListCount
  diskCount : t.diskMapCount = s.diskMapCount
  hookZeroed : t.hookListZeroed = s.hookListZeroed
  diskZeroed : t.diskMapZeroed = s.diskMapZeroed
  hook : ∀ j < s.hookListCount, (t.hookList j).toHookEntry = (s.hookList j).toHookEntry
  disk : ∀ e < s.diskMapCount, (t.diskMap e).deviceObject = (s.diskMap e).deviceObject ∧
    (t.diskMap e).hookEntry = (s.diskMap e).hookEntry

section

variable {m : Machine} {s t : DriverMemory}

theorem SameTables.driver (h : SameTables s t) {j : Nat} (hj : j < s.hookListCount) :
    (t.hookList j).driverObject = (s.hookList j).driverObject :=
  congrArg HookEntry.driverObject (h.hook j hj)

theorem SameTables.listed (h : SameTables s t) {drv : Nat} (hl : Listed s drv) : Listed t drv := by
  obtain ⟨j, hj, hdriver⟩ := hl
  exact ⟨j, h.hookCount ▸ hj, (h.driver hj).trans hdriver⟩

/-- A step that leaves the counted entries. -/
theorem Tables.same (h : Tables m s) (hsame : SameTables s t)
    (hc : Continues m s.thread t.thread)
    (hfreed : ∀ e, t.freed e = true → (t.diskMap e).cbtState.buffer = none)
    (hunfreed : t.thread.inLoad = true → ∀ e, t.freed e = false) (hat : ThreadAt m t) :
    Tables m t ∧ Extends m s t := by
  have hhooking : ∀ drv, Hooking m s drv → Hooking m t drv := fun drv hd =>
    hd.imp hsame.listed (hc.window drv)
  refine ⟨⟨?_, ?_, ?_, ?_, ?_, ?_, ?_, hunfreed, hfreed, hat⟩,
    ⟨hsame.hookZeroed, hsame.hookCount.ge, hsame.diskCount.ge, fun j hj => hsame.driver hj,
      fun e he => (hsame.disk e he).1, hhooking⟩⟩
  · exact hsame.hookCount ▸ h.hooks
  · exact hsame.diskCount ▸ h.disks
  · intro hup j hj
    rw [hsame.hookCount] at hj
    obtain ⟨horiginal, hinstalled⟩ := h.entry (hsame.hookZeroed ▸ hup) j hj
    have heq := hsame.hook j hj
    exact ⟨(congrArg HookEntry.originalWrite heq).trans
      (horiginal.trans (congrArg m.before (hsame.driver hj).symm)),
      (congrArg HookEntry.hookInstalled heq).trans hinstalled⟩
  · intro hup e he
    rw [hsame.diskCount] at he
    obtain ⟨x, hx, hentry, hdriver⟩ := h.disk (hsame.hookZeroed ▸ hup) e he
    obtain ⟨hdevice, hpointer⟩ := hsame.disk e he
    refine ⟨x, hsame.hookCount ▸ hx, hpointer.trans hentry, ?_⟩
    rw [hsame.driver hx, hdevice, hdriver]
  · intro drv
    rw [hsame.slots, hsame.hookZeroed]
    exact (h.slot drv).imp_right fun ⟨hslot, hup, hd⟩ => ⟨hslot, hup, hhooking drv hd⟩
  · rw [hsame.hookZeroed, h.zeroed, hc.zeroed]
  · rw [hsame.hookZeroed, hsame.diskZeroed]
    exact h.order

/-- A step that changes nothing but the place of the thread. -/
theorem Tables.goto (h : Tables m s) {next : DriverThread} (hc : Continues m s.thread next)
    (hat : ThreadAt m { s with thread := next }) :
    Tables m { s with thread := next } ∧ Extends m s { s with thread := next } :=
  h.same ⟨rfl, rfl, rfl, rfl, rfl, fun _ _ => rfl, fun _ _ => ⟨rfl, rfl⟩⟩ hc h.freed
    (fun hin => h.unfreed (hc.inLoad hin)) hat

/-- A step that changes the first entry of `g_HookList` past the count. -/
theorem Tables.setNewHook (h : Tables m s) {f : CountedHookEntry → CountedHookEntry}
    {next : DriverThread} (hc : Continues m s.thread next)
    (hat : (s.setNewHook f).hookList s.hookListCount = f (s.hookList s.hookListCount) →
      ThreadAt m { s.setNewHook f with thread := next }) :
    Tables m { s.setNewHook f with thread := next } ∧
      Extends m s { s.setNewHook f with thread := next } := by
  refine h.same ⟨rfl, rfl, rfl, rfl, rfl, fun j hj => ?_, fun _ _ => ⟨rfl, rfl⟩⟩ hc h.freed
    (fun hin => h.unfreed (hc.inLoad hin)) (hat (Function.update_self _ _ _))
  exact congrArg CountedHookEntry.toHookEntry (Function.update_of_ne (Nat.ne_of_lt hj) _ _)

/-- A step of loading that changes the first entry of `g_DiskMap` past the count. -/
theorem Tables.setNewDisk (h : Tables m s) {f : DiskMapRow → DiskMapRow} {next : DriverThread}
    (hload : s.thread.inLoad = true) (hc : Continues m s.thread next)
    (hat : (s.setNewDisk f).diskMap s.diskMapCount = f (s.diskMap s.diskMapCount) →
      ThreadAt m { s.setNewDisk f with thread := next }) :
    Tables m { s.setNewDisk f with thread := next } ∧
      Extends m s { s.setNewDisk f with thread := next } := by
  refine h.same ⟨rfl, rfl, rfl, rfl, rfl, fun _ _ => rfl, fun e he => ?_⟩ hc (fun e he => ?_)
    (fun _ => h.unfreed hload) (hat (Function.update_self _ _ _))
  · have hrow : Function.update s.diskMap s.diskMapCount (f (s.diskMap s.diskMapCount)) e
        = s.diskMap e := Function.update_of_ne (Nat.ne_of_lt he) _ _
    exact ⟨congrArg DiskMapRow.deviceObject hrow, congrArg DiskMapRow.hookEntry hrow⟩
  · cases (h.unfreed hload e).symm.trans he

theorem continues_loading {d : UInt32 × FoundDisk} {rest : List (UInt32 × FoundDisk)}
    {next : LoadStatement} {after : DriverThread} (hth : s.thread = .loading d rest next)
    (hzeroed : after.zeroed = false)
    (hwindow : ∀ drv, (DriverThread.loading d rest next).Window m drv → after.Window m drv) :
    Continues m s.thread after where
  zeroed := by rw [hth, hzeroed]; rfl
  inLoad := fun _ => by rw [hth]; rfl
  window := fun drv hw => hwindow drv (hth ▸ hw)

/-- The slot of a driver that is not hooked. -/
theorem Tables.slot_of_not_listed (h : Tables m s) {drv : Nat} (hl : ¬ Listed s drv)
    (hw : ¬ s.thread.Window m drv) : s.slots drv = m.before drv :=
  (h.slot drv).resolve_right fun hd => hd.2.2.elim hl hw

/-- The slot of a driver is exchanged. -/
theorem Tables.exchange (h : Tables m s) {d : UInt32 × FoundDisk}
    {rest : List (UInt32 × FoundDisk)} (hth : s.thread = .loading d rest .exchange) :
    Tables m (loadStep m s d rest .exchange) ∧ Extends m s (loadStep m s d rest .exchange) := by
  have hat := h.thread
  rw [ThreadAt, hth] at hat
  obtain ⟨hroom, hdriver, horiginal⟩ := hat
  have hup : s.hookListZeroed = false := by rw [h.zeroed, hth]; rfl
  have hunfreed : ∀ e, s.freed e = false := h.unfreed (by rw [hth]; rfl)
  have hlisted : ∀ drv, Hooking m s drv → Listed s drv := fun drv hd =>
    hd.resolve_right fun hw => by rw [hth] at hw; exact hw
  have hextends : Extends m s (loadStep m s d rest .exchange) :=
    ⟨rfl, le_rfl, le_rfl, fun _ _ => rfl, fun _ _ => rfl, fun drv hd => .inl (hlisted drv hd)⟩
  refine ⟨⟨h.hooks, h.disks, h.entry, h.disk, fun drv => ?_, hup, h.order, fun _ => hunfreed,
    h.freed, ?_⟩, hextends⟩
  · by_cases hd : drv = m.driverOf d.2.deviceObject
    · subst hd
      exact .inr ⟨Function.update_self _ _ _, hup, .inr rfl⟩
    · have hslot : (loadStep m s d rest .exchange).slots drv = s.slots drv :=
        Function.update_of_ne hd _ _
      rw [hslot]
      exact (h.slot drv).imp_right fun ⟨hs, _, hl⟩ => ⟨hs, hup, .inl (hlisted drv hl)⟩
  · exact ⟨hroom, hdriver, horiginal, Function.update_self _ _ _⟩

/-- The new entry of `g_HookList` is counted. -/
theorem Tables.countHook (h : Tables m s) {d : UInt32 × FoundDisk}
    {rest : List (UInt32 × FoundDisk)} (hth : s.thread = .loading d rest .countHook) :
    Tables m (loadStep m s d rest .countHook) ∧ Extends m s (loadStep m s d rest .countHook) := by
  have hat := h.thread
  rw [ThreadAt, hth] at hat
  obtain ⟨hroom, hdriver, horiginal, hinstalled⟩ := hat
  have hup : s.hookListZeroed = false := by rw [h.zeroed, hth]; rfl
  have hunfreed : ∀ e, s.freed e = false := h.unfreed (by rw [hth]; rfl)
  have hhooking : ∀ drv, Hooking m s drv → Hooking m (loadStep m s d rest .countHook) drv := by
    rintro drv (⟨j, hj, hjd⟩ | hw)
    · exact .inl ⟨j, Nat.lt_succ_of_lt hj, hjd⟩
    · rw [hth] at hw
      exact .inl ⟨s.hookListCount, Nat.lt_succ_self _, hdriver.trans hw⟩
  refine ⟨⟨hroom, h.disks, fun _ j hj => ?_, fun _ e he => ?_, fun drv => ?_, hup, h.order,
      fun _ => hunfreed, h.freed, ⟨Nat.lt_succ_self _, hdriver⟩⟩,
    ⟨rfl, Nat.le_succ _, le_rfl, fun _ _ => rfl, fun _ _ => rfl, hhooking⟩⟩
  · rcases Nat.lt_succ_iff_lt_or_eq.mp hj with hj | rfl
    · exact h.entry hup j hj
    · exact ⟨horiginal.trans (congrArg m.before hdriver.symm), hinstalled⟩
  · obtain ⟨x, hx, hrest⟩ := h.disk hup e he
    exact ⟨x, Nat.lt_succ_of_lt hx, hrest⟩
  · exact (h.slot drv).imp_right fun ⟨hs, _, hd⟩ => ⟨hs, hup, hhooking drv hd⟩

/-- The new entry of `g_DiskMap` is counted. -/
theorem Tables.countDisk (h : Tables m s) {d : UInt32 × FoundDisk}
    {rest : List (UInt32 × FoundDisk)} (hth : s.thread = .loading d rest .countDisk) :
    Tables m (loadStep m s d rest .countDisk) ∧ Extends m s (loadStep m s d rest .countDisk) := by
  have hat := h.thread
  rw [ThreadAt, hth] at hat
  obtain ⟨hroom, hnew⟩ := hat
  have hup : s.hookListZeroed = false := by rw [h.zeroed, hth]; rfl
  have hunfreed : ∀ e, s.freed e = false := h.unfreed (by rw [hth]; rfl)
  have hhooking : ∀ drv, Hooking m s drv → Hooking m (loadStep m s d rest .countDisk) drv :=
    fun drv hd => hd.imp_right fun hw => by rw [hth] at hw; exact hw
  refine ⟨⟨h.hooks, hroom, h.entry, fun _ e he => ?_, fun drv => ?_, hup, h.order,
      fun _ => hunfreed, h.freed, trivial⟩,
    ⟨rfl, le_rfl, Nat.le_succ _, fun _ _ => rfl, fun _ _ => rfl, hhooking⟩⟩
  · rcases Nat.lt_succ_iff_lt_or_eq.mp he with he | rfl
    · exact h.disk hup e he
    · exact hnew
  · exact (h.slot drv).imp_right fun ⟨hs, _, hd⟩ => ⟨hs, hup, hhooking drv hd⟩

theorem not_listed_of_searched {drv i : Nat} (hend : ¬ i < s.hookListCount)
    (hbefore : ∀ j < i, (s.hookList j).driverObject ≠ drv) : ¬ Listed s drv := by
  rintro ⟨j, hj, hd⟩
  exact hbefore j (hj.trans_le (not_lt.mp hend)) hd

/-- The entry past the count is not listed. -/
theorem not_listed_setNewHook {drv : Nat} {f : CountedHookEntry → CountedHookEntry}
    {next : DriverThread} (h : ¬ Listed s drv) :
    ¬ Listed { s.setNewHook f with thread := next } drv := by
  rintro ⟨j, hj, hd⟩
  have hother : (s.setNewHook f).hookList j = s.hookList j :=
    Function.update_of_ne (Nat.ne_of_lt hj) _ _
  exact h ⟨j, hj, hother ▸ hd⟩

/-- A statement that fills another field of the new entry of `g_DiskMap`. -/
theorem Tables.describe (h : Tables m s) {d : UInt32 × FoundDisk}
    {rest : List (UInt32 × FoundDisk)} {next after : LoadStatement}
    (hth : s.thread = .loading d rest next) (hat : NewDisk m s) {f : DiskMapRow → DiskMapRow}
    (hf : ∀ x, (f x).deviceObject = x.deviceObject ∧ (f x).hookEntry = x.hookEntry)
    (hc : Continues m s.thread (.loading d rest after))
    (hnext : ThreadAt m { s.setNewDisk f with thread := .loading d rest after }
      ↔ NewDisk m (s.setNewDisk f)) :
    Tables m { s.setNewDisk f with thread := .loading d rest after } ∧
      Extends m s { s.setNewDisk f with thread := .loading d rest after } := by
  obtain ⟨hroom, x, hx, hentry, hdriver⟩ := hat
  obtain ⟨hdevice, hpointer⟩ := hf (s.diskMap s.diskMapCount)
  refine h.setNewDisk (by rw [hth]; rfl) hc fun hnew => hnext.mpr ⟨hroom, x, hx, ?_, ?_⟩
  · exact (congrArg DiskMapRow.hookEntry hnew).trans (hpointer.trans hentry)
  · have hsame := (congrArg DiskMapRow.deviceObject hnew).trans hdevice
    exact hdriver.trans (congrArg m.driverOf hsame.symm)

/-- **A statement of loading.** -/
theorem Tables.loadStep (h : Tables m s) {d : UInt32 × FoundDisk}
    {rest : List (UInt32 × FoundDisk)} {next : LoadStatement}
    (hth : s.thread = .loading d rest next) :
    Tables m (loadStep m s d rest next) ∧ Extends m s (loadStep m s d rest next) := by
  have hat := h.thread
  rw [ThreadAt, hth] at hat
  cases next with
  | searchTest i =>
      rw [Driver.loadStep]
      split
      · next hlt => exact h.goto (continues_loading hth rfl fun _ hw => hw) ⟨hlt, hat⟩
      · next hend =>
        exact h.goto (continues_loading hth rfl fun _ hw => hw) (not_listed_of_searched hend hat)
  | searchCompare i =>
      obtain ⟨hlt, hsearched⟩ := hat
      rw [Driver.loadStep]
      split
      · next hfound => exact h.goto (continues_loading hth rfl fun _ hw => hw) ⟨hlt, hfound⟩
      · next hother =>
        -- one entry more was compared, and it was not the one
        refine h.goto (continues_loading hth rfl fun _ hw => hw) fun j hj => ?_
        rcases Nat.lt_succ_iff_lt_or_eq.mp hj with hj | rfl
        · exact hsearched j hj
        · exact hother
  | addReference i =>
      obtain ⟨hlt, hfound⟩ := hat
      -- the reference count is no field that a write looks at
      have hentry : ∀ j, (Function.update s.hookList i
          { s.hookList i with refCount := (s.hookList i).refCount + 1 } j).toHookEntry
          = (s.hookList j).toHookEntry := fun j => by
        by_cases hj : j = i
        · rw [hj, Function.update_self]
        · rw [Function.update_of_ne hj]
      refine h.same ⟨rfl, rfl, rfl, rfl, rfl, fun j _ => hentry j, fun _ _ => ⟨rfl, rfl⟩⟩
        (continues_loading hth rfl fun _ hw => hw) h.freed
        (fun _ => h.unfreed (by rw [hth]; rfl)) ⟨hlt, ?_⟩
      exact (congrArg HookEntry.driverObject (hentry i)).trans hfound
  | checkRoom =>
      rw [Driver.loadStep]
      split
      · exact h.goto (continues_loading hth rfl fun _ hw => hw) trivial
      · next hroom =>
        exact h.goto (continues_loading hth rfl fun _ hw => hw) ⟨not_le.mp hroom, hat⟩
  | setDriverObject =>
      exact h.setNewHook (continues_loading hth rfl fun _ hw => hw)
        fun hnew => ⟨hat.1, not_listed_setNewHook hat.2, congrArg (fun x => x.driverObject) hnew⟩
  | setRefCount =>
      obtain ⟨hroom, hl, hdriver⟩ := hat
      exact h.setNewHook (continues_loading hth rfl fun _ hw => hw)
        fun hnew => ⟨hroom, not_listed_setNewHook hl,
          (congrArg (fun x => x.driverObject) hnew).trans hdriver⟩
  | saveOriginalWrite =>
      obtain ⟨hroom, hl, hdriver⟩ := hat
      -- a driver without an entry still has its own routine in the slot
      have hslot := h.slot_of_not_listed hl (by rw [hth]; exact id)
      exact h.setNewHook (continues_loading hth rfl fun _ hw => hw)
        fun hnew => ⟨hroom, (congrArg (fun x => x.driverObject) hnew).trans hdriver,
          (congrArg (fun x => x.originalWrite) hnew).trans hslot⟩
  | exchange => exact h.exchange hth
  | verify =>
      obtain ⟨hroom, hdriver, horiginal, hslot⟩ := hat
      exact h.goto (continues_loading hth rfl fun _ hw => hw)
        ⟨hroom, hdriver, horiginal, decide_eq_true hslot⟩
  | setHookInstalled installed =>
      obtain ⟨hroom, hdriver, horiginal, hinstalled⟩ := hat
      exact h.setNewHook (continues_loading hth rfl fun _ hw => hw)
        fun hnew => ⟨hroom, (congrArg (fun x => x.driverObject) hnew).trans hdriver,
          (congrArg (fun x => x.originalWrite) hnew).trans horiginal,
          (congrArg (fun x => x.hookInstalled) hnew).trans hinstalled⟩
  | countHook => exact h.countHook hth
  | checkMapRoom hookEntry =>
      rw [Driver.loadStep]
      split
      · next hroom => exact h.goto (continues_loading hth rfl fun _ hw => hw) ⟨hroom, hat⟩
      · exact h.goto (continues_loading hth rfl fun _ hw => hw) trivial
  | setDeviceObject hookEntry =>
      obtain ⟨hroom, hlt, hdriver⟩ := hat
      exact h.setNewDisk (by rw [hth]; rfl) (continues_loading hth rfl fun _ hw => hw)
        fun hnew => ⟨hroom, hlt, hdriver, congrArg DiskMapRow.deviceObject hnew⟩
  | setHookEntry hookEntry =>
      obtain ⟨hroom, hlt, hdriver, hdevice⟩ := hat
      refine h.setNewDisk (by rw [hth]; rfl) (continues_loading hth rfl fun _ hw => hw)
        fun hnew => ⟨hroom, hookEntry, hlt, congrArg DiskMapRow.hookEntry hnew, ?_⟩
      -- the row names the device of the hook it points to
      have hsame := (congrArg DiskMapRow.deviceObject hnew).trans hdevice
      exact hdriver.trans (congrArg m.driverOf hsame.symm)
  | queryPartitionInfoEx =>
      rw [Driver.loadStep]
      split
      · exact h.describe hth hat (fun _ => ⟨rfl, rfl⟩)
          (continues_loading hth rfl fun _ hw => hw) Iff.rfl
      · exact h.goto (continues_loading hth rfl fun _ hw => hw) hat
  | setDiskNumber | clearStartingOffset | clearLength | initCbtState =>
      exact h.describe hth hat (fun _ => ⟨rfl, rfl⟩)
        (continues_loading hth rfl fun _ hw => hw) Iff.rfl
  | countDisk => exact h.countDisk hth

theorem continues_unloading {next after : UnloadStatement} (hth : s.thread = .unloading next)
    (hzeroed : (DriverThread.unloading after).zeroed = (DriverThread.unloading next).zeroed) :
    Continues m s.thread (.unloading after) where
  zeroed := by rw [hth, hzeroed]
  inLoad := fun hin => by cases hin
  window := fun _ hw => by rw [hth] at hw; exact hw

/-- A slot is put back. -/
theorem Tables.restore (h : Tables m s) {i currentWrite : Nat}
    (hth : s.thread = .unloading (.restore i currentWrite)) :
    Tables m (unloadStep m s (.restore i currentWrite)) ∧
      Extends m s (unloadStep m s (.restore i currentWrite)) := by
  have hat := h.thread
  rw [ThreadAt, hth] at hat
  obtain ⟨hlt, hcurrent, hdone⟩ := hat
  have hup : s.hookListZeroed = false := by rw [h.zeroed, hth]; rfl
  rw [unloadStep]
  split
  · have hlisted : ∀ drv, Hooking m s drv → Listed s drv := fun drv hd =>
      hd.resolve_right fun hw => by rw [hth] at hw; exact hw
    have hback : ∀ drv, s.slots drv = m.before drv ∨ drv = (s.hookList i).driverObject →
        Function.update s.slots (s.hookList i).driverObject (s.hookList i).originalWrite drv
          = m.before drv := by
      intro drv hd
      by_cases hown : drv = (s.hookList i).driverObject
      · rw [hown, Function.update_self]
        exact (h.entry hup i hlt).1
      · rw [Function.update_of_ne hown]
        exact hd.resolve_right hown
    refine ⟨⟨h.hooks, h.disks, h.entry, h.disk, fun drv => ?_, hup, h.order,
        (fun hin => by cases hin), h.freed, fun j hj => hback _ ?_⟩,
      ⟨rfl, le_rfl, le_rfl, fun _ _ => rfl, fun _ _ => rfl, fun drv hd => .inl (hlisted drv hd)⟩⟩
    · by_cases hown : drv = (s.hookList i).driverObject
      · exact .inl (hback drv (.inr hown))
      · have hslot : Function.update s.slots (s.hookList i).driverObject
            (s.hookList i).originalWrite drv = s.slots drv := Function.update_of_ne hown _ _
        exact (h.slot drv).imp hslot.trans fun ⟨hs, _, hd⟩ =>
          ⟨hslot.trans hs, hup, .inl (hlisted drv hd)⟩
    · rcases Nat.lt_succ_iff_lt_or_eq.mp hj with hj | rfl
      · exact .inl (hdone j hj)
      · exact .inr rfl
  · next hother =>
    refine h.goto (continues_unloading hth rfl) fun j hj => ?_
    rcases Nat.lt_succ_iff_lt_or_eq.mp hj with hj | rfl
    · exact hdone j hj
    · exact (h.slot _).resolve_right fun hd => hother (hcurrent.trans hd.1)

/-- After the restoring loop every slot holds what it held before. -/
theorem Tables.all_restored (h : Tables m s) {i : Nat}
    (hth : s.thread = .unloading (.restoreTest i)) (hend : ¬ i < s.hookListCount) (drv : Nat) :
    s.slots drv = m.before drv := by
  have hat := h.thread
  rw [ThreadAt, hth] at hat
  rcases h.slot drv with hslot | ⟨-, -, ⟨j, hj, rfl⟩ | hw⟩
  · exact hslot
  · exact hat j (hj.trans_le (not_lt.mp hend))
  · rw [hth] at hw
    exact hw.elim

/-- **A statement of unloading.**  It leaves the counted entries, or zeroes `g_HookList`, or comes
after that. -/
theorem Tables.unloadStep (h : Tables m s) {next : UnloadStatement}
    (hth : s.thread = .unloading next) :
    Tables m (unloadStep m s next) ∧
      (Extends m s (unloadStep m s next) ∨ next = .zeroHookList ∨ s.hookListZeroed = true) := by
  have hat := h.thread
  rw [ThreadAt, hth] at hat
  cases next with
  | restoreTest i =>
      refine (And.imp_right .inl) ?_
      rw [Driver.unloadStep]
      split
      · next hlt =>
        exact h.goto (continues_unloading hth rfl) ⟨hlt, hat⟩
      · next hend =>
        exact h.goto (continues_unloading hth rfl)
          (h.all_restored hth hend)
  | checkInstalled i =>
      -- until the list is zeroed every entry counts as installed
      have hup : s.hookListZeroed = false := by rw [h.zeroed, hth]; rfl
      refine (And.imp_right .inl) ?_
      rw [Driver.unloadStep, if_pos (h.entry hup i hat.1).2]
      exact h.goto (continues_unloading hth rfl) hat
  | readCurrent i =>
      exact (And.imp_right .inl) (h.goto (continues_unloading hth rfl)
        ⟨hat.1, rfl, hat.2⟩)
  | restore i currentWrite => exact (And.imp_right .inl) (h.restore hth)
  | cleanupTest i =>
      refine (And.imp_right .inl) ?_
      rw [Driver.unloadStep]
      split <;> exact h.goto (continues_unloading hth rfl) hat
  | cleanup i =>
      refine (And.imp_right .inl) (h.same ⟨rfl, rfl, rfl, rfl, rfl, fun _ _ => rfl, fun e _ => ?_⟩
        (continues_unloading hth rfl) (fun e he => ?_)
        (fun hin => by cases hin) hat)
      · -- the rows keep what a write reads; only the bitmap is freed
        by_cases hi : e = i
        · subst hi
          dsimp only [Driver.unloadStep]
          rw [Function.update_self]
          exact ⟨rfl, rfl⟩
        · dsimp only [Driver.unloadStep]
          rw [Function.update_of_ne hi]
          exact ⟨rfl, rfl⟩
      · by_cases hi : e = i
        · subst hi
          dsimp only [Driver.unloadStep]
          rw [Function.update_self]
          rfl
        · dsimp only [Driver.unloadStep] at he ⊢
          rw [Function.update_of_ne hi] at he ⊢
          exact h.freed e he
  | zeroHookList =>
      -- from here on the tables promise nothing: every slot holds its own routine again
      exact ⟨⟨h.hooks, h.disks, (fun hup => by cases hup), (fun hup => by cases hup),
        fun drv => .inl (hat drv), rfl, fun _ => rfl, (fun hin => by cases hin), h.freed,
        ⟨rfl, hat⟩⟩, .inr (.inl rfl)⟩
  | clearHookListCount =>
      exact ⟨⟨Nat.zero_le _, h.disks, (fun hup => by cases hat.1.symm.trans hup),
        (fun hup => by cases hat.1.symm.trans hup), fun drv => .inl (hat.2 drv), hat.1, h.order,
        (fun hin => by cases hin), h.freed, hat⟩, .inr (.inr hat.1)⟩
  | zeroDiskMap =>
      exact ⟨⟨h.hooks, h.disks, (fun hup => by cases hat.1.symm.trans hup),
        (fun hup => by cases hat.1.symm.trans hup), fun drv => .inl (hat.2 drv), hat.1,
        fun _ => hat.1, (fun hin => by cases hin), fun _ _ => rfl, hat⟩, .inr (.inr hat.1)⟩
  | clearDiskMapCount =>
      exact ⟨⟨h.hooks, Nat.zero_le _, (fun hup => by cases hat.1.symm.trans hup),
        (fun hup => by cases hat.1.symm.trans hup), fun drv => .inl (hat.2 drv), hat.1, h.order,
        (fun hin => by cases hin), h.freed, hat⟩, .inr (.inr hat.1)⟩

/-- The system calls `CbtUnload`. -/
theorem Tables.startUnload (h : Tables m s) (hth : s.thread = .loaded) :
    Tables m { s with thread := .unloading (.restoreTest 0) } ∧
      Extends m s { s with thread := .unloading (.restoreTest 0) } := by
  refine h.goto ⟨by rw [hth]; rfl, (fun hin => by cases hin), fun drv hw => ?_⟩ fun j hj => ?_
  · rw [hth] at hw
    exact hw
  · exact absurd hj (Nat.not_lt_zero j)

/-- **A step of the driver's own thread.** -/
theorem Tables.driverStep (h : Tables m s) (ht : driverStep m s = some t) :
    Tables m t ∧
      (Extends m s t ∨ s.thread = .unloading .zeroHookList ∨ s.hookListZeroed = true) := by
  rw [Driver.driverStep] at ht
  split at ht
  · next d rest hth =>
    cases ht
    refine And.imp_right .inl (h.goto ⟨by rw [hth]; rfl, (fun _ => by rw [hth]; rfl), ?_⟩ ?_)
    · exact fun drv hw => by rw [hth] at hw; exact hw
    · exact fun j hj => absurd hj (Nat.not_lt_zero j)
  · next hth =>
    cases ht
    refine And.imp_right .inl (h.goto ⟨by rw [hth]; rfl, (fun hin => by cases hin), ?_⟩ trivial)
    exact fun drv hw => by rw [hth] at hw; exact hw
  · next d rest next hth =>
    cases ht
    exact And.imp_right .inl (h.loadStep hth)
  · cases ht
  · next next hth =>
    cases ht
    rw [hth]
    refine And.imp_right ?_ (h.unloadStep hth)
    rintro (hext | rfl | hzeroed)
    exacts [.inl hext, .inr (.inl rfl), .inr (.inr hzeroed)]
  · cases ht

end

/-! ### The steps of a write -/

section

variable {m : Machine} {s t : DriverMemory} {irp : Irp}

/-- A write marks the bitmap of a counted disk. -/
theorem Tables.mark (h : Tables m s) {e : Nat} (he : e < s.diskMapCount) {cbtState : DiskCbtState}
    (hbuffer : (s.diskMap e).cbtState.buffer = none → cbtState.buffer = none) :
    Tables m { s with
        diskMap := Function.update s.diskMap e { s.diskMap e with cbtState := cbtState } } ∧
      Extends m s { s with
        diskMap := Function.update s.diskMap e { s.diskMap e with cbtState := cbtState } } := by
  have hnew : Function.update s.diskMap e { s.diskMap e with cbtState := cbtState } s.diskMapCount
      = s.diskMap s.diskMapCount := Function.update_of_ne (Nat.ne_of_gt he) _ _
  refine h.same ⟨rfl, rfl, rfl, rfl, rfl, fun _ _ => rfl, fun e' _ => ?_⟩
    ⟨rfl, id, fun _ => id⟩ (fun e' he' => ?_) h.unfreed ?_
  · by_cases hsame : e' = e
    · subst hsame
      dsimp only
      rw [Function.update_self]
      exact ⟨rfl, rfl⟩
    · dsimp only
      rw [Function.update_of_ne hsame]
      exact ⟨rfl, rfl⟩
  · by_cases hsame : e' = e
    · subst hsame
      dsimp only
      rw [Function.update_self]
      exact hbuffer (h.freed _ he')
    · dsimp only
      rw [Function.update_of_ne hsame]
      exact h.freed _ he'
  · have hat := h.thread
    simp only [ThreadAt, NewDisk, Listed, hnew] at hat ⊢
    exact hat

/-- Without a buffer nothing is marked. -/
theorem markBlockChanged_of_no_buffer {cbtState : DiskCbtState} (h : cbtState.buffer = none)
    (offset : UInt64) (length : UInt32) : markBlockChanged cbtState offset length = cbtState :=
  if_pos (.inl h)

/-- A write that has no more of the tables to read is not affected. -/
theorem IrpAt.of_not_usesTables (h : IrpAt m s irp) (hnot : irp.next.usesTables = false) :
    IrpAt m t irp := by
  refine ⟨h.unpassed, fun huses => (by cases hnot.symm.trans huses), ?_⟩
  have hplace := h.place
  rw [IrpPlace] at hplace ⊢
  generalize irp.next = next at hnot hplace
  cases next <;> first | exact hplace | cases hnot

/-- The tables go on. -/
theorem IrpAt.extends (h : IrpAt m s irp) (hext : Extends m s t) : IrpAt m t irp := by
  refine ⟨h.unpassed, fun huses => ?_, ?_⟩
  · obtain ⟨hup, hooking⟩ := h.live huses
    exact ⟨hext.zeroed.trans hup, hext.hooking _ hooking⟩
  have hdriver : ∀ {j}, j < s.hookListCount →
      (s.hookList j).driverObject = m.driverOf irp.device →
      j < t.hookListCount ∧ (t.hookList j).driverObject = m.driverOf irp.device :=
    fun hj hd => ⟨hj.trans_le hext.hookCount, (hext.driver _ hj).trans hd⟩
  have hother : ∀ {i}, i ≤ s.hookListCount →
      (∀ j < i, (s.hookList j).driverObject ≠ m.driverOf irp.device) →
      ∀ j < i, (t.hookList j).driverObject ≠ m.driverOf irp.device := fun hi hd j hj =>
    (hext.driver j (hj.trans_le hi)).symm ▸ hd j hj
  have hplace := h.place
  rw [IrpPlace] at hplace ⊢
  generalize irp.next = next at hplace
  cases next with
  | diskTest i => trivial
  | diskCompare i => exact hplace.trans_le hext.diskCount
  | hookTest i => exact ⟨hplace.1.trans hext.hookCount, hother hplace.1 hplace.2⟩
  | hookCompare i => exact ⟨hplace.1.trans_le hext.hookCount, hother hplace.1.le hplace.2⟩
  | checkInstalled j => exact hdriver hplace.1 hplace.2
  | callHooked j => exact hdriver hplace.1 hplace.2
  | emergency => exact hplace
  | readHookEntry e =>
      exact ⟨hplace.1.trans_le hext.diskCount, (hext.device e hplace.1).trans hplace.2⟩
  | readOriginalWrite e x =>
      obtain ⟨he, j, hj, hx, hd⟩ := hplace
      exact ⟨he.trans_le hext.diskCount, j, (hdriver hj hd).1, hx, (hdriver hj hd).2⟩
  | addStartingOffset e w => exact ⟨hplace.1.trans_le hext.diskCount, hplace.2⟩
  | mark e w offset => exact ⟨hplace.1.trans_le hext.diskCount, hplace.2⟩
  | callOriginal w => exact hplace
  | done => exact hplace
  | crashed => exact hplace

end

/-- At most so many statements of `HwReadWrite` are left for a write. -/
def IrpStatement.left : IrpStatement → Nat
  | .diskTest i => 2 * (maxDiskMapEntries - i) + 30
  | .diskCompare i => 2 * (maxDiskMapEntries - i) + 29
  | .hookTest i => 2 * (maxHookedDrivers - i) + 10
  | .hookCompare i => 2 * (maxHookedDrivers - i) + 9
  | .checkInstalled _ => 3
  | .callHooked _ => 2
  | .emergency => 1
  | .readHookEntry _ => 5
  | .readOriginalWrite _ _ => 4
  | .addStartingOffset _ _ => 3
  | .mark _ _ _ => 2
  | .callOriginal _ => 1
  | .done | .crashed => 0

section

variable {m : Machine} {s t : Traffic} {id : Nat} {irp : Irp}

theorem irps_update {P : Irp → Prop} (h : ∀ i x, s.irps i = some x → P x) {irp' : Irp}
    (h' : P irp') :
    ∀ i x, Function.update s.irps id (some irp') i = some x → P x := by
  intro i x hx
  by_cases hi : i = id
  · rw [hi, Function.update_self] at hx
    cases hx
    exact h'
  · rw [Function.update_of_ne hi] at hx
    exact h i x hx

theorem Routing.setIrp (h : Routing m s) {irp' : Irp} (h' : IrpAt m s.toDriverMemory irp') :
    Routing m (s.setIrp id irp') :=
  ⟨h.tables, irps_update h.irps h', h.selfCalled, h.zeroedUsed, h.freedMarked⟩

theorem readHook_eq (hup : s.hookListZeroed = false) : s.readHook = s := by
  rw [Traffic.readHook, hup, Bool.or_false]

theorem readDisk_eq (hup : s.diskMapZeroed = false) : s.readDisk = s := by
  rw [Traffic.readDisk, hup, Bool.or_false]

/-- A write has gone on: no other write has, and fewer statements are left for it. -/
def GoesOn (s t : Traffic) (id : Nat) (irp : Irp) : Prop :=
  ∃ irp', t.irps = Function.update s.irps id (some irp') ∧ irp'.next.left < irp.next.left

/-- A write inside `HwReadWrite` goes to a statement that uses the tables. -/
theorem Routing.next (h : Routing m s) (hat : IrpAt m s.toDriverMemory irp)
    (huses : irp.next.usesTables = true) {next : IrpStatement}
    (hplace : IrpPlace m s.toDriverMemory { irp with next := next })
    (hleft : next.left < irp.next.left) :
    Routing m (s.setIrp id { irp with next := next }) ∧
      GoesOn s (s.setIrp id { irp with next := next }) id irp := by
  refine ⟨h.setIrp ⟨fun _ => hat.unpassed ?_, fun _ => hat.live huses, hplace⟩,
    { irp with next := next }, rfl, hleft⟩
  intro hend
  rw [hend] at huses
  cases huses

/-- A write is passed on. -/
theorem Routing.call (h : Routing m s) (hbefore : ∀ drv, m.before drv ≠ m.hook)
    (hunpassed : irp.passedTo = []) {routine : Nat} (hr : routine = m.before (m.driverOf irp.device))
    (hleft : 0 < irp.next.left) :
    Routing m (s.call m id irp routine) ∧ GoesOn s (s.call m id irp routine) id irp := by
  subst hr
  rw [Traffic.call, if_neg (hbefore _), hunpassed]
  refine ⟨h.setIrp ⟨fun hne => absurd rfl hne, (fun huses => by cases huses), rfl⟩, _, rfl, hleft⟩

/-- **A statement of `HwReadWrite`.** -/
theorem Routing.irpStep (h : Routing m s) (hbefore : ∀ drv, m.before drv ≠ m.hook)
    (hirp : s.irps id = some irp)
    (hcareful : ∀ i, irp.next = .hookTest i → s.hookListCount ≤ i →
      ¬ s.thread.Window m (m.driverOf irp.device))
    (ht : irpStep m s id irp = some t) : Routing m t ∧ GoesOn s t id irp := by
  have hat := h.irps id irp hirp
  have hlive := hat.live
  have hunpassed := hat.unpassed
  have hplace := hat.place
  have hdisks := h.tables.disks
  have hhooks := h.tables.hooks
  obtain ⟨device, byteOffset, length, next, passedTo⟩ := irp
  rw [IrpPlace] at hplace
  -- a write that uses the tables reads entries that are not zeroed
  have hhookUp : next.usesTables = true → s.readHook = s := fun huses =>
    readHook_eq (hlive huses).1
  have hdiskUp : next.usesTables = true → s.readDisk = s := fun huses => by
    refine readDisk_eq (Bool.eq_false_iff.mpr fun hzeroed => ?_)
    cases (hlive huses).1.symm.trans (h.tables.order hzeroed)
  rw [Driver.irpStep] at ht
  cases next with
  | diskTest i =>
      dsimp only at ht hplace
      split at ht
      · next hlt =>
        cases ht
        exact h.next hat rfl hlt (Nat.lt_succ_self _)
      · cases ht
        refine h.next hat rfl ⟨Nat.zero_le _, fun j hj => absurd hj (Nat.not_lt_zero j)⟩ ?_
        simp only [IrpStatement.left, maxHookedDrivers, maxDiskMapEntries]
        omega
  | diskCompare i =>
      dsimp only at ht hplace
      rw [hdiskUp rfl] at ht
      have hlt : i < maxDiskMapEntries := hplace.trans_le hdisks
      split at ht
      · next hfound =>
        cases ht
        refine h.next hat rfl ⟨hplace, hfound⟩ ?_
        simp only [IrpStatement.left]
        omega
      · cases ht
        refine h.next hat rfl trivial ?_
        simp only [IrpStatement.left]
        omega
  | hookTest i =>
      dsimp only at ht hplace
      split at ht
      · next hlt =>
        cases ht
        exact h.next hat rfl ⟨hlt, hplace.2⟩ (Nat.lt_succ_self _)
      · next hend =>
        -- the entry of the driver is counted, and was not found
        rcases (hlive rfl).2 with hl | hw
        · exact absurd hl (not_listed_of_searched hend hplace.2)
        · exact absurd hw (hcareful i rfl (not_lt.mp hend))
  | hookCompare i =>
      dsimp only at ht hplace
      rw [hhookUp rfl] at ht
      have hlt : i < maxHookedDrivers := hplace.1.trans_le hhooks
      split at ht
      · next hfound =>
        cases ht
        refine h.next hat rfl ⟨hplace.1, hfound⟩ ?_
        simp only [IrpStatement.left]
        omega
      · next hother =>
        cases ht
        refine h.next hat rfl ⟨hplace.1, fun j hj => ?_⟩ ?_
        · rcases Nat.lt_succ_iff_lt_or_eq.mp hj with hj | rfl
          · exact hplace.2 j hj
          · exact hother
        · simp only [IrpStatement.left]
          omega
  | checkInstalled j =>
      dsimp only at ht hplace
      have hinstalled := (h.tables.entry (hlive rfl).1 j hplace.1).2
      rw [hhookUp rfl, if_pos hinstalled] at ht
      cases ht
      exact h.next hat rfl hplace (Nat.lt_succ_self _)
  | callHooked j =>
      dsimp only at ht hplace
      have horiginal := (h.tables.entry (hlive rfl).1 j hplace.1).1
      rw [hhookUp rfl] at ht
      cases ht
      exact h.call hbefore (hunpassed (fun hend => by cases hend))
        (horiginal.trans (congrArg m.before hplace.2)) (Nat.succ_pos _)
  | emergency => exact hplace.elim
  | readHookEntry e =>
      dsimp only at ht hplace
      rw [hdiskUp rfl] at ht
      cases ht
      obtain ⟨j, hj, hentry, hdriver⟩ := h.tables.disk (hlive rfl).1 e hplace.1
      refine h.next hat rfl ⟨hplace.1, j, hj, hentry, ?_⟩ (Nat.lt_succ_self _)
      exact hdriver.trans (congrArg m.driverOf hplace.2)
  | readOriginalWrite e x =>
      obtain ⟨he, j, hj, rfl, hdriver⟩ := hplace
      dsimp only at ht
      rw [hhookUp rfl] at ht
      cases ht
      have horiginal := (h.tables.entry (hlive rfl).1 j hj).1
      exact h.next hat rfl ⟨he, horiginal.trans (congrArg m.before hdriver)⟩ (Nat.lt_succ_self _)
  | addStartingOffset e w =>
      dsimp only at ht hplace
      rw [hdiskUp rfl] at ht
      cases ht
      exact h.next hat rfl hplace (Nat.lt_succ_self _)
  | mark e w offset =>
      dsimp only at ht hplace
      rw [hdiskUp rfl] at ht
      cases ht
      have hfreed : (s.freed e && (s.diskMap e).cbtState.buffer.isSome) = false := by
        cases hf : s.freed e with
        | false => rfl
        | true => rw [h.tables.freed e hf]; rfl
      obtain ⟨htables, hext⟩ := h.tables.mark hplace.1 fun hnone =>
        (congrArg DiskCbtState.buffer (markBlockChanged_of_no_buffer hnone offset length)).trans hnone
      refine ⟨⟨htables, irps_update (fun i x hx => (h.irps i x hx).extends hext) ?_, h.selfCalled,
        h.zeroedUsed, ?_⟩, _, rfl, Nat.lt_succ_self _⟩
      · exact ⟨fun _ => hunpassed (fun hend => by cases hend), (fun huses => by cases huses), hplace.2⟩
      · dsimp only
        rw [hfreed, Bool.or_false]
        exact h.freedMarked
  | callOriginal w =>
      cases ht
      exact h.call hbefore (hunpassed (fun hend => by cases hend)) hplace (Nat.succ_pos _)
  | done => cases ht
  | crashed => cases ht

/-- The driver's own thread takes a step. -/
theorem Routing.driver (h : Routing m s) (hcareful : Careful m s .driver)
    {memory : DriverMemory} (ht : driverStep m s.toDriverMemory = some memory) :
    Routing m { s with toDriverMemory := memory } := by
  obtain ⟨htables, hext⟩ := h.tables.driverStep ht
  refine ⟨htables, fun id irp hirp => ?_, h.selfCalled, h.zeroedUsed, h.freedMarked⟩
  have hat := h.irps id irp hirp
  rcases hext with hext | hzero | hzeroed
  · exact hat.extends hext
  · exact hat.of_not_usesTables (hcareful hzero id irp hirp)
  · refine hat.of_not_usesTables (Bool.eq_false_iff.mpr fun huses => ?_)
    cases (hat.live huses).1.symm.trans hzeroed

/-- The system issues a write. -/
theorem Routing.issue (h : Routing m s) (hbefore : ∀ drv, m.before drv ≠ m.hook) (device : Nat)
    (byteOffset : UInt64) (length : UInt32) :
    Routing m (s.issue m id device byteOffset length) := by
  rw [Traffic.issue]
  dsimp only
  rcases h.tables.slot (m.driverOf device) with hslot | ⟨hslot, hup, hooking⟩
  · rw [hslot, if_neg (hbefore _)]
    exact h.setIrp ⟨fun hne => absurd rfl hne, (fun huses => by cases huses), rfl⟩
  · rw [if_pos hslot]
    exact h.setIrp ⟨fun _ => rfl, fun _ => ⟨hup, hooking⟩, trivial⟩

/-- **One careful step.** -/
theorem Routing.step (h : Routing m s) (hbefore : ∀ drv, m.before drv ≠ m.hook) {a : Turn}
    (hstep : Guarded (Step m) (Careful m) s a t) : Routing m t := by
  obtain ⟨ht, hcareful⟩ := hstep
  rw [Step] at ht
  cases a with
  | driver =>
      obtain ⟨memory, hmemory, rfl⟩ := Option.map_eq_some_iff.mp ht
      exact h.driver hcareful hmemory
  | unload =>
      rw [trafficStep] at ht
      split at ht
      · next hth =>
        cases ht
        obtain ⟨htables, hext⟩ := h.tables.startUnload hth
        exact ⟨htables, fun id irp hirp => (h.irps id irp hirp).extends hext, h.selfCalled,
          h.zeroedUsed, h.freedMarked⟩
      · cases ht
  | issue id device byteOffset length =>
      rw [trafficStep] at ht
      split at ht
      · cases ht
        exact h.issue hbefore device byteOffset length
      · cases ht
  | irp id =>
      rw [trafficStep] at ht
      split at ht
      · cases ht
      · next irp hirp => exact (h.irpStep hbefore hirp (hcareful irp · hirp) ht).1

/-- At most so many statements of `HwReadWrite` are left for the write number `id`. -/
def Traffic.left (s : Traffic) (id : Nat) : Nat :=
  match s.irps id with
  | none => (IrpStatement.diskTest 0).left
  | some irp => irp.next.left

theorem left_of_irps {id' : Nat} {irp' : Irp}
    (h : t.irps = Function.update s.irps id' (some irp')) :
    t.left id = if id = id' then irp'.next.left else s.left id := by
  rw [Traffic.left, h]
  by_cases hid : id = id'
  · rw [hid, Function.update_self, if_pos rfl]
  · rw [Function.update_of_ne hid, if_neg hid, Traffic.left]

theorem left_issue {id' : Nat} (hnone : s.irps id' = none) (device : Nat) (byteOffset : UInt64)
    (length : UInt32) : (s.issue m id' device byteOffset length).left id ≤ s.left id := by
  have hnew : ∀ irp' : Irp, irp'.next.left ≤ (IrpStatement.diskTest 0).left →
      (s.setIrp id' irp').left id ≤ s.left id := fun irp' hle => by
    rw [left_of_irps rfl]
    split
    · next hid =>
      rw [hid, Traffic.left, hnone]
      exact hle
    · exact le_rfl
  rw [Traffic.issue]
  dsimp only
  split
  · exact hnew _ le_rfl
  · exact hnew _ (Nat.zero_le _)

theorem count_irp_of_ne {a : Turn} (ha : a ≠ .irp id) : [a].count (.irp id) = 0 :=
  List.count_eq_zero.mpr fun hmem => ha (List.mem_singleton.mp hmem).symm

/-- A step counts against what is left of the write that takes it, and of no other. -/
theorem Routing.left_step (h : Routing m s) (hbefore : ∀ drv, m.before drv ≠ m.hook) {a : Turn}
    (hstep : Guarded (Step m) (Careful m) s a t) (id : Nat) :
    t.left id + [a].count (.irp id) ≤ s.left id := by
  obtain ⟨ht, hcareful⟩ := hstep
  rw [Step] at ht
  have hsame : ∀ u : Traffic, u.irps = s.irps → u.left id + 0 ≤ s.left id := fun u hirps => by
    rw [Traffic.left, hirps]
    exact le_rfl
  cases a with
  | driver =>
      obtain ⟨memory, -, rfl⟩ := Option.map_eq_some_iff.mp ht
      rw [count_irp_of_ne (fun hb => by cases hb)]
      exact hsame _ rfl
  | unload =>
      rw [trafficStep] at ht
      split at ht
      · cases ht
        rw [count_irp_of_ne (fun hb => by cases hb)]
        exact hsame _ rfl
      · cases ht
  | issue id' device byteOffset length =>
      rw [trafficStep] at ht
      split at ht
      · next hnone =>
        cases ht
        rw [count_irp_of_ne (fun hb => by cases hb)]
        exact left_issue hnone device byteOffset length
      · cases ht
  | irp id' =>
      rw [trafficStep] at ht
      split at ht
      · cases ht
      · next irp hirp =>
        obtain ⟨irp', hirps, hleft⟩ := (h.irpStep hbefore hirp (hcareful irp · hirp) ht).2
        rw [left_of_irps hirps]
        by_cases hid : id = id'
        · subst hid
          rw [if_pos rfl, List.count_singleton_self, Traffic.left, hirp]
          exact hleft
        · rw [if_neg hid, count_irp_of_ne (fun hb => hid (by cases hb; rfl))]
          exact le_rfl

end

/-- A careful run from a state with the invariant. -/
theorem Routing.run {m : Machine} (hbefore : ∀ drv, m.before drv ≠ m.hook) {s t : Traffic}
    {turns : List Turn} (r : Run (Guarded (Step m) (Careful m)) s turns t) (h : Routing m s)
    (id : Nat) : Routing m t ∧ t.left id + turns.count (.irp id) ≤ s.left id := by
  induction r with
  | nil => exact ⟨h, le_rfl⟩
  | @cons s u t a turns hstep _ ih =>
      obtain ⟨ht, hleft⟩ := ih (h.step hbefore hstep)
      have hone := h.left_step hbefore hstep id
      refine ⟨ht, ?_⟩
      rw [← List.singleton_append, List.count_append]
      omega

theorem IrpStatement.eq_of_left_eq_zero {next : IrpStatement} (h : next.left = 0) :
    next = .done ∨ next = .crashed := by
  cases next with
  | done => exact .inl rfl
  | crashed => exact .inr rfl
  | _ => cases h

/-- A write that is neither done nor crashed has a next statement. -/
theorem exists_irpStep (m : Machine) (s : Traffic) (id : Nat) {irp : Irp} (hdone : irp.next ≠ .done)
    (hcrashed : irp.next ≠ .crashed) : ∃ t, irpStep m s id irp = some t := by
  obtain ⟨device, byteOffset, length, next, passedTo⟩ := irp
  rw [irpStep]
  cases next with
  | diskTest i => dsimp only; split <;> exact ⟨_, rfl⟩
  | diskCompare i => dsimp only; split <;> exact ⟨_, rfl⟩
  | hookTest i => dsimp only; split <;> exact ⟨_, rfl⟩
  | hookCompare i => dsimp only; split <;> exact ⟨_, rfl⟩
  | checkInstalled j => dsimp only; split <;> exact ⟨_, rfl⟩
  | readOriginalWrite e x => cases x <;> exact ⟨_, rfl⟩
  | done => exact absurd rfl hdone
  | crashed => exact absurd rfl hcrashed
  | _ => exact ⟨_, rfl⟩

/-- The most statements of `HwReadWrite` that a write takes. -/
def statementsOfWrite : Nat := (IrpStatement.diskTest 0).left

/-- **Where the writes go**, in every run that stays clear of the two gaps. -/
theorem routed_of_careful (m : Machine) (hbefore : ∀ drv, m.before drv ≠ m.hook)
    {turns : List Turn} {s : Traffic}
    (r : Run (Guarded (Step m) (Careful m)) m.initial turns s) :
    s.selfCalled = false ∧ s.zeroedUsed = false ∧ s.freedMarked = false ∧
      ∀ id irp, s.irps id = some irp →
        (irp.next ≠ .done → irp.passedTo = [] ∧ ∃ t, Step m s (.irp id) t) ∧
        (irp.next = .done → irp.passedTo = [m.before (m.driverOf irp.device)]) ∧
        (statementsOfWrite ≤ turns.count (.irp id) → irp.next = .done) := by
  have h := fun id => Routing.run hbefore r (routing_initial m) id
  obtain ⟨hrouting, -⟩ := h 0
  refine ⟨hrouting.selfCalled, hrouting.zeroedUsed, hrouting.freedMarked, fun id irp hirp => ?_⟩
  have hat := hrouting.irps id irp hirp
  have hnext : irp.next ≠ .crashed := fun hcrashed => by
    have hplace := hat.place
    rw [IrpPlace, hcrashed] at hplace
    exact hplace
  refine ⟨fun hne => ⟨hat.unpassed hne, ?_⟩, fun hdone => ?_, fun hcount => ?_⟩
  · obtain ⟨t, ht⟩ := exists_irpStep m s id hne hnext
    exact ⟨t, by rw [Step, trafficStep, hirp]; exact ht⟩
  · have hplace := hat.place
    rw [IrpPlace, hdone] at hplace
    exact hplace
  · have hleft : irp.next.left + turns.count (.irp id) ≤ statementsOfWrite := by
      have hall := (h id).2
      rw [Traffic.left, hirp] at hall
      exact hall
    refine (IrpStatement.eq_of_left_eq_zero ?_).resolve_right hnext
    omega

/-- A check that is enough for a careful step: no write takes one while loading goes on, and
`g_HookList` is not zeroed. -/
def clearOfGaps (s : Traffic) : Turn → Bool
  | .driver =>
      match s.thread with
      | .unloading .zeroHookList => false
      | _ => true
  | .irp _ => !s.thread.inLoad
  | .unload | .issue .. => true

theorem careful_of_clearOfGaps {m : Machine} {s : Traffic} {a : Turn}
    (h : clearOfGaps s a = true) : Careful m s a := by
  cases a with
  | driver =>
      intro hth
      rw [clearOfGaps, hth] at h
      cases h
  | irp id =>
      intro irp i _ _ _ hw
      rw [clearOfGaps] at h
      generalize s.thread = thread at h hw
      cases thread with
      | loading d rest next => cases h
      | _ => exact hw
  | unload => trivial
  | issue id device byteOffset length => trivial

/-- The state after some turns that pass the check. -/
def afterClearTurns (m : Machine) : Traffic → List Turn → Option Traffic
  | s, [] => some s
  | s, a :: as =>
      if clearOfGaps s a then (trafficStep m s a).bind fun t => afterClearTurns m t as else none

theorem run_of_afterClearTurns {m : Machine} {s t : Traffic} {as : List Turn}
    (h : afterClearTurns m s as = some t) : Run (Guarded (Step m) (Careful m)) s as t := by
  induction as generalizing s with
  | nil =>
      cases h
      exact .nil _
  | cons a as ih =>
      rw [afterClearTurns] at h
      split at h
      · next hclear =>
        obtain ⟨u, hu, ht⟩ := Option.bind_eq_some_iff.mp h
        exact .cons ⟨hu, careful_of_clearOfGaps hclear⟩ (ih ht)
      · cases h

/-- One disk of one driver. -/
def oneDisk : Machine :=
  { hook := 1
    driverOf := fun _ => 7
    disks := [(0, { deviceObject := 5, partitionInfo := some (0, 16777216), allocated := true })]
    before := fun _ => 2 }

theorem oneDisk_free (drv : Nat) : oneDisk.before drv ≠ oneDisk.hook := Nat.succ_ne_self 1

/-- A write that comes after loading. -/
def writeAfterLoading : List Turn :=
  List.replicate 18 .driver ++ .issue 0 5 0 512 :: List.replicate 7 (.irp 0)

theorem routed_of_careful_writeAfterLoading :
    ∃ s irp, Run (Guarded (Step oneDisk) (Careful oneDisk)) oneDisk.initial writeAfterLoading s ∧
      s.irps 0 = some irp ∧ s.slots 7 = 1 ∧ irp.passedTo = [2] := by
  have hend : (afterClearTurns oneDisk oneDisk.initial writeAfterLoading).map
      (fun s => (s.slots 7, (s.irps 0).map fun irp => irp.next)) = some (1, some .done) := by
    decide +kernel
  obtain ⟨s, hs, heq⟩ := Option.map_eq_some_iff.mp hend
  rw [Prod.mk.injEq, Option.map_eq_some_iff] at heq
  obtain ⟨hslot, irp, hirp, hdone⟩ := heq
  have r := run_of_afterClearTurns hs
  obtain ⟨-, -, -, hirps⟩ := routed_of_careful oneDisk oneDisk_free r
  exact ⟨s, irp, r, hirp, hslot, (hirps 0 irp hirp).2.1 hdone⟩

/-- A write that comes when the slot of its driver has been exchanged and the entry is not
counted yet. -/
def writeInWindow : List Turn :=
  List.replicate 7 .driver ++ .issue 0 5 0 512 :: List.replicate 3 (.irp 0)

/-- A write that has found its disk when the tables are zeroed. -/
def writeAcrossUnload : List Turn :=
  List.replicate 18 .driver ++ .issue 0 5 0 512 :: List.replicate 3 (.irp 0) ++
    .unload :: List.replicate 9 .driver ++ List.replicate 4 (.irp 0)

/-- The first write makes `HwReadWrite` call itself; the second reads a zeroed entry and is passed
to the null pointer. -/
theorem self_call_and_zeroed_use :
    (∀ drv, oneDisk.before drv ≠ oneDisk.hook) ∧
      (∃ s, Run (Step oneDisk) oneDisk.initial writeInWindow s ∧ s.selfCalled = true) ∧
      ∃ s, Run (Step oneDisk) oneDisk.initial writeAcrossUnload s ∧ s.zeroedUsed = true ∧
        (s.irps 0).map (fun irp => (irp.next, irp.passedTo)) = some (.done, [0]) := by
  have hself : (afterTurns oneDisk oneDisk.initial writeInWindow).map (fun s => s.selfCalled)
      = some true := by decide +kernel
  have hzeroed : (afterTurns oneDisk oneDisk.initial writeAcrossUnload).map
      (fun s => (s.zeroedUsed, (s.irps 0).map fun irp => (irp.next, irp.passedTo)))
      = some (true, some (.done, [0])) := by decide +kernel
  obtain ⟨s, hs, hcalled⟩ := Option.map_eq_some_iff.mp hself
  obtain ⟨t, ht, hused⟩ := Option.map_eq_some_iff.mp hzeroed
  rw [Prod.mk.injEq] at hused
  exact ⟨oneDisk_free, ⟨s, run_of_afterTurns hs, hcalled⟩, t, run_of_afterTurns ht,
    hused.1, hused.2⟩

end Go2Cbt.Driver
