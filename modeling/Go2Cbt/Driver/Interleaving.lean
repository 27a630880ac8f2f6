import Go2Cbt.Driver.Hook
import Go2Cbt.Lib.Transition

/-!
# Driver — one statement at a time

Loading and unloading, and the writes that come meanwhile, with one step for each statement of
`FindOrCreateHookEntry`, `BuildDiskAndHookTables`, `CbtUnload` and `HwReadWrite`.  A call of
another routine is one statement.  The system calls `CbtUnload` after `DriverEntry` has returned,
so one thread runs both.

The tables are the static arrays, with their counts.  Left out are statements that print, and
what unloading does to the control device.
-/

namespace Go2Cbt.Driver

open Transition

/-- What the driver is loaded on: the number of `HwReadWrite`, the driver object of each device
object, the disks that the scan finds, and the write slots before. -/
structure Machine where
  hook : Nat
  driverOf : Nat → Nat
  disks : List (UInt32 × FoundDisk)
  before : Nat → Nat

/-- An entry of the array `g_DiskMap`; its pointer into `g_HookList` may be null. -/
structure DiskMapRow where
  deviceObject : Nat
  hookEntry : Option Nat
  diskNumber : UInt32
  partitionStartingOffset : UInt64
  partitionLength : UInt64
  cbtState : DiskCbtState

/-- What `RtlZeroMemory` leaves of an entry of `g_DiskMap`. -/
def DiskMapRow.zero : DiskMapRow :=
  { deviceObject := 0, hookEntry := none, diskNumber := 0, partitionStartingOffset := 0,
    partitionLength := 0, cbtState := .zero }

/-- What `RtlZeroMemory` leaves of an entry of `g_HookList`. -/
def CountedHookEntry.zero : CountedHookEntry := { toHookEntry := .zero, refCount := 0 }

/-- The next statement for a disk that was found. -/
inductive LoadStatement where
  | searchTest (i : Nat)
  | searchCompare (i : Nat)
  | addReference (i : Nat)
  | checkRoom
  | setDriverObject
  | setRefCount
  | saveOriginalWrite
  | exchange
  | verify
  | setHookInstalled (installed : Bool)
  | countHook
  | checkMapRoom (hookEntry : Nat)
  | setDeviceObject (hookEntry : Nat)
  | setHookEntry (hookEntry : Nat)
  | setDiskNumber
  | queryPartitionInfoEx
  | clearStartingOffset
  | clearLength
  | initCbtState
  | countDisk
  deriving DecidableEq, Repr

/-- The next statement of `CbtUnload`. -/
inductive UnloadStatement where
  | restoreTest (i : Nat)
  | checkInstalled (i : Nat)
  | readCurrent (i : Nat)
  | restore (i : Nat) (currentWrite : Nat)
  | cleanupTest (i : Nat)
  | cleanup (i : Nat)
  | zeroHookList
  | clearHookListCount
  | zeroDiskMap
  | clearDiskMapCount
  deriving DecidableEq, Repr

/-- Where the driver's own thread is; `rest` are the disks still to come. -/
inductive DriverThread where
  | scanning (rest : List (UInt32 × FoundDisk))
  | loading (d : UInt32 × FoundDisk) (rest : List (UInt32 × FoundDisk)) (next : LoadStatement)
  | loaded
  | unloading (next : UnloadStatement)
  | unloaded

/-- The slots, the driver's static data and its own thread.  The last three fields are history:
whether the arrays have been zeroed, and which bitmaps `CleanupCbtState` has freed. -/
structure DriverMemory where
  slots : Nat → Nat
  hookList : Nat → CountedHookEntry
  hookListCount : Nat
  diskMap : Nat → DiskMapRow
  diskMapCount : Nat
  thread : DriverThread
  hookListZeroed : Bool
  diskMapZeroed : Bool
  freed : Nat → Bool

/-- The next statement of `HwReadWrite` for a write. -/
inductive IrpStatement where
  | diskTest (i : Nat)
  | diskCompare (i : Nat)
  | hookTest (i : Nat)
  | hookCompare (i : Nat)
  | checkInstalled (hookEntry : Nat)
  | callHooked (hookEntry : Nat)
  | emergency
  | readHookEntry (diskEntry : Nat)
  | readOriginalWrite (diskEntry : Nat) (hookEntry : Option Nat)
  | addStartingOffset (diskEntry originalWrite : Nat)
  | mark (diskEntry originalWrite : Nat) (diskAbsoluteOffset : UInt64)
  | callOriginal (originalWrite : Nat)
  | done
  | crashed
  deriving DecidableEq, Repr

/-- A write, with the routines other than `HwReadWrite` that it has been passed to. -/
structure Irp where
  device : Nat
  byteOffset : UInt64
  length : UInt32
  next : IrpStatement
  passedTo : List Nat
  deriving DecidableEq, Repr

/-- The driver with the writes issued so far, by number.  The last three fields are history:
whether `HwReadWrite` has called itself, whether a write has read a field of a zeroed entry, and
whether a write has marked a freed bitmap. -/
structure Traffic extends DriverMemory where
  irps : Nat → Option Irp
  selfCalled : Bool
  zeroedUsed : Bool
  freedMarked : Bool

/-- Before loading. -/
def Machine.initial (m : Machine) : Traffic :=
  { slots := m.before
    hookList := fun _ => .zero
    hookListCount := 0
    diskMap := fun _ => .zero
    diskMapCount := 0
    thread := .scanning m.disks
    hookListZeroed := false
    diskMapZeroed := false
    freed := fun _ => false
    irps := fun _ => none
    selfCalled := false
    zeroedUsed := false
    freedMarked := false }

/-! ### The driver's own thread -/

/-- Change the first entry of `g_HookList` past the count. -/
def DriverMemory.setNewHook (s : DriverMemory) (f : CountedHookEntry → CountedHookEntry) :
    DriverMemory :=
  { s with hookList := Function.update s.hookList s.hookListCount (f (s.hookList s.hookListCount)) }

/-- Change the first entry of `g_DiskMap` past the count. -/
def DriverMemory.setNewDisk (s : DriverMemory) (f : DiskMapRow → DiskMapRow) : DriverMemory :=
  { s with diskMap := Function.update s.diskMap s.diskMapCount (f (s.diskMap s.diskMapCount)) }

/-- A statement of `FindOrCreateHookEntry`, or of the loop of `BuildDiskAndHookTables`. -/
def loadStep (m : Machine) (s : DriverMemory) (d : UInt32 × FoundDisk)
    (rest : List (UInt32 × FoundDisk)) : LoadStatement → DriverMemory
  | .searchTest i =>
      if i < s.hookListCount then { s with thread := .loading d rest (.searchCompare i) }
      else { s with thread := .loading d rest .checkRoom }
  | .searchCompare i =>
      if (s.hookList i).driverObject = m.driverOf d.2.deviceObject then
        { s with thread := .loading d rest (.addReference i) }
      else { s with thread := .loading d rest (.searchTest (i + 1)) }
  | .addReference i =>
      { s with
        hookList := Function.update s.hookList i
          { s.hookList i with refCount := (s.hookList i).refCount + 1 }
        thread := .loading d rest (.checkMapRoom i) }
  | .checkRoom =>
      if s.hookListCount ≥ maxHookedDrivers then { s with thread := .scanning rest }
      else { s with thread := .loading d rest .setDriverObject }
  | .setDriverObject =>
      { s.setNewHook fun x => { x with driverObject := m.driverOf d.2.deviceObject } with
        thread := .loading d rest .setRefCount }
  | .setRefCount =>
      { s.setNewHook fun x => { x with refCount := 1 } with
        thread := .loading d rest .saveOriginalWrite }
  | .saveOriginalWrite =>
      { s.setNewHook fun x => { x with originalWrite := s.slots (m.driverOf d.2.deviceObject) } with
        thread := .loading d rest .exchange }
  | .exchange =>
      { s with
        slots := Function.update s.slots (m.driverOf d.2.deviceObject) m.hook
        thread := .loading d rest .verify }
  | .verify =>
      { s with
        thread := .loading d rest
          (.setHookInstalled (s.slots (m.driverOf d.2.deviceObject) = m.hook)) }
  | .setHookInstalled installed =>
      { s.setNewHook fun x => { x with hookInstalled := installed } with
        thread := .loading d rest .countHook }
  | .countHook =>
      { s with
        hookListCount := s.hookListCount + 1
        thread := .loading d rest (.checkMapRoom s.hookListCount) }
  | .checkMapRoom hookEntry =>
      if s.diskMapCount < maxDiskMapEntries then
        { s with thread := .loading d rest (.setDeviceObject hookEntry) }
      else { s with thread := .scanning rest }
  | .setDeviceObject hookEntry =>
      { s.setNewDisk fun x => { x with deviceObject := d.2.deviceObject } with
        thread := .loading d rest (.setHookEntry hookEntry) }
  | .setHookEntry hookEntry =>
      { s.setNewDisk fun x => { x with hookEntry := some hookEntry } with
        thread := .loading d rest .setDiskNumber }
  | .setDiskNumber =>
      { s.setNewDisk fun x => { x with diskNumber := d.1 } with
        thread := .loading d rest .queryPartitionInfoEx }
  | .queryPartitionInfoEx =>
      match d.2.partitionInfo with
      | some (start, length) =>
          { s.setNewDisk fun x =>
              { x with partitionStartingOffset := start, partitionLength := length } with
            thread := .loading d rest .initCbtState }
      | none => { s with thread := .loading d rest .clearStartingOffset }
  | .clearStartingOffset =>
      { s.setNewDisk fun x => { x with partitionStartingOffset := 0 } with
        thread := .loading d rest .clearLength }
  | .clearLength =>
      { s.setNewDisk fun x => { x with partitionLength := 0 } with
        thread := .loading d rest .initCbtState }
  | .initCbtState =>
      { s.setNewDisk fun x =>
          { x with cbtState := (initCbtState d.2.allocated x.cbtState x.partitionLength).2 } with
        thread := .loading d rest .countDisk }
  | .countDisk =>
      { s with diskMapCount := s.diskMapCount + 1, thread := .scanning rest }

/-- A statement of `CbtUnload`. -/
def unloadStep (m : Machine) (s : DriverMemory) : UnloadStatement → DriverMemory
  | .restoreTest i =>
      if i < s.hookListCount then { s with thread := .unloading (.checkInstalled i) }
      else { s with thread := .unloading (.cleanupTest 0) }
  | .checkInstalled i =>
      if (s.hookList i).hookInstalled then { s with thread := .unloading (.readCurrent i) }
      else { s with thread := .unloading (.restoreTest (i + 1)) }
  | .readCurrent i =>
      { s with thread := .unloading (.restore i (s.slots (s.hookList i).driverObject)) }
  | .restore i currentWrite =>
      if currentWrite = m.hook then
        { s with
          slots := Function.update s.slots (s.hookList i).driverObject (s.hookList i).originalWrite
          thread := .unloading (.restoreTest (i + 1)) }
      else { s with thread := .unloading (.restoreTest (i + 1)) }
  | .cleanupTest i =>
      if i < s.diskMapCount then { s with thread := .unloading (.cleanup i) }
      else { s with thread := .unloading .zeroHookList }
  | .cleanup i =>
      { s with
        diskMap := Function.update s.diskMap i { s.diskMap i with cbtState := .zero }
        freed := Function.update s.freed i true
        thread := .unloading (.cleanupTest (i + 1)) }
  | .zeroHookList =>
      { s with
        hookList := fun _ => .zero
        hookListZeroed := true
        thread := .unloading .clearHookListCount }
  | .clearHookListCount =>
      { s with hookListCount := 0, thread := .unloading .zeroDiskMap }
  | .zeroDiskMap =>
      { s with
        diskMap := fun _ => .zero
        diskMapZeroed := true
        thread := .unloading .clearDiskMapCount }
  | .clearDiskMapCount => { s with diskMapCount := 0, thread := .unloaded }

/-- The next statement of the driver's own thread. -/
def driverStep (m : Machine) (s : DriverMemory) : Option DriverMemory :=
  match s.thread with
  | .scanning (d :: rest) => some { s with thread := .loading d rest (.searchTest 0) }
  | .scanning [] => some { s with thread := .loaded }
  | .loading d rest next => some (loadStep m s d rest next)
  | .loaded => none
  | .unloading next => some (unloadStep m s next)
  | .unloaded => none

/-! ### The writes -/

namespace Traffic

/-- Write number `id` becomes `irp`. -/
def setIrp (s : Traffic) (id : Nat) (irp : Irp) : Traffic :=
  { s with irps := Function.update s.irps id (some irp) }

/-- A write reads a field of an entry of `g_HookList`. -/
def readHook (s : Traffic) : Traffic := { s with zeroedUsed := s.zeroedUsed || s.hookListZeroed }

/-- A write reads a field of an entry of `g_DiskMap`. -/
def readDisk (s : Traffic) : Traffic := { s with zeroedUsed := s.zeroedUsed || s.diskMapZeroed }

/-- Call the routine `routine` with a write. -/
def call (m : Machine) (s : Traffic) (id : Nat) (irp : Irp) (routine : Nat) : Traffic :=
  if routine = m.hook then
    { s.setIrp id { irp with next := .diskTest 0 } with selfCalled := true }
  else s.setIrp id { irp with next := .done, passedTo := irp.passedTo ++ [routine] }

/-- The system issues a write: it calls the routine in the slot of the device's driver. -/
def issue (m : Machine) (s : Traffic) (id : Nat) (device : Nat) (byteOffset : UInt64)
    (length : UInt32) : Traffic :=
  let irp : Irp := { device, byteOffset, length, next := .diskTest 0, passedTo := [] }
  let routine := s.slots (m.driverOf device)
  if routine = m.hook then s.setIrp id irp
  else s.setIrp id { irp with next := .done, passedTo := [routine] }

end Traffic

/-- The next statement of `HwReadWrite` for the write number `id`. -/
def irpStep (m : Machine) (s : Traffic) (id : Nat) (irp : Irp) : Option Traffic :=
  match irp.next with
  | .diskTest i =>
      if i < s.diskMapCount then some (s.setIrp id { irp with next := .diskCompare i })
      else some (s.setIrp id { irp with next := .hookTest 0 })
  | .diskCompare i =>
      if (s.diskMap i).deviceObject = irp.device then
        some (s.readDisk.setIrp id { irp with next := .readHookEntry i })
      else some (s.readDisk.setIrp id { irp with next := .diskTest (i + 1) })
  | .hookTest i =>
      if i < s.hookListCount then some (s.setIrp id { irp with next := .hookCompare i })
      else some (s.setIrp id { irp with next := .emergency })
  | .hookCompare i =>
      if (s.hookList i).driverObject = m.driverOf irp.device then
        some (s.readHook.setIrp id { irp with next := .checkInstalled i })
      else some (s.readHook.setIrp id { irp with next := .hookTest (i + 1) })
  | .checkInstalled hookEntry =>
      if (s.hookList hookEntry).hookInstalled then
        some (s.readHook.setIrp id { irp with next := .callHooked hookEntry })
      else some (s.readHook.setIrp id { irp with next := .emergency })
  | .callHooked hookEntry =>
      some (s.readHook.call m id irp (s.hookList hookEntry).originalWrite)
  | .emergency => some (s.call m id irp (s.slots (m.driverOf irp.device)))
  | .readHookEntry diskEntry =>
      some (s.readDisk.setIrp id
        { irp with next := .readOriginalWrite diskEntry (s.diskMap diskEntry).hookEntry })
  | .readOriginalWrite diskEntry (some hookEntry) =>
      some (s.readHook.setIrp id
        { irp with next := .addStartingOffset diskEntry (s.hookList hookEntry).originalWrite })
  | .readOriginalWrite _ none => some (s.setIrp id { irp with next := .crashed })
  | .addStartingOffset diskEntry originalWrite =>
      let diskAbsoluteOffset := irp.byteOffset + (s.diskMap diskEntry).partitionStartingOffset
      some (s.readDisk.setIrp id
        { irp with next := .mark diskEntry originalWrite diskAbsoluteOffset })
  | .mark diskEntry originalWrite diskAbsoluteOffset =>
      let row := s.diskMap diskEntry
      let cbtState := markBlockChanged row.cbtState diskAbsoluteOffset irp.length
      some
        { s.readDisk.setIrp id { irp with next := .callOriginal originalWrite } with
          diskMap := Function.update s.diskMap diskEntry { row with cbtState := cbtState }
          -- without a buffer `MarkBlockChanged` returns at once
          freedMarked := s.freedMarked || s.freed diskEntry && row.cbtState.buffer.isSome }
  | .callOriginal originalWrite => some (s.call m id irp originalWrite)
  | .done => none
  | .crashed => none

/-! ### Interleavings -/

/-- Who takes the next step.  A write is issued, or takes its next statement. -/
inductive Turn where
  | driver
  | unload
  | issue (id : Nat) (device : Nat) (byteOffset : UInt64) (length : UInt32)
  | irp (id : Nat)
  deriving DecidableEq, Repr

/-- One step; nothing where the one whose turn it is has none. -/
def trafficStep (m : Machine) (s : Traffic) : Turn → Option Traffic
  | .driver => (driverStep m s.toDriverMemory).map fun memory => { s with toDriverMemory := memory }
  | .unload =>
      match s.thread with
      | .loaded => some { s with thread := .unloading (.restoreTest 0) }
      | _ => none
  | .issue id device byteOffset length =>
      match s.irps id with
      | none => some (s.issue m id device byteOffset length)
      | some _ => none
  | .irp id =>
      match s.irps id with
      | none => none
      | some irp => irpStep m s id irp

/-- `trafficStep` as a relation. -/
def Step (m : Machine) (s : Traffic) (a : Turn) (t : Traffic) : Prop := trafficStep m s a = some t

/-- The state after some turns. -/
def afterTurns (m : Machine) : Traffic → List Turn → Option Traffic
  | s, [] => some s
  | s, a :: as => (trafficStep m s a).bind fun t => afterTurns m t as

theorem run_of_afterTurns {m : Machine} {s t : Traffic} {as : List Turn}
    (h : afterTurns m s as = some t) : Run (Step m) s as t := by
  induction as generalizing s with
  | nil =>
      cases h
      exact .nil _
  | cons a as ih =>
      obtain ⟨u, hu, ht⟩ := Option.bind_eq_some_iff.mp h
      exact .cons hu (ih ht)

end Go2Cbt.Driver
