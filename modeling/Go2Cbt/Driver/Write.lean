import Go2Cbt.Driver.Ioctl

/-!
# Driver — the write hook

`HwReadWrite` of `go2cbt/write.c`: find the disk by its device object, mark the blocks of the
write, and pass the request on to the routine the hook replaced.  The mark comes first; the
routine it passes to writes the media later.

`Serves` ties a disk of the map to its bitmap from both sides, the device object a write names
and the number a query names.
-/

namespace Go2Cbt.Driver

/-- `HOOK_ENTRY`.  Dispatch routines are named by number; zero is the null pointer. -/
structure HookEntry where
  driverObject : Nat
  originalWrite : Nat
  hookInstalled : Bool
  deriving DecidableEq, Repr

/-- An entry of the static array `g_HookList` that was never filled. -/
def HookEntry.zero : HookEntry := { driverObject := 0, originalWrite := 0, hookInstalled := false }

/-- `IRP_MJ_WRITE`. -/
def irpMjWrite : UInt8 := 4

/-- A device object and the driver object it belongs to. -/
structure DeviceObject where
  address : Nat
  driverObject : Nat
  deriving DecidableEq, Repr

/-- The stack location of a request, with the fields `HwReadWrite` reads. -/
structure IoStackLocation where
  majorFunction : UInt8
  byteOffset : UInt64
  length : UInt32
  deriving DecidableEq, Repr

/-- `HwReadWrite`: the routine the request is passed to, and the disk map.  `majorFunction` is
the drivers' dispatch tables as they stand. -/
def hwReadWrite (hookList : List HookEntry) (majorFunction : Nat → UInt8 → Nat)
    (diskMap : DiskMap) (device : DeviceObject) (irpSp : IoStackLocation) : Nat × DiskMap :=
  if irpSp.majorFunction ≠ irpMjWrite then
    (majorFunction device.driverObject irpSp.majorFunction, diskMap)
  else
    match diskMap.find? fun e => e.deviceObject = device.address with
    | none =>
        match hookList.find? fun h => h.driverObject = device.driverObject with
        | some hookEntry =>
            if hookEntry.hookInstalled then (hookEntry.originalWrite, diskMap)
            else (majorFunction device.driverObject irpMjWrite, diskMap)
        | none => (majorFunction device.driverObject irpMjWrite, diskMap)
    | some diskEntry =>
        let hookEntry := hookList.getD diskEntry.hookEntry .zero
        let diskAbsoluteOffset := irpSp.byteOffset + diskEntry.partitionStartingOffset
        (hookEntry.originalWrite,
          DiskMap.updateFirst (fun e => e.deviceObject = device.address)
            (fun s => markBlockChanged s diskAbsoluteOffset irpSp.length) diskMap)

/-- Where one disk is found: its number, its device object and the start of its partition 0. -/
structure DiskSite where
  diskNumber : UInt32
  deviceObject : Nat
  partitionStartingOffset : UInt64
  deriving DecidableEq, Repr

/-- The disk map finds the disk at `site` under its number and under its device object, and its
bitmap is `d`. -/
structure Serves (diskMap : DiskMap) (site : DiskSite) (d : TrackedDisk) : Prop where
  devices : (diskMap.map DiskMapEntry.deviceObject).Nodup
  numbers : (diskMap.map DiskMapEntry.diskNumber).Nodup
  entry : ∃ e ∈ diskMap, e.diskNumber = site.diskNumber ∧ e.deviceObject = site.deviceObject ∧
    e.partitionStartingOffset = site.partitionStartingOffset ∧ e.cbtState = d.state

/-! ### Tables with distinct keys -/

/-- Only the bitmaps change: a key that does not read them keeps its column. -/
theorem map_updateFirst {κ : Type} {key : DiskMapEntry → κ} {p : DiskMapEntry → Bool}
    {f : DiskCbtState → DiskCbtState} (hkey : ∀ e s, key { e with cbtState := s } = key e)
    (diskMap : DiskMap) : (DiskMap.updateFirst p f diskMap).map key = diskMap.map key := by
  induction diskMap with
  | nil => rfl
  | cons a as ih =>
      rw [DiskMap.updateFirst]
      split
      · rw [List.map_cons, List.map_cons, hkey]
      · rw [List.map_cons, List.map_cons, ih]

section Keys

variable {κ : Type} [DecidableEq κ] {key : DiskMapEntry → κ}

theorem find_of_mem {diskMap : DiskMap} (hnodup : (diskMap.map key).Nodup) {e : DiskMapEntry}
    (he : e ∈ diskMap) : diskMap.find? (fun x => key x = key e) = some e := by
  induction diskMap with
  | nil => cases he
  | cons a as ih =>
      rw [List.map_cons, List.nodup_cons] at hnodup
      rcases List.mem_cons.mp he with rfl | he
      · exact List.find?_cons_of_pos (decide_eq_true rfl)
      · have hne : key a ≠ key e := fun h => hnodup.1 (h ▸ List.mem_map_of_mem he)
        rw [List.find?_cons, decide_eq_false hne]
        exact ih hnodup.2 he

/-- The entry with the key is updated. -/
theorem mem_updateFirst_self {f : DiskCbtState → DiskCbtState} {diskMap : DiskMap}
    (hnodup : (diskMap.map key).Nodup) {e : DiskMapEntry} (he : e ∈ diskMap) :
    { e with cbtState := f e.cbtState }
      ∈ DiskMap.updateFirst (fun x => key x = key e) f diskMap := by
  induction diskMap with
  | nil => cases he
  | cons a as ih =>
      rw [List.map_cons, List.nodup_cons] at hnodup
      rw [DiskMap.updateFirst]
      rcases List.mem_cons.mp he with rfl | he
      · rw [if_pos (decide_eq_true rfl)]
        exact List.mem_cons_self
      · have hne : ¬ decide (key a = key e) = true := fun h =>
          hnodup.1 (of_decide_eq_true h ▸ List.mem_map_of_mem he)
        rw [if_neg hne]
        exact List.mem_cons_of_mem _ (ih hnodup.2 he)

/-- An entry the predicate does not accept stays. -/
theorem mem_updateFirst_other {p : DiskMapEntry → Bool} {f : DiskCbtState → DiskCbtState}
    {diskMap : DiskMap} {e : DiskMapEntry} (he : e ∈ diskMap) (hp : ¬ p e = true) :
    e ∈ DiskMap.updateFirst p f diskMap := by
  induction diskMap with
  | nil => cases he
  | cons a as ih =>
      rw [DiskMap.updateFirst]
      split
      · next ha =>
        rcases List.mem_cons.mp he with rfl | he
        · exact absurd ha hp
        · exact List.mem_cons_of_mem _ he
      · rcases List.mem_cons.mp he with rfl | he
        · exact List.mem_cons_self
        · exact List.mem_cons_of_mem _ (ih he)

end Keys

/-! ### What a write and a reset do to a disk -/

namespace Serves

variable {diskMap : DiskMap} {site : DiskSite} {d : TrackedDisk}

theorem tracks (h : Serves diskMap site d) : Tracks diskMap site.diskNumber d := by
  obtain ⟨e, he, hnum, -, -, hstate⟩ := h.entry
  exact ⟨e, hnum ▸ find_of_mem h.numbers he, hstate⟩

/-- Two bitmaps of one disk are one. -/
theorem state_eq {d' : TrackedDisk} (h : Serves diskMap site d) (h' : Serves diskMap site d') :
    d'.state = d.state := by
  obtain ⟨e, hfind, hstate⟩ := h.tracks
  obtain ⟨e', hfind', hstate'⟩ := h'.tracks
  rw [hfind, Option.some.injEq] at hfind'
  rw [← hstate, ← hstate', hfind']

/-- An update under a key of the disk is an update of its bitmap. -/
theorem updateFirst {κ : Type} [DecidableEq κ] {key : DiskMapEntry → κ}
    (hnodup : (diskMap.map key).Nodup) {f : DiskCbtState → DiskCbtState} {d' : TrackedDisk}
    (hf : f d.state = d'.state) {k : κ}
    (h : Serves diskMap site d)
    (hk : ∀ e, e.diskNumber = site.diskNumber → e.deviceObject = site.deviceObject → key e = k) :
    Serves (DiskMap.updateFirst (fun e => key e = k) f diskMap) site d' := by
  obtain ⟨e, he, hnum, hdev, hstart, hstate⟩ := h.entry
  refine ⟨?_, ?_, { e with cbtState := f e.cbtState }, ?_, hnum, hdev, hstart, ?_⟩
  · rw [map_updateFirst (fun _ _ => rfl)]; exact h.devices
  · rw [map_updateFirst (fun _ _ => rfl)]; exact h.numbers
  · rw [← hk e hnum hdev]
    exact mem_updateFirst_self hnodup he
  · rw [hstate]; exact hf

/-- An update under another key leaves the disk alone. -/
theorem updateFirst_of_ne {p : DiskMapEntry → Bool} {f : DiskCbtState → DiskCbtState}
    (h : Serves diskMap site d)
    (hp : ∀ e, e.diskNumber = site.diskNumber → e.deviceObject = site.deviceObject →
      ¬ p e = true) :
    Serves (DiskMap.updateFirst p f diskMap) site d := by
  obtain ⟨e, he, hnum, hdev, hstart, hstate⟩ := h.entry
  refine ⟨?_, ?_, e, mem_updateFirst_other he (hp e hnum hdev), hnum, hdev, hstart, hstate⟩
  · rw [map_updateFirst (fun _ _ => rfl)]; exact h.devices
  · rw [map_updateFirst (fun _ _ => rfl)]; exact h.numbers

variable {hookList : List HookEntry} {majorFunction : Nat → UInt8 → Nat} {device : DeviceObject}
  {irpSp : IoStackLocation}

/-- **A write marks its disk** at the disk-absolute offset. -/
theorem write (h : Serves diskMap site d) (hwrite : irpSp.majorFunction = irpMjWrite)
    (hdev : device.address = site.deviceObject) :
    Serves (hwReadWrite hookList majorFunction diskMap device irpSp).2 site
      (d.mark (irpSp.byteOffset + site.partitionStartingOffset) irpSp.length) := by
  obtain ⟨e, he, hnum, hobj, hstart, hstate⟩ := h.entry
  have hfind : diskMap.find? (fun x => x.deviceObject = device.address) = some e := by
    rw [hdev, ← hobj]; exact find_of_mem h.devices he
  rw [hwReadWrite, if_neg (not_not.mpr hwrite), hfind, hdev]
  simp only [hstart]
  exact h.updateFirst h.devices rfl fun _ _ hobj => hobj

/-- A write to another device, or a request of another kind, leaves the bitmap alone. -/
theorem write_of_ne (h : Serves diskMap site d)
    (hother : irpSp.majorFunction ≠ irpMjWrite ∨ device.address ≠ site.deviceObject) :
    Serves (hwReadWrite hookList majorFunction diskMap device irpSp).2 site d := by
  rw [hwReadWrite]
  split
  · exact h
  · next hwrite =>
    split
    · split
      · split <;> exact h
      · exact h
    · refine h.updateFirst_of_ne fun e _ hobj hp => ?_
      have := hother.resolve_left hwrite
      exact this (of_decide_eq_true hp ▸ hobj)

/-- **A reset clears its disk.** -/
theorem reset (h : Serves diskMap site d) :
    Serves (handleIoctlReset diskMap (.forDisk ioctlResetCbtData site.diskNumber 0)).2 site
      d.reset := by
  rw [handleIoctlReset_snd h.tracks]
  exact h.updateFirst h.numbers rfl fun _ hnum _ => hnum

end Serves

end Go2Cbt.Driver
