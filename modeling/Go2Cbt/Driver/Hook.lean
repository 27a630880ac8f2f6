import Go2Cbt.Driver.Marking

/-!
# Driver — loading and unloading the hooks

`FindOrCreateHookEntry` and `BuildDiskAndHookTables` of `go2cbt/hook.c` and `CbtUnload` of
`go2cbt/go2cbt.c`, over the write slots of the drivers.  A slot holds the number of a routine;
`hook` is the number of `HwReadWrite`.

Several disks share a driver, which is hooked at the first of them.  `Hooked` is what the tables
and the slots then are to each other, device after device.
-/

namespace Go2Cbt.Driver

open Transition

/-- `MAX_HOOKED_DRIVERS`. -/
def maxHookedDrivers : Nat := 8

/-- `MAX_DISK_MAP_ENTRIES`. -/
def maxDiskMapEntries : Nat := 64

/-- `MAX_DISKS`. -/
def maxDisks : Nat := 32

/-- `HOOK_ENTRY` with its reference count. -/
structure CountedHookEntry extends HookEntry where
  refCount : UInt32
  deriving DecidableEq, Repr

/-- What the scan finds under a disk number: the device object, what `QueryPartitionInfoEx` says
of it (the start and the length of the partition), and whether there is memory for its bitmap. -/
structure FoundDisk where
  deviceObject : Nat
  partitionInfo : Option (UInt64 × UInt64)
  allocated : Bool
  deriving DecidableEq, Repr

/-- The write slots of the drivers, `g_HookList` and `g_DiskMap`. -/
structure HookTables where
  slots : Nat → Nat
  hookList : List CountedHookEntry
  diskMap : DiskMap

/-- The tables before the driver is loaded. -/
def HookTables.unloaded (slots : Nat → Nat) : HookTables := { slots, hookList := [], diskMap := [] }

/-- The hook list as `HwReadWrite` reads it. -/
def HookTables.hooks (t : HookTables) : List HookEntry :=
  t.hookList.map CountedHookEntry.toHookEntry

section

variable (hook : Nat) (driverOf : Nat → Nat)

/-- `FindOrCreateHookEntry`: the index of the entry, unless the list is full. -/
def findOrCreateHookEntry (t : HookTables) (driverObject : Nat) : Option Nat × HookTables :=
  match t.hookList.findIdx? fun h => h.driverObject = driverObject with
  | some i =>
      (some i,
        { t with
          hookList := t.hookList.modify i fun h => { h with refCount := h.refCount + 1 } })
  | none =>
      if t.hookList.length ≥ maxHookedDrivers then (none, t)
      else
        let originalWrite := t.slots driverObject
        let slots := Function.update t.slots driverObject hook
        let verifyAddr := slots driverObject
        (some t.hookList.length,
          { t with
            slots := slots
            hookList := t.hookList ++
              [{ driverObject, originalWrite, hookInstalled := verifyAddr = hook, refCount := 1 }] })

/-- The body of the loop of `BuildDiskAndHookTables` for a disk that was found.  `driverOf` gives
the driver object of a device object. -/
def addDisk (t : HookTables) (d : UInt32 × FoundDisk) : HookTables :=
  match findOrCreateHookEntry hook t (driverOf d.2.deviceObject) with
  | (none, t) => t
  | (some hookEntry, t) =>
      if t.diskMap.length < maxDiskMapEntries then
        -- without partition data both values are zero
        let partition := d.2.partitionInfo.getD (0, 0)
        { t with
          diskMap := t.diskMap ++
            [{ deviceObject := d.2.deviceObject
               hookEntry := hookEntry
               diskNumber := d.1
               partitionStartingOffset := partition.1
               cbtState := (initCbtState d.2.allocated .zero partition.2).2 }] }
      else t

/-- The disks that the scan finds, in order. -/
def scanDisks (found : UInt32 → Option FoundDisk) : List (UInt32 × FoundDisk) :=
  ((List.range maxDisks).map UInt32.ofNat).filterMap fun diskNum =>
    (found diskNum).map fun d => (diskNum, d)

/-- `BuildDiskAndHookTables`. -/
def buildDiskAndHookTables (found : UInt32 → Option FoundDisk) (slots : Nat → Nat) : HookTables :=
  (scanDisks found).foldl (addDisk hook driverOf) (.unloaded slots)

/-- The body of the first loop of `CbtUnload`. -/
def restoreSlot (slots : Nat → Nat) (entry : CountedHookEntry) : Nat → Nat :=
  if entry.hookInstalled = true ∧ slots entry.driverObject = hook then
    Function.update slots entry.driverObject entry.originalWrite
  else slots

/-- `CbtUnload`, as far as the slots and the tables are concerned. -/
def cbtUnload (t : HookTables) : HookTables :=
  { slots := t.hookList.foldl (restoreSlot hook) t.slots, hookList := [], diskMap := [] }

end

/-! ### The tables and the slots -/

/-- **What loading keeps**, after the disks `devices`. -/
structure Hooked (hook : Nat) (driverOf slots : Nat → Nat) (devices : List (UInt32 × FoundDisk))
    (t : HookTables) : Prop where
  drivers : (t.hookList.map fun h => h.driverObject).Nodup
  entry : ∀ h ∈ t.hookList, h.originalWrite = slots h.driverObject ∧ h.originalWrite ≠ hook ∧
    h.hookInstalled = true ∧ t.slots h.driverObject = hook ∧
    h.refCount = UInt32.ofNat (devices.countP fun d => driverOf d.2.deviceObject = h.driverObject)
  other : ∀ drv, (∀ h ∈ t.hookList, h.driverObject ≠ drv) → t.slots drv = slots drv
  full : ∀ d ∈ devices, (∀ h ∈ t.hookList, h.driverObject ≠ driverOf d.2.deviceObject) →
    maxHookedDrivers ≤ t.hookList.length
  disk : ∀ e ∈ t.diskMap, ∃ h, t.hookList[e.hookEntry]? = some h ∧
    h.driverObject = driverOf e.deviceObject

theorem hooked_unloaded (hook : Nat) (driverOf slots : Nat → Nat) :
    Hooked hook driverOf slots [] (.unloaded slots) where
  drivers := List.nodup_nil
  entry := fun _ hh => absurd hh List.not_mem_nil
  other := fun _ _ => rfl
  full := fun _ hd => absurd hd List.not_mem_nil
  disk := fun _ he => absurd he List.not_mem_nil

section Load

variable {hook : Nat} {driverOf : Nat → Nat} {slots : Nat → Nat} {t : HookTables}
  {devices : List (UInt32 × FoundDisk)}

theorem countP_concat (devices : List (UInt32 × FoundDisk)) (d : UInt32 × FoundDisk) (drv : Nat) :
    (devices ++ [d]).countP (fun d => driverOf d.2.deviceObject = drv)
      = devices.countP (fun d => driverOf d.2.deviceObject = drv)
        + if driverOf d.2.deviceObject = drv then 1 else 0 := by
  rw [List.countP_append, List.countP_singleton]
  simp only [decide_eq_true_iff]

/-- Another disk of a hooked driver. -/
theorem Hooked.again (h : Hooked hook driverOf slots devices t) {d : UInt32 × FoundDisk} {i : Nat}
    (hi : t.hookList.findIdx? (fun x => x.driverObject = driverOf d.2.deviceObject) = some i) :
    Hooked hook driverOf slots (devices ++ [d])
      { t with hookList := t.hookList.modify i fun x => { x with refCount := x.refCount + 1 } } := by
  obtain ⟨hlt, hfound, -⟩ := List.findIdx?_eq_some_iff_getElem.mp hi
  rw [decide_eq_true_iff] at hfound
  have hget : ∀ j : Nat, (t.hookList.modify i fun x => { x with refCount := x.refCount + 1 })[j]?
      = t.hookList[j]?.map fun x => if i = j then { x with refCount := x.refCount + 1 } else x :=
    fun j => by
      rw [List.getElem?_modify]
      rfl
  -- counting one disk more changes no driver of the list
  have hcolumn : (t.hookList.modify i fun x => { x with refCount := x.refCount + 1 }).map
      (fun x => x.driverObject) = t.hookList.map fun x => x.driverObject := by
    refine List.ext_getElem? fun j => ?_
    rw [List.getElem?_map, hget, List.getElem?_map, Option.map_map]
    congr 1
    funext x
    rw [Function.comp]
    split <;> rfl
  have hmissing : ∀ drv, (∀ x ∈ t.hookList.modify i fun x => { x with refCount := x.refCount + 1 },
      x.driverObject ≠ drv) ↔ ∀ x ∈ t.hookList, x.driverObject ≠ drv := fun drv => by
    rw [← List.forall_mem_map (P := fun y => y ≠ drv), hcolumn, List.forall_mem_map]
  refine ⟨hcolumn ▸ h.drivers, ?_, ?_, ?_, ?_⟩
  · intro x hx
    obtain ⟨j, hj⟩ := List.getElem?_of_mem hx
    rw [hget, Option.map_eq_some_iff] at hj
    obtain ⟨y, hy, rfl⟩ := hj
    obtain ⟨horiginal, hhook, hinstalled, hown, hcount⟩ := h.entry y (List.mem_of_getElem? hy)
    by_cases hij : i = j
    · subst hij
      have hdriver : driverOf d.2.deviceObject = y.driverObject := by
        rw [← hfound, (List.getElem?_eq_some_iff.mp hy).2]
      rw [if_pos rfl]
      refine ⟨horiginal, hhook, hinstalled, hown, ?_⟩
      dsimp only
      rw [countP_concat, if_pos hdriver, hcount, UInt32.ofNat_add]
      rfl
    · -- no other entry is of this driver
      have hdriver : driverOf d.2.deviceObject ≠ y.driverObject := by
        intro hsame
        refine hij ((List.getElem?_inj (by rwa [List.length_map]) h.drivers).mp ?_)
        rw [List.getElem?_map, List.getElem?_map, hy, List.getElem?_eq_getElem hlt]
        exact congrArg some (hfound.trans hsame)
      rw [if_neg hij]
      refine ⟨horiginal, hhook, hinstalled, hown, ?_⟩
      rw [countP_concat, if_neg hdriver]
      exact hcount
  · exact fun drv hdrv => h.other drv ((hmissing drv).mp hdrv)
  · intro d' hd' hno
    rw [List.length_modify]
    rw [hmissing] at hno
    rcases List.mem_append.mp hd' with hd' | hd'
    · exact h.full d' hd' hno
    · rw [List.mem_singleton.mp hd'] at hno
      exact absurd hfound (hno _ (List.getElem_mem hlt))
  · intro e he
    obtain ⟨x, hx, hdriver⟩ := h.disk e he
    refine ⟨_, (hget _).trans (congrArg _ hx), ?_⟩
    rw [← hdriver]
    dsimp only
    split <;> rfl

/-- The first disk of a driver. -/
theorem Hooked.first (h : Hooked hook driverOf slots devices t) {d : UInt32 × FoundDisk}
    (hfree : slots (driverOf d.2.deviceObject) ≠ hook)
    (hnew : ∀ x ∈ t.hookList, x.driverObject ≠ driverOf d.2.deviceObject)
    (hroom : t.hookList.length < maxHookedDrivers) :
    Hooked hook driverOf slots (devices ++ [d])
      { t with
        slots := Function.update t.slots (driverOf d.2.deviceObject) hook
        hookList := t.hookList ++
          [{ driverObject := driverOf d.2.deviceObject
             originalWrite := t.slots (driverOf d.2.deviceObject)
             hookInstalled := true
             refCount := 1 }] } := by
  generalize hdrv : driverOf d.2.deviceObject = drv at hfree hnew ⊢
  have hslot := h.other drv hnew
  -- no disk of this driver came before
  have hnone : devices.countP (fun d => driverOf d.2.deviceObject = drv) = 0 := by
    refine List.countP_eq_zero.mpr fun d' hd' hsame => ?_
    rw [decide_eq_true_iff] at hsame
    exact absurd (h.full d' hd' (hsame ▸ hnew)) (not_le.mpr hroom)
  refine ⟨?_, ?_, ?_, ?_, ?_⟩
  · rw [List.map_append, List.map_singleton, List.nodup_append]
    refine ⟨h.drivers, List.nodup_cons.mpr ⟨List.not_mem_nil, List.nodup_nil⟩, fun a ha b hb => ?_⟩
    obtain ⟨x, hx, rfl⟩ := List.mem_map.mp ha
    rw [List.mem_singleton.mp hb]
    exact hnew x hx
  · intro x hx
    rw [countP_concat, hdrv]
    rcases List.mem_append.mp hx with hx | hx
    · have hne := hnew x hx
      obtain ⟨horiginal, hself, hinstalled, hown, hcount⟩ := h.entry x hx
      refine ⟨horiginal, hself, hinstalled, ?_, ?_⟩
      · exact (Function.update_of_ne hne _ _).trans hown
      · rw [if_neg hne.symm]
        exact hcount
    · rw [List.mem_singleton.mp hx, if_pos rfl, hnone]
      refine ⟨hslot, hslot ▸ hfree, rfl, Function.update_self _ _ _, rfl⟩
  · intro drv' hdrv'
    have hne : drv' ≠ drv := (hdrv' _ (List.mem_append_right _ (List.mem_singleton_self _))).symm
    exact (Function.update_of_ne hne _ _).trans
      (h.other drv' fun x hx => hdrv' x (List.mem_append_left _ hx))
  · intro d' hd' hmissing
    rcases List.mem_append.mp hd' with hd' | hd'
    · exact absurd (h.full d' hd' fun x hx => hmissing x (List.mem_append_left _ hx))
        (not_le.mpr hroom)
    · rw [List.mem_singleton.mp hd', hdrv] at hmissing
      exact absurd rfl (hmissing _ (List.mem_append_right _ (List.mem_singleton_self _)))
  · intro e he
    obtain ⟨x, hx, hdriver⟩ := h.disk e he
    exact ⟨x, (List.getElem?_append_left (List.getElem?_eq_some_iff.mp hx).1).trans hx, hdriver⟩

/-- A disk of a driver for which the list has no room. -/
theorem Hooked.skip (h : Hooked hook driverOf slots devices t) {d : UInt32 × FoundDisk}
    (hnew : ∀ x ∈ t.hookList, x.driverObject ≠ driverOf d.2.deviceObject)
    (hfull : maxHookedDrivers ≤ t.hookList.length) :
    Hooked hook driverOf slots (devices ++ [d]) t := by
  refine ⟨h.drivers, fun x hx => ?_, h.other, fun d' hd' hno => hfull, h.disk⟩
  obtain ⟨horiginal, hhook, hinstalled, hown, hcount⟩ := h.entry x hx
  refine ⟨horiginal, hhook, hinstalled, hown, ?_⟩
  rw [countP_concat, if_neg (hnew x hx).symm]
  exact hcount

/-- **`FindOrCreateHookEntry`** for a disk: the tables stay right, and the entry it returns is
the one of the driver. -/
theorem Hooked.findOrCreateHookEntry (h : Hooked hook driverOf slots devices t)
    {d : UInt32 × FoundDisk} (hfree : slots (driverOf d.2.deviceObject) ≠ hook) :
    Hooked hook driverOf slots (devices ++ [d])
        (findOrCreateHookEntry hook t (driverOf d.2.deviceObject)).2 ∧
      ∀ i, (findOrCreateHookEntry hook t (driverOf d.2.deviceObject)).1 = some i →
        ∃ x, (findOrCreateHookEntry hook t (driverOf d.2.deviceObject)).2.hookList[i]? = some x ∧
          x.driverObject = driverOf d.2.deviceObject := by
  rw [Driver.findOrCreateHookEntry]
  split
  · next i hi =>
    refine ⟨h.again hi, fun j hj => ?_⟩
    cases hj
    obtain ⟨hlt, hfound, -⟩ := List.findIdx?_eq_some_iff_getElem.mp hi
    rw [decide_eq_true_iff] at hfound
    refine ⟨_, (List.getElem?_modify_eq _ _ _).trans
      (congrArg _ (List.getElem?_eq_getElem hlt)), hfound⟩
  · next hnone =>
    have hnew : ∀ x ∈ t.hookList, x.driverObject ≠ driverOf d.2.deviceObject := fun x hx hsame => by
      have hno := List.findIdx?_eq_none_iff.mp hnone x hx
      rw [hsame, decide_eq_true rfl] at hno
      cases hno
    split
    · next hfull => exact ⟨h.skip hnew hfull, fun i hi => by cases hi⟩
    · next hroom =>
      have hinstalled : decide (Function.update t.slots (driverOf d.2.deviceObject) hook
          (driverOf d.2.deviceObject) = hook) = true :=
        decide_eq_true (Function.update_self _ _ _)
      dsimp only
      rw [hinstalled]
      refine ⟨h.first hfree hnew (not_le.mp hroom), fun i hi => ?_⟩
      cases hi
      exact ⟨_, List.getElem?_concat_length, rfl⟩

/-- **One more disk.** -/
theorem Hooked.addDisk (h : Hooked hook driverOf slots devices t) {d : UInt32 × FoundDisk}
    (hfree : slots (driverOf d.2.deviceObject) ≠ hook) :
    Hooked hook driverOf slots (devices ++ [d]) (addDisk hook driverOf t d) := by
  obtain ⟨hhooked, hfound⟩ := h.findOrCreateHookEntry hfree
  rw [Driver.addDisk]
  generalize Driver.findOrCreateHookEntry hook t (driverOf d.2.deviceObject) = result at hhooked hfound
  obtain ⟨_ | hookEntry, t'⟩ := result
  · exact hhooked
  · dsimp only
    split
    · refine ⟨hhooked.drivers, hhooked.entry, hhooked.other, hhooked.full, fun e he => ?_⟩
      rcases List.mem_append.mp he with he | he
      · exact hhooked.disk e he
      · rw [List.mem_singleton.mp he]
        exact hfound hookEntry rfl
    · exact hhooked

theorem hooked_foldl (h : Hooked hook driverOf slots devices t)
    {more : List (UInt32 × FoundDisk)} (hfree : ∀ d ∈ more, slots (driverOf d.2.deviceObject) ≠ hook) :
    Hooked hook driverOf slots (devices ++ more) (more.foldl (addDisk hook driverOf) t) := by
  induction more generalizing t devices with
  | nil => rwa [List.append_nil]
  | cons d more ih =>
      obtain ⟨hd, hmore⟩ := List.forall_mem_cons.mp hfree
      rw [List.append_cons]
      exact ih (h.addDisk hd) hmore

end Load

/-! ### Forwarding -/

section Forward

variable {hook : Nat} {driverOf : Nat → Nat} {slots : Nat → Nat} {t : HookTables}
  {devices : List (UInt32 × FoundDisk)} {majorFunction : Nat → UInt8 → Nat}

/-- The routine that a write of a hooked driver is passed to. -/
theorem Hooked.forwards (h : Hooked hook driverOf slots devices t) {diskMap : DiskMap}
    (hdisk : ∀ e ∈ diskMap, ∃ x, t.hookList[e.hookEntry]? = some x ∧
      x.driverObject = driverOf e.deviceObject)
    {address : Nat} (hhooked : ∃ x ∈ t.hookList, x.driverObject = driverOf address)
    (byteOffset : UInt64) (length : UInt32) :
    (hwReadWrite t.hooks majorFunction diskMap
      { address, driverObject := driverOf address }
      { majorFunction := irpMjWrite, byteOffset, length }).1 = slots (driverOf address) := by
  rw [hwReadWrite, if_neg (not_not.mpr rfl)]
  split
  · have hsome : (t.hooks.find? fun x => x.driverObject = driverOf address).isSome = true := by
      obtain ⟨x, hx, hdriver⟩ := hhooked
      exact List.find?_isSome.mpr ⟨_, List.mem_map_of_mem hx, decide_eq_true hdriver⟩
    obtain ⟨y, hy⟩ := Option.isSome_iff_exists.mp hsome
    obtain ⟨x, hx, rfl⟩ := List.mem_map.mp (List.mem_of_find?_eq_some hy)
    have hdriver := List.find?_some hy
    rw [decide_eq_true_iff] at hdriver
    obtain ⟨horiginal, -, hinstalled, -, -⟩ := h.entry x hx
    dsimp only
    rw [hy]
    dsimp only
    rw [if_pos hinstalled, horiginal]
    exact congrArg slots hdriver
  · next e he =>
    obtain ⟨x, hx, hdriver⟩ := hdisk e (List.mem_of_find?_eq_some he)
    have hdevice := List.find?_some he
    rw [decide_eq_true_iff] at hdevice
    have hget : t.hooks.getD e.hookEntry .zero = x.toHookEntry := by
      rw [List.getD_eq_getElem?_getD, HookTables.hooks, List.getElem?_map, hx]
      rfl
    dsimp only
    rw [hget, (h.entry x (List.mem_of_getElem? hx)).1, hdriver, hdevice]

/-- Writes and resets leave the pointers to the hook entries. -/
theorem Hooked.disk_afterEvents (h : Hooked hook driverOf slots devices t)
    (events : List DriverEvent) :
    ∀ e ∈ afterEvents t.hooks majorFunction t.diskMap events,
      ∃ x, t.hookList[e.hookEntry]? = some x ∧ x.driverObject = driverOf e.deviceObject := by
  intro e he
  have hcolumn : (afterEvents t.hooks majorFunction t.diskMap events).map
      (fun e => (e.hookEntry, e.deviceObject)) = t.diskMap.map fun e => (e.hookEntry, e.deviceObject) :=
    map_afterEvents t.hooks majorFunction t.diskMap (fun _ _ => rfl) events
  have hmem : (e.hookEntry, e.deviceObject)
      ∈ t.diskMap.map fun e => (e.hookEntry, e.deviceObject) := by
    rw [← hcolumn]
    exact List.mem_map_of_mem he
  obtain ⟨e₀, he₀, heq⟩ := List.mem_map.mp hmem
  rw [Prod.mk.injEq] at heq
  obtain ⟨x, hx, hdriver⟩ := h.disk e₀ he₀
  exact ⟨x, heq.1 ▸ hx, heq.2 ▸ hdriver⟩

end Forward

/-! ### Unloading -/

/-- The restoring loop, over entries that hold the handlers of before. -/
theorem foldl_restoreSlot {hook : Nat} {before : Nat → Nat} {hookList : List CountedHookEntry}
    (h : ∀ x ∈ hookList, x.originalWrite = before x.driverObject ∧ x.originalWrite ≠ hook ∧
      x.hookInstalled = true) (slots : Nat → Nat) (drv : Nat) :
    hookList.foldl (restoreSlot hook) slots drv
      = if slots drv = hook ∧ ∃ x ∈ hookList, x.driverObject = drv then before drv
        else slots drv := by
  induction hookList generalizing slots with
  | nil => exact (if_neg fun hno => by obtain ⟨-, x, hx, -⟩ := hno; cases hx).symm
  | cons x hookList ih =>
      obtain ⟨⟨horiginal, hhook, hinstalled⟩, hrest⟩ := List.forall_mem_cons.mp h
      have hone : restoreSlot hook slots x drv
          = if slots drv = hook ∧ x.driverObject = drv then before drv else slots drv := by
        rw [restoreSlot]
        by_cases hdriver : x.driverObject = drv
        · subst hdriver
          by_cases hslot : slots x.driverObject = hook
          · rw [if_pos ⟨hinstalled, hslot⟩, if_pos ⟨hslot, rfl⟩, Function.update_self, horiginal]
          · rw [if_neg fun hc => hslot hc.2, if_neg fun hc => hslot hc.1]
        · have hother : (if slots drv = hook ∧ x.driverObject = drv then before drv
              else slots drv) = slots drv := if_neg fun hc => hdriver hc.2
          rw [hother]
          split
          · exact Function.update_of_ne (Ne.symm hdriver) _ _
          · rfl
      rw [List.foldl_cons, ih hrest, hone]
      simp only [List.exists_mem_cons_iff]
      by_cases hx : slots drv = hook ∧ x.driverObject = drv
      · -- what was put back is not the hook
        have hback : before drv ≠ hook := by rw [← hx.2, ← horiginal]; exact hhook
        rw [if_pos hx, if_neg fun hc => hback hc.1, if_pos ⟨hx.1, .inl hx.2⟩]
      · rw [if_neg hx]
        refine if_congr ⟨fun hc => ⟨hc.1, .inr hc.2⟩, fun hc => ⟨hc.1, hc.2.resolve_left ?_⟩⟩ rfl rfl
        exact fun hdriver => hx ⟨hc.1, hdriver⟩

/-- **Loading and unloading.**  For every set of disks of any number of drivers. -/
theorem hooks_load_unload (hook : Nat) (driverOf : Nat → Nat) (found : UInt32 → Option FoundDisk)
    (slots : Nat → Nat)
    (hfree : ∀ d ∈ scanDisks found, slots (driverOf d.2.deviceObject) ≠ hook) :
    let t := buildDiskAndHookTables hook driverOf found slots
    (t.hookList.map fun h => h.driverObject).Nodup ∧
      (∀ h ∈ t.hookList, h.originalWrite = slots h.driverObject ∧ h.originalWrite ≠ hook ∧
        h.refCount.toNat
          = (scanDisks found).countP fun d => driverOf d.2.deviceObject = h.driverObject) ∧
      (∀ e ∈ t.diskMap, ∃ h, t.hookList[e.hookEntry]? = some h ∧
        h.driverObject = driverOf e.deviceObject) ∧
      (∀ drv, (∀ h ∈ t.hookList, h.driverObject ≠ drv) → t.slots drv = slots drv) ∧
      (∀ majorFunction events address byteOffset length,
        (∃ h ∈ t.hookList, h.driverObject = driverOf address) →
        (hwReadWrite t.hooks majorFunction (afterEvents t.hooks majorFunction t.diskMap events)
          { address, driverObject := driverOf address }
          { majorFunction := irpMjWrite, byteOffset, length }).1 = slots (driverOf address)) ∧
      ∀ (now : Nat → Nat) (diskMap : DiskMap) (drv : Nat),
        (cbtUnload hook { t with slots := now, diskMap := diskMap }).slots drv
          = if now drv = t.slots drv then slots drv else now drv := by
  intro t
  have h : Hooked hook driverOf slots (scanDisks found) t := by
    have hall := hooked_foldl (hooked_unloaded hook driverOf slots) hfree
    rwa [List.nil_append] at hall
  have hfew : (scanDisks found).length ≤ maxDisks := by
    refine (List.length_filterMap_le _ _).trans ?_
    rw [List.length_map, List.length_range]
  refine ⟨h.drivers, fun x hx => ?_, h.disk, h.other, ?_, ?_⟩
  · obtain ⟨horiginal, hhook, -, -, hcount⟩ := h.entry x hx
    refine ⟨horiginal, hhook, ?_⟩
    have hle := (List.countP_le_length
      (p := fun d : UInt32 × FoundDisk => decide (driverOf d.2.deviceObject = x.driverObject))).trans
      hfew
    rw [hcount, UInt32.toNat_ofNat']
    refine Nat.mod_eq_of_lt (hle.trans_lt ?_)
    decide
  · intro majorFunction events address byteOffset length hhooked
    exact h.forwards (h.disk_afterEvents events) hhooked byteOffset length
  · intro now diskMap drv
    have hentries : ∀ x ∈ t.hookList, x.originalWrite = slots x.driverObject ∧
        x.originalWrite ≠ hook ∧ x.hookInstalled = true := fun x hx => by
      obtain ⟨horiginal, hhook, hinstalled, -, -⟩ := h.entry x hx
      exact ⟨horiginal, hhook, hinstalled⟩
    rw [cbtUnload]
    dsimp only
    rw [foldl_restoreSlot hentries]
    by_cases hhooked : ∃ x ∈ t.hookList, x.driverObject = drv
    · obtain ⟨x, hx, rfl⟩ := hhooked
      rw [(h.entry x hx).2.2.2.1]
      exact if_congr (and_iff_left ⟨x, hx, rfl⟩) rfl rfl
    · have hslot : t.slots drv = slots drv :=
        h.other drv fun x hx hdriver => hhooked ⟨x, hx, hdriver⟩
      rw [if_neg fun hc => hhooked hc.2, hslot]
      split
      · next hsame => exact hsame
      · rfl

/-- Disks 0 and 1 of one driver. -/
def sharedDriver (diskNum : UInt32) : Option FoundDisk :=
  if diskNum < 2 then
    some { deviceObject := diskNum.toNat, partitionInfo := some (0, 16777216), allocated := true }
  else none

theorem hooks_load_unload_sharedDriver :
    let t := buildDiskAndHookTables 1 (fun _ => 7) sharedDriver fun _ => 5
    t.slots 7 = 1 ∧ t.hookList.length = 1 ∧
      (∀ h ∈ t.hookList, h.originalWrite = 5 ∧ h.refCount.toNat = 2) ∧
      (cbtUnload 1 t).slots 7 = 5 := by
  intro t
  have hall := hooks_load_unload 1 (fun _ => 7) sharedDriver (fun _ => 5) fun _ _ => by decide
  obtain ⟨-, hentries, -, -, -, hunload⟩ := hall
  have hslot : t.slots 7 = 1 := by decide
  have hcount : ((scanDisks sharedDriver).countP fun _ => 7 = 7) = 2 := by decide
  have hown : ∀ h ∈ t.hookList, h.driverObject = 7 := by decide
  refine ⟨hslot, by decide, fun h hh => ?_, ?_⟩
  · obtain ⟨horiginal, -, hrefCount⟩ := hentries h hh
    refine ⟨horiginal, hrefCount.trans ?_⟩
    rw [hown h hh]
    exact hcount
  · exact (hunload t.slots t.diskMap 7).trans (if_pos rfl)

end Go2Cbt.Driver
