import Go2Cbt.Driver.Write
import Go2Cbt.Lib.Transition

/-!
# Driver — marking over runs

Writes that enter `HwReadWrite` and reset requests, in any order.  A write finds its disk by the
device object, a reset by the number, and each changes that entry of the disk map only
(`getElem?_event_write`, `getElem?_event_reset`).

`marked_iff_written` gives the bits of a disk after every sequence: the blocks that a write to it
has touched since the last reset of it.
-/

namespace Go2Cbt.Driver

open LittleEndian Transition

/-- `LARGE_INTEGER::QuadPart`: the word as a signed number. -/
def quadPart (w : UInt64) : Int := if w.toNat < 2 ^ 63 then w.toNat else (w.toNat : Int) - 2 ^ 64

/-- The driver's sum of two offsets is the sum, when that is an offset again. -/
theorem toNat_add_of_quadPart {a b : UInt64} (hnonneg : 0 ≤ quadPart a + quadPart b)
    (hlt : quadPart a + quadPart b < 2 ^ 63) : ((a + b).toNat : Int) = quadPart a + quadPart b := by
  have ha := a.toNat_lt
  have hb := b.toNat_lt
  rw [UInt64.toNat_add]
  rw [quadPart, quadPart] at hnonneg hlt ⊢
  split at hnonneg <;> split at hnonneg <;> omega

/-- A write that enters `HwReadWrite`, or a reset request. -/
inductive DriverEvent where
  | write (device : DeviceObject) (byteOffset : UInt64) (length : UInt32)
  | reset (req : IoctlRequest)

/-- What an event leaves of the disk map. -/
def event (hookList : List HookEntry) (majorFunction : Nat → UInt8 → Nat) (diskMap : DiskMap) :
    DriverEvent → DiskMap
  | .write device byteOffset length =>
      (hwReadWrite hookList majorFunction diskMap device
        { majorFunction := irpMjWrite, byteOffset, length }).2
  | .reset req => (handleIoctlReset diskMap req).2

/-- The event is a write to the disk of this entry. -/
def DriverEvent.WritesTo (e : DiskMapEntry) : DriverEvent → Prop
  | .write device _ _ => device.address = e.deviceObject
  | .reset _ => False

/-- The event is a reset that finds the `k`-th entry: the first of the number that it gives. -/
def DriverEvent.Resets (diskMap : DiskMap) (k : Nat) : DriverEvent → Prop
  | .write _ _ _ => False
  | .reset req =>
      4 ≤ req.inputBuffer.length ∧
        diskMap.findIdx? (fun e => e.diskNumber = u32 req.inputBuffer 0) = some k

/-- Where a write to the disk starts on it. -/
def DiskMapEntry.diskAbsoluteOffset (e : DiskMapEntry) (byteOffset : UInt64) : Int :=
  quadPart byteOffset + quadPart e.partitionStartingOffset

/-- The event writes to the disk some byte of block `b`. -/
def DriverEvent.Touches (e : DiskMapEntry) (b : Nat) : DriverEvent → Prop
  | .write device byteOffset length =>
      device.address = e.deviceObject ∧
        ∃ x : Int, e.diskAbsoluteOffset byteOffset ≤ x ∧
          x < e.diskAbsoluteOffset byteOffset + length.toNat ∧
          (b : Int) * 2 ^ 20 ≤ x ∧ x < ((b : Int) + 1) * 2 ^ 20
  | .reset _ => False

/-- A write to the disk is not empty and starts at an offset that is not negative and has not
overflowed. -/
def DriverEvent.InRange (e : DiskMapEntry) : DriverEvent → Prop
  | .write device byteOffset length =>
      device.address = e.deviceObject → 0 < length.toNat ∧
        0 ≤ e.diskAbsoluteOffset byteOffset ∧ e.diskAbsoluteOffset byteOffset < 2 ^ 63
  | .reset _ => True

/-- A bitmap as `InitCbtState` leaves it when it succeeds, and as the driver takes for one. -/
def DiskCbtState.Fresh (s : DiskCbtState) : Prop :=
  (∃ old size, initCbtState true old size = (.success, s)) ∧ s.totalBits ≠ 0 ∧
    s.totalBits.toNat < 2 ^ 32

/-! ### Events and the entries of the map -/

theorem getElem?_updateFirst (p : DiskMapEntry → Bool) (f : DiskCbtState → DiskCbtState)
    (diskMap : DiskMap) (k : Nat) :
    (DiskMap.updateFirst p f diskMap)[k]?
      = if diskMap.findIdx? p = some k then
          diskMap[k]?.map fun e => { e with cbtState := f e.cbtState }
        else diskMap[k]? := by
  induction diskMap generalizing k with
  | nil => rfl
  | cons e es ih =>
      rw [DiskMap.updateFirst, List.findIdx?_cons]
      split
      · next hp =>
        cases k with
        | zero => rfl
        | succ k =>
            rw [List.getElem?_cons_succ, List.getElem?_cons_succ, if_neg (by simp)]
      · next hp =>
        cases k with
        | zero => rw [if_neg (by simp)]; rfl
        | succ k =>
            rw [List.getElem?_cons_succ, List.getElem?_cons_succ, ih]
            simp only [Option.map_eq_some_iff, Nat.add_right_cancel_iff, exists_eq_right]

/-- The entry that a search finds. -/
theorem find?_of_findIdx? {p : DiskMapEntry → Bool} {diskMap : DiskMap} {k : Nat}
    (h : diskMap.findIdx? p = some k) : diskMap.find? p = diskMap[k]? := by
  rw [List.find?_eq_bind_findIdx?_getElem?, h, Option.bind_some]

/-- With distinct device objects the entry is the first of its device. -/
theorem findIdx?_deviceObject {diskMap : DiskMap}
    (hdevices : (diskMap.map DiskMapEntry.deviceObject).Nodup) {k : Nat} {e : DiskMapEntry}
    (he : diskMap[k]? = some e) :
    diskMap.findIdx? (fun x => x.deviceObject = e.deviceObject) = some k := by
  obtain ⟨hk, rfl⟩ := List.getElem?_eq_some_iff.mp he
  refine List.findIdx?_eq_some_iff_getElem.mpr ⟨hk, decide_eq_true rfl, fun j hj hsame => ?_⟩
  have hlen : (diskMap.map DiskMapEntry.deviceObject).length = diskMap.length := List.length_map _
  have hne := List.pairwise_iff_getElem.mp hdevices j k (by omega) (by omega) hj
  rw [List.getElem_map, List.getElem_map] at hne
  exact hne (of_decide_eq_true hsame)

section Event

variable {hookList : List HookEntry} {majorFunction : Nat → UInt8 → Nat} {diskMap : DiskMap}
  {k : Nat} {e : DiskMapEntry}

/-- **What the map keeps**: every column that does not read the bitmaps. -/
theorem map_event {κ : Type} {key : DiskMapEntry → κ}
    (hkey : ∀ e s, key { e with cbtState := s } = key e) (ev : DriverEvent) :
    (event hookList majorFunction diskMap ev).map key = diskMap.map key := by
  cases ev with
  | write device byteOffset length =>
      rw [event, hwReadWrite, if_neg (not_not.mpr rfl)]
      split
      · split
        · split <;> rfl
        · rfl
      · exact map_updateFirst hkey diskMap
  | reset req =>
      rw [event, handleIoctlReset]
      split
      · rfl
      · dsimp only
        split
        · rfl
        · split
          · rfl
          · exact map_updateFirst hkey diskMap

/-- A write to the disk. -/
theorem getElem?_event_write (hdevices : (diskMap.map DiskMapEntry.deviceObject).Nodup)
    (he : diskMap[k]? = some e) {device : DeviceObject} (hdevice : device.address = e.deviceObject)
    (byteOffset : UInt64) (length : UInt32) :
    (event hookList majorFunction diskMap (.write device byteOffset length))[k]?
      = some { e with
          cbtState :=
            markBlockChanged e.cbtState (byteOffset + e.partitionStartingOffset) length } := by
  have hidx := findIdx?_deviceObject hdevices he
  have hfind := find?_of_findIdx? hidx
  rw [← hdevice] at hidx hfind
  rw [event, hwReadWrite, if_neg (not_not.mpr rfl), hfind, he]
  dsimp only
  rw [getElem?_updateFirst, if_pos hidx, he, Option.map_some]

/-- A reset that finds the disk. -/
theorem handleIoctlReset_of_resets (he : diskMap[k]? = some e)
    (hlive : ¬ (e.cbtState.buffer = none ∨ e.cbtState.totalBits = 0)) {req : IoctlRequest}
    (hresets : DriverEvent.Resets diskMap k (.reset req)) :
    handleIoctlReset diskMap req
      = (.bare .success,
          DiskMap.updateFirst (fun e => e.diskNumber = u32 req.inputBuffer 0)
            DiskCbtState.rtlClearAllBits diskMap) := by
  have hfind : findDiskMapEntryByNumber diskMap (u32 req.inputBuffer 0) = some e :=
    (find?_of_findIdx? hresets.2).trans he
  rw [handleIoctlReset, if_neg (not_lt.mpr hresets.1)]
  dsimp only
  rw [hfind]
  exact if_neg hlive

theorem getElem?_event_reset (he : diskMap[k]? = some e)
    (hlive : ¬ (e.cbtState.buffer = none ∨ e.cbtState.totalBits = 0)) {req : IoctlRequest}
    (hresets : DriverEvent.Resets diskMap k (.reset req)) :
    (event hookList majorFunction diskMap (.reset req))[k]?
      = some { e with cbtState := e.cbtState.rtlClearAllBits } := by
  rw [event, handleIoctlReset_of_resets he hlive hresets, getElem?_updateFirst, if_pos hresets.2, he,
    Option.map_some]

/-- **Any other event leaves the disk alone.** -/
theorem getElem?_event_of_not (he : diskMap[k]? = some e) {ev : DriverEvent}
    (hwrites : ¬ ev.WritesTo e) (hresets : ¬ ev.Resets diskMap k) :
    (event hookList majorFunction diskMap ev)[k]? = some e := by
  cases ev with
  | write device byteOffset length =>
      rw [event, hwReadWrite, if_neg (not_not.mpr rfl)]
      split
      · split
        · split <;> exact he
        · exact he
      · rw [getElem?_updateFirst, if_neg, he]
        intro hidx
        obtain ⟨hk, hfound, -⟩ := List.findIdx?_eq_some_iff_getElem.mp hidx
        rw [(List.getElem?_eq_some_iff.mp he).2] at hfound
        exact hwrites (of_decide_eq_true hfound).symm
  | reset req =>
      rw [event, handleIoctlReset]
      split
      · exact he
      · next hlen =>
        dsimp only
        split
        · exact he
        · split
          · exact he
          · rw [getElem?_updateFirst, if_neg, he]
            exact fun hidx => hresets ⟨not_lt.mp hlen, hidx⟩

end Event

/-! ### Blocks -/

/-- The blocks that a marking call reaches are those with a byte of the write. -/
theorem reaches_iff {e : DiskMapEntry} {device : DeviceObject} {byteOffset : UInt64}
    {length : UInt32} (hdevice : device.address = e.deviceObject)
    (hrange : DriverEvent.InRange e (.write device byteOffset length)) (total b : Nat) :
    Reaches (byteOffset + e.partitionStartingOffset) length total b ↔
      b < total ∧ DriverEvent.Touches e b (.write device byteOffset length) := by
  obtain ⟨hpos, hnonneg, hlt⟩ := hrange hdevice
  have hoffset := toNat_add_of_quadPart hnonneg hlt
  have hlen := length.toNat_lt
  rw [Reaches, lastByte, DriverEvent.Touches, DiskMapEntry.diskAbsoluteOffset, ← hoffset]
  rw [DiskMapEntry.diskAbsoluteOffset, ← hoffset] at hlt
  generalize (byteOffset + e.partitionStartingOffset).toNat = offset at hlt ⊢
  constructor
  · rintro ⟨hlo, hhi, hb⟩
    refine ⟨hb, hdevice, ((max offset (b * 2 ^ 20) : Nat) : Int), ?_⟩
    omega
  · rintro ⟨hb, -, x, hx⟩
    omega

/-- A fresh bitmap has the dimensions of its disk and no bit set. -/
theorem DiskCbtState.Fresh.dimensioned {s : DiskCbtState} (h : s.Fresh) :
    s.Dimensioned ∧ ∀ b, s.marked b = false := by
  obtain ⟨⟨old, size, hinit⟩, hne, hlt⟩ := h
  have htotal : s.totalBits = (size + cbtBlockSize - 1) / cbtBlockSize := by
    rw [initCbtState] at hinit
    split at hinit
    · cases hinit
    · rw [if_pos rfl] at hinit
      rw [← (Prod.mk.inj hinit).2]
  -- a sum that wraps would give no block at all
  have hcount : (size.toNat + 2 ^ 20 - 1) / 2 ^ 20 < 2 ^ 32 := by
    have hsize := size.toNat_lt
    have hbits : s.totalBits.toNat
        = (2 ^ 64 - 1 + (size.toNat + 2 ^ 20) % 2 ^ 64) % 2 ^ 64 / 2 ^ 20 := by
      rw [htotal, UInt64.toNat_div, UInt64.toNat_sub, UInt64.toNat_add, toNat_cbtBlockSize,
        UInt64.toNat_one]
    have hpos : s.totalBits.toNat ≠ 0 := fun hzero => hne (UInt64.toNat_inj.mp hzero)
    omega
  obtain ⟨d, rfl, -, hclear⟩ := initCbtState_spec hcount hinit
  exact ⟨d.dimensioned, hclear⟩

/-! ### Runs -/

/-- The bitmap of the `k`-th disk after `events`: the blocks touched since the last reset. -/
structure MarkedBy (diskMap : DiskMap) (k : Nat) (e : DiskMapEntry) (events : List DriverEvent)
    (s : DiskCbtState) : Prop where
  dimensioned : s.Dimensioned
  totalBits : s.totalBits = e.cbtState.totalBits
  marked : ∀ b, s.marked b = true ↔ b < e.cbtState.totalBits.toNat ∧
    Since (DriverEvent.Touches e b) (DriverEvent.Resets diskMap k) events

namespace MarkedBy

variable {diskMap : DiskMap} {k : Nat} {e : DiskMapEntry} {events : List DriverEvent}
  {s : DiskCbtState}

theorem live (h : MarkedBy diskMap k e events s) : ¬ (s.buffer = none ∨ s.totalBits = 0) :=
  TrackedDisk.live ⟨s, h.dimensioned⟩

/-- One more write to the disk. -/
theorem write (h : MarkedBy diskMap k e events s) {device : DeviceObject} {byteOffset : UInt64}
    {length : UInt32} (hdevice : device.address = e.deviceObject)
    (hrange : DriverEvent.InRange e (.write device byteOffset length)) :
    MarkedBy diskMap k e (events ++ [.write device byteOffset length])
      (markBlockChanged s (byteOffset + e.partitionStartingOffset) length) := by
  obtain ⟨hdim, htotal, hmarked⟩ :=
    markBlockChanged_spec h.dimensioned (byteOffset + e.partitionStartingOffset) length
  refine ⟨hdim, htotal.trans h.totalBits, fun b => ?_⟩
  have hclears : ¬ DriverEvent.Resets diskMap k (.write device byteOffset length) := id
  rw [hmarked, Bool.or_eq_true, decide_eq_true_iff, h.totalBits, h.marked,
    reaches_iff hdevice hrange, since_append_singleton, and_iff_right hclears, ← and_or_left,
    or_comm]

/-- A reset of the disk. -/
theorem reset (h : MarkedBy diskMap k e events s) {req : IoctlRequest}
    (hresets : DriverEvent.Resets diskMap k (.reset req)) :
    MarkedBy diskMap k e (events ++ [.reset req]) s.rtlClearAllBits := by
  obtain ⟨hdim, hclear⟩ := rtlClearAllBits_spec h.dimensioned
  refine ⟨hdim, h.totalBits, fun b => ?_⟩
  rw [hclear, since_append_singleton]
  refine iff_of_false Bool.false_ne_true ?_
  rintro ⟨-, htouch | ⟨hnot, -⟩⟩
  · exact htouch
  · exact hnot hresets

/-- Anything else. -/
theorem other (h : MarkedBy diskMap k e events s) {ev : DriverEvent} (hwrites : ¬ ev.WritesTo e)
    (hresets : ¬ ev.Resets diskMap k) : MarkedBy diskMap k e (events ++ [ev]) s := by
  refine ⟨h.dimensioned, h.totalBits, fun b => ?_⟩
  have htouches : ¬ ev.Touches e b := by
    cases ev with
    | write device byteOffset length => exact fun htouch => hwrites htouch.1
    | reset req => exact id
  rw [h.marked, since_append_singleton, or_iff_right htouches, and_iff_right hresets]

end MarkedBy

/-- Which resets find a disk is in the numbers. -/
theorem resets_congr {diskMap diskMap' : DiskMap}
    (h : diskMap.map DiskMapEntry.diskNumber = diskMap'.map DiskMapEntry.diskNumber) (k : Nat)
    (ev : DriverEvent) : ev.Resets diskMap k ↔ ev.Resets diskMap' k := by
  have hfind : ∀ (m : DiskMap) (n : UInt32), m.findIdx? (fun e => e.diskNumber = n)
      = (m.map DiskMapEntry.diskNumber).findIdx? fun x => decide (x = n) := fun m n => by
    rw [List.findIdx?_map]
    rfl
  cases ev with
  | write device byteOffset length => exact Iff.rfl
  | reset req => rw [DriverEvent.Resets, DriverEvent.Resets, hfind, hfind, h]

section Run

variable (hookList : List HookEntry) (majorFunction : Nat → UInt8 → Nat) (diskMap : DiskMap)

/-- The disk map after a run. -/
abbrev afterEvents (events : List DriverEvent) : DiskMap :=
  events.foldl (event hookList majorFunction) diskMap

theorem map_afterEvents {κ : Type} {key : DiskMapEntry → κ}
    (hkey : ∀ e s, key { e with cbtState := s } = key e) (events : List DriverEvent) :
    (afterEvents hookList majorFunction diskMap events).map key = diskMap.map key :=
  foldl_preserves (P := fun m : DiskMap => m.map key = diskMap.map key)
    (fun _ ev hm => (map_event hkey ev).trans hm) rfl events

/-- **The invariant of a run.** -/
theorem markedBy_afterEvents (hdevices : (diskMap.map DiskMapEntry.deviceObject).Nodup) {k : Nat}
    {e : DiskMapEntry} (he : diskMap[k]? = some e) (hfresh : e.cbtState.Fresh)
    {events : List DriverEvent} (hrange : ∀ ev ∈ events, ev.InRange e) :
    ∃ s, (afterEvents hookList majorFunction diskMap events)[k]? = some { e with cbtState := s } ∧
      MarkedBy diskMap k e events s := by
  induction events using List.reverseRecOn with
  | nil =>
      obtain ⟨hdim, hclear⟩ := hfresh.dimensioned
      refine ⟨e.cbtState, he, hdim, rfl, fun b => ?_⟩
      rw [hclear]
      exact iff_of_false Bool.false_ne_true fun h => not_since_nil _ _ h.2
  | append_singleton events ev ih =>
      obtain ⟨s, hget, hmarked⟩ := ih fun ev' hev' => hrange ev' (List.mem_append_left _ hev')
      have hev := hrange ev (List.mem_append_right _ (List.mem_singleton_self ev))
      have hcolumn : (afterEvents hookList majorFunction diskMap events).map
          DiskMapEntry.deviceObject = diskMap.map DiskMapEntry.deviceObject :=
        map_afterEvents hookList majorFunction diskMap (fun _ _ => rfl) events
      have hnumbers : (afterEvents hookList majorFunction diskMap events).map
          DiskMapEntry.diskNumber = diskMap.map DiskMapEntry.diskNumber :=
        map_afterEvents hookList majorFunction diskMap (fun _ _ => rfl) events
      rw [afterEvents, List.foldl_append, List.foldl_cons, List.foldl_nil]
      by_cases hwrites : ev.WritesTo e
      · cases ev with
        | write device byteOffset length =>
            exact ⟨_, getElem?_event_write (hcolumn ▸ hdevices) hget hwrites byteOffset length,
              hmarked.write hwrites hev⟩
        | reset req => exact hwrites.elim
      · by_cases hresets : ev.Resets diskMap k
        · cases ev with
          | write device byteOffset length => exact hresets.elim
          | reset req =>
              have hfound := (resets_congr hnumbers k (.reset req)).mpr hresets
              exact ⟨_, getElem?_event_reset hget hmarked.live hfound, hmarked.reset hresets⟩
        · have hmissed := fun h => hresets ((resets_congr hnumbers k ev).mp h)
          exact ⟨s, getElem?_event_of_not hget hwrites hmissed, hmarked.other hwrites hresets⟩

end Run

/-- **What the driver marks.**  After every sequence of writes and resets, the set bits of a disk
are the blocks on it that a write to it has touched since the last reset of it.  A reset that
finds the disk succeeds, and every event that is neither a write to it nor a reset of it leaves
its entry as it is. -/
theorem marked_iff_written (hookList : List HookEntry) (majorFunction : Nat → UInt8 → Nat)
    (diskMap : DiskMap) (hdevices : (diskMap.map DiskMapEntry.deviceObject).Nodup) (k : Nat)
    (e : DiskMapEntry) (he : diskMap[k]? = some e) (hfresh : e.cbtState.Fresh)
    (events : List DriverEvent) (hrange : ∀ ev ∈ events, ev.InRange e) :
    ∃ e', (afterEvents hookList majorFunction diskMap events)[k]? = some e' ∧
      (∀ b, e'.cbtState.marked b = true ↔ b < e.cbtState.totalBits.toNat ∧
        Since (DriverEvent.Touches e b) (DriverEvent.Resets diskMap k) events) ∧
      (∀ req, DriverEvent.Resets diskMap k (.reset req) →
        (handleIoctlReset (afterEvents hookList majorFunction diskMap events) req).1.status
          = .success) ∧
      ∀ ev : DriverEvent, ¬ ev.WritesTo e → ¬ ev.Resets diskMap k →
        (event hookList majorFunction (afterEvents hookList majorFunction diskMap events) ev)[k]?
          = some e' := by
  obtain ⟨s, hget, hmarked⟩ :=
    markedBy_afterEvents hookList majorFunction diskMap hdevices he hfresh hrange
  have hnumbers : (afterEvents hookList majorFunction diskMap events).map
      DiskMapEntry.diskNumber = diskMap.map DiskMapEntry.diskNumber :=
    map_afterEvents hookList majorFunction diskMap (fun _ _ => rfl) events
  refine ⟨_, hget, hmarked.marked, fun req hresets => ?_, fun ev hwrites hresets => ?_⟩
  · have hfound := (resets_congr hnumbers k (.reset req)).mpr hresets
    rw [handleIoctlReset_of_resets hget hmarked.live hfound]
    rfl
  · exact getElem?_event_of_not hget hwrites fun h => hresets ((resets_congr hnumbers k ev).mp h)

/-- A disk of two blocks. -/
def twoBlockDisk : DiskMap :=
  [{ deviceObject := 10
     hookEntry := 0
     diskNumber := 0
     partitionStartingOffset := 0
     cbtState := (initCbtState true .zero 2097152).2 }]

/-- One byte is written, the first one of the second block, and disk 1 is reset. -/
def oneByteEvents : List DriverEvent :=
  [.write { address := 10, driverObject := 1 } 1048576 1,
    .reset (.forDisk ioctlResetCbtData 1 0)]

theorem marked_iff_written_oneByte :
    ∃ e, (afterEvents [] (fun _ _ => 0) twoBlockDisk oneByteEvents)[0]? = some e ∧
      e.cbtState.marked 1 = true := by
  have hfresh : (initCbtState true .zero 2097152).2.Fresh :=
    ⟨⟨.zero, 2097152, rfl⟩, by decide, by decide⟩
  obtain ⟨e, hget, hmarked, -, -⟩ := marked_iff_written [] (fun _ _ => 0) twoBlockDisk
    (by decide) 0 _ rfl hfresh oneByteEvents (List.forall_mem_cons.mpr
      ⟨fun _ => by decide, List.forall_mem_singleton.mpr trivial⟩)
  refine ⟨e, hget, (hmarked 1).mpr ⟨by decide, [], _, _, rfl, ⟨rfl, 1048576, by decide⟩, ?_⟩⟩
  exact List.forall_mem_singleton.mpr fun hresets => absurd hresets.2 (by decide)

end Go2Cbt.Driver
