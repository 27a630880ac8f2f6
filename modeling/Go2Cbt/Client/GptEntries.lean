import Go2Cbt.Client.DiskParser

/-!
# Client — what is read of a GPT entry

The loop of `ParseGPT` looks at entry `i` through a pointer into the vector, at a product of 32
bits.  Of an entry whose type is zero it reads the type; of another all fields, and the name as a
string, which is as long as its first zero says.  Behind the vector lies whatever memory does.

`gptEntries_inBounds_iff` says for which headers and tables every entry is read from its own bytes.
That the vector is allocated is taken for granted.
-/

namespace Go2Cbt.Disk

open LittleEndian (field decode)

/-! ### The bytes of an entry -/

/-- Unit `k` of the string at `name`. -/
def unitAt (memory : Image) (name k : Nat) : UInt16 :=
  UInt16.ofNat (decode (memory.slice (name + 2 * k) 2))

/-- `x` is read for the string at `name`: its units as far as the first zero. -/
def ReadsString (memory : Image) (name x : Nat) : Prop :=
  ∃ k, (∀ j < k, unitAt memory name j ≠ 0) ∧ name + 2 * k ≤ x ∧ x < name + 2 * (k + 1)

/-- The entry at `start` is not skipped. -/
def Used (memory : Image) (start : Nat) : Prop := guid (memory.slice start 16) 0 ≠ .zero

/-- `x` is read for the entry at `start`. -/
inductive ReadsEntry (memory : Image) (start x : Nat) : Prop where
  | type (lo : start ≤ x) (hi : x < start + 16)
  | fields (used : Used memory start) (lo : start + 16 ≤ x) (hi : x < start + 56)
  | name (used : Used memory start) (reads : ReadsString memory (start + 56) x)

section

variable {memory : Image} {name start : Nat}

/-- A string stays below `bound` when it ends there. -/
theorem forall_readsString_iff {bound : Nat} :
    (∀ x, ReadsString memory name x → x < bound) ↔
      ∃ k, unitAt memory name k = 0 ∧ name + 2 * (k + 1) ≤ bound := by
  constructor
  · intro hall
    have hends : ∃ k, unitAt memory name k = 0 := by
      by_contra hnever
      rw [not_exists] at hnever
      have hlt := hall (name + 2 * bound) ⟨bound, fun j _ => hnever j, le_rfl, by omega⟩
      omega
    -- the last byte of the first zero
    classical
    refine ⟨Nat.find hends, Nat.find_spec hends, ?_⟩
    have hlt := hall (name + 2 * Nat.find hends + 1)
      ⟨Nat.find hends, fun j hj => Nat.find_min hends hj, Nat.le_succ _, by omega⟩
    omega
  · rintro ⟨k, hzero, hle⟩ x ⟨k', hunits, -, hx⟩
    have hk : k' ≤ k := by
      by_contra hlt
      exact hunits k (not_le.mp hlt) hzero
    omega

theorem ReadsEntry.le {x : Nat} (h : ReadsEntry memory start x) : start ≤ x := by
  cases h with
  | type lo hi => exact lo
  | fields used lo hi => exact (Nat.le_add_right _ _).trans lo
  | name used reads =>
      obtain ⟨k, -, hlo, -⟩ := reads
      omega

/-- An entry stays below `bound` when its type does and, if it is used, its name ends there. -/
theorem forall_readsEntry_iff {bound : Nat} :
    (∀ x, ReadsEntry memory start x → x < bound) ↔
      start + 16 ≤ bound ∧ (Used memory start →
        ∃ k, unitAt memory (start + 56) k = 0 ∧ start + 56 + 2 * (k + 1) ≤ bound) := by
  constructor
  · intro hall
    refine ⟨?_, fun hused => forall_readsString_iff.mp fun x hx => hall x (.name hused hx)⟩
    exact hall (start + 15) (.type (Nat.le_add_right _ _) (by omega))
  · rintro ⟨htype, hname⟩ x hx
    cases hx with
    | type lo hi => exact hi.trans_le htype
    | fields used lo hi =>
        obtain ⟨k, -, hle⟩ := hname used
        omega
    | name used reads => exact forall_readsString_iff.mpr (hname used) x reads

end

/-! ### The table -/

theorem guid_field (bs : Bytes) (off : Nat) : guid (field bs off 16) 0 = guid bs off := by
  rw [guid, guid, field, LittleEndian.u32_window (by decide), LittleEndian.field_window (by decide),
    LittleEndian.field_window (by decide), LittleEndian.field_window (by decide)]
  rfl

/-- Memory that begins with a vector. -/
theorem slice_vector (behind : Image) {bs : Bytes} {a n : Nat} (h : a + n ≤ bs.length) :
    (behind.write 0 bs).slice a n = field bs a n := by
  rw [← Image.slice_write_within behind h, Nat.zero_add]

theorem length_read {disk : PhysicalDisk} {offset : UInt64} {size : UInt32} {data : Bytes}
    (h : disk.read offset size = some data) : data.length = size.toNat := by
  rw [(read_eq_some h).1, Image.length_slice]

/-- What `ParseGPT` has read when it comes to the entries: the header and the table. -/
structure GPTTable where
  header : GPTHeader
  table : Bytes
  length_table : table.length = header.entryArrayBytes.toUInt32.toNat

/-- The read of the table. -/
def PhysicalDisk.readTable (disk : PhysicalDisk) (sectorSize : UInt32) (header : GPTHeader) :
    Option GPTTable :=
  match h : disk.read (header.partitionEntryLBA * sectorSize.toUInt64)
      header.entryArrayBytes.toUInt32 with
  | none => none
  | some table => some ⟨header, table, length_read h⟩

/-- `ParseGPT`, as far as the entries; it returns false up to there or not at all. -/
def PhysicalDisk.gptTable (disk : PhysicalDisk) (sectorSize : UInt32) : Option GPTTable := do
  let data ← disk.read sectorSize.toUInt64 sectorSize
  let header := gptHeader (sectorBuffer data)
  guard (header.signature = ascii "EFI PART")
  disk.readTable sectorSize header

namespace GPTTable

/-- `NumberOfPartitionEntries`. -/
def count (t : GPTTable) : Nat := t.header.numberOfPartitionEntries.toNat

/-- `SizeOfPartitionEntry`. -/
def entrySize (t : GPTTable) : Nat := t.header.sizeOfPartitionEntry.toNat

/-- The vector `entries`. -/
def entries (t : GPTTable) : Bytes :=
  t.table ++ List.replicate (t.header.entryArrayBytes.toNat - t.table.length) 0

/-- The memory from `entries.data()` on. -/
def memory (t : GPTTable) (behind : Image) : Image := behind.write 0 t.entries

/-- Where entry `i` is looked for. -/
def start (t : GPTTable) (i : Nat) : Nat := (UInt32.ofNat i * t.header.sizeOfPartitionEntry).toNat

/-- **Entry `i` is read from its own bytes**: it is looked for at its place, and all that is read
for it lies in it, in the 128 bytes from its place and in what the disk has given. -/
structure InBounds (t : GPTTable) (behind : Image) (i : Nat) : Prop where
  place : t.start i = i * t.entrySize
  own : ∀ x, ReadsEntry (t.memory behind) (t.start i) x →
    i * t.entrySize ≤ x ∧ x < i * t.entrySize + min 128 t.entrySize
  given : ∀ x, ReadsEntry (t.memory behind) (t.start i) x → x < t.table.length

/-- The table is as large as 32 bits can say, an entry has room for its type, and a used entry for a
name that ends within 36 characters. -/
structure Sound (t : GPTTable) : Prop where
  size : t.count * t.entrySize < 2 ^ 32
  type : 16 ≤ t.entrySize
  name : ∀ i < t.count, guid t.table (i * t.entrySize) ≠ .zero →
    ∃ k < 36, UInt16.ofNat (decode (field t.table (i * t.entrySize + 56 + 2 * k) 2)) = 0 ∧
      56 + 2 * (k + 1) ≤ t.entrySize

variable {t : GPTTable}

instance : Decidable t.Sound :=
  decidable_of_iff (_ ∧ _ ∧ _) ⟨fun h => ⟨h.1, h.2.1, h.2.2⟩, fun h => ⟨h.size, h.type, h.name⟩⟩

theorem toNat_entryArrayBytes (t : GPTTable) :
    t.header.entryArrayBytes.toNat = t.count * t.entrySize := by
  have hlt : t.count * t.entrySize < 2 ^ 32 * 2 ^ 32 :=
    Nat.mul_lt_mul'' (UInt32.toNat_lt _) (UInt32.toNat_lt _)
  rw [GPTHeader.entryArrayBytes, UInt64.toNat_mul, UInt32.toNat_toUInt64, UInt32.toNat_toUInt64]
  exact Nat.mod_eq_of_lt hlt

/-- What is read of the table has 32 bits. -/
theorem length_table_eq (t : GPTTable) : t.table.length = t.count * t.entrySize % 2 ^ 32 := by
  rw [t.length_table, UInt64.toNat_toUInt32, toNat_entryArrayBytes]

/-- The vector has the whole of it. -/
theorem length_entries (t : GPTTable) : t.entries.length = t.count * t.entrySize := by
  have hle : t.table.length ≤ t.count * t.entrySize := by
    rw [length_table_eq]
    exact Nat.mod_le _ _
  rw [entries, List.length_append, List.length_replicate, toNat_entryArrayBytes]
  exact Nat.add_sub_cancel' hle

theorem start_eq {i : Nat} (hi : i < t.count) : t.start i = i * t.entrySize % 2 ^ 32 := by
  have hlt : i < 2 ^ 32 := hi.trans (UInt32.toNat_lt _)
  rw [start, UInt32.toNat_mul, UInt32.toNat_ofNat', Nat.mod_eq_of_lt hlt]
  rfl

/-- Where the disk has given them, the bytes in memory are those of the table. -/
theorem slice_memory (behind : Image) {a n : Nat} (h : a + n ≤ t.table.length) :
    (t.memory behind).slice a n = field t.table a n := by
  have hle : a + n ≤ t.entries.length := by
    rw [entries, List.length_append]
    exact h.trans (Nat.le_add_right _ _)
  rw [memory, slice_vector behind hle, entries, LittleEndian.field_append_left h]

/-- An entry of a table that 32 bits can measure. -/
theorem inBounds_iff (hsize : t.count * t.entrySize < 2 ^ 32) (behind : Image) {i : Nat}
    (hi : i < t.count) :
    t.InBounds behind i ↔ 16 ≤ t.entrySize ∧ (guid t.table (i * t.entrySize) ≠ .zero →
      ∃ k < 36, UInt16.ofNat (decode (field t.table (i * t.entrySize + 56 + 2 * k) 2)) = 0 ∧
        56 + 2 * (k + 1) ≤ t.entrySize) := by
  have hnext : i * t.entrySize + t.entrySize ≤ t.count * t.entrySize := by
    rw [← Nat.succ_mul]
    exact Nat.mul_le_mul_right _ hi
  have hlength : t.table.length = t.count * t.entrySize := by
    rw [length_table_eq, Nat.mod_eq_of_lt hsize]
  have hstart : t.start i = i * t.entrySize := by
    rw [start_eq hi, Nat.mod_eq_of_lt (by omega)]
  have hbounds : t.InBounds behind i ↔ ∀ x, ReadsEntry (t.memory behind) (i * t.entrySize) x →
      x < i * t.entrySize + min 128 t.entrySize := by
    constructor
    · intro h x hx
      rw [← hstart] at hx
      exact (h.own x hx).2
    · intro h
      refine ⟨hstart, fun x hx => ?_, fun x hx => ?_⟩
      · rw [hstart] at hx
        exact ⟨hx.le, h x hx⟩
      · rw [hstart] at hx
        have hlt := h x hx
        omega
  rw [hbounds, forall_readsEntry_iff]
  generalize i * t.entrySize = place at hnext
  have htype : place + 16 ≤ place + min 128 t.entrySize ↔ 16 ≤ t.entrySize := by omega
  rw [htype]
  refine and_congr_right fun hroom => imp_congr ?_ ⟨?_, ?_⟩
  · rw [Used, slice_memory behind (by omega), guid_field]
  · rintro ⟨k, hzero, hle⟩
    refine ⟨k, by omega, ?_, by omega⟩
    rw [unitAt, slice_memory behind (by omega)] at hzero
    exact hzero
  · rintro ⟨k, hk, hzero, hle⟩
    refine ⟨k, ?_, by omega⟩
    rw [unitAt, slice_memory behind (by omega)]
    exact hzero

/-- A table of 2^32 bytes or more has an entry that is read from elsewhere. -/
theorem not_inBounds_last (hsize : 2 ^ 32 ≤ t.count * t.entrySize) (behind : Image) :
    ∃ i < t.count, ¬ t.InBounds behind i := by
  have hsmall : t.entrySize < 2 ^ 32 := UInt32.toNat_lt _
  obtain ⟨last, hlast⟩ : ∃ last, t.count = last + 1 := by
    refine Nat.exists_eq_succ_of_ne_zero fun hzero => ?_
    rw [hzero, Nat.zero_mul] at hsize
    exact absurd hsize (by decide)
  have hi : last < t.count := hlast ▸ Nat.lt_succ_self last
  refine ⟨last, hi, fun h => ?_⟩
  have hplace := h.place
  rw [start_eq hi] at hplace
  -- the last entry begins below 2^32, so that its type is behind what was read
  have hbegins : last * t.entrySize < 2 ^ 32 := by
    rw [← hplace]
    exact Nat.mod_lt _ (by decide)
  have htype := h.given (t.start last) (.type le_rfl (by omega))
  rw [start_eq hi, hplace, length_table_eq, hlast, Nat.succ_mul] at htype
  rw [hlast, Nat.succ_mul] at hsize
  omega

/-- The entries of a table. -/
theorem forall_inBounds_iff (t : GPTTable) (behind : Image) :
    (∀ i < t.count, t.InBounds behind i) ↔ t.count = 0 ∨ t.Sound := by
  rcases Nat.eq_zero_or_pos t.count with hnone | hpos
  · exact iff_of_true (fun i hi => absurd hi (by omega)) (.inl hnone)
  rw [or_iff_right hpos.ne']
  rcases lt_or_ge (t.count * t.entrySize) (2 ^ 32) with hsize | hsize
  · constructor
    · intro hall
      have hentry := fun i hi => (inBounds_iff hsize behind hi).mp (hall i hi)
      exact ⟨hsize, (hentry 0 hpos).1, fun i hi => (hentry i hi).2⟩
    · intro h i hi
      exact (inBounds_iff hsize behind hi).mpr ⟨h.type, h.name i hi⟩
  · refine iff_of_false (fun hall => ?_) fun h => hsize.not_gt h.size
    obtain ⟨i, hi, hout⟩ := not_inBounds_last hsize behind
    exact hout (hall i hi)

end GPTTable

/-! ### The decoder -/

/-- A string has a value when the bytes end after a zero of it. -/
theorem isSome_wideString_iff (bs : Bytes) :
    (wideString bs).isSome ↔
      ∃ k, UInt16.ofNat (decode (field bs (2 * k) 2)) = 0 ∧ 2 * (k + 1) ≤ bs.length := by
  fun_induction wideString bs with
  | case1 lo hi rest unit hzero => exact iff_of_true rfl ⟨0, hzero, by simp⟩
  | case2 lo hi rest unit hne ih =>
      rw [Option.isSome_map, ih]
      have hshift : ∀ k, field (lo :: hi :: rest) (2 * (k + 1)) 2 = field rest (2 * k) 2 :=
        fun k => rfl
      have hlength : (lo :: hi :: rest).length = rest.length + 2 := rfl
      rw [hlength]
      constructor
      · rintro ⟨k, hzero, hle⟩
        exact ⟨k + 1, by rw [hshift, hzero], by omega⟩
      · rintro ⟨k, hzero, hle⟩
        cases k with
        | zero => exact absurd hzero hne
        | succ k =>
            rw [hshift] at hzero
            exact ⟨k, hzero, by omega⟩
  | case3 bs hshort =>
      refine iff_of_false (by simp) ?_
      rintro ⟨k, -, hle⟩
      cases bs with
      | nil => simp at hle
      | cons lo bs =>
          cases bs with
          | nil =>
              rw [List.length_singleton] at hle
              omega
          | cons hi rest => exact hshort lo hi rest rfl

/-- An entry has a value when its name ends in the table. -/
theorem isSome_gptEntry_iff (entries : Bytes) (start : Nat) :
    (gptEntry entries start).isSome ↔
      ∃ k, UInt16.ofNat (decode (field entries (start + 56 + 2 * k) 2)) = 0 ∧
        start + 56 + 2 * (k + 1) ≤ entries.length := by
  rw [gptEntry]
  split
  · next hshort =>
      refine iff_of_false (by simp) ?_
      rintro ⟨k, -, hle⟩
      omega
  · rw [Option.isSome_map, isSome_wideString_iff]
    refine exists_congr fun k => ?_
    rw [field, List.drop_drop, List.length_drop]
    exact and_congr Iff.rfl (by omega)

/-- **The loop is defined as long as it reads the vector**, whatever memory lies behind it. -/
theorem isSome_gptPartitions_iff (disk : PhysicalDisk) (sectorSize entrySize : UInt32)
    (entries : Bytes) (behind : Image) (is : List Nat) :
    (gptPartitions disk sectorSize entrySize entries is).isSome ↔
      ∀ i ∈ is, ∀ x, ReadsEntry (behind.write 0 entries) (UInt32.ofNat i * entrySize).toNat x →
        x < entries.length := by
  induction is with
  | nil => exact iff_of_true rfl fun i hi => by cases hi
  | cons i is ih =>
      rw [List.forall_mem_cons, ← ih, forall_readsEntry_iff, gptPartitions]
      generalize (UInt32.ofNat i * entrySize).toNat = start
      by_cases htype : start + 16 ≤ entries.length
      · have hused : Used (behind.write 0 entries) start ↔ guid entries start ≠ .zero := by
          rw [Used, slice_vector behind htype, guid_field]
        have hname : (∃ k, unitAt (behind.write 0 entries) (start + 56) k = 0 ∧
            start + 56 + 2 * (k + 1) ≤ entries.length) ↔ (gptEntry entries start).isSome := by
          rw [isSome_gptEntry_iff]
          refine exists_congr fun k => and_congr_left fun hle => ?_
          rw [unitAt, slice_vector behind (by omega)]
        rw [hused, hname]
        by_cases hskip : guid entries start = .zero
        · simp [htype, hskip]
        · cases gptEntry entries start with
          | none => simp [htype, hskip]
          | some e =>
              cases gptPartitions disk sectorSize entrySize entries is <;> simp [htype, hskip]
      · simp [htype, guard]

theorem readTable_eq_some_iff {disk : PhysicalDisk} {sectorSize : UInt32} {header : GPTHeader}
    {t : GPTTable} :
    disk.readTable sectorSize header = some t ↔ t.header = header ∧
      disk.read (header.partitionEntryLBA * sectorSize.toUInt64) header.entryArrayBytes.toUInt32
        = some t.table := by
  unfold PhysicalDisk.readTable
  split
  · next hread =>
      rw [hread]
      exact iff_of_false (by simp) (by simp)
  · next table hread =>
      constructor
      · intro h
        obtain rfl := Option.some.inj h
        exact ⟨rfl, hread⟩
      · rintro ⟨rfl, htable⟩
        obtain rfl := Option.some.inj (hread.symm.trans htable)
        rfl

/-- A parse has a layout when it returns true and has read the vector only. -/
theorem isSome_parseGPT_iff (sort : List PartitionInfo → List PartitionInfo) (disk : PhysicalDisk)
    (layout : DiskLayout) (behind : Image) :
    (parseGPT sort disk layout).isSome ↔ ∃ t ∈ disk.gptTable layout.disk.sectorSize,
      ∀ i < t.count, ∀ x, ReadsEntry (t.memory behind) (t.start i) x → x < t.entries.length := by
  simp only [Option.isSome_iff_exists, Option.mem_def, parseGPT, PhysicalDisk.gptTable,
    Option.bind_eq_bind, Option.bind_eq_some_iff, Option.guard_eq_some', readTable_eq_some_iff]
  constructor
  · rintro ⟨layout', data, hdata, -, hsignature, table, htable, partitions, hpartitions, -⟩
    refine ⟨⟨_, table, length_read htable⟩, ⟨data, hdata, (), hsignature, rfl, htable⟩, ?_⟩
    have hall := (isSome_gptPartitions_iff disk _ _ _ behind _).mp (Option.isSome_of_mem hpartitions)
    exact fun i hi => hall i (List.mem_range.mpr hi)
  · rintro ⟨⟨header, table, hlength⟩, ⟨data, hdata, -, hsignature, hheader, htable⟩, hall⟩
    obtain rfl := hheader
    obtain ⟨partitions, hpartitions⟩ := Option.isSome_iff_exists.mp
      ((isSome_gptPartitions_iff disk layout.disk.sectorSize _ _ behind _).mpr
        fun i hi => hall i (List.mem_range.mp hi))
    exact ⟨_, data, hdata, (), hsignature, table, htable, partitions, hpartitions, rfl⟩

/-- A sound table is parsed. -/
theorem GPTTable.Sound.isSome_parseGPT (sort : List PartitionInfo → List PartitionInfo)
    {disk : PhysicalDisk} {layout : DiskLayout} {t : GPTTable} (h : t.Sound)
    (ht : t ∈ disk.gptTable layout.disk.sectorSize) : (parseGPT sort disk layout).isSome := by
  refine (isSome_parseGPT_iff sort disk layout fun _ => 0).mpr ⟨t, ht, fun i hi x hx => ?_⟩
  have hin := (t.forall_inBounds_iff fun _ => 0).mpr (.inr h) i hi
  refine (hin.given x hx).trans_le ?_
  rw [GPTTable.entries, List.length_append]
  exact Nat.le_add_right _ _

/-- **When no entry is read from elsewhere**: `ParseGPT` returns false, or the table has no entries,
or it is sound. -/
theorem gptEntries_inBounds_iff (disk : PhysicalDisk) (sectorSize : UInt32) (behind : Image) :
    (∀ t ∈ disk.gptTable sectorSize, ∀ i < t.count, t.InBounds behind i) ↔
      ∀ t ∈ disk.gptTable sectorSize, t.count = 0 ∨ t.Sound :=
  forall₂_congr fun t _ => t.forall_inBounds_iff behind

/-- The disk of one partition, with a name of 36 characters. -/
def fullNameDisk : PhysicalDisk :=
  { gptDisk with bytes := fun x => if 1080 ≤ x ∧ x < 1152 then 0x41 else gptDisk.bytes x }

/-- Behind the name, at the end of the vector, a 37th character is read. -/
theorem fullName_read_past_entry :
    ¬ ∀ t ∈ fullNameDisk.gptTable 512, ∀ i < t.count, t.InBounds (fun _ => 0) i := by
  intro h
  have hsound : ∀ t ∈ fullNameDisk.gptTable 512, t.count = 0 ∨ t.Sound :=
    fun t ht => (t.forall_inBounds_iff _).mp (h t ht)
  revert hsound
  decide +kernel

end Go2Cbt.Disk
