import Mathlib.Order.Lattice
import Mathlib.Data.List.Basic

/-!
# Lib — finite maps in key order

A map is its entries, strictly ascending in the key, as an ordered dictionary iterates them.
`insert` replaces or adds one entry and `modify` changes the value under a key that is there.
-/

/-- A finite map, its entries in ascending key order. -/
structure SortedMap (κ ν : Type) [LinearOrder κ] where
  entries : List (κ × ν)
  sorted : entries.Pairwise fun a b => a.1 < b.1

namespace SortedMap

variable {κ ν : Type} [LinearOrder κ]

instance [DecidableEq ν] : DecidableEq (SortedMap κ ν) := fun a b =>
  decidable_of_iff (a.entries = b.entries) ⟨fun h => by cases a; cases b; cases h; rfl,
    fun h => h ▸ rfl⟩

/-- The empty map. -/
def empty : SortedMap κ ν := ⟨[], .nil⟩

/-- The value under a key. -/
def find? (m : SortedMap κ ν) (k : κ) : Option ν :=
  (m.entries.find? fun e => e.1 = k).map Prod.snd

/-- The number of entries. -/
def size (m : SortedMap κ ν) : Nat := m.entries.length

/-- `insert` on the entries. -/
def insertEntries (k : κ) (v : ν) : List (κ × ν) → List (κ × ν)
  | [] => [(k, v)]
  | e :: es =>
      if k < e.1 then (k, v) :: e :: es
      else if e.1 < k then e :: insertEntries k v es
      else (k, v) :: es

theorem mem_insertEntries {k : κ} {v : ν} {es : List (κ × ν)} {x : κ × ν}
    (h : x ∈ insertEntries k v es) : x = (k, v) ∨ x ∈ es := by
  induction es with
  | nil => exact .inl (List.mem_singleton.mp h)
  | cons e es ih =>
      rw [insertEntries] at h
      split at h
      · exact List.mem_cons.mp h
      · split at h
        · rcases List.mem_cons.mp h with rfl | h
          · exact .inr List.mem_cons_self
          · exact (ih h).imp_right (List.mem_cons_of_mem _)
        · exact (List.mem_cons.mp h).imp_right (List.mem_cons_of_mem _)

theorem sorted_insertEntries (k : κ) (v : ν) {es : List (κ × ν)}
    (h : es.Pairwise fun a b => a.1 < b.1) :
    (insertEntries k v es).Pairwise fun a b => a.1 < b.1 := by
  induction es with
  | nil => exact List.pairwise_singleton _ _
  | cons e es ih =>
      obtain ⟨he, hes⟩ := List.pairwise_cons.mp h
      rw [insertEntries]
      split
      · next hk =>
        refine List.pairwise_cons.mpr ⟨fun x hx => ?_, h⟩
        rcases List.mem_cons.mp hx with rfl | hx
        · exact hk
        · exact hk.trans (he x hx)
      · next hnk =>
        split
        · next hk =>
          refine List.pairwise_cons.mpr ⟨fun x hx => ?_, ih hes⟩
          rcases mem_insertEntries hx with rfl | hx
          · exact hk
          · exact he x hx
        · next hk =>
          have hke : k = e.1 := le_antisymm (not_lt.mp hk) (not_lt.mp hnk)
          exact List.pairwise_cons.mpr ⟨fun x hx => hke ▸ he x hx, hes⟩

/-- Put `v` under `k`. -/
def insert (m : SortedMap κ ν) (k : κ) (v : ν) : SortedMap κ ν :=
  ⟨insertEntries k v m.entries, sorted_insertEntries k v m.sorted⟩

/-- Change the value under `k`, if there is one. -/
def modify (m : SortedMap κ ν) (k : κ) (f : ν → ν) : SortedMap κ ν where
  entries := m.entries.map fun e => if e.1 = k then (e.1, f e.2) else e
  sorted := by
    rw [List.pairwise_map]
    refine m.sorted.imp fun {a b} hab => ?_
    split <;> split <;> exact hab

/-- Two maps with the same entries are one. -/
theorem ext_entries {m m' : SortedMap κ ν} (h : m.entries = m'.entries) : m = m' := by
  cases m; cases m'; cases h; rfl

@[simp] theorem find?_empty (k : κ) : (empty : SortedMap κ ν).find? k = none := rfl

theorem find?_insertEntries (k k' : κ) (v : ν) (es : List (κ × ν)) :
    ((insertEntries k v es).find? fun e => e.1 = k')
      = if k' = k then some (k, v) else es.find? fun e => e.1 = k' := by
  induction es with
  | nil =>
      by_cases hk : k' = k
      · simp [insertEntries, hk]
      · simp [insertEntries, hk, Ne.symm hk]
  | cons e es ih =>
      rw [insertEntries]
      by_cases hk : k' = k
      · subst hk
        split
        · simp
        · split
          · next hlt =>
            rw [List.find?_cons, decide_eq_false hlt.ne]
            exact (ih.trans (if_pos rfl)).trans (if_pos rfl).symm
          · simp
      · rw [if_neg hk]
        split
        · rw [List.find?_cons, decide_eq_false (Ne.symm hk)]
        · next hnk =>
          split
          · rw [List.find?_cons, List.find?_cons, ih, if_neg hk]
          · next hlt =>
            have hke : k = e.1 := le_antisymm (not_lt.mp hlt) (not_lt.mp hnk)
            have hne : ¬ e.1 = k' := fun h => hk (h.symm.trans hke.symm)
            rw [List.find?_cons, List.find?_cons, decide_eq_false hne,
              decide_eq_false (Ne.symm hk)]

/-- **Looking up after an insertion.** -/
theorem find?_insert (m : SortedMap κ ν) (k k' : κ) (v : ν) :
    (m.insert k v).find? k' = if k' = k then some v else m.find? k' := by
  rw [find?, insert, find?_insertEntries]
  split
  · rfl
  · rfl

@[simp] theorem find?_insert_self (m : SortedMap κ ν) (k : κ) (v : ν) :
    (m.insert k v).find? k = some v := by
  rw [find?_insert, if_pos rfl]

/-- A key is there when some entry has it. -/
theorem isSome_find?_iff {m : SortedMap κ ν} {k : κ} :
    (m.find? k).isSome = true ↔ ∃ e ∈ m.entries, e.1 = k := by
  rw [find?, Option.isSome_map, List.find?_isSome]
  exact exists_congr fun e => and_congr_right fun _ => decide_eq_true_iff

theorem find?_entries_iff {es : List (κ × ν)} (h : es.Pairwise fun a b => a.1 < b.1) {k : κ}
    {e : κ × ν} : (es.find? fun e => e.1 = k) = some e ↔ e ∈ es ∧ e.1 = k := by
  induction es with
  | nil => simp
  | cons d es ih =>
      obtain ⟨hd, hes⟩ := List.pairwise_cons.mp h
      by_cases hk : d.1 = k
      · rw [List.find?_cons_of_pos (by simpa using hk), Option.some.injEq, List.mem_cons]
        constructor
        · rintro rfl
          exact ⟨.inl rfl, hk⟩
        · rintro ⟨rfl | hmem, hek⟩
          · rfl
          · exact absurd (hk.trans hek.symm) (hd e hmem).ne
      · rw [List.find?_cons_of_neg (by simpa using hk), ih hes, List.mem_cons]
        refine and_congr_left fun hek => (or_iff_right ?_).symm
        rintro rfl
        exact hk hek

/-- Looking up is finding the entry. -/
theorem find?_eq_some_iff {m : SortedMap κ ν} {k : κ} {v : ν} :
    m.find? k = some v ↔ (k, v) ∈ m.entries := by
  rw [find?, Option.map_eq_some_iff]
  constructor
  · rintro ⟨e, he, rfl⟩
    obtain ⟨hmem, rfl⟩ := (find?_entries_iff m.sorted).mp he
    exact hmem
  · exact fun hmem => ⟨(k, v), (find?_entries_iff m.sorted).mpr ⟨hmem, rfl⟩, rfl⟩

/-- Looking up after a change. -/
theorem find?_modify (m : SortedMap κ ν) (k k' : κ) (f : ν → ν) :
    (m.modify k f).find? k' = if k' = k then (m.find? k').map f else m.find? k' := by
  obtain ⟨es, hes⟩ := m
  simp only [find?, modify]
  clear hes
  induction es with
  | nil => simp
  | cons e es ih =>
      rw [List.map_cons, List.find?_cons, List.find?_cons]
      by_cases hek : e.1 = k
      · by_cases hk' : e.1 = k'
        · simp [← hek, ← hk']
        · rw [if_pos hek, decide_eq_false hk']
          exact ih
      · by_cases hk' : e.1 = k'
        · have hne : ¬ k' = k := fun h => hek (hk'.trans h)
          rw [if_neg hek, decide_eq_true hk', if_neg hne]
        · rw [if_neg hek, decide_eq_false hk']
          exact ih

@[simp] theorem size_modify (m : SortedMap κ ν) (k : κ) (f : ν → ν) :
    (m.modify k f).size = m.size := by
  simp [size, modify]

/-- Inserting a key above all others appends it. -/
theorem entries_insert_of_gt {m : SortedMap κ ν} {k : κ} (v : ν)
    (h : ∀ e ∈ m.entries, e.1 < k) : (m.insert k v).entries = m.entries ++ [(k, v)] := by
  obtain ⟨es, hes⟩ := m
  simp only [insert] at h ⊢
  clear hes
  induction es with
  | nil => rfl
  | cons e es ih =>
      have he := h e List.mem_cons_self
      rw [insertEntries, if_neg (not_lt.mpr he.le), if_pos he,
        ih fun x hx => h x (List.mem_cons_of_mem _ hx), List.cons_append]

theorem length_le_insertEntries (k : κ) (v : ν) (es : List (κ × ν)) :
    es.length ≤ (insertEntries k v es).length := by
  induction es with
  | nil => exact Nat.zero_le _
  | cons e es ih =>
      rw [insertEntries]
      split
      · exact Nat.le_succ _
      · split
        · exact Nat.succ_le_succ ih
        · exact Nat.le_refl _

theorem size_le_insert (m : SortedMap κ ν) (k : κ) (v : ν) : m.size ≤ (m.insert k v).size :=
  length_le_insertEntries k v m.entries

/-- What holds of every entry and of a new one holds after the insertion. -/
theorem forall_insert {P : κ × ν → Prop} {m : SortedMap κ ν} {k : κ} {v : ν} (hnew : P (k, v))
    (h : ∀ e ∈ m.entries, P e) : ∀ e ∈ (m.insert k v).entries, P e := by
  intro e he
  rcases mem_insertEntries he with rfl | hold
  · exact hnew
  · exact h e hold

/-- What a change keeps of every entry holds after it. -/
theorem forall_modify {P : κ × ν → Prop} {m : SortedMap κ ν} {k : κ} {f : ν → ν}
    (hf : ∀ e, P e → P (e.1, f e.2)) (h : ∀ e ∈ m.entries, P e) :
    ∀ e ∈ (m.modify k f).entries, P e := by
  intro e he
  obtain ⟨e', he', rfl⟩ := List.mem_map.mp he
  split
  · exact hf e' (h e' he')
  · exact h e' he'

end SortedMap
