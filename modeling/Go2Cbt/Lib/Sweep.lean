import Mathlib.Order.Lattice
import Mathlib.Data.List.Pairwise
import Mathlib.Order.Defs.LinearOrder
import Mathlib.Tactic.Order

/-!
# Lib — sweeping spans

A row of half-open spans, sorted by where they begin, and the gaps that a sweep from the left
finds between them.  `sweep` goes on from the furthest end so far, `walk` from the end of the span
just passed.

* `covers_sweep`: the gaps of a sweep hold exactly the points that lie in no span.
* `sweep_eq_of_perm`: sorting the spans another way makes no difference.
* `walk_eq_sweep_iff` and `walk_sound_iff`: when going on from the last end finds the same gaps, and
  when only gaps.
-/

/-- The points from `lo` up to but not including `hi`. -/
structure Span (α : Type) where
  lo : α
  hi : α

namespace Span

variable {α : Type} [LinearOrder α]

def Contains (s : Span α) (x : α) : Prop := s.lo ≤ x ∧ x < s.hi

instance (s : Span α) (x : α) : Decidable (s.Contains x) := inferInstanceAs (Decidable (_ ∧ _))

/-- No point lies in both. -/
def Apart (s s' : Span α) : Prop := ∀ x, ¬ (s.Contains x ∧ s'.Contains x)

theorem apart_of_le {s s' : Span α} (h : s.hi ≤ s'.lo) : Apart s s' :=
  fun _ hx => not_lt.mpr (h.trans hx.2.1) hx.1.2

theorem Apart.symm {s s' : Span α} (h : Apart s s') : Apart s' s := fun x hx => h x hx.symm

/-- What lies between two places, if anything does. -/
def gap (a b : α) : List (Span α) := if a < b then [⟨a, b⟩] else []

/-- The gaps up to `limit`, from the furthest end so far on. -/
def sweep (limit : α) : (current : α) → List (Span α) → List (Span α)
  | current, [] => gap current limit
  | current, s :: ss => gap current s.lo ++ sweep limit (max current s.hi) ss

/-- The gaps up to `limit`, from the last end on. -/
def walk (limit : α) : (current : α) → List (Span α) → List (Span α)
  | current, [] => gap current limit
  | current, s :: ss => gap current s.lo ++ walk limit s.hi ss

/-- A row of spans below `limit`, sorted by where they begin. -/
structure Laid (limit : α) (ss : List (Span α)) : Prop where
  sorted : ss.Pairwise fun s s' => s.lo ≤ s'.lo
  proper : ∀ s ∈ ss, s.lo ≤ s.hi
  inside : ∀ s ∈ ss, s.hi ≤ limit

variable {limit current : α} {ss : List (Span α)}

theorem Laid.tail {s : Span α} (h : Laid limit (s :: ss)) : Laid limit ss where
  sorted := h.sorted.of_cons
  proper := fun s' hs' => h.proper s' (List.mem_cons_of_mem _ hs')
  inside := fun s' hs' => h.inside s' (List.mem_cons_of_mem _ hs')

/-! ### Gaps -/

theorem mem_gap {a b : α} {r : Span α} : r ∈ gap a b ↔ r = ⟨a, b⟩ ∧ a < b := by
  rw [gap]
  split
  · next h => simp [h]
  · next h => simp [h]

theorem exists_gap_contains {a b x : α} : (∃ r ∈ gap a b, r.Contains x) ↔ a ≤ x ∧ x < b := by
  constructor
  · rintro ⟨r, hr, hx⟩
    obtain ⟨rfl, -⟩ := mem_gap.mp hr
    exact hx
  · intro hx
    exact ⟨⟨a, b⟩, mem_gap.mpr ⟨rfl, hx.1.trans_lt hx.2⟩, hx⟩

theorem gap_of_le {a b : α} (h : b ≤ a) : gap a b = [] := if_neg (not_lt.mpr h)

theorem gap_of_lt {a b : α} (h : a < b) : gap a b = [⟨a, b⟩] := if_pos h

/-- The gaps are not empty, begin where the sweep does at the earliest, and end at the limit at
the latest. -/
theorem bounds_of_mem_sweep (h : Laid limit ss) {r : Span α}
    (hr : r ∈ sweep limit current ss) : current ≤ r.lo ∧ r.lo < r.hi ∧ r.hi ≤ limit := by
  induction ss generalizing current with
  | nil =>
      obtain ⟨rfl, hlt⟩ := mem_gap.mp hr
      exact ⟨le_rfl, hlt, le_rfl⟩
  | cons s ss ih =>
      rcases List.mem_append.mp hr with hr | hr
      · obtain ⟨rfl, hlt⟩ := mem_gap.mp hr
        exact ⟨le_rfl, hlt,
          (h.proper s List.mem_cons_self).trans (h.inside s List.mem_cons_self)⟩
      · obtain ⟨hlo, hlt, hhi⟩ := ih h.tail hr
        exact ⟨(le_max_left _ _).trans hlo, hlt, hhi⟩

/-- The gaps are in order and do not meet. -/
theorem pairwise_sweep (h : Laid limit ss) :
    (sweep limit current ss).Pairwise fun r r' => r.hi ≤ r'.lo := by
  induction ss generalizing current with
  | nil =>
      rw [sweep, gap]
      split
      · exact List.pairwise_singleton _ _
      · exact List.Pairwise.nil
  | cons s ss ih =>
      rw [sweep, List.pairwise_append]
      refine ⟨?_, ih h.tail, fun r hr r' hr' => ?_⟩
      · rw [gap]
        split
        · exact List.pairwise_singleton _ _
        · exact List.Pairwise.nil
      · obtain ⟨rfl, -⟩ := mem_gap.mp hr
        have hlo := (bounds_of_mem_sweep h.tail hr').1
        exact (h.proper s List.mem_cons_self).trans ((le_max_right _ _).trans hlo)

/-- **The gaps are what the spans leave.** -/
theorem covers_sweep (h : Laid limit ss) {x : α} :
    (∃ r ∈ sweep limit current ss, r.Contains x) ↔
      current ≤ x ∧ x < limit ∧ ∀ s ∈ ss, ¬ s.Contains x := by
  induction ss generalizing current with
  | nil =>
      rw [sweep, exists_gap_contains]
      exact ⟨fun hx => ⟨hx.1, hx.2, fun s hs => absurd hs List.not_mem_nil⟩, fun hx => ⟨hx.1, hx.2.1⟩⟩
  | cons s ss ih =>
      have hlimit := (h.proper s List.mem_cons_self).trans (h.inside s List.mem_cons_self)
      have hlater : ∀ s' ∈ ss, s.lo ≤ s'.lo := (List.pairwise_cons.mp h.sorted).1
      have hsplit : (∃ r ∈ sweep limit current (s :: ss), r.Contains x) ↔
          (current ≤ x ∧ x < s.lo) ∨
            (max current s.hi ≤ x ∧ x < limit ∧ ∀ s' ∈ ss, ¬ s'.Contains x) := by
        rw [← exists_gap_contains, ← ih h.tail, sweep]
        constructor
        · rintro ⟨r, hr, hx⟩
          rcases List.mem_append.mp hr with hr | hr
          · exact .inl ⟨r, hr, hx⟩
          · exact .inr ⟨r, hr, hx⟩
        · rintro (⟨r, hr, hx⟩ | ⟨r, hr, hx⟩)
          · exact ⟨r, List.mem_append_left _ hr, hx⟩
          · exact ⟨r, List.mem_append_right _ hr, hx⟩
      rw [hsplit, List.forall_mem_cons]
      constructor
      · rintro (⟨hcur, hlo⟩ | ⟨hmax, hlim, hfree⟩)
        · exact ⟨hcur, hlo.trans_le hlimit, fun hin => not_lt.mpr hin.1 hlo,
            fun s' hs' hin => not_lt.mpr ((hlater s' hs').trans hin.1) hlo⟩
        · exact ⟨(le_max_left _ _).trans hmax, hlim,
            fun hin => not_lt.mpr ((le_max_right _ _).trans hmax) hin.2, hfree⟩
      · rintro ⟨hcur, hlim, hnot, hfree⟩
        by_cases hlo : x < s.lo
        · exact .inl ⟨hcur, hlo⟩
        · have hhi : s.hi ≤ x := not_lt.mp fun hlt => hnot ⟨not_lt.mp hlo, hlt⟩
          exact .inr ⟨max_le hcur hhi, hlim, hfree⟩

/-! ### Sorting another way -/

/-- Two spans that begin together may be exchanged. -/
theorem sweep_swap {s t : Span α} (hlo : s.lo = t.lo) (hs : s.lo ≤ s.hi) (ht : t.lo ≤ t.hi) :
    sweep limit current (s :: t :: ss) = sweep limit current (t :: s :: ss) := by
  have hmax : max (max current s.hi) t.hi = max (max current t.hi) s.hi := by
    rw [max_assoc, max_assoc, max_comm s.hi]
  have hfirst : gap (max current s.hi) t.lo = [] :=
    gap_of_le (hlo ▸ hs.trans (le_max_right current s.hi))
  have hsecond : gap (max current t.hi) s.lo = [] :=
    gap_of_le (hlo ▸ ht.trans (le_max_right current t.hi))
  rw [sweep, sweep, sweep, sweep, hmax, hfirst, hsecond, hlo]

/-- A span may go in front of those that begin with it. -/
theorem sweep_to_front {s : Span α} (hs : s.lo ≤ s.hi) {before : List (Span α)}
    (hbefore : ∀ t ∈ before, t.lo = s.lo ∧ t.lo ≤ t.hi) :
    sweep limit current (before ++ s :: ss) = sweep limit current (s :: (before ++ ss)) := by
  induction before generalizing current with
  | nil => rfl
  | cons t before ih =>
      obtain ⟨hlo, ht⟩ := hbefore t List.mem_cons_self
      have hrest := fun t' ht' => hbefore t' (List.mem_cons_of_mem t ht')
      calc sweep limit current (t :: (before ++ s :: ss))
          = gap current t.lo ++ sweep limit (max current t.hi) (before ++ s :: ss) := rfl
        _ = gap current t.lo ++ sweep limit (max current t.hi) (s :: (before ++ ss)) := by
            rw [ih hrest]
        _ = sweep limit current (t :: s :: (before ++ ss)) := rfl
        _ = sweep limit current (s :: t :: (before ++ ss)) := sweep_swap hlo ht hs

/-- **Sorting another way makes no difference.** -/
theorem sweep_eq_of_perm {ss' : List (Span α)} (hperm : ss.Perm ss') (h : Laid limit ss)
    (hsorted : ss'.Pairwise fun s s' => s.lo ≤ s'.lo) :
    sweep limit current ss = sweep limit current ss' := by
  induction ss generalizing current ss' with
  | nil =>
      rw [List.nil_perm.mp hperm]
  | cons s ss ih =>
      obtain ⟨before, behind, rfl⟩ := List.append_of_mem (hperm.subset List.mem_cons_self)
      have hfirst : ∀ t ∈ before, t.lo = s.lo ∧ t.lo ≤ t.hi := by
        intro t ht
        have hmem : t ∈ s :: ss := hperm.symm.subset (List.mem_append_left _ ht)
        have hle : t.lo ≤ s.lo :=
          (List.pairwise_append.mp hsorted).2.2 t ht s List.mem_cons_self
        have hge : s.lo ≤ t.lo := by
          rcases List.mem_cons.mp hmem with rfl | hmem
          · exact le_rfl
          · exact List.rel_of_pairwise_cons h.sorted hmem
        exact ⟨le_antisymm hle hge, h.proper t hmem⟩
      have hrest : ss.Perm (before ++ behind) :=
        (hperm.trans List.perm_middle).cons_inv
      have hsorted' : (before ++ behind).Pairwise fun s s' => s.lo ≤ s'.lo :=
        hsorted.sublist (List.Sublist.append_left (List.sublist_cons_self _ _) _)
      rw [sweep_to_front (h.proper s List.mem_cons_self) hfirst, sweep, sweep,
        ih hrest h.tail hsorted']

/-! ### Going on from the last end -/

/-- Whenever the last end is behind the furthest one, the next span begins before it is passed. -/
def Joined : (last furthest : α) → List (Span α) → Prop
  | last, furthest, [] => last = furthest
  | last, furthest, s :: ss => (last = furthest ∨ s.lo ≤ last) ∧ Joined s.hi (max furthest s.hi) ss

/-- No gap of a sweep begins before it. -/
theorem le_lo_of_mem_sweep {r : Span α} (hr : r ∈ sweep limit current ss) : current ≤ r.lo := by
  induction ss generalizing current with
  | nil => exact (congrArg lo (mem_gap.mp hr).1).ge
  | cons s ss ih =>
      rcases List.mem_append.mp hr with hr | hr
      · exact (congrArg lo (mem_gap.mp hr).1).ge
      · exact (le_max_left _ _).trans (ih hr)

/-- A gap that begins before a sweep is not its first. -/
theorem gap_append_ne_sweep {a b : α} {rest : List (Span α)} (hlt : a < current) (hb : a < b) :
    gap a b ++ rest ≠ sweep limit current ss := by
  intro heq
  have hmem : (⟨a, b⟩ : Span α) ∈ sweep limit current ss :=
    heq ▸ List.mem_append_left _ (mem_gap.mpr ⟨rfl, hb⟩)
  exact not_lt.mpr (le_lo_of_mem_sweep hmem) hlt

/-- **When the last end will do**: the gaps are the same exactly when the spans are joined. -/
theorem walk_eq_sweep_iff_joined {last furthest : α} (hle : last ≤ furthest)
    (hlimit : furthest ≤ limit) (h : ∀ s ∈ ss, s.hi ≤ limit) :
    walk limit last ss = sweep limit furthest ss ↔ Joined last furthest ss := by
  induction ss generalizing last furthest with
  | nil =>
      constructor
      · intro heq
        by_contra hne
        have hlt : last < furthest := lt_of_le_of_ne hle hne
        have hfirst : gap last limit ++ [] ≠ sweep limit furthest [] :=
          gap_append_ne_sweep hlt (hlt.trans_le hlimit)
        rw [List.append_nil] at hfirst
        exact hfirst heq
      · intro heq
        rw [walk, sweep, show last = furthest from heq]
  | cons s ss ih =>
      obtain ⟨hs, hss⟩ := List.forall_mem_cons.mp h
      have hnext : walk limit s.hi ss = sweep limit (max furthest s.hi) ss ↔
          Joined s.hi (max furthest s.hi) ss :=
        ih (le_max_right furthest s.hi) (max_le hlimit hs) hss
      rw [walk, Joined, ← hnext]
      rcases hle.eq_or_lt with rfl | hlt
      · rw [sweep, List.append_right_inj]
        exact ⟨fun heq => ⟨.inl rfl, heq⟩, fun heq => heq.2⟩
      · by_cases hlo : s.lo ≤ last
        · rw [sweep, gap_of_le hlo, gap_of_le (hlo.trans hle), List.nil_append, List.nil_append]
          exact ⟨fun heq => ⟨.inr hlo, heq⟩, fun heq => heq.2⟩
        · constructor
          · intro heq
            exact absurd heq (gap_append_ne_sweep hlt (not_le.mp hlo))
          · rintro ⟨heq | hle', -⟩
            · exact absurd heq hlt.ne
            · exact absurd hle' hlo

/-- From place `k` on, a span that ends before one in front of it is followed by one that begins
no later than it ends. -/
def FollowedFrom (k : Nat) (ss : List (Span α)) : Prop :=
  ∀ i j s t, k ≤ j → i < j → ss[i]? = some t → ss[j]? = some s → s.hi < t.hi →
    ∃ next, ss[j + 1]? = some next ∧ next.lo ≤ s.hi

/-- The condition at one place, and from the next on. -/
theorem followedFrom_iff {k : Nat} {s : Span α} (hs : ss[k]? = some s) :
    FollowedFrom k ss ↔
      ((∃ i t, i < k ∧ ss[i]? = some t ∧ s.hi < t.hi) →
        ∃ next, ss[k + 1]? = some next ∧ next.lo ≤ s.hi) ∧ FollowedFrom (k + 1) ss := by
  constructor
  · intro h
    refine ⟨?_, fun i j s t hj => h i j s t (Nat.le_of_succ_le hj)⟩
    rintro ⟨i, t, hi, ht, hlt⟩
    exact h i k s t le_rfl hi ht hs hlt
  · rintro ⟨hk, hlater⟩ i j s' t hj hi ht hs' hlt
    rcases hj.eq_or_lt with rfl | hj
    · rw [hs] at hs'
      cases hs'
      exact hk ⟨i, t, hi, ht, hlt⟩
    · exact hlater i j s' t hj hi ht hs' hlt

/-- `furthest` is the furthest end of the spans passed: those in `before`, then `l`. -/
structure Furthest (before : List (Span α)) (l : Span α) (furthest : α) : Prop where
  last : l.hi ≤ furthest
  earlier : ∀ t ∈ before, t.hi ≤ furthest
  reached : l.hi < furthest → ∃ t ∈ before, t.hi = furthest

theorem Furthest.next {before : List (Span α)} {l : Span α} {furthest : α}
    (h : Furthest before l furthest) (n : Span α) :
    Furthest (before ++ [l]) n (max furthest n.hi) where
  last := le_max_right _ _
  earlier := by
    intro t ht
    rcases List.mem_append.mp ht with ht | ht
    · exact (h.earlier t ht).trans (le_max_left _ _)
    · rw [List.mem_singleton.mp ht]
      exact h.last.trans (le_max_left _ _)
  reached := by
    intro hlt
    have hmax : max furthest n.hi = furthest := by
      rcases le_total n.hi furthest with hle | hle
      · exact max_eq_left hle
      · exact absurd (max_eq_right hle) hlt.ne'
    rw [hmax]
    rcases h.last.eq_or_lt with heq | hlt'
    · exact ⟨l, List.mem_append_right _ (List.mem_singleton_self l), heq⟩
    · obtain ⟨t, ht, heq⟩ := h.reached hlt'
      exact ⟨t, List.mem_append_left _ ht, heq⟩

/-- The condition at the span just passed. -/
theorem Furthest.followedFrom_iff {before : List (Span α)} {l : Span α} {furthest : α}
    (h : Furthest before l furthest) :
    FollowedFrom before.length (before ++ l :: ss) ↔
      (l.hi < furthest → ∃ next, ss[0]? = some next ∧ next.lo ≤ l.hi) ∧
        FollowedFrom (before.length + 1) (before ++ l :: ss) := by
  have hpassed : (∃ i t, i < before.length ∧ (before ++ l :: ss)[i]? = some t ∧ l.hi < t.hi) ↔
      l.hi < furthest := by
    constructor
    · rintro ⟨i, t, hi, ht, hlt⟩
      rw [List.getElem?_append_left hi] at ht
      exact hlt.trans_le (h.earlier t (List.mem_of_getElem? ht))
    · intro hlt
      obtain ⟨t, ht, heq⟩ := h.reached hlt
      obtain ⟨i, hi⟩ := List.mem_iff_getElem?.mp ht
      have hlen : i < before.length := (List.getElem?_eq_some_iff.mp hi).1
      exact ⟨i, t, hlen, by rw [List.getElem?_append_left hlen, hi], heq.symm ▸ hlt⟩
  have hat : ∀ k, (before ++ l :: ss)[before.length + k]? = (l :: ss)[k]? := fun k => by
    rw [List.getElem?_append_right (Nat.le_add_right _ _), Nat.add_sub_cancel_left]
  have hplace : (before ++ l :: ss)[before.length]? = some l := hat 0
  rw [Span.followedFrom_iff hplace, hpassed, hat 1]
  rfl

/-- **Joined spans, by their places in the row.** -/
theorem joined_iff_followedFrom {before : List (Span α)} {l : Span α} {furthest : α}
    (h : Furthest before l furthest) :
    Joined l.hi furthest ss ↔ FollowedFrom before.length (before ++ l :: ss) := by
  rw [h.followedFrom_iff]
  induction ss generalizing before l furthest with
  | nil =>
      have hend : FollowedFrom (before.length + 1) (before ++ [l]) := by
        intro i j s t hj _ _ hs
        rw [List.getElem?_eq_none (by rw [List.length_append]; exact hj)] at hs
        cases hs
      constructor
      · intro heq
        exact ⟨fun hlt => absurd heq hlt.ne, hend⟩
      · rintro ⟨hnone, -⟩
        by_contra hne
        obtain ⟨next, hnext, -⟩ := hnone (lt_of_le_of_ne h.last hne)
        cases hnext
  | cons n ss ih =>
      have hrow : before ++ l :: n :: ss = (before ++ [l]) ++ n :: ss := by
        rw [List.append_assoc]
        rfl
      have hlen : (before ++ [l]).length = before.length + 1 := List.length_append
      have hhead : (l.hi < furthest → ∃ next, (n :: ss)[0]? = some next ∧ next.lo ≤ l.hi) ↔
          l.hi = furthest ∨ n.lo ≤ l.hi := by
        constructor
        · intro himp
          rcases h.last.eq_or_lt with heq | hlt
          · exact .inl heq
          · obtain ⟨next, hnext, hlo⟩ := himp hlt
            cases hnext
            exact .inr hlo
        · rintro (heq | hlo) hlt
          · exact absurd heq hlt.ne
          · exact ⟨n, rfl, hlo⟩
      rw [Joined, ih (h.next n), ← (h.next n).followedFrom_iff, hhead, hrow, hlen]

/-- A span that ends before one in front of it is followed by one that begins no later than it
ends. -/
def Followed (ss : List (Span α)) : Prop :=
  ∀ i j s t, i < j → ss[i]? = some t → ss[j]? = some s → s.hi < t.hi →
    ∃ next, ss[j + 1]? = some next ∧ next.lo ≤ s.hi

theorem followedFrom_zero : FollowedFrom 0 ss ↔ Followed ss :=
  ⟨fun h i j s t => h i j s t (Nat.zero_le j), fun h i j s t _ => h i j s t⟩

/-- **When going on from the last end finds the same gaps.** -/
theorem walk_eq_sweep_iff (h : Laid limit ss) (hstart : ∀ s ∈ ss, current ≤ s.lo) :
    walk limit current ss = sweep limit current ss ↔ Followed ss := by
  cases ss with
  | nil =>
      refine ⟨fun _ i j s t _ _ hs => ?_, fun _ => rfl⟩
      cases hs
  | cons s ss =>
      have hcur : current ≤ s.hi :=
        (hstart s List.mem_cons_self).trans (h.proper s List.mem_cons_self)
      have hfirst : Furthest [] s s.hi :=
        ⟨le_rfl, fun t ht => absurd ht List.not_mem_nil, fun hlt => absurd hlt (lt_irrefl _)⟩
      rw [walk, sweep, max_eq_right hcur, List.append_right_inj,
        walk_eq_sweep_iff_joined le_rfl (h.inside s List.mem_cons_self) h.tail.inside,
        joined_iff_followedFrom hfirst, ← followedFrom_zero]
      rfl

/-- No point outside the spans is missed, however the spans lie. -/
theorem exists_walk_contains {x : α} (hcur : current ≤ x) (hlimit : x < limit)
    (hfree : ∀ s ∈ ss, ¬ s.Contains x) : ∃ r ∈ walk limit current ss, r.Contains x := by
  induction ss generalizing current with
  | nil => exact exists_gap_contains.mpr ⟨hcur, hlimit⟩
  | cons s ss ih =>
      obtain ⟨hs, hss⟩ := List.forall_mem_cons.mp hfree
      by_cases hlo : x < s.lo
      · obtain ⟨r, hr, hx⟩ := exists_gap_contains.mpr ⟨hcur, hlo⟩
        exact ⟨r, List.mem_append_left _ hr, hx⟩
      · have hhi : s.hi ≤ x := not_lt.mp fun hlt => hs ⟨not_lt.mp hlo, hlt⟩
        obtain ⟨r, hr, hx⟩ := ih hhi hss
        exact ⟨r, List.mem_append_right _ hr, hx⟩

/-- The gap behind a span of the row. -/
theorem gap_subset_walk {j : Nat} {s : Span α} (hs : ss[j]? = some s) {r : Span α}
    (hr : r ∈ gap s.hi ((ss[j + 1]?.map lo).getD limit)) : r ∈ walk limit current ss := by
  induction ss generalizing current j with
  | nil => cases hs
  | cons t ss ih =>
      cases j with
      | succ j => exact List.mem_append_right _ (ih hs hr)
      | zero =>
          cases hs
          refine List.mem_append_right _ ?_
          cases ss with
          | nil => exact hr
          | cons n ss => exact List.mem_append_left _ hr

/-- **When going on from the last end finds only gaps.** -/
theorem walk_sound_iff (h : Laid limit ss) (hstart : ∀ s ∈ ss, current ≤ s.lo) :
    (∀ r ∈ walk limit current ss, ∀ x, r.Contains x → ∀ s ∈ ss, ¬ s.Contains x) ↔
      Followed ss := by
  constructor
  · intro hsound i j s t hij ht hs hlt
    have htmem := List.mem_of_getElem? ht
    have hinside : t.Contains s.hi := by
      obtain ⟨hi, rfl⟩ := List.getElem?_eq_some_iff.mp ht
      obtain ⟨hj, rfl⟩ := List.getElem?_eq_some_iff.mp hs
      have hlo := List.pairwise_iff_getElem.mp h.sorted i j hi hj hij
      exact ⟨hlo.trans (h.proper _ (List.getElem_mem hj)), hlt⟩
    -- a gap that began at the end of `s` would begin inside `t`
    have hclosed : ∀ b, (ss[j + 1]?.map lo).getD limit = b → b ≤ s.hi := by
      intro b hb
      by_contra hgt
      have hgap : (⟨s.hi, b⟩ : Span α) ∈ walk limit current ss :=
        gap_subset_walk hs (mem_gap.mpr ⟨by rw [hb], by rw [hb]; exact not_le.mp hgt⟩)
      exact hsound _ hgap s.hi ⟨le_rfl, not_le.mp hgt⟩ t htmem hinside
    cases hnext : ss[j + 1]? with
    | none =>
        have hbound := hclosed limit (by rw [hnext]; rfl)
        exact absurd (hlt.trans_le (h.inside t htmem)) (not_lt.mpr hbound)
    | some next => exact ⟨next, rfl, hclosed next.lo (by rw [hnext]; rfl)⟩
  · intro hfollowed r hr x hx s hs
    rw [(walk_eq_sweep_iff h hstart).mpr hfollowed] at hr
    exact ((covers_sweep h).mp ⟨r, hr, hx⟩).2.2 s hs

end Span
