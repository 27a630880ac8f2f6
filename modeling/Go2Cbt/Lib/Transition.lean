import Mathlib.Data.List.Induction
import Mathlib.Logic.Relation

/-!
# Lib — labelled transition systems

A system is a relation `step s a t`.  `Run step s as t` is a run from `s` to `t` with the
actions `as`; what every step preserves, every run preserves.  `Guarded step ok` keeps the
steps that meet a condition on the state before and the action.
-/

namespace Transition

variable {σ α : Type}

/-- A run, with its actions in order. -/
inductive Run (step : σ → α → σ → Prop) : σ → List α → σ → Prop where
  | nil (s : σ) : Run step s [] s
  | cons {s t u : σ} {a : α} {as : List α} (h : step s a t) (r : Run step t as u) :
      Run step s (a :: as) u

/-- The steps that meet `ok`. -/
def Guarded (step : σ → α → σ → Prop) (ok : σ → α → Prop) : σ → α → σ → Prop :=
  fun s a t => step s a t ∧ ok s a

/-- The states reached from `init`. -/
def Reachable (step : σ → α → σ → Prop) (init : σ → Prop) (t : σ) : Prop :=
  ∃ s as, init s ∧ Run step s as t

variable {step : σ → α → σ → Prop}

/-- **The invariant rule.** -/
theorem Run.preserves {P : σ → Prop} (hstep : ∀ s a t, P s → step s a t → P t) {s t : σ}
    {as : List α} (r : Run step s as t) (hs : P s) : P t := by
  induction r with
  | nil => exact hs
  | cons h _ ih => exact ih (hstep _ _ _ hs h)

theorem Run.append {s t u : σ} {as bs : List α} (r : Run step s as t) (r' : Run step t bs u) :
    Run step s (as ++ bs) u := by
  induction r with
  | nil => exact r'
  | cons h _ ih => exact .cons h (ih r')

/-- The invariant rule for reachable states. -/
theorem Reachable.invariant {init P : σ → Prop} (hinit : ∀ s, init s → P s)
    (hstep : ∀ s a t, P s → step s a t → P t) {t : σ} (h : Reachable step init t) : P t := by
  obtain ⟨s, as, hs, r⟩ := h
  exact r.preserves hstep (hinit s hs)

theorem Reachable.next {init : σ → Prop} {s t : σ} {a : α} (h : Reachable step init s)
    (hst : step s a t) : Reachable step init t := by
  obtain ⟨s₀, as, hs, r⟩ := h
  exact ⟨s₀, as ++ [a], hs, r.append (.cons hst (.nil t))⟩

/-- **An invariant of the steps that meet a condition**: if a step that does not meet it breaks
the invariant, the invariant holds in every state exactly when every step meets the condition. -/
theorem forall_reachable_iff {init P : σ → Prop} {ok : σ → α → Prop}
    (hinit : ∀ s, init s → P s) (hkeeps : ∀ s a t, P s → ok s a → step s a t → P t)
    (hbreaks : ∀ s a t, step s a t → P t → ok s a) :
    (∀ t, Reachable step init t → P t) ↔
      ∀ s a t, Reachable step init s → step s a t → ok s a := by
  constructor
  · exact fun h s a t hs hst => hbreaks s a t hst (h t (hs.next hst))
  · intro h t ht
    have hboth : Reachable step init t ∧ P t := by
      refine ht.invariant (P := fun s => Reachable step init s ∧ P s) ?_ ?_
      · exact fun s hs => ⟨⟨s, [], hs, .nil s⟩, hinit s hs⟩
      · exact fun s a t ⟨hs, hp⟩ hst => ⟨hs.next hst, hkeeps s a t hp (h s a t hs hst) hst⟩
    exact hboth.2

/-- A run of a system is a run of a larger one. -/
theorem Run.mono {step' : σ → α → σ → Prop} (h : ∀ s a t, step s a t → step' s a t) {s t : σ}
    {as : List α} (r : Run step s as t) : Run step' s as t := by
  induction r with
  | nil => exact .nil _
  | cons hst _ ih => exact .cons (h _ _ _ hst) ih

/-! ### Ranks -/

section Ranked

variable {P : σ → Prop} {rank : σ → Nat}

/-- **A rank that every step lowers bounds the runs.** -/
theorem Run.length_add_rank_le (hkeeps : ∀ s a t, P s → step s a t → P t)
    (hlowers : ∀ s a t, P s → step s a t → rank t < rank s) {s t : σ} {as : List α}
    (r : Run step s as t) (hs : P s) : as.length + rank t ≤ rank s := by
  induction r with
  | nil => simp
  | cons h _ ih =>
      have hlow := hlowers _ _ _ hs h
      have hrest := ih (hkeeps _ _ _ hs h)
      rw [List.length_cons]
      omega

/-- **Where every step lowers a rank and only final states are stuck**, some run leads from every
state to a final one. -/
theorem exists_run_final {final : σ → Prop} (hkeeps : ∀ s a t, P s → step s a t → P t)
    (hlowers : ∀ s a t, P s → step s a t → rank t < rank s)
    (hgoes : ∀ s, P s → final s ∨ ∃ a t, step s a t) {s : σ} (hs : P s) :
    ∃ as t, Run step s as t ∧ final t := by
  induction hn : rank s using Nat.strongRecOn generalizing s with
  | ind n ih =>
      rcases hgoes s hs with hfinal | ⟨a, t, hst⟩
      · exact ⟨[], s, .nil s, hfinal⟩
      · obtain ⟨as, u, r, hu⟩ :=
          ih (rank t) (hn ▸ hlowers s a t hs hst) (hkeeps s a t hs hst) rfl
        exact ⟨a :: as, u, .cons hst r, hu⟩

end Ranked

/-! ### Machines with one step for each action -/

section Machine

variable {apply : σ → α → σ} {P : σ → Prop} {ok : σ → α → Prop}

/-- What every step keeps, every run of a machine keeps. -/
theorem foldl_preserves (hstep : ∀ s a, P s → P (apply s a)) {s : σ} (hs : P s) (as : List α) :
    P (as.foldl apply s) := by
  induction as generalizing s with
  | nil => exact hs
  | cons a as ih => exact ih (hstep s a hs)

/-- **An invariant all along a run.**  If a step from a state with the invariant keeps it exactly
when it meets a condition, the invariant holds after every part of a run exactly when every step
of the run meets the condition. -/
theorem forall_prefix_iff (hstep : ∀ s a, P s → (P (apply s a) ↔ ok s a)) {s : σ} (hs : P s)
    (as : List α) :
    (∀ bs, bs <+: as → P (bs.foldl apply s)) ↔
      ∀ bs a, bs ++ [a] <+: as → ok (bs.foldl apply s) a := by
  constructor
  · intro h bs a hbs
    have hafter := h (bs ++ [a]) hbs
    rw [List.foldl_append] at hafter
    exact (hstep _ a (h bs ((List.prefix_append bs [a]).trans hbs))).mp hafter
  · intro h bs
    induction bs using List.reverseRecOn with
    | nil => exact fun _ => hs
    | append_singleton bs a ih =>
        intro hbs
        rw [List.foldl_append]
        exact (hstep _ a (ih ((List.prefix_append bs [a]).trans hbs))).mpr (h bs a hbs)

end Machine

/-! ### Since the last -/

/-- Something of one kind has happened, and nothing of the other kind after it. -/
def Since (sets clears : α → Prop) (as : List α) : Prop :=
  ∃ before a after, as = before ++ a :: after ∧ sets a ∧ ∀ c ∈ after, ¬ clears c

theorem not_since_nil (sets clears : α → Prop) : ¬ Since sets clears [] := by
  rintro ⟨before, a, after, h, -⟩
  exact absurd h.symm (List.append_ne_nil_of_right_ne_nil before (List.cons_ne_nil a after))

/-- One more thing happens. -/
theorem since_append_singleton {sets clears : α → Prop} {as : List α} {a : α} :
    Since sets clears (as ++ [a]) ↔ sets a ∨ ¬ clears a ∧ Since sets clears as := by
  constructor
  · rintro ⟨before, x, after, heq, hx, hafter⟩
    rcases List.eq_nil_or_concat after with rfl | ⟨after, y, rfl⟩
    · obtain ⟨-, hlast⟩ := List.append_inj' heq rfl
      cases hlast
      exact .inl hx
    · rw [List.concat_eq_append, ← List.cons_append, ← List.append_assoc] at heq
      obtain ⟨hfront, hlast⟩ := List.append_inj' heq rfl
      cases hlast
      rw [List.concat_eq_append] at hafter
      exact .inr ⟨hafter a (List.mem_append_right _ (List.mem_singleton_self a)),
        before, x, after, hfront, hx, fun c hc => hafter c (List.mem_append_left _ hc)⟩
  · rintro (ha | ⟨hnot, before, x, after, rfl, hx, hafter⟩)
    · exact ⟨as, a, [], rfl, ha, fun c hc => absurd hc List.not_mem_nil⟩
    · refine ⟨before, x, after ++ [a], List.append_assoc .., hx, fun c hc => ?_⟩
      rcases List.mem_append.mp hc with hc | hc
      · exact hafter c hc
      · rw [List.mem_singleton.mp hc]
        exact hnot

end Transition
