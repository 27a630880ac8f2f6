import Go2Cbt.Lib.Transition

/-!
# Lib — one system simulates another

`Simulates R`: whatever a concrete system does from a state, the abstract one can do in any number
of steps, also none, from each state related to it by `R`.  Then every concrete run has an abstract
one beside it, and what holds of all states the abstract system reaches holds of the concrete ones,
as far as `R` carries it over.
-/

namespace Transition

variable {σ τ α β : Type} {step : σ → α → σ → Prop} {step' : τ → β → τ → Prop}

/-- Every concrete step is a run of the abstract system. -/
def Simulates (step : σ → α → σ → Prop) (step' : τ → β → τ → Prop) (R : σ → τ → Prop) : Prop :=
  ∀ s a s' t, R s t → step s a s' → ∃ bs t', Run step' t bs t' ∧ R s' t'

theorem Reachable.run {init : τ → Prop} {t t' : τ} {bs : List β} (h : Reachable step' init t)
    (r : Run step' t bs t') : Reachable step' init t' := by
  obtain ⟨t₀, as, ht, r₀⟩ := h
  exact ⟨t₀, as ++ bs, ht, r₀.append r⟩

/-- **Every state that is reached has an abstract one beside it.** -/
theorem Simulates.reachable {R : σ → τ → Prop} (h : Simulates step step' R) {init : σ → Prop}
    {init' : τ → Prop} (hinit : ∀ s, init s → ∃ t, init' t ∧ R s t) {s : σ}
    (hs : Reachable step init s) : ∃ t, Reachable step' init' t ∧ R s t := by
  refine hs.invariant (P := fun s => ∃ t, Reachable step' init' t ∧ R s t) ?_ ?_
  · intro s hs
    obtain ⟨t, ht, hR⟩ := hinit s hs
    exact ⟨t, ⟨t, [], ht, .nil t⟩, hR⟩
  · rintro s a s' ⟨t, ht, hR⟩ hst
    obtain ⟨bs, t', r, hR'⟩ := h s a s' t hR hst
    exact ⟨t', ht.run r, hR'⟩

end Transition
