import DtProject.Reactive.Run

/-! # Forward simulation

A relation between the states of two machines is a simulation if each step of
the first is answered by the second with the step that its event stands for, or
by no step where it stands for none. Simulations carry runs to runs, and the
invariants of the second machine back to the first. Where the step that answers
depends on the state and not on the event alone, the relation is an abstraction.
-/

namespace Reactive

variable {σ ε α δ : Type*}

/-- `R` relates states of a machine under a contract to those of another, whose events `label`
names. -/
structure Simulation (step : σ → ε → Option σ) (C : Contract σ ε) (step' : α → δ → Option α)
    (label : ε → Option δ) (R : σ → α → Prop) : Prop where

  visible {s s' : σ} {a : α} {e : ε} {d : δ} : R s a → C s e → step s e = some s' →
    label e = some d → ∃ a', step' a d = some a' ∧ R s' a'

  silent {s s' : σ} {a : α} {e : ε} : R s a → C s e → step s e = some s' →
    label e = none → R s' a

namespace Simulation

variable {step : σ → ε → Option σ} {C : Contract σ ε} {step' : α → δ → Option α}
  {label : ε → Option δ} {R : σ → α → Prop} {s t : σ} {a : α} {es : List ε}

/-- A run is simulated by the run of the events that it stands for. -/
theorem run (h : Simulation step C step' label R) (hR : R s a) (hr : Run step C s es t) :
    ∃ b, Run step' ⊤ a (es.filterMap label) b ∧ R t b := by
  induction hr generalizing a with
  | nil => exact ⟨a, .nil a, hR⟩
  | @cons s s' t e es hc hst _ ih =>
    cases hl : label e with
    | none =>
      obtain ⟨b, hb, ht⟩ := ih (h.silent hR hc hst hl)
      exact ⟨b, by rwa [List.filterMap_cons_none hl], ht⟩
    | some d =>
      obtain ⟨a', ha, hR'⟩ := h.visible hR hc hst hl
      obtain ⟨b, hb, ht⟩ := ih hR'
      exact ⟨b, by rw [List.filterMap_cons_some hl]; exact .cons trivial ha hb, ht⟩

end Simulation

/-- Each step of a machine under a contract is answered by at most one step of another. -/
def Abstraction (step : σ → ε → Option σ) (C : Contract σ ε) (step' : α → δ → Option α)
    (R : σ → α → Prop) : Prop :=
  ∀ ⦃s e s' a⦄, R s a → C s e → step s e = some s' → R s' a ∨ ∃ d a', step' a d = some a' ∧ R s' a'

namespace Abstraction

variable {step : σ → ε → Option σ} {C : Contract σ ε} {step' : α → δ → Option α}
  {R : σ → α → Prop} {s t : σ} {a : α}

theorem reachable (h : Abstraction step C step' R) (hR : R s a) (hs : Reachable step C s t) :
    ∃ b, Reachable step' ⊤ a b ∧ R t b := by
  obtain ⟨es, hr⟩ := hs
  induction hr generalizing a with
  | nil => exact ⟨a, Reachable.refl a, hR⟩
  | cons hc hst _ ih =>
    rcases h hR hc hst with hsilent | ⟨d, a', ha, hR'⟩
    · exact ih hsilent
    · obtain ⟨b, ⟨ds, hb⟩, ht⟩ := ih hR'
      exact ⟨b, ⟨d :: ds, .cons trivial ha hb⟩, ht⟩

end Abstraction

end Reactive
