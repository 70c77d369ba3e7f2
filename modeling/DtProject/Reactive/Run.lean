import Mathlib.Order.Lattice
import Mathlib.Order.BooleanAlgebra.Basic
import Mathlib.Data.List.Infix

/-! # Runs of event-driven machines

A machine answers the events of an environment by partial deterministic steps.
A contract says which events the environment may raise in a state, and a run
under a contract meets it at every step. An invariant passes from single steps
to runs. A property that each step preserves under an exact condition holds
along a run precisely when every step of the run meets the condition.
-/

namespace Reactive

variable {σ ε : Type*}

/-- The events an environment may raise in each state. -/
abbrev Contract (σ ε : Type*) := σ → ε → Prop

instance (s : σ) (e : ε) : Decidable ((⊤ : Contract σ ε) s e) := .isTrue trivial

/-- Runs that meet the contract at every step, with the events raised on the way. -/
inductive Run (step : σ → ε → Option σ) (C : Contract σ ε) : σ → List ε → σ → Prop where
  | nil (s : σ) : Run step C s [] s
  | cons {s s' t : σ} {e : ε} {es : List ε} : C s e → step s e = some s' →
      Run step C s' es t → Run step C s (e :: es) t

def Reachable (step : σ → ε → Option σ) (C : Contract σ ε) (s t : σ) : Prop :=
  ∃ es, Run step C s es t

/-- Execute a list of events, stopping at a step that is disabled or breaks the contract. -/
def exec (step : σ → ε → Option σ) (C : Contract σ ε) [∀ s e, Decidable (C s e)] :
    σ → List ε → Option σ
  | s, [] => some s
  | s, e :: es => if C s e then (step s e).bind fun s' => exec step C s' es else none

variable {step : σ → ε → Option σ} {C D : Contract σ ε} {s s' t u : σ} {e : ε} {es fs : List ε}

namespace Run

@[simp] theorem nil_iff : Run step C s [] t ↔ s = t := by
  constructor
  · intro h; cases h; rfl
  · rintro rfl; exact .nil _

theorem cons_iff : Run step C s (e :: es) t ↔
    C s e ∧ ∃ s', step s e = some s' ∧ Run step C s' es t := by
  constructor
  · intro h; cases h with | cons hc hs hr => exact ⟨hc, _, hs, hr⟩
  · rintro ⟨hc, s', hs, hr⟩; exact .cons hc hs hr

theorem single (hc : C s e) (hs : step s e = some t) : Run step C s [e] t :=
  .cons hc hs (.nil _)

theorem append (h : Run step C s es t) (h' : Run step C t fs u) : Run step C s (es ++ fs) u := by
  induction h with
  | nil => exact h'
  | cons hc hs _ ih => exact .cons hc hs (ih h')

theorem mono (hCD : C ≤ D) (h : Run step C s es t) : Run step D s es t := by
  induction h with
  | nil s => exact .nil s
  | cons hc hs _ ih => exact .cons (hCD _ _ hc) hs ih

/-- A property that every step under the contract preserves is preserved by runs. -/
theorem invariant {I : σ → Prop} (h : Run step C s es t) (hs : I s)
    (hstep : ∀ s e s', I s → C s e → step s e = some s' → I s') : I t := by
  induction h with
  | nil => exact hs
  | cons hc hst _ ih => exact ih (hstep _ _ _ hs hc hst)

theorem ranked {I : ℕ → σ → Prop} {p : ε → Bool} {n : ℕ} (h : Run step C s es t) (hs : I n s)
    (hstep : ∀ n s e s', I n s → C s e → step s e = some s' → ∃ m ≤ n - (p e).toNat, I m s') :
    ∃ m ≤ n - es.countP p, I m t := by
  induction h generalizing n with
  | nil => exact ⟨n, le_rfl, hs⟩
  | @cons s s' t e es hc hst _ ih =>
    obtain ⟨m, hm, hI⟩ := hstep n s e s' hs hc hst
    obtain ⟨l, hl, hI'⟩ := ih hI
    have hcount : (e :: es).countP p = es.countP p + (p e).toNat := by
      rw [List.countP_cons]
      cases p e <;> rfl
    exact ⟨l, by omega, hI'⟩

/-- A rank that no step raises, and that each step under an event of a kind lowers, bounds the
number of these events. -/
theorem countP_le {I : ℕ → σ → Prop} {p : ε → Bool} {n : ℕ} (h : Run step C s es t) (hs : I n s)
    (hstep : ∀ n s e s', I n s → C s e → step s e = some s' → ∃ m, m + (p e).toNat ≤ n ∧ I m s') :
    es.countP p ≤ n := by
  induction h generalizing n with
  | nil => exact Nat.zero_le n
  | @cons s s' t e es hc hst _ ih =>
    obtain ⟨m, hm, hI⟩ := hstep n s e s' hs hc hst
    have hrest := ih hI
    have hcount : (e :: es).countP p = es.countP p + (p e).toNat := by
      rw [List.countP_cons]
      cases p e <;> rfl
    omega

theorem length_le {I : ℕ → σ → Prop} {n : ℕ} (h : Run step C s es t) (hs : I n s)
    (hstep : ∀ n s e s', I n s → C s e → step s e = some s' → ∃ m < n, I m s') :
    es.length ≤ n := by
  have hcount : es.countP (fun _ => true) ≤ n :=
    h.countP_le hs fun n s e s' hI hc hst =>
      let ⟨m, hm, hI'⟩ := hstep n s e s' hI hc hst
      ⟨m, hm, hI'⟩
  simpa using hcount

/-- Along a run, a property that starts true and that each step preserves exactly when `Q`
holds before it is true in every state precisely when each step meets `Q`. -/
theorem always_iff {I : σ → Prop} {Q : Contract σ ε} (h : Run step C s es t) (hs : I s)
    (hstep : ∀ s e s', I s → C s e → step s e = some s' → (I s' ↔ Q s e)) :
    (∀ pre v, pre <+: es → Run step C s pre v → I v) ↔ Run step Q s es t := by
  induction h with
  | nil s =>
    refine ⟨fun _ => .nil s, fun _ pre v hp hv => ?_⟩
    obtain rfl := List.prefix_nil.mp hp
    exact nil_iff.mp hv ▸ hs
  | @cons s s' t e es hc hst hr ih =>
    have hI := hstep s e s' hs hc hst
    constructor
    · intro hall
      have hs' : I s' := hall [e] s' (List.prefix_append [e] es) (single hc hst)
      refine .cons (hI.mp hs') hst ((ih hs').mp fun pre v hp hv => ?_)
      exact hall (e :: pre) v (List.cons_prefix_cons.mpr ⟨rfl, hp⟩) (.cons hc hst hv)
    · intro hrun pre v hp hv
      obtain ⟨hq, s₂, hs₂, hr₂⟩ := cons_iff.mp hrun
      obtain rfl : s' = s₂ := Option.some.inj (hst.symm.trans hs₂)
      have hs' : I s' := hI.mpr hq
      cases hv with
      | nil => exact hs
      | cons _ hst₂ hv =>
        obtain ⟨rfl, hpre⟩ := List.cons_prefix_cons.mp hp
        obtain rfl : s' = _ := Option.some.inj (hst.symm.trans hst₂)
        exact (ih hs').mpr hr₂ _ v hpre hv

end Run

namespace Reachable

theorem refl (s : σ) : Reachable step C s s := ⟨[], .nil s⟩

theorem tail (h : Reachable step C s t) (hc : C t e) (hs : step t e = some u) :
    Reachable step C s u :=
  let ⟨es, hr⟩ := h
  ⟨es ++ [e], hr.append (.single hc hs)⟩

theorem invariant {I : σ → Prop} (h : Reachable step C s t) (hs : I s)
    (hstep : ∀ s e s', I s → C s e → step s e = some s' → I s') : I t :=
  let ⟨_, hr⟩ := h
  hr.invariant hs hstep

end Reachable

theorem exec_eq_some_iff [∀ s e, Decidable (C s e)] :
    exec step C s es = some t ↔ Run step C s es t := by
  induction es generalizing s with
  | nil => simp [exec]
  | cons e es ih =>
    simp only [exec, Run.cons_iff]
    split
    · rename_i hc
      simp only [Option.bind_eq_some_iff, ih, hc, true_and]
    · rename_i hc
      simp only [hc, reduceCtorEq, false_and]

theorem reachable_of_exec [∀ s e, Decidable (C s e)] (es : List ε)
    (h : exec step C s es = some t) : Reachable step C s t := ⟨es, exec_eq_some_iff.mp h⟩

end Reactive
