import DtProject.Production.Transition
import DtProject.Reconnection.Contract

/-! # Which timers are pending

The timer of `Initialize` is pending alone until it fires, and from then on
there is a current socket and every timer is a retry. The unguarded lambda thus
never meets a socket, and `Connect` replaces one only on a retry timer.
-/

namespace DtProject

open Reactive

variable {P : Platform} {w w' : World} {e : Event} {url : String} {i : ℕ} {t : Timer} {b : Bool}

def initialTimer : Timer := ⟨.connect, 500⟩

def retryTimer : Timer := ⟨.reconnect, 3000⟩

/-- The initial timer is alone, or all timers are retries and there is a current socket. -/
def InitialFirst (w : World) : Prop :=
  w.sockets = [] ∧ w.webSocket = none ∧ w.timers = [initialTimer] ∨
    w.webSocket.isSome ∧ ∀ t ∈ w.timers, t = retryTimer

theorem mem_takeTimer (h : t ∈ (w.takeTimer i).timers) : t ∈ w.timers :=
  List.mem_of_mem_eraseIdx h

theorem initialFirst_connect (h : InitialFirst w) (ht : w.timers[i]? = some t) :
    InitialFirst (connect (w.takeTimer i)) := by
  right
  refine ⟨by rw [connect_webSocket]; rfl, ?_⟩
  rw [connect_timers]
  rcases h with ⟨-, -, hw⟩ | ⟨-, hw⟩
  · -- The initial timer was alone, so none is left.
    obtain ⟨hi, -⟩ := List.getElem?_eq_some_iff.mp ht
    obtain rfl : i = 0 := by rw [hw] at hi; simpa using hi
    rw [World.takeTimer, hw]
    intro u hu
    cases hu
  · exact fun u hu => hw u (mem_takeTimer hu)

theorem InitialFirst.started {s : ℕ} (h : InitialFirst w) (hs : s < w.sockets.length) :
    w.webSocket.isSome ∧ ∀ t ∈ w.timers, t = retryTimer := by
  rcases h with ⟨hnil, -, -⟩ | h
  · rw [hnil] at hs
    exact absurd hs (Nat.not_lt_zero s)
  · exact h

theorem initialFirst_step (h : InitialFirst w) (hst : step P w e = some w') :
    InitialFirst w' := by
  cases transition_of_step hst with
  | connect ht => exact initialFirst_connect h ht
  | skip ht hskip =>
    rcases h with ⟨-, -, hw⟩ | ⟨hcur, hw⟩
    · -- The lambda of the initial timer is never skipped.
      have hmem := List.mem_of_getElem? ht
      rw [hw, List.mem_singleton] at hmem
      subst hmem
      cases hskip
    · exact Or.inr ⟨hcur, fun u hu => hw u (mem_takeTimer hu)⟩
  | connected hs => exact Or.inr (h.started hs)
  | ignored hs => exact Or.inr (h.started hs)
  | message hs => exact Or.inr (h.started hs)
  | terminal hs =>
    obtain ⟨hcur, hw⟩ := h.started hs
    refine Or.inr ⟨hcur, fun u hu => ?_⟩
    rcases List.mem_cons.mp hu with rfl | hu
    · rfl
    · exact hw u hu
  | editUrl => exact h
  | shutDown =>
    rcases h with ⟨hnil, hnone, hw⟩ | ⟨hcur, hw⟩
    · left
      refine ⟨?_, by rwa [deinitializeSubsystem_webSocket], by rwa [deinitializeSubsystem_timers]⟩
      change (w.closeConnected _).sockets = []
      rw [World.closeConnected, hnone]
      exact hnil
    · right
      rw [deinitializeSubsystem_webSocket, deinitializeSubsystem_timers]
      exact ⟨hcur, hw⟩

theorem initialFirst_reachable {C : Contract World Event}
    (h : Reachable (step P) C (start url) w) : InitialFirst w :=
  h.invariant (Or.inl ⟨rfl, rfl, rfl⟩) fun _ _ _ hw _ hst => initialFirst_step hw hst

theorem isConnected_denied (h : InitialFirst w) (ht : w.timers[i]? = some t)
    (hb : t.callback.connects w b = true) : w.webSocket = none ∨ b = false := by
  have hmem := List.mem_of_getElem? ht
  rcases h with ⟨-, hnone, -⟩ | ⟨hcur, hw⟩
  · exact Or.inl hnone
  · obtain rfl := hw t hmem
    have hguard : (w.webSocket.isNone || !b) = true := hb
    rw [Option.isNone_eq_false_iff.mpr hcur, Bool.false_or, Bool.not_eq_true'] at hguard
    exact Or.inr hguard

end DtProject
