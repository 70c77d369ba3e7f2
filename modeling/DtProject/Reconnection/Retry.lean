import DtProject.Platform.Reference
import DtProject.Production.Transition
import DtProject.Reconnection.Contract

/-! # No reconnection is lost

Either a timer is pending or the current socket still owes its first terminal
callback. A terminal callback of any socket sets a timer, and a timer is spent
without `Connect` only on a socket that `IsConnected` vouches for.
-/

namespace DtProject

open Reactive

variable {P : Platform} {w w' : World} {e : Event} {url : String} {s : ℕ} {c : Callback}

def Supervised (w : World) : Prop := w.timers ≠ [] ∨ w.currentLive = true

theorem supervised_connect (w : World) : Supervised (connect w) := by
  right
  simp [World.currentLive]

theorem supervised_disconnected (w : World) (reason : String) :
    Supervised (disconnected w reason) :=
  Or.inl (List.cons_ne_nil _ _)

theorem currentLive_of_skip {t : TimerCallback} {b : Bool}
    (hc : b = true → ∀ s ∈ w.webSocket, w.live s = true) (ht : t.connects w b = false) :
    w.currentLive = true := by
  cases t with
  | connect => simp [TimerCallback.connects] at ht
  | reconnect =>
    simp only [TimerCallback.connects, Bool.or_eq_false_iff, Bool.not_eq_false',
      Option.isNone_eq_false_iff] at ht
    obtain ⟨s, hs⟩ := Option.isSome_iff_exists.mp ht.1
    exact (Option.any_eq_true _ _).mpr ⟨s, hs, hc ht.2 s hs⟩

theorem currentLive_deliver (w : World) (s : ℕ) (hc : c.isTerminal = false) :
    (w.deliver s c).currentLive = w.currentLive :=
  congrArg (Option.any · w.webSocket)
    (funext fun _ => World.live_deliver_of_not_terminal hc)

theorem supervised_deliver (w : World) (s : ℕ) (hc : c.isTerminal = false)
    (h : Supervised w) : Supervised (w.deliver s c) :=
  h.imp id fun hl => (currentLive_deliver w s hc).trans hl

theorem supervised_step (h : Supervised w) (hc : IsConnectedSound w e)
    (hst : step P w e = some w') : Supervised w' := by
  cases transition_of_step hst with
  | connect => exact supervised_connect _
  | skip _ ht => exact Or.inr (currentLive_of_skip hc ht)
  | @connected s => exact supervised_deliver w s (c := .onConnected) rfl h
  | @ignored s m => exact supervised_deliver w s (c := .onMessage m) rfl h
  | @message s m => exact supervised_deliver w s (c := .onMessage m) rfl h
  | terminal => exact supervised_disconnected _ _
  | editUrl => exact h
  | shutDown => simpa [Supervised] using h

theorem supervised_reachable (h : Reachable (step P) IsConnectedSound (start url) w) :
    Supervised w :=
  h.invariant (Or.inl (List.cons_ne_nil _ _)) fun _ _ _ hw hc hst => supervised_step hw hc hst

/-- No reconnection is lost, however many callbacks sockets deliver: a timer is pending or the
current socket is live, and a timer that skips `Connect` leaves a live current socket. -/
theorem reconnection_not_lost (h : Reachable (step P) IsConnectedSound (start url) w) :
    (w.timers ≠ [] ∨ ∃ s, w.webSocket = some s ∧ w.live s = true) ∧
      ∀ i b w', IsConnectedSound w (.timer i b) → step P w (.timer i b) = some w' →
        w'.connects = w.connects → ∃ s, w'.webSocket = some s ∧ w'.live s = true := by
  refine ⟨?_, ?_⟩
  · exact (supervised_reachable h).imp id (Option.any_eq_true _ _).mp
  · intro i b w' hc hst hskip
    cases transition_of_step hst with
    | connect => simp [World.takeTimer] at hskip
    | skip _ ht => exact (Option.any_eq_true _ _).mp (currentLive_of_skip hc ht)

/-- A socket reports an error and then a close, and its replacement connects between the two
retry timers. -/
def reportedTwice : List Event :=
  [.timer 0 false, .callback 0 (.onConnectionError ""), .callback 0 (.onClosed 1006 "" false),
    .timer 0 false, .callback 1 .onConnected]

theorem reconnection_not_lost_reportedTwice : ∃ w w',
    exec (step (referencePlatform [])) IsConnectedSound (start defaultUrl) reportedTwice = some w ∧
      step (referencePlatform []) w (.timer 0 true) = some w' ∧ w'.timers = [] ∧
      ∃ s, w'.webSocket = some s ∧ w'.live s = true := by
  refine ⟨_, _, rfl, rfl, rfl, ?_⟩
  have h : Reachable (step (referencePlatform [])) IsConnectedSound (start defaultUrl) _ :=
    reachable_of_exec reportedTwice rfl
  exact (reconnection_not_lost h).2 0 true _ (by decide) rfl rfl

end DtProject
