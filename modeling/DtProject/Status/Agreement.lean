import DtProject.Platform.Reference
import DtProject.Reconnection.Timers

/-! # The status shown to listeners

The last value broadcast on `OnConnectionChanged` is meant to tell whether the
current socket is up. Handlers carry no socket identity and are never unbound,
so a replaced socket also moves the status. Agreement is kept by a step exactly
when no replaced socket contradicts the current one and no socket that is up is
replaced.
-/

namespace DtProject

open Reactive

variable {P : Platform} {w w' : World} {e : Event} {es : List Event} {url : String} {s : ℕ}
  {c : Callback}

/-- The last status broadcast is true exactly when the current socket is up. -/
def StatusAgrees (w : World) : Prop := w.status = w.currentUp

/-- `Connect` runs only while the current socket is not up. A replaced socket delivers
`OnConnected` only while the current one is up, and a terminal callback only while it is not. -/
def StatusKept : Contract World Event
  | w, .timer i isConnected =>
    ∀ t ∈ w.timers[i]?, t.callback.connects w isConnected = true → w.currentUp = false
  | w, .callback s c => w.webSocket ≠ some s →
    (c = .onConnected → w.currentUp = true) ∧ (c.isTerminal = true → w.currentUp = false)
  | _, _ => True

instance : ∀ w e, Decidable (StatusKept w e)
  | w, .timer i b => inferInstanceAs (Decidable
      (∀ t ∈ w.timers[i]?, t.callback.connects w b = true → w.currentUp = false))
  | w, .callback s c => inferInstanceAs (Decidable (w.webSocket ≠ some s →
      (c = .onConnected → w.currentUp = true) ∧ (c.isTerminal = true → w.currentUp = false)))
  | _, .setBackendWebSocketUrl _ | _, .deinitializeSubsystem _ => .isTrue trivial

theorem currentUp_connect (w : World) : (connect w).currentUp = false := by
  simp [World.currentUp, World.up_eq_false_of_length_le]

theorem currentUp_deliver_current (h : w.webSocket = some s) :
    (w.deliver s c).currentUp = (w.deliver s c).up s := by
  change w.webSocket.any (w.deliver s c).up = _
  rw [h]
  rfl

theorem currentUp_deliver_replaced (h : w.webSocket ≠ some s) :
    (w.deliver s c).currentUp = w.currentUp := by
  change w.webSocket.any (w.deliver s c).up = w.webSocket.any w.up
  cases hw : w.webSocket with
  | none => rfl
  | some t => exact World.up_deliver_ne fun hst => h (hst ▸ hw)

theorem currentUp_deliver_message {m : String} :
    (w.deliver s (.onMessage m)).currentUp = w.currentUp :=
  congrArg (Option.any · w.webSocket) (funext fun _ => World.up_deliver_message)

theorem statusKept_message {m : String} : StatusKept w (.callback s (.onMessage m)) :=
  fun _ => ⟨fun h => Callback.noConfusion h, fun h => Bool.noConfusion h⟩

theorem statusAgrees_connected (hs : s < w.sockets.length) :
    StatusAgrees (onConnected (w.deliver s .onConnected)) ↔
      StatusKept w (.callback s .onConnected) := by
  change true = (w.deliver s .onConnected).currentUp ↔ _
  by_cases h : w.webSocket = some s
  · rw [currentUp_deliver_current h, World.up_deliver_connected hs]
    simp [StatusKept, h]
  · rw [currentUp_deliver_replaced h, eq_comm]
    simp [StatusKept, h, Callback.isTerminal]

theorem statusAgrees_terminal {reason : String} (hc : c.isTerminal = true) :
    StatusAgrees (disconnected (w.deliver s c) reason) ↔ StatusKept w (.callback s c) := by
  have hne : c ≠ .onConnected := by rintro rfl; cases hc
  change false = (w.deliver s c).currentUp ↔ _
  by_cases h : w.webSocket = some s
  · rw [currentUp_deliver_current h, World.up_deliver_terminal hc]
    simp [StatusKept, h]
  · rw [currentUp_deliver_replaced h, eq_comm]
    simp [StatusKept, h, hc, hne]

theorem statusAgrees_connect {i : ℕ} {t : Timer} {b : Bool} (h : StatusAgrees w)
    (ht : w.timers[i]? = some t) (hb : t.callback.connects w b = true) :
    StatusAgrees (connect (w.takeTimer i)) ↔ StatusKept w (.timer i b) := by
  have hs : (connect (w.takeTimer i)).status = w.currentUp :=
    (World.status_of_told (told_connect _)).trans h
  rw [StatusAgrees, hs, currentUp_connect]
  simp [StatusKept, ht, hb]

/-- A step from an agreeing state keeps agreement exactly when it meets the condition. -/
theorem statusAgrees_step (h : StatusAgrees w) (hst : step P w e = some w') :
    StatusAgrees w' ↔ StatusKept w e := by
  cases transition_of_step hst with
  | connect ht hb => exact statusAgrees_connect h ht hb
  | skip ht hb => exact iff_of_true h (by simp [StatusKept, ht, hb])
  | connected hs => exact statusAgrees_connected hs
  | @ignored s m => exact iff_of_true (h.trans currentUp_deliver_message.symm) statusKept_message
  | @message s m b _ hm =>
    refine iff_of_true ?_ statusKept_message
    have htold := World.told_broadcast_message (w := w.deliver s (.onMessage m)) hm
    exact (World.status_of_told htold).trans (h.trans currentUp_deliver_message.symm)
  | terminal _ hc => exact statusAgrees_terminal hc
  | editUrl => exact iff_of_true h trivial
  | shutDown =>
    refine iff_of_true ?_ trivial
    rw [StatusAgrees, currentUp_deinitializeSubsystem]
    exact (World.status_of_told (told_deinitializeSubsystem w _)).trans h

/-- Along any run the status agrees with the current socket in every state precisely when every
step meets `StatusKept`. -/
theorem status_agrees_iff (h : Run (step P) ⊤ (start url) es w) :
    (∀ pre v, pre <+: es → Run (step P) ⊤ (start url) pre v → v.status = v.currentUp) ↔
      Run (step P) StatusKept (start url) es w :=
  h.always_iff (I := StatusAgrees) rfl fun _ _ _ hw _ hst => statusAgrees_step hw hst

/-- The first socket fails and is replaced. Its `Close` is answered while the replacement is
still connecting, and the replacement connects. -/
def answeredInTime : List Event :=
  [.timer 0 false, .callback 0 (.onConnectionError ""), .timer 0 false,
    .callback 0 (.onClosed 1006 "" false), .callback 1 .onConnected]

theorem status_agrees_iff_answeredInTime :
    ∃ w, exec (step (referencePlatform [])) StatusKept (start defaultUrl) answeredInTime = some w ∧
      w.currentUp = true ∧ w.status = w.currentUp := by
  refine ⟨_, rfl, rfl, ?_⟩
  have h : Run (step (referencePlatform [])) StatusKept (start defaultUrl) answeredInTime _ :=
    exec_eq_some_iff.mp rfl
  have htop := h.mono le_top
  exact (status_agrees_iff htop).mpr h _ _ (List.prefix_refl _) htop

/-- The same callbacks, with the `Close` answered after the replacement has connected. -/
def answeredLate : List Event :=
  [.timer 0 false, .callback 0 (.onConnectionError ""), .timer 0 false,
    .callback 1 .onConnected, .callback 0 (.onClosed 1006 "" false)]

/-- A late answer of the replaced socket flips the status of its replacement, although every
socket keeps the promises of the engine. -/
theorem status_disagrees_answeredLate :
    ¬ ∀ w, Reachable (step (referencePlatform [])) (ConnectsOnce ⊓ AnswersClose ⊓ IsConnectedExact)
      (start defaultUrl) w → w.status = w.currentUp := by
  intro h
  have hw := h _ (reachable_of_exec answeredLate rfl)
  exact absurd hw (by decide)

section ReplacedSilent

/-- Replaced sockets report no change of their connection. -/
def ReplacedSilent : Contract World Event
  | w, .callback s c => w.webSocket ≠ some s → c.isConnection = false
  | _, _ => True

theorem statusKept_timer {i : ℕ} {b : Bool} (h : InitialFirst w)
    (hc : IsConnectedExact w (.timer i b)) : StatusKept w (.timer i b) := by
  intro t ht hb
  rcases isConnected_denied h ht hb with hnone | rfl
  · rw [World.currentUp, hnone]
    rfl
  · exact hc.symm

theorem statusKept_of_silent (h : InitialFirst w) (hc : IsConnectedExact w e)
    (hs : ReplacedSilent w e) : StatusKept w e := by
  cases e with
  | timer i b => exact statusKept_timer h hc
  | callback s c =>
    intro hne
    have hquiet := hs hne
    cases c with
    | onMessage => exact ⟨by rintro ⟨⟩, by rintro ⟨⟩⟩
    | onConnected | onClosed | onConnectionError => cases hquiet
  | setBackendWebSocketUrl | deinitializeSubsystem => trivial

/-- The status agrees with the current socket as long as replaced sockets are silent. -/
theorem statusAgrees_of_silent
    (h : Reachable (step P) (IsConnectedExact ⊓ ReplacedSilent) (start url) w) :
    StatusAgrees w := by
  have hboth : InitialFirst w ∧ StatusAgrees w := by
    refine h.invariant (I := fun v => InitialFirst v ∧ StatusAgrees v)
      ⟨Or.inl ⟨rfl, rfl, rfl⟩, rfl⟩ ?_
    rintro v e v' ⟨hfirst, hagree⟩ ⟨hc, hs⟩ hst
    have hkept := statusKept_of_silent hfirst hc hs
    exact ⟨initialFirst_step hfirst hst, (statusAgrees_step hagree hst).mpr hkept⟩
  exact hboth.2

end ReplacedSilent

end DtProject
