import DtProject.Production.Observation

/-! # Contracts of the engine's sockets

What the engine promises of `IWebSocket`, each promise a contract on the events
it may raise. Results on runs name the promises they need and no others.
-/

namespace DtProject

open Reactive

namespace Callback

def isConnection : Callback → Bool
  | onMessage _ => false
  | _ => true

end Callback

/-- A socket delivers at most one of `OnClosed` and `OnConnectionError`, and at most once. -/
def TerminalOnce : Contract World Event
  | w, .callback s c => c.isTerminal = true → w.live s = true
  | _, _ => True

/-- `IsConnected` is false from the first terminal callback of a socket on. -/
def IsConnectedSound : Contract World Event
  | w, .timer _ isConnected | w, .deinitializeSubsystem isConnected =>
    isConnected = true → ∀ s ∈ w.webSocket, w.live s = true
  | _, _ => True

/-- A socket delivers `OnConnected` at most once and before any terminal callback. -/
def ConnectsOnce : Contract World Event
  | w, .callback s .onConnected =>
    ∀ k ∈ w.sockets[s]?, k.delivered.any Callback.isConnection = false
  | _, _ => True

/-- After its first terminal callback a socket delivers at most one more for each `Close`. -/
def AnswersClose : Contract World Event
  | w, .callback s c => c.isTerminal = true →
    ∀ k ∈ w.sockets[s]?, k.delivered.countP Callback.isTerminal ≤ k.closes
  | _, _ => True

/-- `IsConnected` answers whether the current socket is up. -/
def IsConnectedExact : Contract World Event
  | w, .timer _ isConnected | w, .deinitializeSubsystem isConnected =>
    isConnected = w.currentUp
  | _, _ => True

/-- The promises of an engine that ends each socket once. -/
abbrev Promised : Contract World Event := TerminalOnce ⊓ ConnectsOnce ⊓ IsConnectedSound

section Decidable

instance : ∀ w e, Decidable (TerminalOnce w e)
  | w, .callback s c => inferInstanceAs (Decidable (c.isTerminal = true → w.live s = true))
  | _, .timer .. | _, .setBackendWebSocketUrl _ | _, .deinitializeSubsystem _ => .isTrue trivial

instance : ∀ w e, Decidable (IsConnectedSound w e)
  | w, .timer _ b | w, .deinitializeSubsystem b =>
    inferInstanceAs (Decidable (b = true → ∀ s ∈ w.webSocket, w.live s = true))
  | _, .callback .. | _, .setBackendWebSocketUrl _ => .isTrue trivial

instance : ∀ w e, Decidable (ConnectsOnce w e)
  | w, .callback s .onConnected => inferInstanceAs
    (Decidable (∀ k ∈ w.sockets[s]?, k.delivered.any Callback.isConnection = false))
  | _, .callback _ (.onMessage _) | _, .callback _ (.onClosed ..)
  | _, .callback _ (.onConnectionError _) | _, .timer .. | _, .setBackendWebSocketUrl _
  | _, .deinitializeSubsystem _ => .isTrue trivial

instance : ∀ w e, Decidable (AnswersClose w e)
  | w, .callback s c => inferInstanceAs (Decidable (c.isTerminal = true →
      ∀ k ∈ w.sockets[s]?, k.delivered.countP Callback.isTerminal ≤ k.closes))
  | _, .timer .. | _, .setBackendWebSocketUrl _ | _, .deinitializeSubsystem _ => .isTrue trivial

instance : ∀ w e, Decidable (IsConnectedExact w e)
  | w, .timer _ b | w, .deinitializeSubsystem b => inferInstanceAs (Decidable (b = w.currentUp))
  | _, .callback .. | _, .setBackendWebSocketUrl _ => .isTrue trivial

instance (C D : Contract World Event) (w : World) (e : Event) [Decidable (C w e)]
    [Decidable (D w e)] : Decidable ((C ⊓ D) w e) :=
  inferInstanceAs (Decidable (_ ∧ _))

end Decidable

end DtProject
