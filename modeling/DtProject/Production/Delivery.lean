import DtProject.Production.Transition

/-! # Delivery of decoded messages

Each message that some socket delivers is decoded once and broadcast once, in
the order of delivery. Nothing else broadcasts an event, so no update is lost,
repeated or reordered.
-/

namespace DtProject

open Reactive

variable {P : Platform} {w w' : World} {e : Event} {es : List Event}

def Event.message : Event → Option String
  | .callback _ (.onMessage message) => some message
  | _ => none

/-- The decoded events broadcast so far, newest first. -/
def World.updates (w : World) : List Broadcast :=
  w.broadcasts.filter fun b => b.bConnected.isNone

theorem updates_step (hst : step P w e = some w') :
    w'.updates = (e.message.bind (onMessage P)).toList ++ w.updates := by
  cases transition_of_step hst with
  | connect => exact congrArg (List.filter _) (connect_broadcasts _)
  | skip | connected | editUrl => rfl
  | ignored _ hm => simp only [Event.message, Option.bind_some, hm]; rfl
  | message _ hm =>
    simp only [Event.message, Option.bind_some, hm]
    exact List.filter_cons_of_pos (by rw [onMessage_bConnected hm]; rfl)
  | @terminal _ c _ _ ht =>
    cases c with
    | onConnected | onMessage => cases ht
    | onClosed | onConnectionError => rfl
  | shutDown => exact congrArg (List.filter _) (deinitializeSubsystem_broadcasts _ _)

theorem updates_run {C : Contract World Event} (h : Run (step P) C w es w') :
    w'.updates.reverse =
      w.updates.reverse ++ (es.filterMap Event.message).filterMap (onMessage P) := by
  induction h with
  | nil => simp
  | @cons w v w' e es _ hst _ ih =>
    rw [ih, updates_step hst, List.reverse_append, List.append_assoc]
    congr 1
    cases hm : e.message with
    | none => rw [List.filterMap_cons_none hm]; rfl
    | some m =>
      rw [List.filterMap_cons_some hm, List.filterMap_cons, Option.bind_some]
      cases onMessage P m <;> rfl

end DtProject
