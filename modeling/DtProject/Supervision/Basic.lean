import DtProject.Reactive.Run

/-! # Supervised connections

What reconnection is for: one connection at a time is attempted, comes up, and
is lost, and each loss is followed by one more attempt. Listeners are told every
gain and every loss.
-/

namespace Supervision

open Reactive

inductive Phase where
  | waiting
  | attempting
  | connected
  deriving DecidableEq

inductive Change where
  | attempt
  | connect
  | lose
  deriving DecidableEq

/-- A supervised connection, with the statuses told to listeners, newest first. -/
structure State where
  phase : Phase
  told : List Bool
  attempts : ℕ

def start : State := ⟨.waiting, [], 0⟩

def State.status (s : State) : Bool := s.told.head?.getD false

def step : State → Change → Option State
  | ⟨.waiting, told, n⟩, .attempt => some ⟨.attempting, told, n + 1⟩
  | ⟨.attempting, told, n⟩, .connect => some ⟨.connected, true :: told, n⟩
  | ⟨.attempting, told, n⟩, .lose | ⟨.connected, told, n⟩, .lose =>
    some ⟨.waiting, false :: told, n⟩
  | _, _ => none

variable {s t : State} {c : Change}

/-- Listeners see the phase, and every attempt but the current one has been told lost. -/
structure Accounted (s : State) : Prop where
  status : s.status = decide (s.phase = .connected)
  attempts : s.attempts = s.told.count false + if s.phase = .waiting then 0 else 1

theorem accounted_step (h : Accounted s) (hst : step s c = some t) : Accounted t := by
  obtain ⟨phase, told, n⟩ := s
  have ha := h.attempts
  cases phase with
  | waiting =>
    cases c with
    | attempt => cases hst; exact ⟨h.status, by simpa using ha⟩
    | connect | lose => cases hst
  | attempting =>
    cases c with
    | attempt => cases hst
    | connect => cases hst; exact ⟨rfl, by simpa using ha⟩
    | lose => cases hst; exact ⟨rfl, by simpa using ha⟩
  | connected =>
    cases c with
    | attempt | connect => cases hst
    | lose => cases hst; exact ⟨rfl, by simpa using ha⟩

theorem accounted_reachable (h : Reachable step ⊤ start s) : Accounted s :=
  h.invariant ⟨rfl, rfl⟩ fun _ _ _ hs _ hst => accounted_step hs hst

end Supervision
