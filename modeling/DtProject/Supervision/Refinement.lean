import DtProject.Reactive.Simulation
import DtProject.Reconnection.SingleFlight
import DtProject.Status.Agreement
import DtProject.Supervision.Basic

/-! # The subsystem is a supervised connection

While the engine keeps its promises, exactly one of a pending timer and a live
socket exists at any time, so the world is in one phase of a supervised
connection. Timers are its attempts, and the callbacks of sockets its gains and
losses.
-/

namespace DtProject

open Reactive Supervision

variable {P : Platform} {w w' : World} {e : Event} {es : List Event} {url : String} {s : ℕ}
  {c : Callback}

namespace WebSocket

variable {k : WebSocket}

theorem reported_of_upAfter {cs : List Callback} (h : upAfter cs = true) :
    cs.any Callback.isConnection = true := by
  induction cs with
  | nil => cases h
  | cons c cs ih =>
    cases c with
    | onMessage m => exact ih h
    | onConnected | onClosed | onConnectionError => rfl

theorem live_of_not_reported (h : k.delivered.any Callback.isConnection = false) :
    k.live = true := by
  rw [live, Bool.not_eq_true', List.any_eq_false]
  intro c hc ht
  have hn := List.any_eq_false.mp h c hc
  cases c with
  | onConnected | onMessage => cases ht
  | onClosed | onConnectionError => exact hn rfl

end WebSocket

theorem live_and_not_up (hs : s < w.sockets.length)
    (hc : ConnectsOnce w (.callback s .onConnected)) : w.live s = true ∧ w.up s = false := by
  have hk := List.getElem?_eq_getElem hs
  have hn := hc _ hk
  constructor
  · rw [World.live, hk]
    exact WebSocket.live_of_not_reported hn
  · rw [World.up, hk, Bool.eq_false_iff]
    intro hup
    exact Bool.noConfusion (hn.symm.trans (WebSocket.reported_of_upAfter hup))

def UpLive (w : World) : Prop := ∀ s, w.up s = true → w.live s = true

theorem upLive_deliver (h : UpLive w) (hc : c = .onConnected → w.live s = true) :
    UpLive (w.deliver s c) := by
  intro t ht
  by_cases hst : s = t
  · subst hst
    cases c with
    | onConnected => rw [World.live_deliver_of_not_terminal rfl]; exact hc rfl
    | onMessage m =>
      rw [World.up_deliver_message] at ht
      rw [World.live_deliver_of_not_terminal rfl]
      exact h s ht
    | onClosed | onConnectionError => rw [World.up_deliver_terminal rfl] at ht; cases ht
  · rw [World.up_deliver_ne hst] at ht
    rw [World.live_deliver, decide_eq_false hst, Bool.false_and, Bool.not_false, Bool.and_true]
    exact h t ht

theorem upLive_step (h : UpLive w) (hc : ConnectsOnce w e) (hst : step P w e = some w') :
    UpLive w' := by
  cases transition_of_step hst with
  | connect =>
    intro s hs
    rw [up_connect] at hs
    rw [live_connect, Bool.or_eq_true]
    exact Or.inl (h s hs)
  | skip => exact h
  | connected hs => exact upLive_deliver h fun _ => (live_and_not_up hs hc).1
  | ignored => exact upLive_deliver h (by rintro ⟨⟩)
  | @message s m => exact upLive_deliver (s := s) (c := .onMessage m) h (by rintro ⟨⟩)
  | @terminal s c _ _ ht =>
    exact upLive_deliver (s := s) (c := c) h (by rintro rfl; cases ht)
  | editUrl => exact h
  | shutDown =>
    intro s hs
    rw [up_deinitializeSubsystem] at hs
    rw [live_deinitializeSubsystem]
    exact h s hs

section Phase

/-- One token, held by a timer or by the current socket. -/
structure Disciplined (w : World) : Prop where
  tokens : w.tokens = 1
  supervised : Supervised w
  upLive : UpLive w

theorem disciplined_step (h : Disciplined w) (hc : Promised w e) (hst : step P w e = some w') :
    Disciplined w' := by
  have hsup := supervised_step h.supervised hc.2 hst
  have htok := tokens_step hc.1.1 hst
  have hpos := tokens_pos hsup
  exact ⟨by have := h.tokens; omega, hsup, upLive_step h.upLive hc.1.2 hst⟩

theorem disciplined_start (url : String) : Disciplined (start url) :=
  ⟨rfl, Or.inl (List.cons_ne_nil _ _), fun _ hs => by cases hs⟩

theorem Disciplined.waiting (h : Disciplined w) (hw : w.timers ≠ []) :
    w.timers.length = 1 ∧ ∀ s, w.live s = false := by
  have hlen := List.length_pos_iff.mpr hw
  have htok : w.timers.length + w.liveCount = 1 := h.tokens
  refine ⟨by omega, fun s => Bool.eq_false_iff.mpr fun hs => ?_⟩
  have hlive := World.liveCount_pos hs
  omega

theorem Disciplined.attached (h : Disciplined w) (hs : w.live s = true) :
    w.timers = [] ∧ w.webSocket = some s := by
  have hnil : w.timers = [] := by
    by_contra hw
    exact Bool.noConfusion (((h.waiting hw).2 s).symm.trans hs)
  rcases h.supervised with hw | hcur
  · exact absurd hnil hw
  · obtain ⟨t, ht, hlt⟩ := (Option.any_eq_true _ _).mp hcur
    have htok : w.timers.length + w.liveCount = 1 := h.tokens
    obtain rfl := World.live_unique (by omega) hs hlt
    exact ⟨hnil, ht⟩

namespace World

def phase (w : World) : Phase :=
  if w.timers = [] then if w.currentUp then .connected else .attempting else .waiting

/-- The supervised connection that the world implements. -/
def supervision (w : World) : State := ⟨w.phase, w.told, w.connects⟩

theorem phase_waiting (h : w.timers ≠ []) : w.phase = .waiting := if_neg h

theorem phase_connected (h : w.timers = []) (hup : w.currentUp = true) :
    w.phase = .connected := by
  rw [phase, if_pos h, if_pos hup]

theorem phase_attempting (h : w.timers = []) (hup : w.currentUp = false) :
    w.phase = .attempting := by
  rw [phase, if_pos h, hup]
  rfl

end World

def Event.change : Event → Option Change
  | .timer .. => some .attempt
  | .callback _ .onConnected => some .connect
  | .callback _ (.onClosed ..) | .callback _ (.onConnectionError _) => some .lose
  | _ => none

end Phase

section Steps

theorem supervision_timer {i : ℕ} {b : Bool} (h : Disciplined w)
    (hc : IsConnectedSound w (.timer i b)) (hst : step P w (.timer i b) = some w') :
    Supervision.step w.supervision .attempt = some w'.supervision := by
  cases transition_of_step hst with
  | @connect _ t _ ht =>
    have hw : w.timers ≠ [] := by rintro hnil; simp [hnil] at ht
    have hlen := length_takeTimer ht
    have hnil : (connect (w.takeTimer i)).timers = [] := by
      rw [connect_timers]
      exact List.length_eq_zero_iff.mp (by have := (h.waiting hw).1; omega)
    have hphase := World.phase_attempting hnil (currentUp_connect _)
    have htold : (connect (w.takeTimer i)).told = w.told := told_connect _
    have hconn := connect_connects (w.takeTimer i)
    simp only [World.supervision, World.phase_waiting hw, hphase, htold, hconn]
    rfl
  | skip ht hskip =>
    have hw : w.timers ≠ [] := by rintro hnil; simp [hnil] at ht
    obtain ⟨s, -, hs⟩ := (Option.any_eq_true _ _).mp (currentLive_of_skip hc hskip)
    exact Bool.noConfusion (((h.waiting hw).2 s).symm.trans hs)

theorem supervision_connected (h : Disciplined w)
    (hc : ConnectsOnce w (.callback s .onConnected))
    (hst : step P w (.callback s .onConnected) = some w') :
    Supervision.step w.supervision .connect = some w'.supervision := by
  cases transition_of_step hst with
  | connected hs =>
    obtain ⟨hlive, hup⟩ := live_and_not_up hs hc
    obtain ⟨hnil, hcur⟩ := h.attached hlive
    have hbefore : w.phase = .attempting := by
      apply World.phase_attempting hnil
      rw [World.currentUp, hcur]
      exact hup
    have hafter : (onConnected (w.deliver s .onConnected)).phase = .connected := by
      apply World.phase_connected
      · exact hnil
      · exact (currentUp_deliver_current hcur).trans (World.up_deliver_connected hs)
    simp only [World.supervision, hbefore, hafter]
    rfl
  | terminal _ ht => cases ht

theorem supervision_terminal (h : Disciplined w) (ht : c.isTerminal = true)
    (hc : TerminalOnce w (.callback s c)) (hst : step P w (.callback s c) = some w') :
    Supervision.step w.supervision .lose = some w'.supervision := by
  cases transition_of_step hst with
  | connected | ignored | message => cases ht
  | @terminal _ _ reason hs _ =>
    obtain ⟨hnil, -⟩ := h.attached (hc ht)
    have hafter : (disconnected (w.deliver s c) reason).phase = .waiting :=
      World.phase_waiting (List.cons_ne_nil _ _)
    simp only [World.supervision, hafter]
    cases hup : w.currentUp with
    | false => rw [World.phase_attempting hnil hup]; rfl
    | true => rw [World.phase_connected hnil hup]; rfl

theorem supervision_silent (he : e.change = none) (hst : step P w e = some w') :
    w'.supervision = w.supervision := by
  cases transition_of_step hst with
  | connect | skip | connected => cases he
  | @terminal _ c _ _ ht =>
    cases c with
    | onConnected | onMessage => cases ht
    | onClosed | onConnectionError => cases he
  | editUrl => rfl
  | @ignored s m =>
    have hup : (w.deliver s (.onMessage m)).currentUp = w.currentUp := currentUp_deliver_message
    simp only [World.supervision, World.phase, hup]
    rfl
  | @message s m b _ hm =>
    have hup : ((w.deliver s (.onMessage m)).broadcast b).currentUp = w.currentUp :=
      currentUp_deliver_message
    have htold : ((w.deliver s (.onMessage m)).broadcast b).told = w.told := 
      World.told_broadcast_message hm
    simp only [World.supervision, World.phase, hup, htold]
    rfl
  | @shutDown b =>
    simp only [World.supervision, World.phase, deinitializeSubsystem_timers,
      currentUp_deinitializeSubsystem, World.told, deinitializeSubsystem_broadcasts,
      deinitializeSubsystem_connects]

/-- The world simulates its supervised connection. -/
theorem simulation (P : Platform) : Simulation (step P) Promised Supervision.step Event.change
    fun w a => Disciplined w ∧ a = w.supervision where
  visible := by
    rintro w w' a e d ⟨h, rfl⟩ hc hst hd
    refine ⟨w'.supervision, ?_, disciplined_step h hc hst, rfl⟩
    cases e with
    | timer i b => cases hd; exact supervision_timer h hc.2 hst
    | callback s c =>
      cases c with
      | onConnected => cases hd; exact supervision_connected h hc.1.2 hst
      | onMessage m => cases hd
      | onClosed | onConnectionError => cases hd; exact supervision_terminal h rfl hc.1.1 hst
    | setBackendWebSocketUrl | deinitializeSubsystem => cases hd
  silent := by
    rintro w w' a e ⟨h, rfl⟩ hc hst he
    exact ⟨disciplined_step h hc hst, (supervision_silent he hst).symm⟩

end Steps

/-- Every run of the subsystem is a run of its supervised connection, event for event. -/
theorem refines_supervision (h : Run (step P) Promised (start url) es w) :
    Run Supervision.step ⊤ Supervision.start (es.filterMap Event.change) w.supervision := by
  obtain ⟨a, hr, -, rfl⟩ := (simulation P).run ⟨disciplined_start url, rfl⟩ h
  exact hr

theorem disciplined_reachable (h : Reachable (step P) Promised (start url) w) : Disciplined w :=
  h.invariant (disciplined_start url) fun _ _ _ hw hc hst => disciplined_step hw hc hst

theorem Disciplined.phase_connected_iff (h : Disciplined w) :
    w.phase = .connected ↔ w.currentUp = true := by
  constructor
  · intro hphase
    unfold World.phase at hphase
    split_ifs at hphase with _ hup
    exact hup
  · intro hup
    obtain ⟨s, hcur, hs⟩ := (Option.any_eq_true _ _).mp hup
    exact World.phase_connected (h.attached (h.upLive s hs)).1 hup

/-- While the engine keeps its promises, listeners see whether the current socket is up, and
`Connect` has been entered once more than they were told of a loss, unless a timer is pending. -/
theorem supervision_accounted (h : Reachable (step P) Promised (start url) w) :
    w.status = w.currentUp ∧
      w.connects = w.told.count false + if w.timers = [] then 1 else 0 := by
  obtain ⟨es, hr⟩ := h
  have hacc := accounted_reachable ⟨_, refines_supervision hr⟩
  have hw := disciplined_reachable ⟨es, hr⟩
  constructor
  · rw [Bool.eq_iff_iff, ← hw.phase_connected_iff]
    have hstatus : w.status = decide (w.phase = .connected) := hacc.status
    rw [hstatus, decide_eq_true_eq]
  · have hatt : w.connects = w.told.count false + if w.phase = .waiting then 0 else 1 :=
      hacc.attempts
    rw [hatt]
    congr 1
    unfold World.phase
    split_ifs <;> simp_all

theorem supervision_accounted_failedAttempt : ∃ w,
    exec (step (referencePlatform [])) Promised (start defaultUrl) failedAttempt = some w ∧
      w.status = w.currentUp ∧ w.connects = 2 := by
  have hexec : ∃ w, exec (step (referencePlatform [])) Promised (start defaultUrl) failedAttempt =
      some w ∧ w.told.count false = 1 ∧ w.timers = [] := ⟨_, rfl, rfl, rfl⟩
  obtain ⟨w, hexec, htold, htimers⟩ := hexec
  obtain ⟨hstatus, hconnects⟩ := supervision_accounted (reachable_of_exec failedAttempt hexec)
  rw [htold, if_pos htimers] at hconnects
  exact ⟨w, hexec, hstatus, hconnects⟩

end DtProject
