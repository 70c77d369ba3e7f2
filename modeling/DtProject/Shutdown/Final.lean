import DtProject.Reconnection.Retry
import DtProject.Shutdown.Closing

/-! # Shutdown

After `Deinitialize` the subsystem should do nothing more and leave no live
socket open. It clears no timer and removes no handler, and supervision
survives it, so from every state in which it runs the subsystem enters
`Connect`, creates a socket and broadcasts again.
-/

namespace DtProject

open Reactive

variable {P : Platform} {w w' w₀ : World} {e : Event} {url : String} {s i : ℕ} {b : Bool}

/-- What remains to happen after shutdown: timers fire and sockets deliver callbacks. -/
def Leftover : Contract World Event
  | _, .timer .. | _, .callback .. => True
  | _, _ => False

instance : ∀ w e, Decidable (Leftover w e)
  | _, .timer .. | _, .callback .. => .isTrue trivial
  | _, .setBackendWebSocketUrl _ | _, .deinitializeSubsystem _ => .isFalse id

abbrev AfterShutdown : Contract World Event := Leftover ⊓ Promised

/-- Nothing happens after the shutdown that has led to `w₀`, and it has left no live socket
unclosed. -/
structure ShutdownFinal (P : Platform) (w₀ : World) : Prop where
  no_connect : ∀ es v, Run (step P) AfterShutdown w₀ es v → v.connects = w₀.connects
  no_socket : ∀ es v, Run (step P) AfterShutdown w₀ es v → v.sockets.length = w₀.sockets.length
  no_broadcast : ∀ es v, Run (step P) AfterShutdown w₀ es v → v.broadcasts = w₀.broadcasts
  closed : ∀ s, w₀.live s = true → 0 < w₀.closes s

section Resume

theorem connect_getElem?_new (w : World) : ∃ k, (connect w).sockets[w.sockets.length]? = some k ∧
    k.delivered = [] := by
  have h : w.enterConnect.dropWebSocket.sockets.length = w.sockets.length :=
    w.enterConnect.dropWebSocket_length
  refine ⟨{ url := w.enterConnect.dropWebSocket.backendWebSocketUrl }, ?_, rfl⟩
  rw [← h]
  exact List.getElem?_concat_length

theorem step_timer_false {t : Timer} (ht : w.timers[i]? = some t) :
    step P w (.timer i false) = some (connect (w.takeTimer i)) := by
  have hc : t.callback.connects (w.takeTimer i) false = true := by
    cases t.callback <;> simp [TimerCallback.connects]
  simp only [step, ht, Option.map_some, TimerCallback.run, hc, if_true]

theorem step_callback {c : Callback} (hs : s < w.sockets.length) :
    step P w (.callback s c) = some (handle (w.deliver s c) P c) := if_pos hs

theorem run_resume {t : Timer} (ht : w.timers[0]? = some t) :
    ∃ es v, Run (step P) AfterShutdown w es v ∧ v.connects = w.connects + 1 ∧
      v.sockets.length = w.sockets.length + 1 ∧
      v.broadcasts.length = w.broadcasts.length + 1 := by
  obtain ⟨k, hk, hnew⟩ := connect_getElem?_new (w.takeTimer 0)
  have hs := (List.getElem?_eq_some_iff.mp hk).1
  have hfire : AfterShutdown w (.timer 0 false) :=
    ⟨trivial, ⟨trivial, trivial⟩, fun h => by cases h⟩
  have honce : AfterShutdown (connect (w.takeTimer 0)) 
      (.callback (w.takeTimer 0).sockets.length .onConnected) := by
    refine ⟨trivial, ⟨fun h => (by cases h), fun m hm => ?_⟩, trivial⟩
    obtain rfl : k = m := Option.some.inj (hk.symm.trans hm)
    rw [hnew]
    rfl
  refine ⟨_, _, .cons hfire (step_timer_false ht) (.single honce (step_callback hs)), ?_, ?_, ?_⟩
  · exact connect_connects (w.takeTimer 0)
  · exact (List.length_modify ..).trans (connect_length _)
  · exact congrArg (fun l => List.length l + 1) (connect_broadcasts (w.takeTimer 0))

/-- A supervised subsystem always comes to connect, create a socket and broadcast again. -/
theorem supervised_resume (h : Supervised w) :
    ∃ es v, Run (step P) AfterShutdown w es v ∧ w.connects < v.connects ∧
      w.sockets.length < v.sockets.length ∧ w.broadcasts.length < v.broadcasts.length := by
  rcases h with h | h
  · obtain ⟨t, ts, ht⟩ := List.exists_cons_of_ne_nil h
    obtain ⟨es, v, hr, hc, hl, hb⟩ := run_resume (P := P) (w := w) (t := t) (by rw [ht]; rfl)
    exact ⟨es, v, hr, by omega, by omega, by omega⟩
  · -- The current socket ends first, which sets the timer that resumes.
    obtain ⟨s, hw, hs⟩ := (Option.any_eq_true _ _).mp h
    let c : Callback := .onClosed 1000 "" true
    have hend : AfterShutdown w (.callback s c) :=
      ⟨trivial, ⟨fun _ => hs, trivial⟩, trivial⟩
    have hst := step_callback (P := P) (c := c) (World.lt_of_live hs)
    obtain ⟨es, v, hr, hc, hl, hb⟩ :=
      run_resume (P := P) (w := handle (w.deliver s c) P c) (t := ⟨.reconnect, 3000⟩) rfl
    have hlen : (handle (w.deliver s c) P c).sockets.length = w.sockets.length :=
      List.length_modify ..
    have hconn : (handle (w.deliver s c) P c).connects = w.connects := rfl
    have hbc : (handle (w.deliver s c) P c).broadcasts.length = w.broadcasts.length + 1 := rfl
    exact ⟨_, v, .cons hend hst hr, by omega, by omega, by omega⟩

end Resume

theorem deinitializeSubsystem_of_step (h : step P w (.deinitializeSubsystem b) = some w₀) :
    w₀ = deinitializeSubsystem w b := by
  cases transition_of_step h
  rfl

/-- After shutdown the subsystem never comes to rest: whatever has happened since, it may still
connect, create a socket and broadcast again. -/
theorem shutdown_never_rests {es : List Event} {v : World}
    (h : Reachable (step P) IsConnectedSound (start url) w)
    (hd : step P w (.deinitializeSubsystem b) = some w₀) (hv : Run (step P) AfterShutdown w₀ es v) :
    ∃ fs u, Run (step P) AfterShutdown v fs u ∧ v.connects < u.connects ∧
      v.sockets.length < u.sockets.length ∧ v.broadcasts.length < u.broadcasts.length := by
  obtain rfl := deinitializeSubsystem_of_step hd
  have hw : Supervised (deinitializeSubsystem w b) := by
    simpa [Supervised] using supervised_reachable h
  apply supervised_resume
  exact hv.invariant hw fun _ _ _ hs hc hst => supervised_step hs hc.2.2 hst

/-- Shutdown is final in no state in which `Deinitialize` runs. -/
theorem shutdown_not_final (h : Reachable (step P) IsConnectedSound (start url) w)
    (hd : step P w (.deinitializeSubsystem b) = some w₀) : ¬ ShutdownFinal P w₀ := by
  intro hfinal
  obtain ⟨es, v, hr, hc, -⟩ := shutdown_never_rests h hd (.nil w₀)
  exact hc.ne' (hfinal.no_connect es v hr)

def connectedOnce : List Event := [.timer 0 false, .callback 0 .onConnected]

theorem shutdown_not_final_connectedOnce : ∃ w w₀,
    exec (step (referencePlatform [])) IsConnectedSound (start defaultUrl) connectedOnce = some w ∧
      step (referencePlatform []) w (.deinitializeSubsystem true) = some w₀ ∧
      ¬ ShutdownFinal (referencePlatform []) w₀ := by
  refine ⟨_, _, rfl, rfl, ?_⟩
  have h : Reachable (step (referencePlatform [])) IsConnectedSound (start defaultUrl) _ :=
    reachable_of_exec connectedOnce rfl
  exact shutdown_not_final (b := true) h rfl

/-- The timer of `Initialize` outlives `Deinitialize` and enters `Connect`. -/
theorem initial_timer_outlives_shutdown :
    ¬ ∀ w b w₀, Reachable (step (referencePlatform [])) IsConnectedSound (start defaultUrl) w →
      step (referencePlatform []) w (.deinitializeSubsystem b) = some w₀ →
        ShutdownFinal (referencePlatform []) w₀ := by
  intro h
  have hfinal := h _ false _ (Reachable.refl _) rfl
  have hrun : Run (step (referencePlatform [])) AfterShutdown
      (deinitializeSubsystem (start defaultUrl) false) [.timer 0 false] _ :=
    exec_eq_some_iff.mp rfl
  exact absurd (hfinal.no_connect _ _ hrun) (by decide)

end DtProject
