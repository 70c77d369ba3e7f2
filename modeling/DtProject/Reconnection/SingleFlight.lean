import DtProject.Reconnection.Retry

/-! # Single-flight reconnection

Every pending timer and every live socket holds a token. `Connect` trades the
token of the timer that runs it for that of its new socket, and the terminal
callback of a live socket trades its token for that of the retry timer. A skipped
timer gives its token up, so no step adds one while each socket ends once.
Where `IsConnected` is sound there is always a token, and then exactly one.
-/

namespace DtProject

open Reactive

variable {P : Platform} {w w' : World} {e : Event} {url : String}

/-- Pending timers and live sockets, over all sockets ever created. -/
def World.tokens (w : World) : ℕ := w.timers.length + w.liveCount

theorem length_takeTimer {i : ℕ} {t : Timer} (h : w.timers[i]? = some t) :
    (w.takeTimer i).timers.length + 1 = w.timers.length := by
  obtain ⟨hi, -⟩ := List.getElem?_eq_some_iff.mp h
  have hlen := List.length_eraseIdx_of_lt hi
  simp only [World.takeTimer]
  omega

theorem tokens_connect {i : ℕ} {t : Timer} (h : w.timers[i]? = some t) :
    (connect (w.takeTimer i)).tokens = w.tokens := by
  have hlen := length_takeTimer h
  have hlive : (w.takeTimer i).liveCount = w.liveCount := rfl
  simp only [World.tokens, connect_timers, liveCount_connect]
  omega

theorem tokens_skip {i : ℕ} {t : Timer} (h : w.timers[i]? = some t) :
    (w.takeTimer i).tokens + 1 = w.tokens := by
  have hlen := length_takeTimer h
  have hlive : (w.takeTimer i).liveCount = w.liveCount := rfl
  simp only [World.tokens]
  omega

theorem tokens_terminal {s : ℕ} {c : Callback} {reason : String} (hc : c.isTerminal = true) :
    (disconnected (w.deliver s c) reason).tokens + (w.live s).toNat = w.tokens + 1 := by
  have hlive := World.liveCount_deliver (w := w) (s := s) (c := c)
  rw [hc, Bool.and_true] at hlive
  change w.timers.length + 1 + (w.deliver s c).liveCount + _ = w.timers.length + w.liveCount + 1
  omega

theorem tokens_deliver (w : World) (s : ℕ) {c : Callback} (hc : c.isTerminal = false) :
    (w.deliver s c).tokens = w.tokens := by
  have hlive := World.liveCount_deliver (w := w) (s := s) (c := c)
  rw [hc, Bool.and_false] at hlive
  exact congrArg (w.timers.length + ·) hlive

theorem tokens_deinitializeSubsystem (w : World) (b : Bool) :
    (deinitializeSubsystem w b).tokens = w.tokens := by
  simp only [World.tokens, deinitializeSubsystem_timers, liveCount_deinitializeSubsystem]

/-- No step of an engine that ends each socket once adds a token. -/
theorem tokens_step (hc : TerminalOnce w e) (h : step P w e = some w') :
    w'.tokens ≤ w.tokens := by
  cases transition_of_step h with
  | connect ht _ => exact (tokens_connect ht).le
  | skip ht _ => have := tokens_skip ht; omega
  | @connected s => exact (tokens_deliver w s (c := .onConnected) rfl).le
  | @ignored s m => exact (tokens_deliver w s (c := .onMessage m) rfl).le
  | @message s m => exact (tokens_deliver w s (c := .onMessage m) rfl).le
  | @terminal s c reason _ ht =>
    have htok : (disconnected (w.deliver s c) reason).tokens + (w.live s).toNat = w.tokens + 1 :=
      tokens_terminal ht
    rw [hc ht] at htok
    exact (Nat.add_right_cancel htok).le
  | editUrl => exact le_rfl
  | shutDown => exact (tokens_deinitializeSubsystem w _).le

theorem tokens_reachable (h : Reachable (step P) TerminalOnce (start url) w) :
    w.tokens ≤ 1 :=
  h.invariant (I := fun w => w.tokens ≤ 1) le_rfl
    fun _ _ _ hw hc hst => (tokens_step hc hst).trans hw

namespace World

theorem liveCount_pos {s : ℕ} (h : w.live s = true) : 0 < w.liveCount := by
  obtain ⟨k, hk, hl⟩ := (Option.any_eq_true _ _).mp h
  exact List.countP_pos_iff.mpr ⟨k, List.mem_of_getElem? hk, hl⟩

theorem two_le_liveCount {s t : ℕ} (hst : s < t) (hs : w.live s = true)
    (ht : w.live t = true) : 2 ≤ w.liveCount := by
  obtain ⟨k, hk, hkl⟩ := (Option.any_eq_true _ _).mp hs
  obtain ⟨m, hm, hml⟩ := (Option.any_eq_true _ _).mp ht
  have htake : 0 < (w.sockets.take t).countP WebSocket.live := by
    refine List.countP_pos_iff.mpr ⟨k, List.mem_of_getElem? (i := s) ?_, hkl⟩
    rw [List.getElem?_take_of_lt hst, hk]
  have hdrop : 0 < (w.sockets.drop t).countP WebSocket.live := by
    refine List.countP_pos_iff.mpr ⟨m, List.mem_of_getElem? (i := 0) ?_, hml⟩
    rw [List.getElem?_drop, Nat.add_zero, hm]
  have hsum : w.liveCount = (w.sockets.take t).countP WebSocket.live +
      (w.sockets.drop t).countP WebSocket.live := by
    rw [← List.countP_append, List.take_append_drop]
    rfl
  omega

theorem live_unique {s t : ℕ} (hw : w.liveCount ≤ 1) (hs : w.live s = true)
    (ht : w.live t = true) : s = t := by
  by_contra hne
  rcases Nat.lt_or_gt_of_ne hne with h | h
  · have := two_le_liveCount h hs ht; omega
  · have := two_le_liveCount h ht hs; omega

end World

/-- Timers and live sockets are single-flight: there is at most one of the two together, a timer
that fires finds every socket dead, and no two sockets are live at once. -/
theorem single_flight (h : Reachable (step P) TerminalOnce (start url) w) :
    w.timers.length + w.liveCount ≤ 1 ∧
      (∀ i b w', step P w (.timer i b) = some w' → ∀ s, w.live s = false) ∧
      ∀ s t, w.live s = true → w.live t = true → s = t := by
  have hw : w.timers.length + w.liveCount ≤ 1 := tokens_reachable h
  refine ⟨hw, ?_, fun s t => World.live_unique (by omega)⟩
  intro i b w' hst s
  obtain ⟨t, ht, -⟩ := Option.map_eq_some_iff.mp hst
  have hlen := length_takeTimer ht
  by_contra hs
  have hpos := World.liveCount_pos (Bool.not_eq_false _ ▸ hs)
  omega

def failedAttempt : List Event :=
  [.timer 0 false, .callback 0 (.onConnectionError ""), .timer 0 false]

theorem single_flight_failedAttempt : ∃ w,
    exec (step (referencePlatform [])) TerminalOnce (start defaultUrl) failedAttempt = some w ∧
      w.timers.length + w.liveCount ≤ 1 ∧ w.live 0 = false ∧ w.live 1 = true := by
  refine ⟨_, rfl, ?_, rfl, rfl⟩
  have h : Reachable (step (referencePlatform [])) TerminalOnce (start defaultUrl) _ :=
    reachable_of_exec failedAttempt rfl
  exact (single_flight h).1

section Exactness

theorem tokens_pos (h : Supervised w) : 0 < w.tokens := by
  rcases h with h | h
  · exact Nat.add_pos_left (List.length_pos_iff.mpr h) _
  · obtain ⟨s, -, hs⟩ := (Option.any_eq_true _ _).mp h
    exact Nat.add_pos_right _ (World.liveCount_pos hs)

theorem tokens_step_iff (hw : Supervised w) (hone : w.tokens = 1) (hc : IsConnectedSound w e)
    (hst : step P w e = some w') : w'.tokens = 1 ↔ TerminalOnce w e := by
  constructor
  · intro hone'
    cases transition_of_step hst with
    | connect | skip | editUrl | shutDown => trivial
    | connected | ignored | message => rintro ⟨⟩
    | @terminal s c reason _ ht =>
      intro _
      have htok : (disconnected (w.deliver s c) reason).tokens + (w.live s).toNat = w.tokens + 1 :=
        tokens_terminal ht
      cases hs : w.live s with
      | true => rfl
      | false => rw [hs, Bool.toNat_false] at htok; omega
  · intro ht
    have hle := tokens_step ht hst
    have hpos := tokens_pos (supervised_step hw hc hst)
    omega

/-- Along a run there is exactly one token at all times precisely when no socket ends twice. -/
theorem one_token_iff {es : List Event} (h : Run (step P) IsConnectedSound (start url) es w) :
    (∀ pre v, pre <+: es → Run (step P) IsConnectedSound (start url) pre v → v.tokens = 1) ↔
      Run (step P) TerminalOnce (start url) es w := by
  have hiff := h.always_iff (I := fun v => Supervised v ∧ v.tokens = 1) (Q := TerminalOnce)
    ⟨Or.inl (List.cons_ne_nil _ _), rfl⟩ fun s e s' hs hc hst => by
      rw [← tokens_step_iff hs.1 hs.2 hc hst]
      exact and_iff_right (supervised_step hs.1 hc hst)
  rw [← hiff]
  constructor
  · intro hall pre v hp hv
    exact ⟨supervised_reachable ⟨pre, hv⟩, hall pre v hp hv⟩
  · intro hall pre v hp hv
    exact (hall pre v hp hv).2

theorem one_token_iff_failedAttempt : ∃ w,
    exec (step (referencePlatform [])) TerminalOnce (start defaultUrl) failedAttempt = some w ∧
      w.tokens = 1 := by
  have hexec : ∃ w, exec (step (referencePlatform [])) TerminalOnce (start defaultUrl)
      failedAttempt = some w ∧ exec (step (referencePlatform [])) IsConnectedSound
      (start defaultUrl) failedAttempt = some w := ⟨_, rfl, rfl⟩
  obtain ⟨w, honce, hsound⟩ := hexec
  have hrun := exec_eq_some_iff.mp hsound
  refine ⟨w, honce, ?_⟩
  exact (one_token_iff hrun).mpr (exec_eq_some_iff.mp honce) _ _ (List.prefix_refl _) hrun

end Exactness

end DtProject
