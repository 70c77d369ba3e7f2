import DtProject.Production.Observation

/-! # Transitions of the subsystem

What each step can do: a timer enters `Connect` or is skipped, a socket reports
a connection, a message or its end, the URL is edited, or the subsystem shuts
down. Every property of runs is read off these cases.
-/

namespace DtProject

namespace World

variable {w : World} {t : ℕ} {url : String}

@[simp] theorem live_createWebSocket :
    (w.createWebSocket url).live t = (w.live t || decide (t = w.sockets.length)) := by
  unfold live createWebSocket
  rcases lt_trichotomy t w.sockets.length with h | rfl | h
  · simp [List.getElem?_append_left h, h.ne]
  · simp [WebSocket.live]
  · rw [List.getElem?_eq_none (by simp; omega), List.getElem?_eq_none h.le]
    simp [h.ne']

@[simp] theorem up_createWebSocket : (w.createWebSocket url).up t = w.up t := by
  unfold up createWebSocket
  rcases lt_trichotomy t w.sockets.length with h | rfl | h
  · simp [List.getElem?_append_left h]
  · simp [WebSocket.up, WebSocket.upAfter]
  · rw [List.getElem?_eq_none (by simp; omega), List.getElem?_eq_none h.le]

@[simp] theorem liveCount_createWebSocket :
    (w.createWebSocket url).liveCount = w.liveCount + 1 := by
  simp [liveCount, createWebSocket, WebSocket.live]

theorem dropWebSocket_cases (w : World) :
    (w.webSocket = none ∧ w.dropWebSocket = w) ∨
      ∃ s, w.webSocket = some s ∧
        w.dropWebSocket = { w.close s with webSocket := none, webSocket_lt := by simp } := by
  unfold dropWebSocket
  split
  · exact Or.inr ⟨_, ‹_›, rfl⟩
  · exact Or.inl ⟨‹_›, rfl⟩

@[simp] theorem dropWebSocket_timers : w.dropWebSocket.timers = w.timers := by
  rcases w.dropWebSocket_cases with ⟨-, h⟩ | ⟨s, -, h⟩ <;> rw [h]; rfl

@[simp] theorem dropWebSocket_broadcasts : w.dropWebSocket.broadcasts = w.broadcasts := by
  rcases w.dropWebSocket_cases with ⟨-, h⟩ | ⟨s, -, h⟩ <;> rw [h]; rfl

@[simp] theorem dropWebSocket_connects : w.dropWebSocket.connects = w.connects := by
  rcases w.dropWebSocket_cases with ⟨-, h⟩ | ⟨s, -, h⟩ <;> rw [h]; rfl

@[simp] theorem dropWebSocket_length :
    w.dropWebSocket.sockets.length = w.sockets.length := by
  rcases w.dropWebSocket_cases with ⟨-, h⟩ | ⟨s, -, h⟩ <;> rw [h]
  exact List.length_modify ..

@[simp] theorem live_dropWebSocket : w.dropWebSocket.live t = w.live t := by
  rcases w.dropWebSocket_cases with ⟨-, h⟩ | ⟨s, -, h⟩ <;> rw [h]
  exact live_close

@[simp] theorem up_dropWebSocket : w.dropWebSocket.up t = w.up t := by
  rcases w.dropWebSocket_cases with ⟨-, h⟩ | ⟨s, -, h⟩ <;> rw [h]
  exact up_close

@[simp] theorem liveCount_dropWebSocket : w.dropWebSocket.liveCount = w.liveCount := by
  rcases w.dropWebSocket_cases with ⟨-, h⟩ | ⟨s, -, h⟩ <;> rw [h]
  exact liveCount_close

end World

section Connect

variable (w : World) (t : ℕ)

@[simp] theorem connect_timers : (connect w).timers = w.timers :=
  w.enterConnect.dropWebSocket_timers

@[simp] theorem connect_broadcasts : (connect w).broadcasts = w.broadcasts :=
  w.enterConnect.dropWebSocket_broadcasts

theorem told_connect : (connect w).told = w.told :=
  congrArg (List.filterMap _) (connect_broadcasts w)

@[simp] theorem connect_connects : (connect w).connects = w.connects + 1 :=
  w.enterConnect.dropWebSocket_connects

@[simp] theorem connect_webSocket : (connect w).webSocket = some w.sockets.length :=
  congrArg some w.enterConnect.dropWebSocket_length

theorem connect_length : (connect w).sockets.length = w.sockets.length + 1 :=
  List.length_append.trans (congrArg (· + 1) w.enterConnect.dropWebSocket_length)

@[simp] theorem live_connect :
    (connect w).live t = (w.live t || decide (t = w.sockets.length)) := by
  simp [connect]; rfl

@[simp] theorem up_connect : (connect w).up t = w.up t := by
  simp [connect]; rfl

@[simp] theorem liveCount_connect : (connect w).liveCount = w.liveCount + 1 := by
  simp [connect]; rfl

end Connect

section Deinitialize

variable (w : World) (b : Bool) (t : ℕ)

theorem closeConnected_cases : w.closeConnected b = w ∨
    ∃ s, w.webSocket = some s ∧ b = true ∧ w.closeConnected b = w.close s := by
  unfold World.closeConnected
  split
  · split
    · exact Or.inr ⟨_, ‹_›, ‹_›, rfl⟩
    · exact Or.inl rfl
  · exact Or.inl rfl

@[simp] theorem deinitializeSubsystem_timers :
    (deinitializeSubsystem w b).timers = w.timers := by
  unfold deinitializeSubsystem
  rcases closeConnected_cases w b with h | ⟨s, -, -, h⟩ <;> rw [h]
  rfl

@[simp] theorem deinitializeSubsystem_webSocket :
    (deinitializeSubsystem w b).webSocket = w.webSocket := by
  unfold deinitializeSubsystem
  rcases closeConnected_cases w b with h | ⟨s, -, -, h⟩ <;> rw [h]
  rfl

@[simp] theorem deinitializeSubsystem_broadcasts :
    (deinitializeSubsystem w b).broadcasts = w.broadcasts := by
  unfold deinitializeSubsystem
  rcases closeConnected_cases w b with h | ⟨s, -, -, h⟩ <;> rw [h]
  rfl

theorem told_deinitializeSubsystem : (deinitializeSubsystem w b).told = w.told :=
  congrArg (List.filterMap _) (deinitializeSubsystem_broadcasts w b)

@[simp] theorem deinitializeSubsystem_connects :
    (deinitializeSubsystem w b).connects = w.connects := by
  unfold deinitializeSubsystem
  rcases closeConnected_cases w b with h | ⟨s, -, -, h⟩ <;> rw [h]
  rfl

@[simp] theorem live_deinitializeSubsystem :
    (deinitializeSubsystem w b).live t = w.live t := by
  change (w.closeConnected b).live t = w.live t
  rcases closeConnected_cases w b with h | ⟨s, -, -, h⟩ <;> rw [h]
  exact World.live_close

@[simp] theorem up_deinitializeSubsystem :
    (deinitializeSubsystem w b).up t = w.up t := by
  change (w.closeConnected b).up t = w.up t
  rcases closeConnected_cases w b with h | ⟨s, -, -, h⟩ <;> rw [h]
  exact World.up_close

@[simp] theorem liveCount_deinitializeSubsystem :
    (deinitializeSubsystem w b).liveCount = w.liveCount := by
  change (w.closeConnected b).liveCount = w.liveCount
  rcases closeConnected_cases w b with h | ⟨s, -, -, h⟩ <;> rw [h]
  exact World.liveCount_close

@[simp] theorem currentLive_deinitializeSubsystem :
    (deinitializeSubsystem w b).currentLive = w.currentLive := by
  unfold World.currentLive
  rw [deinitializeSubsystem_webSocket]
  exact congrArg (Option.any · w.webSocket) (funext fun t => live_deinitializeSubsystem w b t)

@[simp] theorem currentUp_deinitializeSubsystem :
    (deinitializeSubsystem w b).currentUp = w.currentUp := by
  unfold World.currentUp
  rw [deinitializeSubsystem_webSocket]
  exact congrArg (Option.any · w.webSocket) (funext fun t => up_deinitializeSubsystem w b t)

end Deinitialize

/-- The cases of `step`, with the world that each leads to. -/
inductive Transition (P : Platform) (w : World) : Event → World → Prop where

  | connect {i : ℕ} {t : Timer} {isConnected : Bool} : w.timers[i]? = some t →
      t.callback.connects w isConnected = true →
      Transition P w (.timer i isConnected) (connect (w.takeTimer i))

  | skip {i : ℕ} {t : Timer} {isConnected : Bool} : w.timers[i]? = some t →
      t.callback.connects w isConnected = false →
      Transition P w (.timer i isConnected) (w.takeTimer i)

  | connected {s : ℕ} : s < w.sockets.length →
      Transition P w (.callback s .onConnected) (onConnected (w.deliver s .onConnected))

  | ignored {s : ℕ} {m : String} : s < w.sockets.length → onMessage P m = none →
      Transition P w (.callback s (.onMessage m)) (w.deliver s (.onMessage m))

  | message {s : ℕ} {m : String} {b : Broadcast} : s < w.sockets.length →
      onMessage P m = some b →
      Transition P w (.callback s (.onMessage m)) ((w.deliver s (.onMessage m)).broadcast b)

  | terminal {s : ℕ} {c : Callback} {reason : String} : s < w.sockets.length →
      c.isTerminal = true →
      Transition P w (.callback s c) (disconnected (w.deliver s c) reason)

  | editUrl {url : String} :
      Transition P w (.setBackendWebSocketUrl url) { w with backendWebSocketUrl := url }

  | shutDown {isConnected : Bool} : w.deinitialized = false →
      Transition P w (.deinitializeSubsystem isConnected) (deinitializeSubsystem w isConnected)

variable {P : Platform} {w w' : World} {e : Event}

theorem transition_timer {i : ℕ} {b : Bool} (h : step P w (.timer i b) = some w') :
    Transition P w (.timer i b) w' := by
  obtain ⟨t, ht, rfl⟩ := Option.map_eq_some_iff.mp h
  unfold TimerCallback.run
  split
  · exact .connect ht ‹_›
  · exact .skip ht (Bool.eq_false_iff.mpr ‹_›)

theorem transition_callback {s : ℕ} {c : Callback} (h : step P w (.callback s c) = some w') :
    Transition P w (.callback s c) w' := by
  simp only [step] at h
  split at h
  · rename_i hs
    obtain rfl := Option.some.inj h
    cases c with
    | onConnected => exact .connected hs
    | onMessage m =>
      simp only [handle]
      split
      · exact .message hs ‹_›
      · exact .ignored hs ‹_›
    | onClosed code reason bWasClean => exact .terminal hs rfl
    | onConnectionError error => exact .terminal hs rfl
  · cases h

theorem transition_of_step (h : step P w e = some w') : Transition P w e w' := by
  cases e with
  | timer i b => exact transition_timer h
  | callback s c => exact transition_callback h
  | setBackendWebSocketUrl url => obtain rfl := Option.some.inj h; exact .editUrl
  | deinitializeSubsystem b =>
    simp only [step] at h
    split at h
    · cases h
    · obtain rfl := Option.some.inj h
      exact .shutDown (Bool.eq_false_iff.mpr ‹_›)

end DtProject
