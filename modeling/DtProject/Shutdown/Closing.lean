import DtProject.Platform.Reference
import DtProject.Production.Transition

/-! # Which sockets have been closed

`Connect` closes the socket it replaces, and `Deinitialize` the current one if
it is connected. Until shutdown exactly the replaced sockets have been closed,
so `Deinitialize` leaves a live socket unclosed exactly when the current one is
live and `IsConnected` denies it.
-/

namespace DtProject

open Reactive

variable {P : Platform} {w w' w₀ : World} {e : Event} {url : String} {s t : ℕ} {b : Bool}

namespace World

def closes (w : World) (s : ℕ) : ℕ := (w.sockets[s]?).elim 0 WebSocket.closes

theorem closes_deliver {c : Callback} : (w.deliver s c).closes t = w.closes t := by
  simp only [closes, deliver, getElem?_modifySocket]
  cases w.sockets[t]? with
  | none => rfl
  | some k => by_cases h : s = t <;> simp [h]

theorem closes_close_self (h : s < w.sockets.length) :
    (w.close s).closes s = w.closes s + 1 := by
  simp [closes, close, getElem?_modifySocket, List.getElem?_eq_getElem h]

theorem closes_close_ne (h : s ≠ t) : (w.close s).closes t = w.closes t := by
  simp only [closes, close, getElem?_modifySocket, if_neg h, Option.map_id']

theorem closes_of_length_le (h : w.sockets.length ≤ s) : w.closes s = 0 := by
  simp [closes, List.getElem?_eq_none h]

theorem closes_createWebSocket : (w.createWebSocket url).closes t = w.closes t := by
  unfold closes createWebSocket
  rcases lt_trichotomy t w.sockets.length with h | rfl | h
  · simp [List.getElem?_append_left h]
  · simp
  · rw [List.getElem?_eq_none (by simp; omega), List.getElem?_eq_none h.le]

end World

theorem closes_connect_current (h : w.webSocket = some s) :
    (connect w).closes s = w.closes s + 1 := by
  have hd : w.enterConnect.dropWebSocket.closes s = w.closes s + 1 := by
    rcases w.enterConnect.dropWebSocket_cases with ⟨hn, -⟩ | ⟨t, ht, hd⟩
    · cases h.symm.trans hn
    · obtain rfl : s = t := Option.some.inj (h.symm.trans ht)
      rw [hd]
      exact World.closes_close_self (w.webSocket_lt s h)
  exact World.closes_createWebSocket.trans hd

theorem closes_connect_replaced (h : w.webSocket ≠ some s) :
    (connect w).closes s = w.closes s := by
  have hd : w.enterConnect.dropWebSocket.closes s = w.closes s := by
    rcases w.enterConnect.dropWebSocket_cases with ⟨-, hd⟩ | ⟨t, ht, hd⟩
    · rw [hd]
      rfl
    · rw [hd]
      exact World.closes_close_ne fun hts => h (hts ▸ ht)
  exact World.closes_createWebSocket.trans hd

/-- Replaced sockets have been closed, and the current one has not been before shutdown. -/
structure ReplacedClosed (w : World) : Prop where
  replaced : ∀ s < w.sockets.length, w.webSocket ≠ some s → 0 < w.closes s
  current : w.deinitialized = false → ∀ s ∈ w.webSocket, w.closes s = 0

theorem replacedClosed_connect (h : ReplacedClosed w) : ReplacedClosed (connect w) := by
  constructor
  · intro s hs hne
    rw [connect_webSocket, ne_eq, Option.some.injEq] at hne
    rw [connect_length] at hs
    by_cases hw : w.webSocket = some s
    · rw [closes_connect_current hw]
      omega
    · rw [closes_connect_replaced hw]
      exact h.replaced s (by omega) hw
  · intro _ s hs
    obtain rfl : w.sockets.length = s := by
      rw [connect_webSocket] at hs
      exact Option.some.inj hs
    rw [closes_connect_replaced fun hw => (w.webSocket_lt _ hw).ne rfl]
    exact World.closes_of_length_le le_rfl

theorem replacedClosed_deliver {c : Callback} (h : ReplacedClosed w) :
    ReplacedClosed (w.deliver s c) := by
  constructor
  · intro t ht hne
    rw [World.closes_deliver]
    exact h.replaced t (ht.trans_eq (List.length_modify ..)) hne
  · intro hd t ht
    rw [World.closes_deliver]
    exact h.current hd t ht

theorem closeConnected_true (h : w.webSocket = some s) : w.closeConnected true = w.close s := by
  unfold World.closeConnected
  rw [h]
  rfl

theorem closeConnected_false (w : World) : w.closeConnected false = w := by
  unfold World.closeConnected
  split <;> rfl

theorem closes_deinitializeSubsystem_ne (h : w.webSocket ≠ some s) :
    (deinitializeSubsystem w b).closes s = w.closes s := by
  change (w.closeConnected b).closes s = w.closes s
  rcases closeConnected_cases w b with hc | ⟨t, ht, -, hc⟩ <;> rw [hc]
  exact World.closes_close_ne fun hts => h (hts ▸ ht)

theorem replacedClosed_deinitializeSubsystem (h : ReplacedClosed w) :
    ReplacedClosed (deinitializeSubsystem w b) := by
  constructor
  · intro s hs hne
    rw [deinitializeSubsystem_webSocket] at hne
    rw [closes_deinitializeSubsystem_ne hne]
    refine h.replaced s (hs.trans_eq ?_) hne
    change (w.closeConnected b).sockets.length = w.sockets.length
    rcases closeConnected_cases w b with hc | ⟨t, -, -, hc⟩ <;> rw [hc]
    exact List.length_modify ..
  · intro hd
    cases hd

theorem replacedClosed_step (h : ReplacedClosed w) (hst : step P w e = some w') :
    ReplacedClosed w' := by
  cases transition_of_step hst with
  | connect => exact replacedClosed_connect ⟨h.replaced, h.current⟩
  | skip => exact ⟨h.replaced, h.current⟩
  | @connected s =>
    have hd := replacedClosed_deliver (s := s) (c := .onConnected) h
    exact ⟨hd.replaced, hd.current⟩
  | ignored => exact replacedClosed_deliver h
  | @message s m =>
    have hd := replacedClosed_deliver (s := s) (c := .onMessage m) h
    exact ⟨hd.replaced, hd.current⟩
  | @terminal s c =>
    have hd := replacedClosed_deliver (s := s) (c := c) h
    exact ⟨hd.replaced, hd.current⟩
  | editUrl => exact ⟨h.replaced, h.current⟩
  | shutDown => exact replacedClosed_deinitializeSubsystem h

theorem replacedClosed_reachable {C : Contract World Event}
    (h : Reachable (step P) C (start url) w) : ReplacedClosed w :=
  h.invariant ⟨fun _ hs => absurd hs (Nat.not_lt_zero _), fun _ _ hs => by cases hs⟩
    fun _ _ _ hw _ hst => replacedClosed_step hw hst

/-- `Deinitialize` leaves every live socket closed exactly when `IsConnected` vouches for a live
current socket; one that it denies is left open. -/
theorem deinitialize_closes_iff {C : Contract World Event}
    (h : Reachable (step P) C (start url) w)
    (hd : step P w (.deinitializeSubsystem b) = some w₀) :
    ((∀ s, w₀.live s = true → 0 < w₀.closes s) ↔ (w.currentLive = true → b = true)) ∧
      ∀ s, w.webSocket = some s → w.live s = true → b = false →
        w₀.live s = true ∧ w₀.closes s = 0 := by
  have hw := replacedClosed_reachable h
  cases transition_of_step hd with
  | shutDown hdead =>
  have hopen : ∀ s, w.webSocket = some s → w.live s = true → b = false →
      (deinitializeSubsystem w b).live s = true ∧ (deinitializeSubsystem w b).closes s = 0 := by
    rintro s hs hl rfl
    refine ⟨(live_deinitializeSubsystem w false s).trans hl, ?_⟩
    change (w.closeConnected false).closes s = 0
    rw [closeConnected_false]
    exact hw.current hdead s hs
  refine ⟨⟨fun hall hlive => ?_, fun hb s hl => ?_⟩, hopen⟩
  · obtain ⟨s, hs, hl⟩ := (Option.any_eq_true _ _).mp hlive
    by_contra hb
    have hleft := hopen s hs hl (Bool.eq_false_of_not_eq_true hb)
    have hpos := hall s hleft.1
    omega
  · rw [live_deinitializeSubsystem] at hl
    by_cases hs : w.webSocket = some s
    · obtain rfl := hb ((Option.any_eq_true _ _).mpr ⟨s, hs, hl⟩)
      change 0 < (w.closeConnected true).closes s
      rw [closeConnected_true hs, World.closes_close_self (World.lt_of_live hl)]
      omega
    · rw [closes_deinitializeSubsystem_ne hs]
      exact hw.replaced s (World.lt_of_live hl) hs

/-- The first socket is still connecting when the subsystem goes, and stays open. -/
theorem deinitialize_closes_iff_connecting : ∃ w w₀,
    exec (step (referencePlatform [])) ⊤ (start defaultUrl) [.timer 0 false] = some w ∧
      step (referencePlatform []) w (.deinitializeSubsystem false) = some w₀ ∧
      w.currentLive = true ∧ w₀.live 0 = true ∧ w₀.closes 0 = 0 ∧
      ¬ ∀ s, w₀.live s = true → 0 < w₀.closes s := by
  have h : Reachable (step (referencePlatform [])) ⊤ (start defaultUrl) _ :=
    reachable_of_exec [.timer 0 false] rfl
  obtain ⟨hiff, hopen⟩ := deinitialize_closes_iff (b := false) h rfl
  obtain ⟨hlive, hzero⟩ := hopen 0 rfl rfl rfl
  exact ⟨_, _, rfl, rfl, rfl, hlive, hzero, fun hall => Bool.false_ne_true (hiff.mp hall rfl)⟩

end DtProject
