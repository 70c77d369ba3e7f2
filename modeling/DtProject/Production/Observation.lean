import DtProject.Production.Subsystem

/-! # What is observed of a world

Which sockets are live, which are up, and the connection status that listeners
were last told, with the effect of every elementary update on each of them.
-/

namespace DtProject

theorem countP_modify {α : Type*} (p : α → Bool) (f : α → α) (l : List α) (i : ℕ) :
    (l.modify i f).countP p + (l[i]?.any p).toNat =
      l.countP p + (l[i]?.any (p ∘ f)).toNat := by
  induction l generalizing i with
  | nil => simp
  | cons a l ih =>
    cases i with
    | zero => cases hp : p a <;> cases hf : p (f a) <;> simp [hp, hf]
    | succ i =>
      have h := ih i
      simp only [List.modify_succ_cons, List.countP_cons, List.getElem?_cons_succ]
      omega

def Broadcast.bConnected : Broadcast → Option Bool
  | onConnectionChanged bConnected _ => some bConnected
  | _ => none

theorem onMessage_bConnected {P : Platform} {m : String} {b : Broadcast}
    (h : onMessage P m = some b) : b.bConnected = none := by
  unfold onMessage at h
  split at h
  · cases h
  · dsimp only at h
    split_ifs at h <;> obtain rfl := Option.some.inj h <;> rfl

namespace World

variable (w : World)

def live (s : ℕ) : Bool := (w.sockets[s]?).any WebSocket.live

def up (s : ℕ) : Bool := (w.sockets[s]?).any WebSocket.up

def liveCount : ℕ := w.sockets.countP WebSocket.live

def currentLive : Bool := w.webSocket.any w.live

def currentUp : Bool := w.webSocket.any w.up

/-- The statuses told to listeners, newest first. -/
def told : List Bool := w.broadcasts.filterMap Broadcast.bConnected

/-- The last status told, and false when none yet. -/
def status : Bool := w.told.head?.getD false

variable {w : World} {s t : ℕ} {c : Callback}

theorem lt_of_live (h : w.live s = true) : s < w.sockets.length := by
  by_contra hn
  simp [live, List.getElem?_eq_none (not_lt.mp hn)] at h

theorem up_eq_false_of_length_le (h : w.sockets.length ≤ s) : w.up s = false := by
  simp [up, List.getElem?_eq_none h]

theorem status_of_told {v : World} (h : v.told = w.told) : v.status = w.status :=
  congrArg (fun l => l.head?.getD false) h

theorem told_broadcast_message {P : Platform} {m : String} {b : Broadcast}
    (h : onMessage P m = some b) : (w.broadcast b).told = w.told :=
  List.filterMap_cons_none (onMessage_bConnected h)

/-! ## Closing a socket -/

theorem getElem?_modifySocket {f : WebSocket → WebSocket} :
    (w.modifySocket s f).sockets[t]? =
      (w.sockets[t]?).map fun k => if s = t then f k else k := by
  simp only [modifySocket, List.getElem?_modify, Option.map_eq_map]

theorem any_modifySocket {p : WebSocket → Bool} {f : WebSocket → WebSocket}
    (h : ∀ k, p (f k) = p k) :
    ((w.modifySocket s f).sockets[t]?).any p = (w.sockets[t]?).any p := by
  rw [getElem?_modifySocket]
  cases w.sockets[t]? with
  | none => rfl
  | some k => by_cases hst : s = t <;> simp [hst, h]

@[simp] theorem live_close : (w.close s).live t = w.live t :=
  any_modifySocket fun _ => rfl

@[simp] theorem up_close : (w.close s).up t = w.up t :=
  any_modifySocket fun _ => rfl

@[simp] theorem liveCount_close : (w.close s).liveCount = w.liveCount :=
  Nat.add_right_cancel (countP_modify WebSocket.live _ w.sockets s)

/-! ## Delivering a callback -/

theorem live_deliver : (w.deliver s c).live t =
    (w.live t && !(decide (s = t) && c.isTerminal)) := by
  simp only [live, deliver, getElem?_modifySocket, Option.any_map]
  cases w.sockets[t]? with
  | none => rfl
  | some k => by_cases h : s = t <;> simp [h, WebSocket.live, Bool.and_comm]

@[simp] theorem live_deliver_of_not_terminal (hc : c.isTerminal = false) :
    (w.deliver s c).live t = w.live t :=
  any_modifySocket fun k => by simp [WebSocket.live, hc]

theorem liveCount_deliver :
    (w.deliver s c).liveCount + (w.live s && c.isTerminal).toNat = w.liveCount := by
  have h := countP_modify WebSocket.live (fun k => { k with delivered := c :: k.delivered })
    w.sockets s
  have hlive : (w.sockets[s]?).any (WebSocket.live ∘ fun k =>
      { k with delivered := c :: k.delivered }) = (w.live s && !c.isTerminal) := by
    unfold live
    cases w.sockets[s]? with
    | none => rfl
    | some k => simp [WebSocket.live, Bool.and_comm]
  rw [hlive] at h
  change (w.deliver s c).liveCount + (w.live s).toNat = w.liveCount + _ at h
  cases hs : w.live s <;> cases hc : c.isTerminal <;> simp [hs, hc] at h ⊢ <;> omega

theorem up_deliver_ne (h : s ≠ t) : (w.deliver s c).up t = w.up t := by
  simp only [up, deliver, getElem?_modifySocket, if_neg h, Option.map_id']

theorem up_deliver_message {m : String} : (w.deliver s (.onMessage m)).up t = w.up t :=
  any_modifySocket fun _ => rfl

theorem up_deliver_connected (hs : s < w.sockets.length) :
    (w.deliver s .onConnected).up s = true := by
  simp [up, deliver, getElem?_modifySocket, List.getElem?_eq_getElem hs, WebSocket.up,
    WebSocket.upAfter]

theorem up_deliver_terminal (hc : c.isTerminal = true) : (w.deliver s c).up s = false := by
  simp only [up, deliver, getElem?_modifySocket, Option.any_map]
  cases w.sockets[s]? with
  | none => rfl
  | some k => cases c <;> simp_all [WebSocket.up, WebSocket.upAfter, Callback.isTerminal]

end World

end DtProject
