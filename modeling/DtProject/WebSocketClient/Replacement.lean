import DtProject.WebSocketClient.Reconnect

/-! # Which sockets are replaced

`CreateWebSocket` forgets the current socket without closing it. It forgets no
live one as long as `Start` is called only where there is no current socket, and
sockets that are no longer current report their end only while the client is
closed.
-/

namespace DtProject

open Reactive

namespace ProtocolWebSocketClient

variable {σ : Type*} {R : PacketRule σ} {w w' : ProtocolWebSocketClient σ} {s i : ℕ}
  {c : SocketCallback} {created : Bool} {e : Event}

/-- The client is started where it has no socket, and replaced sockets are silent outside of the
time that it is closed. -/
def ReplacedSilent : Contract (ProtocolWebSocketClient σ) Event
  | w, .start _ => w.webSocket = none
  | w, .callback s c => c.isTerminal = true → w.webSocket ≠ some s → w.bIsManualClose = true
  | _, _ => True

/-- Every other socket has died or been closed, and a thread that is to create a socket replaces a
dead one. -/
structure OneSocket (w : ProtocolWebSocketClient σ) : Prop where

  live : ∀ s < w.sockets, (w.socket s).dead = false → (w.socket s).closed = false →
    w.webSocket = some s

  replaces : ∀ i, (w.stage i).ahead = true → ∃ s, w.webSocket = some s ∧ (w.socket s).dead = true

namespace OneSocket

theorem forget (h : OneSocket w) : OneSocket w.forget := ⟨h.live, h.replaces⟩

theorem of_forget (h : OneSocket w.forget) : OneSocket w := ⟨h.live, h.replaces⟩

theorem setStage (h : OneSocket w) {stage : ReconnectStage}
    (hi : stage.ahead = true → (w.stage i).ahead = true) : OneSocket (w.setStage i stage) := by
  refine ⟨h.live, fun j hj => ?_⟩
  rcases eq_or_ne j i with rfl | hne
  · rw [setStage_self] at hj
    exact h.replaces j (hi hj)
  · rw [setStage_ne hne] at hj
    exact h.replaces j hj

theorem deliver (h : OneSocket w) : OneSocket (w.deliver s c) := by
  constructor
  · intro t ht hdead hclosed
    rcases eq_or_ne t s with rfl | hne
    · rw [dead_deliver, Bool.or_eq_false_iff] at hdead
      rw [closed_deliver] at hclosed
      exact h.live t ht hdead.1 hclosed
    · rw [socket_deliver_ne hne] at hdead hclosed
      exact h.live t ht hdead hclosed
  · intro j hj
    obtain ⟨t, ht, hdead⟩ := h.replaces j hj
    refine ⟨t, ht, ?_⟩
    rcases eq_or_ne t s with rfl | hne
    · rw [dead_deliver, hdead, Bool.true_or]
    · rw [socket_deliver_ne hne]
      exact hdead

theorem reconnect (h : OneSocket w)
    (hcurrent : w.bIsManualClose = false → ∃ s, w.webSocket = some s ∧ (w.socket s).dead = true) :
    OneSocket w.reconnect := by
  unfold ProtocolWebSocketClient.reconnect
  split_ifs with hr
  · simp only [Bool.and_eq_true, Bool.not_eq_true'] at hr
    exact ⟨h.live, fun _ _ => hcurrent hr.1.2⟩
  · exact h

theorem finishClose (h : OneSocket w) (hdone : ∀ i, w.finishClose.stage i = .done) :
    OneSocket w.finishClose := by
  constructor
  · intro t ht hdead hclosed
    rw [dead_finishClose] at hdead
    rw [finishClose_eq] at ht hclosed
    dsimp only at ht hclosed
    cases hw : w.webSocket with
    | none =>
      rw [hw] at hclosed
      exact absurd (h.live t ht hdead hclosed) (by rw [hw]; exact (Option.some_ne_none t).symm)
    | some s =>
      rw [hw, Option.map_some, Option.getD_some] at hclosed
      rcases eq_or_ne t s with rfl | hne
      · rw [Function.update_self] at hclosed
        cases hclosed
      · rw [Function.update_of_ne hne] at hclosed
        exact absurd (Option.some.inj ((h.live t ht hdead hclosed).symm.trans hw)) hne
  · intro i hi
    rw [hdone i] at hi
    cases hi

theorem createWebSocket {w : ProtocolWebSocketClient σ} (created : Bool)
    (hlive : ∀ s < w.sockets, (w.socket s).dead = false → ¬ (w.socket s).closed = false) :
    ∀ s < (w.createWebSocket created).sockets,
      ((w.createWebSocket created).socket s).dead = false →
      ((w.createWebSocket created).socket s).closed = false →
      (w.createWebSocket created).webSocket = some s := by
  cases created with
  | true =>
    intro s hs hdead hclosed
    rcases Nat.lt_succ_iff_lt_or_eq.mp hs with hlt | rfl
    · exact absurd hclosed (hlive s hlt hdead)
    · rfl
  | false => exact fun s hs hdead hclosed => absurd hclosed (hlive s hs hdead)

theorem step (h : OneSocket w) (hone : OneThread w) (hC : ReplacedSilent w e)
    (hst : Transition R w e w') : OneSocket w' := by
  cases hst with
  | @start created =>
    have hnone : w.webSocket = none := hC
    have hno : ∀ s, w.webSocket ≠ some s := by
      intro s hs
      rw [hnone] at hs
      cases hs
    constructor
    · exact createWebSocket (w := { w with bIsManualClose := false }) created
        fun s hs hdead hclosed => hno s (h.live s hs hdead hclosed)
    · intro i hi
      obtain ⟨s, hs, -⟩ := h.replaces i (by cases created <;> exact hi)
      exact absurd hs (hno s)
  | close | setAutoReconnect => exact ⟨h.live, h.replaces⟩
  | finishClose hc hended => exact h.finishClose (hone.finishClose hc hended).2
  | @callback s c =>
    have hd : OneSocket (w.deliver s c) := h.deliver
    apply of_forget
    rw [forget_handle]
    split_ifs with hterm
    · refine (hd.reconnect fun hm => ⟨s, ?_, ?_⟩).forget
      · by_contra hne
        exact absurd (hm.symm.trans (hC hterm hne)) Bool.false_ne_true
      · rw [dead_deliver, hterm, Bool.or_true]
    · exact hd.forget
  | running hi | allowed hi => exact h.setStage fun _ => by rw [hi]; rfl
  | @stopped i | @refused i | @cleared i =>
    have : OneSocket (w.setStage i .done) := h.setStage fun hd => absurd hd Bool.false_ne_true
    exact ⟨this.live, this.replaces⟩
  | @created i created hi =>
    obtain ⟨s, hs, hdead⟩ := h.replaces i (by rw [hi]; rfl)
    constructor
    · refine createWebSocket created fun t ht hlive hclosed => ?_
      obtain rfl : t = s := Option.some.inj ((h.live t ht hlive hclosed).symm.trans hs)
      exact absurd (hlive.symm.trans hdead) Bool.false_ne_true
    · exact fun j hj => absurd hj (hone.created_not_ahead hi j)

end OneSocket

/-- In every reachable state, a socket that has neither died nor been closed is the current one. -/
theorem one_live_socket {rule : Option σ}
    (h : Reachable (step R) ReplacedSilent { packetRule := rule } w) :
    ∀ s < w.sockets, (w.socket s).dead = false → (w.socket s).closed = false →
      w.webSocket = some s := by
  have hboth : OneThread w ∧ OneSocket w := by
    refine h.invariant (I := fun v => OneThread v ∧ OneSocket v) ⟨⟨?_, ?_, ?_, ?_⟩, ?_, ?_⟩
      fun _ _ _ hs hC hst => ⟨hs.1.step (transition_of_step hst),
        hs.2.step hs.1 hC (transition_of_step hst)⟩
    · exact fun _ hi => absurd rfl hi
    · exact fun _ _ hi => absurd rfl hi
    · exact fun hr => absurd hr Bool.false_ne_true
    · exact fun hc => absurd hc Bool.false_ne_true
    · exact fun s hs => absurd hs (Nat.not_lt_zero s)
    · exact fun i hi => absurd hi Bool.false_ne_true
  exact hboth.2.live

/-- Socket 0 dies, and is closed together with its replacement before the client starts again. -/
def startedAgain : List Event :=
  [.setAutoReconnect true, .start true, .callback 0 .onClosed, .tryReconnect 0 true,
    .tryReconnect 0 true, .tryReconnect 0 true, .tryReconnect 0 true, .close, .finishClose,
    .callback 1 .onClosed, .start true]

theorem one_live_socket_startedAgain : ∃ w,
    Reachable (step noRule) ReplacedSilent
      { packetRule := none } w ∧ (w.socket 2).dead = false ∧ w.webSocket = some 2 := by
  have hrun : Run (step noRule) ReplacedSilent
      { packetRule := none } startedAgain _ :=
    .cons trivial rfl (.cons rfl rfl (.cons (fun _ hne => absurd rfl hne) rfl
      (.cons trivial rfl (.cons trivial rfl (.cons trivial rfl (.cons trivial rfl
        (.cons trivial rfl (.cons trivial rfl (.cons (fun _ _ => rfl) rfl
          (.cons rfl rfl (.nil _)))))))))))
  exact ⟨_, ⟨_, hrun⟩, rfl, one_live_socket ⟨_, hrun⟩ 2 (by decide) rfl rfl⟩

end ProtocolWebSocketClient

end DtProject
