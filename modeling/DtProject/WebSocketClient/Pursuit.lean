import DtProject.WebSocketClient.Reconnect

/-! # When a lost connection is pursued

A client that reconnects by itself gives up for good where a socket dies after
its creation but before the thread that created it has cleared `bIsReconnecting`,
where no socket is created, or where reconnecting is switched on too late. In all
other runs a dead socket is always being replaced. As long as sockets that are no
longer current are silent, no live socket is ever replaced.
-/

namespace DtProject

open Reactive

namespace ProtocolWebSocketClient

variable {σ : Type*} {R : PacketRule σ} {w w' : ProtocolWebSocketClient σ} {s i : ℕ}
  {c : SocketCallback} {created : Bool} {e : Event}

/-- The current socket has not died, or a thread is still to create another. -/
def Pursued (w : ProtocolWebSocketClient σ) : Prop :=
  (∃ s, w.webSocket = some s ∧ (w.socket s).dead = false) ∨ ∃ i, (w.stage i).ahead = true

/-- A client that is to reconnect by itself pursues its connection. -/
def KeepsConnection (w : ProtocolWebSocketClient σ) : Prop :=
  w.bAutoReconnect = true → w.bIsManualClose = false → Pursued w

/-- Sockets are created where they are needed, reconnecting is switched on while the connection is
pursued, and the current socket ends only while no thread is about to end. -/
def PursuitKept : Contract (ProtocolWebSocketClient σ) Event
  | w, .start created => w.bAutoReconnect = true → created = true ∨ ∃ i, (w.stage i).ahead = true
  | w, .setAutoReconnect b => b = true → w.bIsManualClose = false → Pursued w
  | w, .callback s c => c.isTerminal = true → w.webSocket = some s → w.bAutoReconnect = true →
    w.bIsManualClose = false → ∀ i, w.stage i ≠ .clear
  | w, .tryReconnect i created => w.stage i = .create → w.bAutoReconnect = true →
    w.bIsManualClose = false → created = true
  | _, _ => True

def Unborn (w : ProtocolWebSocketClient σ) : Prop :=
  ∀ s, w.sockets ≤ s → (w.socket s).dead = false

theorem unborn_createWebSocket (h : Unborn w) : Unborn (w.createWebSocket created) := by
  cases created with
  | true => exact fun s hs => h s (Nat.le_of_succ_le hs)
  | false => exact h

theorem unborn_step (h : Unborn w) (hst : Transition R w e w') : Unborn w' := by
  cases hst with
  | start => exact unborn_createWebSocket (w := { w with bIsManualClose := false }) h
  | finishClose =>
    intro s hs
    rw [dead_finishClose]
    rw [finishClose_eq] at hs
    exact h s hs
  | @callback s c _ hs =>
    have hsockets : ((w.deliver s c).handle R c).sockets = w.sockets := handle_sockets
    intro t ht
    rw [hsockets] at ht
    rw [handle_socket, socket_deliver_ne (by omega)]
    exact h t ht
  | created => exact unborn_createWebSocket h
  | close | setAutoReconnect | running | stopped | refused | allowed | cleared => exact h

section Kept

theorem pursued_ahead {j : ℕ} (h : (w.stage j).ahead = true) : Pursued w := .inr ⟨j, h⟩

theorem OneThread.ahead_iff (h : OneThread w) (hr : w.bIsReconnecting = true) :
    (∃ i, (w.stage i).ahead = true) ↔ ∀ i, w.stage i ≠ .clear := by
  obtain ⟨-, i, hi⟩ := h.running hr
  have honly : ∀ j, w.stage j ≠ .done → j = i := fun j hj =>
    Option.some.inj ((h.pointed j hj).symm.trans (h.pointed i hi))
  constructor
  · rintro ⟨j, hj⟩ k hk
    have hji := honly j fun hd => by rw [hd] at hj; cases hj
    have hki := honly k (hk.trans_ne (by decide))
    rw [hji, ← hki, hk] at hj
    cases hj
  · intro hclear
    refine ⟨i, ?_⟩
    cases hs : w.stage i with
    | run | check | create => rfl
    | clear => exact absurd hs (hclear i)
    | done => exact absurd hs hi

theorem keeps_handle : KeepsConnection ((w.deliver s c).handle R c) ↔
    KeepsConnection (if c.isTerminal then (w.deliver s c).reconnect else w.deliver s c) := by
  have heq := forget_handle (R := R) (w := w.deliver s c) (c := c)
  exact ⟨fun hk => (heq ▸ (hk : KeepsConnection (forget _)) : KeepsConnection (forget _)),
    fun hk => (heq.symm ▸ (hk : KeepsConnection (forget _)) : KeepsConnection (forget _))⟩

theorem KeepsConnection.deliver (h : KeepsConnection w)
    (hcurrent : w.webSocket = some s → c.isTerminal = false) :
    KeepsConnection (w.deliver s c) := by
  intro ha hm
  rcases h ha hm with ⟨t, ht, hdead⟩ | hahead
  · refine .inl ⟨t, ht, ?_⟩
    rcases eq_or_ne t s with rfl | hts
    · rw [dead_deliver, hdead, hcurrent ht]
      rfl
    · rw [socket_deliver_ne hts]
      exact hdead
  · exact .inr hahead

/-- Where the current socket ends, a thread has to be on its way to create the next. -/
theorem keeps_dead (hs : w.webSocket = some s) (hc : c.isTerminal = true)
    (ha : w.bAutoReconnect = true) (hm : w.bIsManualClose = false) :
    KeepsConnection (w.deliver s c) ↔ ∃ i, (w.stage i).ahead = true := by
  have hdead : ((w.deliver s c).socket s).dead = true := by
    rw [dead_deliver, hc, Bool.or_true]
  constructor
  · intro hk
    rcases hk ha hm with ⟨t, ht, hlive⟩ | hahead
    · obtain rfl : s = t := Option.some.inj (hs.symm.trans ht)
      rw [hdead] at hlive
      cases hlive
    · exact hahead
  · exact fun hahead _ _ => .inr hahead

theorem pursued_reconnect (ha : w.bAutoReconnect = true) (hm : w.bIsManualClose = false)
    (hflag : w.bIsReconnecting = false) : Pursued w.reconnect := by
  have hstage : w.reconnect.stage = Function.update w.stage w.threads .run := by
    simp [reconnect, ha, hm, hflag]
  apply pursued_ahead (j := w.threads)
  rw [hstage, Function.update_self]
  rfl

/-- A callback keeps the pursuit unless it ends the current socket while a thread is about to
end. -/
theorem keeps_callback (hone : OneThread w) (h : KeepsConnection w) (hclosing : w.closing = false) :
    KeepsConnection ((w.deliver s c).handle R c) ↔ PursuitKept w (.callback s c) := by
  rw [keeps_handle]
  cases hc : c.isTerminal with
  | false =>
    rw [if_neg Bool.false_ne_true]
    exact iff_of_true (h.deliver fun _ => hc)
      fun hc' => absurd (hc.symm.trans hc') Bool.false_ne_true
  | true =>
    rw [if_pos rfl]
    by_cases hr : w.bAutoReconnect = true ∧ w.bIsManualClose = false
    · obtain ⟨ha, hm⟩ := hr
      cases hflag : w.bIsReconnecting with
      | false =>
        refine iff_of_true (fun _ _ => pursued_reconnect ha hm hflag) ?_
        exact fun _ _ _ _ i => (hone.all_done hclosing hflag i).trans_ne (by decide)
      | true =>
        have hsame : (w.deliver s c).reconnect = w.deliver s c := by
          simp [reconnect, deliver, modifySocket, hflag]
        rw [hsame]
        by_cases hs : w.webSocket = some s
        · rw [keeps_dead hs hc ha hm, hone.ahead_iff hflag]
          exact ⟨fun hclear _ _ _ _ => hclear, fun hk => hk hc hs ha hm⟩
        · exact iff_of_true (h.deliver fun hs' => absurd hs' hs) fun _ hs' => absurd hs' hs
    · have hsame : (w.deliver s c).reconnect = w.deliver s c := by
        rw [reconnect, if_neg]
        intro hall
        simp only [Bool.and_eq_true, Bool.not_eq_true'] at hall
        exact hr hall.1
      rw [hsame]
      exact iff_of_true (fun ha hm => absurd ⟨ha, hm⟩ hr) fun _ _ ha hm => absurd ⟨ha, hm⟩ hr

theorem keeps_setStage {stage : ReconnectStage} (hstage : stage.ahead = true) :
    KeepsConnection (w.setStage i stage) :=
  fun _ _ => pursued_ahead (j := i) (by rw [setStage_self]; exact hstage)

theorem pursued_createWebSocket (created : Bool) (hunborn : Unborn w) :
    Pursued (w.createWebSocket created) ↔ created = true ∨ ∃ i, (w.stage i).ahead = true := by
  cases created with
  | true => exact iff_of_true (.inl ⟨w.sockets, rfl, hunborn _ le_rfl⟩) (.inl rfl)
  | false =>
    constructor
    · rintro (⟨s, hs, -⟩ | hahead)
      · cases hs
      · exact .inr hahead
    · rintro (h | hahead)
      · cases h
      · exact .inr hahead

theorem pursued_created (hone : OneThread w) (hunborn : Unborn w) (hi : w.stage i = .create) :
    Pursued ((w.createWebSocket created).setStage i .clear) ↔ created = true := by
  constructor
  · rintro (⟨s, hs, -⟩ | ⟨j, hj⟩)
    · cases created with
      | true => rfl
      | false => cases hs
    · exact absurd hj (hone.created_not_ahead hi j)
  · rintro rfl
    exact .inl ⟨w.sockets, rfl, hunborn _ le_rfl⟩

theorem keeps_step (hone : OneThread w) (hunborn : Unborn w) (h : KeepsConnection w)
    (hst : Transition R w e w') : KeepsConnection w' ↔ PursuitKept w e := by
  cases hst with
  | @start created =>
    have hpursued := pursued_createWebSocket (w := { w with bIsManualClose := false })
      created hunborn
    have hauto : (w.start created).bAutoReconnect = w.bAutoReconnect := by cases created <;> rfl
    have hmanual : (w.start created).bIsManualClose = false := by cases created <;> rfl
    rw [KeepsConnection, hauto]
    exact ⟨fun hk ha => hpursued.mp (hk ha hmanual), fun hk ha _ => hpursued.mpr (hk ha)⟩
  | close => exact iff_of_true (fun _ hm => absurd hm (Bool.false_ne_true ·.symm)) trivial
  | finishClose hc =>
    refine iff_of_true (fun _ hm => ?_) trivial
    rw [finishClose_eq] at hm
    exact absurd ((hone.manual hc).symm.trans hm) (Bool.false_ne_true ·.symm)
  | setAutoReconnect => exact Iff.rfl
  | callback hc => exact keeps_callback hone h hc
  | running hi =>
    exact iff_of_true (keeps_setStage rfl) fun hi' => absurd (hi.symm.trans hi') (by decide)
  | stopped hi hstop =>
    have hm := hone.manual (Bool.and_eq_true_iff.mp hstop).1
    refine iff_of_true (fun _ hm' => ?_) fun hi' => absurd (hi.symm.trans hi') (by decide)
    exact absurd (hm.symm.trans hm') (Bool.false_ne_true ·.symm)
  | refused hi hm =>
    refine iff_of_true (fun _ hm' => ?_) fun hi' => absurd (hi.symm.trans hi') (by decide)
    exact absurd (hm.symm.trans hm') (Bool.false_ne_true ·.symm)
  | allowed hi =>
    exact iff_of_true (keeps_setStage rfl) fun hi' => absurd (hi.symm.trans hi') (by decide)
  | @created i created hi =>
    have hauto : ((w.createWebSocket created).setStage i .clear).bAutoReconnect =
        w.bAutoReconnect := by cases created <;> rfl
    have hmanual : ((w.createWebSocket created).setStage i .clear).bIsManualClose =
        w.bIsManualClose := by cases created <;> rfl
    rw [KeepsConnection, hauto, hmanual, pursued_created hone hunborn hi]
    exact ⟨fun hk _ => hk, fun hk => hk hi⟩
  | cleared hi =>
    refine iff_of_true (fun ha hm => ?_) fun hi' => absurd (hi.symm.trans hi') (by decide)
    rcases h ha hm with hlive | ⟨j, hj⟩
    · exact .inl hlive
    · exact absurd hj (hone.not_ahead (hi.trans_ne (by decide)) (by rw [hi]; rfl) j)

end Kept

def started (rule : Option σ) (bAutoReconnect : Bool) : ProtocolWebSocketClient σ :=
  start { packetRule := rule, bAutoReconnect := bAutoReconnect } true

theorem oneThread_started {rule : Option σ} {b : Bool} : OneThread (started rule b) :=
  OneThread.createWebSocket (w := { packetRule := rule, bAutoReconnect := b })
    ⟨fun _ hi => absurd rfl hi, fun _ _ hi => absurd rfl hi,
      fun hr => absurd hr Bool.false_ne_true, fun hc => absurd hc Bool.false_ne_true⟩ true

/-- Along any run a client that is to reconnect keeps up its connection in every state precisely
when every step meets `PursuitKept`. -/
theorem keeps_connection_iff {rule : Option σ} {b : Bool} {es : List Event}
    (h : Run (step R) ⊤ (started rule b) es w) :
    (∀ pre v, pre <+: es → Run (step R) ⊤ (started rule b) pre v → KeepsConnection v) ↔
      Run (step R) PursuitKept (started rule b) es w := by
  have hstruct : ∀ {pre v}, Run (step R) ⊤ (started rule b) pre v → OneThread v ∧ Unborn v :=
    fun hv => hv.invariant (I := fun v => OneThread v ∧ Unborn v)
      ⟨oneThread_started, fun _ _ => rfl⟩ fun _ _ _ hs _ hst =>
        ⟨hs.1.step (transition_of_step hst), unborn_step hs.2 (transition_of_step hst)⟩
  have hiff := h.always_iff (I := fun v => (OneThread v ∧ Unborn v) ∧ KeepsConnection v)
    (Q := PursuitKept) ⟨⟨oneThread_started, fun _ _ => rfl⟩, fun _ _ => .inl ⟨0, rfl, rfl⟩⟩ (by
      rintro s e s' ⟨⟨hone, hunborn⟩, hk⟩ - hst
      have htr := transition_of_step hst
      have hs' : OneThread s' ∧ Unborn s' := ⟨hone.step htr, unborn_step hunborn htr⟩
      exact (and_iff_right hs').trans (keeps_step hone hunborn hk htr))
  rw [← hiff]
  exact ⟨fun hall pre v hp hv => ⟨hstruct hv, hall pre v hp hv⟩,
    fun hall pre v hp hv => (hall pre v hp hv).2⟩

def replacedOnce : List Event :=
  [.callback 0 .onConnected, .callback 0 .onClosed, .tryReconnect 0 true, .tryReconnect 0 true,
    .tryReconnect 0 true, .tryReconnect 0 true, .callback 1 .onConnected]

theorem keeps_connection_iff_replacedOnce : ∃ w,
    Run (step noRule) PursuitKept (started none true) replacedOnce w ∧
    KeepsConnection w := by
  have hrun : Run (step noRule) PursuitKept
      (started none true) replacedOnce _ :=
    .cons (fun hc => absurd hc Bool.false_ne_true) rfl
      (.cons (fun _ _ _ _ _ hi => nomatch hi) rfl
        (.cons (fun _ _ _ => rfl) rfl (.cons (fun _ _ _ => rfl) rfl
          (.cons (fun _ _ _ => rfl) rfl (.cons (fun _ _ _ => rfl) rfl
            (.cons (fun hc => absurd hc Bool.false_ne_true) rfl (.nil _)))))))
  have htop := hrun.mono le_top
  exact ⟨_, hrun, (keeps_connection_iff htop).mpr hrun _ _ (List.prefix_refl _) htop⟩

end ProtocolWebSocketClient

end DtProject
