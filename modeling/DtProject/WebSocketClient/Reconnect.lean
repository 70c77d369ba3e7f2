import DtProject.WebSocketClient.Basic

/-! # Reconnecting once, and not after `Close`

Whatever the order of calls, callbacks and thread stages, at most one reconnect
thread is on its way, and after `Close` there is none until the next `Start`. A
dead socket is being replaced as long as no socket dies between its creation and
the end of the thread that created it.
-/

namespace DtProject

open Reactive

def ReconnectStage.left : ReconnectStage → ℕ
  | .run => 4
  | .check => 3
  | .create => 2
  | .clear => 1
  | .done => 0

/-- The thread is still to create a socket. -/
def ReconnectStage.ahead : ReconnectStage → Bool
  | .run | .check | .create => true
  | _ => false

namespace ProtocolWebSocketClient

variable {σ : Type*} {R : PacketRule σ} {w w' : ProtocolWebSocketClient σ} {s i : ℕ}
  {c : SocketCallback} {created : Bool} {e : Event}

section Callback

/-- The client without what it received and dispatched. -/
def forget (w : ProtocolWebSocketClient σ) : ProtocolWebSocketClient σ :=
  { w with packetRule := none, dispatched := [], bodies := [] }

theorem forget_notify {dataBuffer : List UInt8} : (w.notify R dataBuffer).forget = w.forget := by
  unfold notify
  cases w.packetRule <;> rfl

theorem forget_reconnect_dispatched {dispatched : List Bool} :
    (reconnect { w with dispatched := dispatched }).forget = w.reconnect.forget := by
  unfold reconnect
  dsimp only
  split_ifs <;> rfl

theorem reconnect_of_manual (h : w.bIsManualClose = true) : w.reconnect = w := by
  simp [reconnect, h]

theorem forget_handle :
    (w.handle R c).forget = (if c.isTerminal then w.reconnect else w).forget := by
  cases c with
  | onConnected => rfl
  | onConnectionError =>
    change (if w.bIsManualClose then w else w.reconnect).forget = w.reconnect.forget
    split_ifs with h
    · rw [reconnect_of_manual h]
    · rfl
  | onClosed => exact forget_reconnect_dispatched
  | onMessage message behind => exact forget_notify
  | onBinaryMessage data bIsLastFragment =>
    change (if bIsLastFragment then w.notify R data else w).forget = w.forget
    split_ifs
    · exact forget_notify
    · rfl

end Callback

section Transition

inductive Transition (R : PacketRule σ) (w : ProtocolWebSocketClient σ) :
    Event → ProtocolWebSocketClient σ → Prop where

  | start {created : Bool} : w.closing = false → Transition R w (.start created) (w.start created)

  | close : w.closing = false → Transition R w .close w.close

  | finishClose : w.closing = true → w.threadEnded = true →
      Transition R w .finishClose w.finishClose

  | setAutoReconnect {b : Bool} : w.closing = false →
      Transition R w (.setAutoReconnect b) { w with bAutoReconnect := b }

  | callback {s : ℕ} {c : SocketCallback} : w.closing = false → s < w.sockets →
      Transition R w (.callback s c) ((w.deliver s c).handle R c)

  | running {i : ℕ} {created : Bool} : w.stage i = .run → w.stopped i = false →
      Transition R w (.tryReconnect i created) (w.setStage i .check)

  | stopped {i : ℕ} {created : Bool} : w.stage i = .run → w.stopped i = true →
      Transition R w (.tryReconnect i created) (w.setStage i .done)

  | refused {i : ℕ} {created : Bool} : w.stage i = .check → w.bIsManualClose = true →
      Transition R w (.tryReconnect i created) { w.setStage i .done with bIsReconnecting := false }

  | allowed {i : ℕ} {created : Bool} : w.stage i = .check → w.bIsManualClose = false →
      Transition R w (.tryReconnect i created) (w.setStage i .create)

  | created {i : ℕ} {created : Bool} : w.stage i = .create →
      Transition R w (.tryReconnect i created) ((w.createWebSocket created).setStage i .clear)

  | cleared {i : ℕ} {created : Bool} : w.stage i = .clear →
      Transition R w (.tryReconnect i created) { w.setStage i .done with bIsReconnecting := false }

theorem transition_tryReconnect (hst : w.tryReconnect i created = some w') :
    Transition R w (.tryReconnect i created) w' := by
  unfold tryReconnect at hst
  cases hi : w.stage i with
  | run =>
    simp only [hi, Option.some.injEq] at hst
    subst hst
    cases hstop : w.stopped i with
    | true => exact .stopped hi hstop
    | false => exact .running hi hstop
  | check =>
    simp only [hi] at hst
    cases hm : w.bIsManualClose with
    | true =>
      simp only [hm, if_true, Option.some.injEq] at hst
      subst hst
      exact .refused hi hm
    | false =>
      simp only [hm, Bool.false_eq_true, if_false, Option.some.injEq] at hst
      subst hst
      exact .allowed hi hm
  | create =>
    simp only [hi, Option.some.injEq] at hst
    subst hst
    exact .created hi
  | clear =>
    simp only [hi, Option.some.injEq] at hst
    subst hst
    exact .cleared hi
  | done =>
    simp only [hi] at hst
    cases hst

theorem transition_of_step (hst : step R w e = some w') : Transition R w e w' := by
  cases e with
  | tryReconnect i created => exact transition_tryReconnect hst
  | start created | close | setAutoReconnect b =>
    simp only [step] at hst
    split_ifs at hst with hc
    obtain rfl := Option.some.inj hst
    constructor
    exact Bool.eq_false_of_not_eq_true hc
  | finishClose =>
    simp only [step] at hst
    split_ifs at hst with hc
    obtain rfl := Option.some.inj hst
    obtain ⟨hclosing, hended⟩ := Bool.and_eq_true_iff.mp hc
    exact .finishClose hclosing hended
  | callback s c =>
    simp only [step] at hst
    split_ifs at hst with hc
    obtain rfl := Option.some.inj hst
    simp only [Bool.and_eq_true, Bool.not_eq_true', decide_eq_true_eq] at hc
    exact .callback hc.1.1 hc.1.2

end Transition

theorem finishClose_eq : w.finishClose =
    { w with
      reconnectThread := none
      closing := false
      webSocket := none
      socket := (w.webSocket.map fun s =>
        Function.update w.socket s { w.socket s with closed := true }).getD w.socket } := by
  unfold finishClose
  dsimp only
  split
  · rename_i hw
    simp only [hw, Option.map_some, Option.getD_some]
    rfl
  · rename_i hw
    simp only [hw, Option.map_none, Option.getD_none]

theorem setStage_self {stage : ReconnectStage} : (w.setStage i stage).stage i = stage :=
  Function.update_self ..

theorem setStage_ne {j : ℕ} {stage : ReconnectStage} (h : j ≠ i) :
    (w.setStage i stage).stage j = w.stage j := Function.update_of_ne h ..

section Effects

theorem dead_deliver : ((w.deliver s c).socket s).dead = ((w.socket s).dead || c.isTerminal) := by
  change (Function.update w.socket s _ s).dead = _
  rw [Function.update_self]

theorem closed_deliver : ((w.deliver s c).socket s).closed = (w.socket s).closed := by
  change (Function.update w.socket s _ s).closed = _
  rw [Function.update_self]

theorem socket_deliver_ne {t : ℕ} (h : t ≠ s) : (w.deliver s c).socket t = w.socket t :=
  Function.update_of_ne h ..

theorem dead_finishClose {t : ℕ} : (w.finishClose.socket t).dead = (w.socket t).dead := by
  rw [finishClose_eq]
  dsimp only
  cases w.webSocket with
  | none => rfl
  | some s =>
    rcases eq_or_ne t s with rfl | hne
    · rw [Option.map_some, Option.getD_some, Function.update_self]
    · rw [Option.map_some, Option.getD_some, Function.update_of_ne hne]

theorem reconnect_socket : w.reconnect.socket = w.socket := by
  unfold reconnect
  split_ifs <;> rfl

theorem handle_socket : (w.handle R c).socket = w.socket := by
  have h := congrArg socket (forget_handle (R := R) (w := w) (c := c))
  change (w.handle R c).socket = _ at h
  rw [h]
  split_ifs
  · exact reconnect_socket
  · rfl

theorem handle_sockets : (w.handle R c).sockets = w.sockets := by
  have h := congrArg sockets (forget_handle (R := R) (w := w) (c := c))
  change (w.handle R c).sockets = _ at h
  rw [h]
  unfold reconnect
  split_ifs <;> rfl

end Effects

section OneThread

/-- Only the thread that `ReconnectThread` points to is on its way. Outside of `Close` it is
exactly while `bIsReconnecting` is set. -/
structure OneThread (w : ProtocolWebSocketClient σ) : Prop where

  pointed : ∀ i, w.stage i ≠ .done → w.reconnectThread = some i

  flagged : w.closing = false → ∀ i, w.stage i ≠ .done → w.bIsReconnecting = true

  running : w.bIsReconnecting = true → w.closing = false ∧ ∃ i, w.stage i ≠ .done

  manual : w.closing = true → w.bIsManualClose = true

namespace OneThread

theorem forget (h : OneThread w) : OneThread w.forget :=
  ⟨h.pointed, h.flagged, h.running, h.manual⟩

theorem of_forget (h : OneThread w.forget) : OneThread w :=
  ⟨h.pointed, h.flagged, h.running, h.manual⟩

theorem all_done (h : OneThread w) (hclosing : w.closing = false)
    (hflag : w.bIsReconnecting = false) (i : ℕ) : w.stage i = .done := by
  by_contra hne
  rw [h.flagged hclosing i hne] at hflag
  cases hflag

theorem createWebSocket (h : OneThread w) (created : Bool) :
    OneThread (w.createWebSocket created) := by
  cases created <;> exact ⟨h.pointed, h.flagged, h.running, h.manual⟩

theorem reconnect (h : OneThread w) (hclosing : w.closing = false) : OneThread w.reconnect := by
  unfold ProtocolWebSocketClient.reconnect
  split_ifs with hr
  · simp only [Bool.and_eq_true, Bool.not_eq_true'] at hr
    have hdone := h.all_done hclosing hr.2
    constructor
    · intro i hi
      rcases eq_or_ne i w.threads with rfl | hne
      · rfl
      · exact absurd ((setStage_ne hne).trans (hdone i)) hi
    · exact fun _ _ _ => rfl
    · exact fun _ => ⟨hclosing, w.threads, setStage_self.trans_ne (by decide)⟩
    · exact h.manual
  · exact h

theorem setStage (h : OneThread w) {stage : ReconnectStage} (hi : w.stage i ≠ .done)
    (hstage : stage ≠ .done) : OneThread (w.setStage i stage) := by
  have hstages : ∀ j, (w.setStage i stage).stage j ≠ .done ↔ w.stage j ≠ .done := by
    intro j
    rcases eq_or_ne j i with rfl | hne
    · exact iff_of_true (setStage_self.trans_ne hstage) hi
    · rw [setStage_ne hne]
  constructor
  · exact fun j hj => h.pointed j ((hstages j).mp hj)
  · exact fun hclosing j hj => h.flagged hclosing j ((hstages j).mp hj)
  · intro hflag
    obtain ⟨hclosing, j, hj⟩ := h.running hflag
    exact ⟨hclosing, j, (hstages j).mpr hj⟩
  · exact h.manual

theorem finish (h : OneThread w) (hi : w.stage i ≠ .done) :
    OneThread { w.setStage i .done with bIsReconnecting := false } := by
  have hdone : ∀ j, (w.setStage i .done).stage j = .done := by
    intro j
    rcases eq_or_ne j i with rfl | hne
    · exact setStage_self
    · rw [setStage_ne hne]
      by_contra hj
      exact hne (Option.some.inj ((h.pointed j hj).symm.trans (h.pointed i hi)))
  exact ⟨fun j hj => absurd (hdone j) hj, fun _ j hj => absurd (hdone j) hj,
    fun hflag => absurd hflag Bool.false_ne_true, h.manual⟩

theorem flag_of_closing (h : OneThread w) (hclosing : w.closing = true) :
    w.bIsReconnecting = false := by
  by_contra hr
  rw [(h.running (Bool.eq_true_of_not_eq_false hr)).1] at hclosing
  cases hclosing

theorem finishClose (h : OneThread w) (hclosing : w.closing = true)
    (hended : w.threadEnded = true) :
    OneThread w.finishClose ∧ ∀ i, w.finishClose.stage i = .done := by
  have hdone : ∀ i, w.stage i = .done := by
    intro i
    by_contra hi
    rw [threadEnded, h.pointed i hi] at hended
    exact hi (of_decide_eq_true hended)
  have hflag := h.flag_of_closing hclosing
  rw [finishClose_eq]
  exact ⟨⟨fun i hi => absurd (hdone i) hi, fun _ i hi => absurd (hdone i) hi,
    fun hr => absurd (hflag.symm.trans hr) Bool.false_ne_true,
    fun hc => absurd hc Bool.false_ne_true⟩, hdone⟩

theorem step (h : OneThread w) (hst : Transition R w e w') : OneThread w' := by
  cases hst with
  | start hc =>
    refine createWebSocket (w := { w with bIsManualClose := false })
      ⟨h.pointed, h.flagged, h.running, fun hc' => ?_⟩ _
    exact absurd (hc.symm.trans hc') Bool.false_ne_true
  | close hc =>
    exact ⟨h.pointed, fun hc' => absurd hc'.symm Bool.false_ne_true,
      fun hr => absurd hr Bool.false_ne_true, fun _ => rfl⟩
  | finishClose hc hended => exact (h.finishClose hc hended).1
  | setAutoReconnect hc => exact ⟨h.pointed, h.flagged, h.running, h.manual⟩
  | @callback s c hc hs =>
    have hd : OneThread (w.deliver s c) := ⟨h.pointed, h.flagged, h.running, h.manual⟩
    apply of_forget
    rw [forget_handle]
    split_ifs
    · exact (hd.reconnect hc).forget
    · exact hd.forget
  | running hi => exact h.setStage (hi.trans_ne (by decide)) (by decide)
  | stopped hi hstop =>
    have hfinish := h.finish (hi.trans_ne (by decide))
    rw [← h.flag_of_closing (Bool.and_eq_true_iff.mp hstop).1] at hfinish
    exact hfinish
  | refused hi => exact h.finish (hi.trans_ne (by decide))
  | allowed hi => exact h.setStage (hi.trans_ne (by decide)) (by decide)
  | @created i created hi =>
    have hstage : (w.createWebSocket created).stage i = .create := by
      cases created <;> exact hi
    exact (h.createWebSocket created).setStage (hstage.trans_ne (by decide)) (by decide)
  | cleared hi => exact h.finish (hi.trans_ne (by decide))

end OneThread

end OneThread

theorem OneThread.not_ahead (h : OneThread w) (hi : w.stage i ≠ .done)
    (hahead : (w.stage i).ahead = false) (j : ℕ) : ¬ (w.stage j).ahead = true := by
  intro hj
  have hne : w.stage j ≠ .done := fun hd => by rw [hd] at hj; cases hj
  obtain rfl : j = i := Option.some.inj ((h.pointed j hne).symm.trans (h.pointed i hi))
  exact absurd (hahead.symm.trans hj) Bool.false_ne_true

theorem OneThread.created_not_ahead (h : OneThread w) (hi : w.stage i = .create) (j : ℕ) :
    ¬ (((w.createWebSocket created).setStage i .clear).stage j).ahead = true := by
  have hstage : (w.createWebSocket created).stage = w.stage := by cases created <;> rfl
  intro hj
  rcases eq_or_ne j i with rfl | hne
  · rw [setStage_self] at hj
    cases hj
  · rw [setStage_ne hne, hstage] at hj
    have hjd : w.stage j ≠ .done := fun hd => by rw [hd] at hj; cases hj
    exact hne (Option.some.inj ((h.pointed j hjd).symm.trans
      (h.pointed i (hi.trans_ne (by decide)))))

theorem oneThread_reachable {rule : Option σ} {C : Contract (ProtocolWebSocketClient σ) Event}
    (h : Reachable (step R) C { packetRule := rule } w) : OneThread w := by
  refine h.invariant ⟨?_, ?_, ?_, ?_⟩ fun _ _ _ hw _ hst => hw.step (transition_of_step hst)
  · exact fun _ hi => absurd rfl hi
  · exact fun _ _ hi => absurd rfl hi
  · exact fun hr => absurd hr Bool.false_ne_true
  · exact fun hc => absurd hc Bool.false_ne_true

/-- At any time only the thread that `ReconnectThread` points to is on its way, and outside of
`Close` there is one exactly while `bIsReconnecting` is set. -/
theorem one_reconnect {rule : Option σ} (h : Reachable (step R) ⊤ { packetRule := rule } w) :
    (∀ i, w.stage i ≠ .done → w.reconnectThread = some i) ∧
      (w.closing = false → (w.bIsReconnecting = true ↔ ∃ i, w.stage i ≠ .done)) := by
  have hone := oneThread_reachable h
  exact ⟨hone.pointed, fun hclosing => ⟨fun hr => (hone.running hr).2,
    fun ⟨i, hi⟩ => hone.flagged hclosing i hi⟩⟩

section Witness

def noRule : PacketRule Unit where
  getWantSize _ := 0
  notifyReceiveData rule _ := ([], rule)

/-- Socket 0 dies twice, and `Close` comes while the thread is to create a socket. -/
def closedMidway : List Event :=
  [.setAutoReconnect true, .start true, .callback 0 .onClosed, .callback 0 .onConnectionError,
    .tryReconnect 0 true, .tryReconnect 0 true, .close]

theorem one_reconnect_diedTwice : ∃ w, Reachable (step noRule) ⊤ { packetRule := none } w ∧
    w.stage 0 = .create ∧ (w.bIsReconnecting = true ↔ ∃ i, w.stage i ≠ .done) := by
  have hrun : Run (step noRule) ⊤ { packetRule := none } (closedMidway.take 6) _ :=
    .cons trivial rfl (.cons trivial rfl (.cons trivial rfl (.cons trivial rfl
      (.cons trivial rfl (.cons trivial rfl (.nil _))))))
  exact ⟨_, ⟨_, hrun⟩, rfl, (one_reconnect ⟨_, hrun⟩).2 rfl⟩

end Witness

section Closing

/-- Closed, and with no thread that could create another socket. -/
structure Quiet (sockets : ℕ) (w : ProtocolWebSocketClient σ) : Prop where
  manual : w.bIsManualClose = true
  noSocket : w.webSocket = none
  done : ∀ i, w.stage i = .done
  sockets : w.sockets = sockets

def NoStart : Contract (ProtocolWebSocketClient σ) Event
  | _, .start _ => False
  | _, _ => True

theorem Quiet.forget {n : ℕ} (h : Quiet n w) : Quiet n w.forget :=
  ⟨h.manual, h.noSocket, h.done, h.sockets⟩

theorem Quiet.of_forget {n : ℕ} (h : Quiet n w.forget) : Quiet n w :=
  ⟨h.manual, h.noSocket, h.done, h.sockets⟩

theorem Quiet.step {n : ℕ} (h : Quiet n w) (hC : NoStart w e) (hst : Transition R w e w') :
    Quiet n w' := by
  cases hst with
  | start => exact hC.elim
  | close => exact ⟨rfl, h.noSocket, h.done, h.sockets⟩
  | finishClose =>
    rw [finishClose_eq]
    exact ⟨h.manual, rfl, h.done, h.sockets⟩
  | setAutoReconnect => exact ⟨h.manual, h.noSocket, h.done, h.sockets⟩
  | @callback s c =>
    have hd : Quiet n (w.deliver s c) := ⟨h.manual, h.noSocket, h.done, h.sockets⟩
    have hf : ((w.deliver s c).handle R c).forget = (w.deliver s c).forget := by
      rw [forget_handle, reconnect_of_manual hd.manual, ite_self]
    exact .of_forget (hf ▸ hd.forget)
  | running hi | stopped hi | refused hi | allowed hi | created hi | cleared hi =>
    rw [h.done] at hi
    cases hi

theorem quiet_finishClose (h : OneThread w) (hclosing : w.closing = true)
    (hended : w.threadEnded = true) : Quiet w.sockets w.finishClose := by
  have hdone := (h.finishClose hclosing hended).2
  have hmanual := h.manual hclosing
  rw [finishClose_eq] at hdone ⊢
  exact ⟨hmanual, rfl, hdone, rfl⟩

/-- While `Close` waits, every step is one of the thread it waits for, and brings it closer to its
end. -/
theorem closing_step {n : ℕ} (h : OneThread w ∧ w.closing = true ∧ ∀ i, (w.stage i).left ≤ n)
    (hC : e ≠ .finishClose) (hst : Transition R w e w') :
    ∃ m < n, OneThread w' ∧ w'.closing = true ∧ ∀ i, (w'.stage i).left ≤ m := by
  obtain ⟨hone, hclosing, hleft⟩ := h
  have hone' := hone.step hst
  have hset : ∀ {i : ℕ} {stage : ReconnectStage}, w.stage i ≠ .done →
      stage.left < (w.stage i).left → ∀ j, ((w.setStage i stage).stage j).left ≤ n - 1 := by
    intro i stage hi hlt j
    have hn := hleft i
    rcases eq_or_ne j i with rfl | hne
    · rw [setStage_self]
      omega
    · rw [setStage_ne hne]
      have hj : w.stage j = .done := by
        by_contra hj
        exact hne (Option.some.inj ((hone.pointed j hj).symm.trans (hone.pointed i hi)))
      rw [hj]
      exact Nat.zero_le _
  have hpos : ∀ {i : ℕ}, w.stage i ≠ .done → n - 1 < n := by
    intro i hi
    have hn := hleft i
    cases hs : w.stage i <;> rw [hs] at hn hi <;> simp only [ReconnectStage.left] at hn <;>
      first | omega | exact absurd rfl hi
  cases hst with
  | start hc | close hc | setAutoReconnect hc | callback hc =>
    exact absurd (hc.symm.trans hclosing) Bool.false_ne_true
  | finishClose => exact absurd rfl hC
  | running hi | stopped hi | refused hi | allowed hi | cleared hi =>
    have hne := hi.trans_ne (by decide : _ ≠ ReconnectStage.done)
    exact ⟨n - 1, hpos hne, hone', hclosing, hset hne (by rw [hi]; decide)⟩
  | @created i created hi =>
    have hne := hi.trans_ne (by decide : _ ≠ ReconnectStage.done)
    refine ⟨n - 1, hpos hne, hone', ?_, ?_⟩
    · cases created <;> exact hclosing
    · have : ∀ j, ((w.setStage i .clear).stage j).left ≤ n - 1 := hset hne (by rw [hi]; decide)
      cases created <;> exact this

/-- `Close` waits for at most four stages of a thread, one of which can always be taken. Once it
returns, no socket is created before the next `Start`. -/
theorem close_quiet {rule : Option σ} (h : Reachable (step R) ⊤ { packetRule := rule } w)
    (hclosing : w.closing = true) :
    (∀ es w', Run (step R) (fun _ e => e ≠ .finishClose) w es w' → es.length ≤ 4) ∧
    (∃ e w', step R w e = some w') ∧
    ∀ w' es w'', step R w .finishClose = some w' → Run (step R) NoStart w' es w'' →
      w''.sockets = w.sockets ∧ w''.webSocket = none ∧ ∀ i, w''.stage i = .done := by
  have hone := oneThread_reachable h
  refine ⟨fun es w' hr => ?_, ?_, fun w' es w'' hst hr => ?_⟩
  · refine hr.length_le (I := fun n w => OneThread w ∧ w.closing = true ∧
      ∀ i, (w.stage i).left ≤ n) ⟨hone, hclosing, fun i => ?_⟩ ?_
    · cases w.stage i <;> decide
    · exact fun n s e s' hI hC hst => closing_step hI hC (transition_of_step hst)
  · cases hended : w.threadEnded with
    | true => exact ⟨.finishClose, w.finishClose, by simp [step, hclosing, hended]⟩
    | false =>
      unfold threadEnded at hended
      cases hp : w.reconnectThread with
      | none =>
        rw [hp] at hended
        cases hended
      | some i =>
        rw [hp] at hended
        have hi : w.stage i ≠ .done := of_decide_eq_false hended
        refine ⟨.tryReconnect i true, ?_⟩
        change ∃ w', w.tryReconnect i true = some w'
        unfold tryReconnect
        cases hs : w.stage i with
        | run | create | clear => exact ⟨_, rfl⟩
        | check => cases w.bIsManualClose <;> exact ⟨_, rfl⟩
        | done => exact absurd hs hi
  · have hquiet : Quiet w.sockets w' := by
      cases transition_of_step hst with
      | finishClose hc hended => exact quiet_finishClose hone hc hended
    have hquiet' := hr.invariant hquiet fun s e s' hs hC hst => hs.step hC (transition_of_step hst)
    exact ⟨hquiet'.sockets, hquiet'.noSocket, hquiet'.done⟩

theorem close_quiet_midway : ∃ w, Reachable (step noRule) ⊤ { packetRule := none } w ∧
    w.stage 0 = .create ∧ ∀ es w', Run (step noRule) (fun _ e => e ≠ .finishClose) w es w' →
      es.length ≤ 4 := by
  have hrun : Run (step noRule) ⊤ { packetRule := none } closedMidway _ :=
    .cons trivial rfl (.cons trivial rfl (.cons trivial rfl (.cons trivial rfl
      (.cons trivial rfl (.cons trivial rfl (.cons trivial rfl (.nil _)))))))
  exact ⟨_, ⟨_, hrun⟩, rfl, (close_quiet ⟨_, hrun⟩ rfl).1⟩

end Closing

end ProtocolWebSocketClient

end DtProject
