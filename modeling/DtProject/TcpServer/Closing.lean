import DtProject.Packet.Rules
import DtProject.TcpServer.Steps

/-! # Closing the TCP server

`Close` waits for one thread at a time. Whatever the other threads do, the thread
that it waits for has a bounded number of stages left, and so has `Close` itself.
After it has returned the server dispatches nothing but the ends of clients that
were past their removal.
-/

namespace DtProject

open Reactive

def ClientStage.left : ClientStage → ℕ
  | .poll | .disconnected | .dispatchDisconnected => 1
  | .remove => 2
  | .receive bodies => bodies.length + 2
  | .dispatchReceiveData _ bodies => bodies.length + 3
  | .done => 0

def ListenStage.left : ListenStage → ℕ
  | .onListen => 1
  | .accept => 4
  | .add _ => 3
  | .dispatchConnected _ => 2
  | .done => 0

/-- How many sockets the listen thread may still add while `Close` waits for it. -/
def ListenStage.adding : ListenStage → ℕ
  | .accept | .add _ => 1
  | _ => 0

namespace ProtocolTcpIpServer

variable {σ : Type*} {R : PacketRule σ} {s s' t : ProtocolTcpIpServer σ} {i : ℕ} {e : Event}

namespace Event

def isCall : Event → Bool
  | .start | .close => true
  | _ => false

def isCloseNext : Event → Bool
  | .closeNext _ => true
  | _ => false

end Event

def waitsFor : CloseStage → Event → Bool
  | .listenThread, .onListen _ => true
  | .polling i _, .receivedData j _ => i = j
  | _, _ => false

def waitLeft (s : ProtocolTcpIpServer σ) : ℕ :=
  match s.closeStage with
  | .idle | .sockets _ => 0
  | .listenThread => s.listenThread.left
  | .polling i _ => (s.client i).stage.left

/-- How many stages are left to `Close`. -/
def closeLeft (s : ProtocolTcpIpServer σ) : ℕ :=
  match s.closeStage with
  | .idle => 0
  | .listenThread => 2 * (s.connectedSockets.length + s.listenThread.adding) + 2
  | .sockets rest => 2 * rest.length + 1
  | .polling _ rest => 2 * rest.length + 2

section Stages

theorem closeLeft_le (hstage : s'.closeStage = s.closeStage)
    (hlisten : s.closeStage = .listenThread →
      s'.connectedSockets.length + s'.listenThread.adding ≤
        s.connectedSockets.length + s.listenThread.adding) : s'.closeLeft ≤ s.closeLeft := by
  unfold closeLeft
  rw [hstage]
  cases hc : s.closeStage with
  | idle | sockets | polling => exact le_rfl
  | listenThread =>
    have := hlisten hc
    dsimp only
    omega

theorem closeLeft_listens (hh : Holds s) {pending : Bool} (hst : Listens s pending s') :
    s'.closeLeft ≤ s.closeLeft := by
  cases hst with
  | looked hl =>
    refine closeLeft_le rfl fun hc => ?_
    have hclosing := hh.closing (by rw [hc]; nofun)
    simp [hclosing, ListenStage.adding]
  | accepted hl | waited hl | dispatched hl =>
    refine closeLeft_le rfl fun _ => ?_
    simp [accept, dispatch, hl, ListenStage.adding]
  | added hl =>
    refine closeLeft_le rfl fun _ => ?_
    simp [hl, ListenStage.adding]

theorem closeLeft_polls {result : PollResult} (hst : Polls R s i result s') :
    s'.closeLeft ≤ s.closeLeft := by
  cases hst with
  | removed =>
    refine closeLeft_le rfl fun _ => Nat.add_le_add_right ?_ _
    exact List.length_erase_le
  | idle => exact le_rfl
  | stopped | read | died | received | ignored | receiving | dispatchedBody | unreported | reported
  | missed | dispatched => exact closeLeft_le rfl fun _ => le_rfl

/-- Every stage of `Close` lowers what is left to it, and no other thread raises it. -/
theorem closeLeft_step (hh : Holds s) (hcall : e.isCall = false) (hst : Transition R s e s') :
    s'.closeLeft + e.isCloseNext.toNat ≤ s.closeLeft := by
  cases hst with
  | start | close => cases hcall
  | closeNext hst =>
    cases hst with
    | took hc hl => simp [closeLeft, hc, hl, ListenStage.adding, Event.isCloseNext]
    | closed hc => simp [closeLeft, hc, Event.isCloseNext]
    | skipped hc | closing hc | joined hc =>
      simp only [closeLeft, hc, Event.isCloseNext, List.length_cons, Bool.toNat_true]
      omega
  | onListen hst => exact closeLeft_listens hh hst
  | receivedData hst => exact closeLeft_polls hst

theorem polls_frame {result : PollResult} (hst : Polls R s i result s') :
    s'.closeStage = s.closeStage ∧ s'.listenThread = s.listenThread ∧
      ∀ j, j ≠ i → s'.client j = s.client j := by
  cases hst with
  | idle => exact ⟨rfl, rfl, fun _ _ => rfl⟩
  | stopped | died | received | ignored | receiving | unreported | reported | missed | removed =>
    exact ⟨rfl, rfl, fun _ hne => setStage_ne hne⟩
  | read => exact ⟨rfl, rfl, fun _ hne => modifyClient_ne hne⟩
  | dispatchedBody | dispatched => exact ⟨rfl, rfl, fun _ hne => setStage_ne hne⟩

theorem listen_left (hclosing : s.isClosing = true) {pending : Bool} (hst : Listens s pending s') :
    s'.listenThread.left + 1 ≤ s.listenThread.left := by
  cases hst with
  | looked hl => simp [hl, hclosing, ListenStage.left]
  | accepted hl | waited hl | added hl | dispatched hl => simp [accept, hl, ListenStage.left]

theorem client_left (hclosing : s.isClosing = true) (htold : (s.client i).bIsClosing = true)
    {result : PollResult} (hst : Polls R s i result s') :
    (s'.client i).stage.left + 1 ≤ (s.client i).stage.left := by
  cases hst with
  | idle _ hopen | read _ hopen | died _ hopen => cases htold.symm.trans hopen
  | receiving _ hopen | reported _ hopen => cases hclosing.symm.trans hopen
  | stopped hpoll | received hpoll | ignored hpoll | dispatchedBody hpoll | unreported hpoll
  | missed hpoll | dispatched hpoll => simp [hpoll, ClientStage.left]
  | removed hremove =>
    change ((s.setStage i .dispatchDisconnected).client i).stage.left + 1 ≤ _
    simp [hremove, ClientStage.left]

theorem waitLeft_step (hh : Holds s) (hcall : e.isCall = false) (hnext : e.isCloseNext = false)
    (hst : Transition R s e s') :
    s'.closeStage = s.closeStage ∧
      s'.waitLeft + (waitsFor s.closeStage e).toNat ≤ s.waitLeft := by
  cases hst with
  | start | close => cases hcall
  | closeNext => cases hnext
  | @onListen pending _ hst =>
    have hne : s.listenThread ≠ .done := by
      intro hl
      cases hst <;> rename_i h <;> cases hl.symm.trans h
    have hstage : s'.closeStage = s.closeStage := by cases hst <;> rfl
    refine ⟨hstage, ?_⟩
    rw [waitLeft, waitLeft, hstage]
    cases hc : s.closeStage with
    | idle => exact le_rfl
    | listenThread =>
      exact listen_left (hh.closing (by rw [hc]; nofun)) hst
    | sockets | polling =>
      exact absurd (hh.past_listening (by simp [hc]) (by simp [hc])).1 hne
  | @receivedData i result _ hst =>
    obtain ⟨hstage, hl, hclient⟩ := polls_frame hst
    refine ⟨hstage, ?_⟩
    rw [waitLeft, waitLeft, hstage, hl]
    cases hc : s.closeStage with
    | idle | listenThread | sockets => exact le_rfl
    | polling j rest =>
      rcases eq_or_ne j i with rfl | hne
      · simp only [waitsFor, decide_true, Bool.toNat_true]
        exact client_left (hh.closing (by rw [hc]; nofun)) (hh.told j rest hc) hst
      · simp [waitsFor, hne, hclient j hne]

end Stages

section Returning

/-- The thread that `Close` waits for can go on, or `Close` itself. -/
theorem exists_step (hh : Holds s) (hne : s.closeStage ≠ .idle) :
    ∃ e s', (waitsFor s.closeStage e = true ∨ e.isCloseNext = true) ∧ step R s e = some s' := by
  cases hc : s.closeStage with
  | idle => exact absurd hc hne
  | listenThread =>
    cases hl : s.listenThread with
    | done => exact ⟨.closeNext true, _, .inr rfl, by simp [step, closeNext, hc, hl]; rfl⟩
    | onListen | accept | add | dispatchConnected =>
      exact ⟨.onListen true, _, .inl rfl, by simp [step, onListen, hl]; rfl⟩
  | sockets rest =>
    cases rest with
    | nil => exact ⟨.closeNext true, s.closed true, .inr rfl, by simp [step, closeNext, hc]⟩
    | cons i rest =>
      cases hflag : (s.client i).bIsClosing with
      | true => exact ⟨.closeNext true, _, .inr rfl, by simp [step, closeNext, hc, hflag]; rfl⟩
      | false => exact ⟨.closeNext true, _, .inr rfl, by simp [step, closeNext, hc, hflag]; rfl⟩
  | polling i rest =>
    have htold := hh.told i rest hc
    have hstep : ∀ s', s.receivedData R i .idle = some s' →
        ∃ e s', (waitsFor (.polling i rest) e = true ∨ e.isCloseNext = true) ∧
          step R s e = some s' :=
      fun s' hs' => ⟨.receivedData i .idle, s', .inl (decide_eq_true rfl), hs'⟩
    cases hstage : (s.client i).stage with
    | poll => exact hstep _ (by simp [receivedData, hstage, htold]; rfl)
    | receive bodies =>
      cases bodies <;> exact hstep _ (by simp [receivedData, hstage]; rfl)
    | dispatchReceiveData | disconnected | remove | dispatchDisconnected =>
      exact hstep _ (by simp [receivedData, hstage]; rfl)
    | done => exact ⟨.closeNext true, _, .inr rfl, by simp [step, closeNext, hc, hstage]; rfl⟩

theorem holds_reachable {clone : σ} {C : Contract (ProtocolTcpIpServer σ) Event}
    (h : Reachable (step R) C { clone := clone } s) : Holds s :=
  h.invariant (Holds.initial clone) fun _ _ _ hs _ hst => hs.step (transition_of_step hst)

/-- A call of `Close` that has not returned can always go on, by a stage of its own or of the
thread that it waits for. Whatever the other threads do meanwhile, both kinds of stages are
bounded. -/
theorem close_returns {clone : σ} (h : Reachable (step R) ⊤ { clone := clone } s)
    (hne : s.closeStage ≠ .idle) :
    (∃ e s', (waitsFor s.closeStage e = true ∨ e.isCloseNext = true) ∧ step R s e = some s') ∧
    (∀ es t, Run (step R) (fun _ e => e.isCall = false) s es t →
      es.countP Event.isCloseNext ≤ s.closeLeft) ∧
    ∀ es t, Run (step R) (fun _ e => e.isCloseNext = false) s es t →
      es.countP (waitsFor s.closeStage) ≤ s.waitLeft := by
  have hholds := holds_reachable h
  refine ⟨exists_step hholds hne, fun es t hr => ?_, fun es t hr => ?_⟩
  · refine hr.countP_le (I := fun n t => Holds t ∧ t.closeLeft ≤ n) ⟨hholds, le_rfl⟩ ?_
    rintro n t e t' ⟨ht, hn⟩ hcall hst
    have htr := transition_of_step hst
    have hleft := closeLeft_step ht hcall htr
    exact ⟨t'.closeLeft, by omega, ht.step htr, le_rfl⟩
  · refine hr.countP_le (I := fun n t => Holds t ∧ t.closeStage = s.closeStage ∧ t.waitLeft ≤ n)
      ⟨hholds, rfl, le_rfl⟩ ?_
    rintro n t e t' ⟨ht, hstage, hn⟩ hnext hst
    have htr := transition_of_step hst
    have hcall : e.isCall = false := by
      cases htr with
      | start hidle | close hidle => exact absurd (hstage.symm.trans hidle) hne
      | closeNext | onListen | receivedData => rfl
    obtain ⟨hstage', hleft⟩ := waitLeft_step ht hcall hnext htr
    rw [hstage] at hleft hstage'
    exact ⟨t'.waitLeft, by omega, ht.step htr, hstage', le_rfl⟩

def closedPolling : List Event :=
  [.start, .closeNext true, .closeNext true, .onListen true, .onListen true, .onListen true,
    .onListen true, .close, .onListen true, .closeNext true, .closeNext true]

theorem close_returns_polling : ∃ s : ProtocolTcpIpServer Unit,
    Reachable (step packetRuleNodivision.toPacketRule) ⊤ { clone := () } s ∧
      s.closeStage = .polling 0 [] ∧
      ∀ es t, Run (step packetRuleNodivision.toPacketRule) (fun _ e => e.isCall = false) s es t →
        es.countP Event.isCloseNext ≤ 2 := by
  have hrun : Run (step packetRuleNodivision.toPacketRule) ⊤ { clone := () } closedPolling _ :=
    .cons trivial rfl (.cons trivial rfl (.cons trivial rfl (.cons trivial rfl (.cons trivial rfl
      (.cons trivial rfl (.cons trivial rfl (.cons trivial rfl (.cons trivial rfl
        (.cons trivial rfl (.cons trivial rfl (.nil _)))))))))))
  exact ⟨_, ⟨_, hrun⟩, rfl, (close_returns ⟨_, hrun⟩ nofun).2.1⟩

end Returning

section Silence

def NoStart : Contract (ProtocolTcpIpServer σ) Event
  | _, .start => False
  | _, _ => True

/-- Closed since `s`, with no thread at work, and with no other dispatches since than the ends of
clients that were past their removal in `s`. -/
structure Silent (s t : ProtocolTcpIpServer σ) : Prop where

  isClosing : t.isClosing = true

  starting : t.closeStage ≠ .idle → t.starting = false

  closeStage : t.closeStage = .idle ∨ t.closeStage = .listenThread ∨ t.closeStage = .sockets []

  listenThread : t.listenThread = .done

  connectedSockets : t.connectedSockets = []

  stage : ∀ i, (t.client i).stage = .done ∨
    (t.client i).stage = .dispatchDisconnected ∧ (s.client i).stage = .dispatchDisconnected

  dispatched : ∃ ends : List ℕ, t.dispatched = ends.map .disconnected ++ s.dispatched ∧ ends.Nodup ∧
    ∀ i ∈ ends, (t.client i).stage = .done ∧ (s.client i).stage = .dispatchDisconnected

namespace Silent

theorem closes (h : Silent s t) {bound : Bool} (hst : Closes t bound s') : Silent s s' := by
  cases hst with
  | took hc hl =>
    exact ⟨h.isClosing, fun _ => h.starting (by rw [hc]; nofun),
      .inr (.inr (congrArg _ h.connectedSockets)), hl, rfl, h.stage, h.dispatched⟩
  | closed hc =>
    rw [closed_of_not_starting (h.starting (by rw [hc]; nofun))]
    exact ⟨h.isClosing, fun hne => absurd rfl hne, .inl rfl, h.listenThread, h.connectedSockets,
      h.stage, h.dispatched⟩
  | skipped hc | closing hc | joined hc =>
    rcases h.closeStage with hc' | hc' | hc' <;> cases hc.symm.trans hc'

theorem polls (h : Silent s t) {result : PollResult} (hst : Polls R t i result s') :
    Silent s s' := by
  cases hst with
  | stopped hpoll | idle hpoll | read hpoll | died hpoll | received hpoll | ignored hpoll
  | receiving hpoll | dispatchedBody hpoll | unreported hpoll | reported hpoll | removed hpoll
  | missed hpoll =>
    rcases h.stage i with hdone | ⟨hleaving, -⟩
    · cases hdone.symm.trans hpoll
    · cases hleaving.symm.trans hpoll
  | dispatched hd =>
    have hbefore : (s.client i).stage = .dispatchDisconnected := by
      rcases h.stage i with hdone | ⟨-, hbefore⟩
      · cases hdone.symm.trans hd
      · exact hbefore
    have hstage : ∀ j, (t.client j).stage = .done →
        (((t.dispatch (.disconnected i)).setStage i .done).client j).stage = .done := by
      intro j hj
      rcases eq_or_ne j i with rfl | hne
      · exact setStage_stage
      · rw [setStage_ne hne]
        exact hj
    refine ⟨h.isClosing, h.starting, h.closeStage, h.listenThread, h.connectedSockets,
      fun j => ?_, ?_⟩
    · rcases eq_or_ne j i with rfl | hne
      · exact .inl setStage_stage
      · rw [setStage_ne hne]
        exact h.stage j
    · obtain ⟨ends, hends, hnodup, hmem⟩ := h.dispatched
      have hnew : i ∉ ends := fun hi => by cases (hmem i hi).1.symm.trans hd
      refine ⟨i :: ends, congrArg _ hends, List.nodup_cons.mpr ⟨hnew, hnodup⟩, ?_⟩
      rintro j (_ | ⟨_, hj⟩)
      · exact ⟨setStage_stage, hbefore⟩
      · exact ⟨hstage j (hmem j hj).1, (hmem j hj).2⟩

theorem step (h : Silent s t) (hC : NoStart t e) (hst : Transition R t e s') : Silent s s' := by
  cases hst with
  | start => exact hC.elim
  | close => exact ⟨rfl, fun _ => rfl, .inr (.inl rfl), h.listenThread, h.connectedSockets,
      h.stage, h.dispatched⟩
  | closeNext hst => exact h.closes hst
  | onListen hst => cases hst <;> rename_i hl <;> cases h.listenThread.symm.trans hl
  | receivedData hst => exact h.polls hst

end Silent

/-- After `Close` has returned, and until the next `Start`, the server dispatches the end of
clients that were past their removal, of each once at most, and nothing else. -/
theorem closed_silent {clone : σ} {es : List Event}
    (h : Reachable (step R) ⊤ { clone := clone } s) (hclosing : s.isClosing = true)
    (hidle : s.closeStage = .idle) (hr : Run (step R) NoStart s es t) :
    ∃ ends : List ℕ, t.dispatched = ends.map .disconnected ++ s.dispatched ∧ ends.Nodup ∧
      ∀ i ∈ ends, (s.client i).stage = .dispatchDisconnected := by
  have hholds := holds_reachable h
  obtain ⟨hl, hnil⟩ := hholds.closed hclosing (by simp [hidle])
  have hnone : ∀ i, ¬ s.Held i := by
    intro i
    simp [Held, hl, hnil, hidle, CloseStage.taken]
  have hstart : Silent s s := by
    refine ⟨hclosing, fun hne => absurd hidle hne, .inl hidle, hl, hnil, fun i => ?_,
      [], rfl, List.nodup_nil, by simp⟩
    cases hactive : (s.client i).stage.active with
    | true => exact absurd (hholds.active i hactive) (hnone i)
    | false => exact (ClientStage.not_active_iff.mp hactive).symm.imp_right fun hd => ⟨hd, hd⟩
  have hsilent : Silent s t :=
    hr.invariant hstart fun _ _ _ ht hC hst => ht.step hC (transition_of_step hst)
  obtain ⟨ends, hends, hnodup, hmem⟩ := hsilent.dispatched
  exact ⟨ends, hends, hnodup, fun i hi => (hmem i hi).2⟩

/-- A client that goes as the server is closed: it is past its removal when `Close` comes. -/
def closedLeaving : List Event :=
  [.start, .closeNext true, .closeNext true, .onListen true, .onListen true, .onListen true,
    .onListen true, .receivedData 0 .died, .receivedData 0 .idle, .receivedData 0 .idle, .close,
    .onListen true, .closeNext true, .closeNext true]

theorem closed_silent_leaving : ∃ s t : ProtocolTcpIpServer Unit,
    Reachable (step packetRuleNodivision.toPacketRule) ⊤ { clone := () } s ∧
      t.dispatched = .disconnected 0 :: s.dispatched ∧
      ∃ ends : List ℕ, t.dispatched = ends.map .disconnected ++ s.dispatched ∧ ends.Nodup := by
  have hrun : ∃ s, Run (step packetRuleNodivision.toPacketRule) ⊤ { clone := () } closedLeaving s ∧
      s.isClosing = true ∧ s.closeStage = .idle ∧ (s.client 0).stage = .dispatchDisconnected :=
    ⟨_, .cons trivial rfl (.cons trivial rfl (.cons trivial rfl (.cons trivial rfl
      (.cons trivial rfl (.cons trivial rfl (.cons trivial rfl (.cons trivial rfl
        (.cons trivial rfl (.cons trivial rfl (.cons trivial rfl (.cons trivial rfl
          (.cons trivial rfl (.cons trivial rfl (.nil _)))))))))))))), rfl, rfl, rfl⟩
  obtain ⟨s, hrun, hclosing, hidle, hstage⟩ := hrun
  have hlast : step packetRuleNodivision.toPacketRule s (.receivedData 0 .idle) =
      some ((s.dispatch (.disconnected 0)).setStage 0 .done) := by
    simp [step, receivedData, hstage]
  obtain ⟨ends, hends, hnodup, -⟩ :=
    closed_silent ⟨_, hrun⟩ hclosing hidle
      (.single (show NoStart s (.receivedData 0 .idle) from trivial) hlast)
  exact ⟨s, _, ⟨_, hrun⟩, rfl, ends, hends, hnodup⟩

end Silence

end ProtocolTcpIpServer

end DtProject
