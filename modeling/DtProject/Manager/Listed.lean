import DtProject.Manager.Server

/-! # The clients that the manager lists

From a `Start` of a server that holds no client until `Close`, the manager lists
precisely the clients that the server holds, or whose end is still to be posted,
but for one whose connection is. Two races break this, each for good: the listen
thread adds a client after its polling thread has looked for it in vain, or the
end of a client is posted before its connection.
-/

namespace DtProject

open Reactive

namespace ManagedServer

open ProtocolTcpIpServer (Closes Listens Polls PollResult)

variable {σ : Type*} {R : PacketRule σ} {w w' : ManagedServer σ} {e : Event} {i j n : ℕ}
  {d : Dispatched}

/-- The listen thread has accepted the client, and its task is yet to be posted. -/
def Connecting (w : ManagedServer σ) (i : ℕ) : Prop :=
  w.server.listenThread = .add i ∨ w.server.listenThread = .dispatchConnected i ∨
    .connected i ∈ w.manager.passed

/-- The polling thread of the client has ended, and so has posted its last task. -/
def Ended (w : ManagedServer σ) (i : ℕ) : Prop :=
  (w.server.client i).stage = .done ∧ .disconnected i ∉ w.manager.passed

/-- No client whose polling thread has ended is held or listed, or is about to be. -/
def Settled (w : ManagedServer σ) : Prop :=
  ∀ i, Ended w i → i ∉ w.server.connectedSockets ∧ ¬ Connecting w i ∧ i ∉ w.manager.afterTasks

def NoStart : Contract (ManagedServer σ) Event
  | _, .start _ => False
  | _, _ => True

/-- While the manager is open, the polling thread of a client finds its socket in the server, and
posts that it is disconnected after the listen thread has posted that it is connected. -/
def NoEarlyEnd : Contract (ManagedServer σ) Event
  | _, .start _ => False
  | w, .server (.receivedData i _) => w.manager.isDestorying = false →
    (w.server.client i).stage = .remove → w.server.listenThread ≠ .add i
  | w, .post (.disconnected i) => w.manager.isDestorying = false → ¬ Connecting w i
  | _, _ => True

section Session

/-- `Start` of the manager has not come to the end of the `Close` by which that of the server
begins, and which finds no client. -/
structure Starting (n : ℕ) (w : ManagedServer σ) : Prop where

  clients : w.server.clients = n

  listenThread : w.server.listenThread = .done

  connectedSockets : w.server.connectedSockets = []

  stage : w.calling = some true ∧ w.server.closeStage = .idle ∨
    w.calling = none ∧ w.server.starting = true ∧
      (w.server.closeStage = .listenThread ∨ w.server.closeStage = .sockets [])

structure Running (w : ManagedServer σ) : Prop where

  isClosing : w.server.isClosing = false

  closeStage : w.server.closeStage = .idle

  calling : w.calling = none

/-- The clients of a session are those from the `n`-th on. The manager lists no other, none that is
connecting, and every other whose polling thread has not ended. -/
structure Session (n : ℕ) (w : ManagedServer σ) : Prop where

  protocol : w.manager.currentProtocol.isSome = true

  phase : Starting n w ∨ Running w

  le_clients : n ≤ w.server.clients

  new : ∀ i, Connecting w i → n ≤ i

  listed : ∀ i ∈ w.manager.afterTasks, n ≤ i ∧ i < w.server.clients ∧ ¬ Connecting w i

  counted : ∀ i, n ≤ i → i < w.server.clients → ¬ Connecting w i → ¬ Ended w i →
    i ∈ w.manager.afterTasks

theorem Session.taken_eq_nil (h : Session n w) : w.server.closeStage.taken = [] := by
  rcases h.phase with hstart | hrun
  · rcases hstart.stage with ⟨-, hc⟩ | ⟨-, -, hc | hc⟩ <;> rw [hc] <;> rfl
  · rw [hrun.closeStage]
    rfl

theorem Session.at_work (h : Session n w) (hw : Attached w)
    (hactive : (w.server.client i).stage.active = true) :
    w.server.isClosing = false ∧
      (i ∈ w.server.connectedSockets ∨ w.server.listenThread = .add i) := by
  have hheld : i ∈ w.server.connectedSockets ∨ w.server.listenThread = .add i := by
    rcases hw.holds.active i hactive with hi | hadd | ht
    · exact .inl hi
    · exact .inr hadd
    · rw [h.taken_eq_nil] at ht
      cases ht
  refine ⟨?_, hheld⟩
  rcases h.phase with hstart | hrun
  · rw [hstart.connectedSockets, hstart.listenThread] at hheld
    simp at hheld
  · exact hrun.isClosing

/-- The frame of a session: a step by which nothing is listed or ends, or comes to be connected. -/
theorem Session.of_frame (h : Session n w)
    (hprotocol : w'.manager.currentProtocol = w.manager.currentProtocol)
    (hphase : Starting n w' ∨ Running w') (hclients : w'.server.clients = w.server.clients)
    (hconnecting : ∀ i, Connecting w' i ↔ Connecting w i) (hended : ∀ i, Ended w i → Ended w' i)
    (hafter : w'.manager.afterTasks = w.manager.afterTasks) : Session n w' := by
  refine ⟨hprotocol ▸ h.protocol, hphase, hclients ▸ h.le_clients,
    fun i hi => h.new i ((hconnecting i).mp hi), fun i hi => ?_, fun i hn hlt hc he => ?_⟩
  · rw [hclients, hconnecting]
    exact h.listed i (hafter ▸ hi)
  · rw [hclients] at hlt
    rw [hconnecting] at hc
    rw [hafter]
    exact h.counted i hn hlt hc (mt (hended i) he)

theorem Settled.of_frame (h : Settled w)
    (hsockets : ∀ i, i ∈ w'.server.connectedSockets → i ∈ w.server.connectedSockets)
    (hconnecting : ∀ i, Connecting w' i ↔ Connecting w i) (hended : ∀ i, Ended w' i → Ended w i)
    (hafter : w'.manager.afterTasks = w.manager.afterTasks) : Settled w' := by
  intro i hi
  obtain ⟨hmem, hc, hl⟩ := h i (hended i hi)
  exact ⟨mt (hsockets i) hmem, mt (hconnecting i).mp hc, hafter ▸ hl⟩

end Session

section Handling

theorem handle_frame (e : ProtocolTcpIpServer.Event) :
    (w.handle e).isDestorying = w.manager.isDestorying ∧
      (w.handle e).currentProtocol = w.manager.currentProtocol ∧
        (w.handle e).afterTasks = w.manager.afterTasks := by
  unfold handle
  split
  · unfold ObjectDelivererManager.handle
    split_ifs <;> exact ⟨rfl, rfl, rfl⟩
  · exact ⟨rfl, rfl, rfl⟩

theorem connected_mem_handle_polls {result : PollResult} :
    .connected j ∈ (w.handle (.receivedData i result)).passed ↔
      .connected j ∈ w.manager.passed := by
  unfold handle
  cases hstage : (w.server.client i).stage <;>
    simp [ProtocolTcpIpServer.dispatches, hstage, mem_handle]

theorem disconnected_mem_handle_polls {result : PollResult} :
    .disconnected j ∈ (w.handle (.receivedData i result)).passed ↔
      .disconnected j ∈ w.manager.passed ∨ w.manager.isDestorying = false ∧
        (w.server.client i).stage = .dispatchDisconnected ∧ j = i := by
  unfold handle
  cases hstage : (w.server.client i).stage <;>
    simp [ProtocolTcpIpServer.dispatches, hstage, mem_handle]

theorem connected_mem_handle_listens {pending : Bool} :
    .connected j ∈ (w.handle (.onListen pending)).passed ↔
      .connected j ∈ w.manager.passed ∨ w.manager.isDestorying = false ∧
        w.server.listenThread = .dispatchConnected j := by
  unfold handle
  cases hl : w.server.listenThread <;>
    simp [ProtocolTcpIpServer.dispatches, hl, mem_handle, eq_comm (a := j)]

theorem disconnected_mem_handle_listens {pending : Bool} :
    .disconnected j ∈ (w.handle (.onListen pending)).passed ↔
      .disconnected j ∈ w.manager.passed := by
  unfold handle
  cases hl : w.server.listenThread <;>
    simp [ProtocolTcpIpServer.dispatches, hl, mem_handle]

theorem afterTasks_post (m : ObjectDelivererManager) (d : Dispatched)
    (passed : List Dispatched) :
    { m with passed := passed, tasks := m.tasks ++ [d] }.afterTasks = d.list m.afterTasks := by
  rw [ObjectDelivererManager.afterTasks, List.foldl_append]
  rfl

end Handling

section Steps

variable {s' : ProtocolTcpIpServer σ}

theorem ended_polls (hw : Attached w) (hs : Session n w) (hopen : w.manager.isDestorying = false)
    {result : PollResult} (hst : Polls R w.server i result s') :
    let w' := { w with server := s', manager := w.handle (.receivedData i result) }
    (∀ j, Ended w' j ↔ Ended w j) ∧
        ((w.server.client i).stage = .remove → w.server.listenThread ≠ .add i) ∨
      (∀ j, Ended w j → Ended w' j) ∧ Ended w' i ∧
        (w.server.client i).stage = .remove ∧ w.server.listenThread = .add i := by
  intro w'
  obtain ⟨-, -, hclient⟩ := ProtocolTcpIpServer.polls_frame hst
  have hother : ∀ j, j ≠ i → (Ended w' j ↔ Ended w j) := by
    intro j hne
    simp only [Ended, w', disconnected_mem_handle_polls, hclient j hne]
    simp [hne]
  have hgoes : (w.server.client i).stage ≠ .done →
      ((s'.client i).stage = .done → (w.server.client i).stage = .dispatchDisconnected) →
      ∀ j, Ended w' j ↔ Ended w j := by
    intro hbefore hafter j
    rcases eq_or_ne j i with rfl | hne
    · refine iff_of_false (fun hj => ?_) fun hj => hbefore hj.1
      exact hj.2 (disconnected_mem_handle_polls.mpr (.inr ⟨hopen, hafter hj.1, rfl⟩))
    · exact hother j hne
  cases hst with
  | stopped hpoll hflag =>
    have hnot := hw.holds.not_told (i := i) (by simp [hpoll]) (by simp [hs.taken_eq_nil])
    cases hflag.symm.trans hnot
  | unreported hpoll hclosing =>
    cases hclosing.symm.trans (hs.at_work hw (by rw [hpoll]; rfl)).1
  | missed hpoll hmem =>
    have hadd : w.server.listenThread = .add i :=
      (hs.at_work hw (by rw [hpoll]; rfl)).2.resolve_left hmem
    have hended : Ended w' i := by
      refine ⟨ProtocolTcpIpServer.setStage_stage, fun hd => ?_⟩
      rcases disconnected_mem_handle_polls.mp hd with hd | ⟨-, hd, -⟩
      · exact (hw.disconnected i hd).2.2 (.inr (.inl hadd))
      · cases hpoll.symm.trans hd
    refine .inr ⟨fun j hj => ?_, hended, hpoll, hadd⟩
    rcases eq_or_ne j i with rfl | hne
    · exact hended
    · exact (hother j hne).mpr hj
  | removed hpoll hmem =>
    refine .inl ⟨hgoes (by simp [hpoll]) fun hd => ?_, fun _ hadd => hw.holds.fresh i hadd hmem⟩
    have hd : ((w.server.setStage i .dispatchDisconnected).client i).stage = .done := hd
    simp at hd
  | idle hpoll | read hpoll | died hpoll | received hpoll | ignored hpoll | receiving hpoll
  | dispatchedBody hpoll | reported hpoll | dispatched hpoll =>
    refine .inl ⟨hgoes (by simp [hpoll]) fun hd => ?_, fun hr => by cases hpoll.symm.trans hr⟩
    simp_all

theorem polls_connecting {result : PollResult} (hst : Polls R w.server i result s') :
    Connecting { w with server := s', manager := w.handle (.receivedData i result) } j ↔
      Connecting w j := by
  have hl : s'.listenThread = w.server.listenThread := (ProtocolTcpIpServer.polls_frame hst).2.1
  simp only [Connecting, connected_mem_handle_polls, hl]

theorem Session.polls (hs : Session n w) (hw : Attached w) (hopen : w.manager.isDestorying = false)
    {result : PollResult} (hst : Polls R w.server i result s') :
    Session n { w with server := s', manager := w.handle (.receivedData i result) } := by
  obtain ⟨hstage, hl, -⟩ := ProtocolTcpIpServer.polls_frame hst
  obtain ⟨hclients, hclosing, hstarting, hsockets, -⟩ := ProtocolTcpIpServer.polls_held hst
  obtain ⟨-, hprotocol, hafter⟩ := handle_frame (w := w) (.receivedData i result)
  refine hs.of_frame hprotocol ?_ hclients (fun _ => polls_connecting hst)
    (fun j hj => (ended_polls hw hs hopen hst).elim (fun h => (h.1 j).mpr hj) fun h => h.1 j hj)
    hafter
  refine hs.phase.imp (fun h => ?_) fun h => ?_
  · refine ⟨hclients.trans h.clients, hl.trans h.listenThread,
      List.eq_nil_iff_forall_not_mem.mpr fun j hj => ?_, by rw [hstage, hstarting]; exact h.stage⟩
    have := hsockets j hj
    rw [h.connectedSockets] at this
    cases this
  · exact ⟨hclosing.trans h.isClosing, hstage.trans h.closeStage, h.calling⟩

/-- A polling thread settles unless it has looked for its socket too early. -/
theorem Settled.polls (h : Settled w) (hs : Session n w) (hw : Attached w)
    (hopen : w.manager.isDestorying = false) {result : PollResult}
    (hst : Polls R w.server i result s') :
    Settled { w with server := s', manager := w.handle (.receivedData i result) } ↔
      NoEarlyEnd w (.server (.receivedData i result)) := by
  obtain ⟨-, -, -, hsockets, -⟩ := ProtocolTcpIpServer.polls_held hst
  rcases ended_polls hw hs hopen hst with ⟨hended, hnot⟩ | ⟨-, hended, hremove, hadd⟩
  · exact iff_of_true (h.of_frame hsockets (fun _ => polls_connecting hst)
      (fun j => (hended j).mp) (handle_frame _).2.2) fun _ => hnot
  · refine iff_of_false (fun hsettled => (hsettled i hended).2.1 ?_) fun hQ => ?_
    · exact (polls_connecting hst).mpr (.inl hadd)
    · exact hQ hopen hremove hadd

theorem ended_listens {pending : Bool} (hj : j < w.server.clients)
    (hst : Listens w.server pending s') :
    Ended { w with server := s', manager := w.handle (.onListen pending) } j ↔ Ended w j := by
  have hclient := (ProtocolTcpIpServer.listens_frame hst).2.1 j hj
  simp only [Ended, disconnected_mem_handle_listens, hclient]

theorem connecting_listens (hopen : w.manager.isDestorying = false)
    (hpost : w.posting .listen = false) {pending : Bool} (hst : Listens w.server pending s') :
    let w' := { w with server := s', manager := w.handle (.onListen pending) }
    s'.clients = w.server.clients ∧ s'.client = w.server.client ∧
        (∀ j, Connecting w' j ↔ Connecting w j) ∨
      s'.clients = w.server.clients + 1 ∧ s'.client w.server.clients =
          { packetRule := w.server.clone, stage := .poll } ∧
        s'.connectedSockets = w.server.connectedSockets ∧
        (∀ j, ¬ Connecting w j) ∧ ∀ j, Connecting w' j ↔ j = w.server.clients := by
  intro w'
  have hnone : ∀ j, .connected j ∉ w.manager.passed := fun j hj =>
    posting_eq_false.mp hpost _ hj rfl
  cases id hst with
  | looked hl =>
    refine .inl ⟨rfl, rfl, fun j => ?_⟩
    cases hc : w.server.isClosing <;>
      simp [Connecting, w', connected_mem_handle_listens, hl, hnone, hc]
  | waited hl =>
    exact .inl ⟨rfl, rfl, fun j => by simp [Connecting, w', connected_mem_handle_listens, hl]⟩
  | accepted hl =>
    refine .inr ⟨rfl, ProtocolTcpIpServer.accept_client_self, rfl, fun j => ?_, fun j => ?_⟩
    · simp [Connecting, hl, hnone]
    · simp [Connecting, w', connected_mem_handle_listens, hl, hnone, eq_comm (a := j),
        ProtocolTcpIpServer.accept]
  | added hl =>
    refine .inl ⟨rfl, rfl, fun j => ?_⟩
    simp [Connecting, w', connected_mem_handle_listens, hl, hnone]
  | dispatched hl =>
    refine .inl ⟨rfl, rfl, fun j => ?_⟩
    simp [Connecting, w', connected_mem_handle_listens, hl, hnone, hopen]

theorem Session.listens (hs : Session n w) (hopen : w.manager.isDestorying = false)
    (hpost : w.posting .listen = false) {pending : Bool} (hst : Listens w.server pending s') :
    Session n { w with server := s', manager := w.handle (.onListen pending) } := by
  obtain ⟨-, hprotocol, hafter⟩ := handle_frame (w := w) (.onListen pending)
  have hphase : Running { w with server := s', manager := w.handle (.onListen pending) } := by
    rcases hs.phase with h | h
    · cases hst <;> rename_i hl <;> cases hl.symm.trans h.listenThread
    · refine ⟨?_, ?_, h.calling⟩
      · rw [← h.isClosing]
        cases hst <;> rfl
      · rw [← h.closeStage]
        cases hst <;> rfl
  rcases connecting_listens hopen hpost hst with
    ⟨hclients, hclient, hconnecting⟩ | ⟨hclients, hnew, -, hnone, hconnecting⟩
  · refine hs.of_frame hprotocol (.inr hphase) hclients hconnecting (fun j hj => ?_) hafter
    exact ⟨by rw [hclient]; exact hj.1, mt disconnected_mem_handle_listens.mp hj.2⟩
  · have hclients : s'.clients = w.server.clients + 1 := hclients
    refine ⟨hprotocol ▸ hs.protocol, .inr hphase, ?_, fun j hj => ?_, fun j hj => ?_,
      fun j hn hlt hc he => ?_⟩
    · exact hclients ▸ Nat.le_succ_of_le hs.le_clients
    · exact ((hconnecting j).mp hj).symm ▸ hs.le_clients
    · obtain ⟨hn, hlt, -⟩ := hs.listed j (hafter ▸ hj)
      exact ⟨hn, hclients ▸ Nat.lt_succ_of_lt hlt, fun hc => hlt.ne ((hconnecting j).mp hc)⟩
    · have hne : j ≠ w.server.clients := mt (hconnecting j).mpr hc
      have hlt : j < w.server.clients := by
        have : j < s'.clients := hlt
        omega
      exact hafter ▸ hs.counted j hn hlt (hnone j) (mt (ended_listens hlt hst).mpr he)

theorem Settled.listens (h : Settled w) (hw : Attached w) (hopen : w.manager.isDestorying = false)
    (hpost : w.posting .listen = false) {pending : Bool}
    (hst : Listens w.server pending s') :
    Settled { w with server := s', manager := w.handle (.onListen pending) } := by
  intro j hj
  obtain ⟨-, -, hafter⟩ := handle_frame (w := w) (.onListen pending)
  rcases connecting_listens hopen hpost hst with
    ⟨-, hclient, hconnecting⟩ | ⟨hclients, hnew, hsockets, -, hconnecting⟩
  · have hended : Ended w j :=
      ⟨hclient ▸ hj.1, mt disconnected_mem_handle_listens.mpr hj.2⟩
    obtain ⟨hmem, hc, hl⟩ := h j hended
    refine ⟨fun hj' => ?_, mt (hconnecting j).mp hc, hafter ▸ hl⟩
    cases hst with
    | looked | waited | accepted | dispatched => exact hmem hj'
    | added hadd =>
      rcases List.mem_append.mp hj' with hj' | hj'
      · exact hmem hj'
      · exact hc (.inl (List.mem_singleton.mp hj' ▸ hadd))
  · have hne : j ≠ w.server.clients := by
      rintro rfl
      have := hj.1
      rw [hnew] at this
      cases this
    have hended : Ended w j := by
      refine ⟨?_, mt disconnected_mem_handle_listens.mpr hj.2⟩
      rcases Nat.lt_or_ge j w.server.clients with hlt | hge
      · exact ((ended_listens hlt hst).mp hj).1
      · exact (hw.holds.unborn j hge).1
    obtain ⟨hmem, -, hl⟩ := h j hended
    exact ⟨hsockets ▸ hmem, mt (hconnecting j).mp hne, hafter ▸ hl⟩

theorem session_closes (hs : Session n w) {bound : Bool} (hst : Closes w.server bound s') :
    Session n { w with server := s' } ∧ (Settled w → Settled { w with server := s' }) := by
  have hstart : Starting n w := hs.phase.resolve_right fun h =>
    ProtocolTcpIpServer.not_idle_of_closes hst h.closeStage
  have hidle := ProtocolTcpIpServer.not_idle_of_closes hst
  obtain ⟨hcalling, hstarting, hstage⟩ := hstart.stage.resolve_left fun h => hidle h.2
  have hsame : s'.clients = w.server.clients ∧ s'.client = w.server.client ∧
      s'.connectedSockets = [] ∧ (∀ j, Connecting { w with server := s' } j ↔ Connecting w j) ∧
        (Starting n { w with server := s' } ∨ Running { w with server := s' }) := by
    cases hst with
    | took hc hl =>
      refine ⟨rfl, rfl, rfl, fun _ => Iff.rfl, .inl ⟨hstart.clients, hl, rfl, .inr ⟨hcalling,
        hstarting, .inr ?_⟩⟩⟩
      rw [hstart.connectedSockets]
    | closed hc =>
      rw [ProtocolTcpIpServer.closed_of_starting hstarting]
      refine ⟨rfl, rfl, hstart.connectedSockets, fun j => ?_, .inr ⟨rfl, rfl, hcalling⟩⟩
      cases bound <;> simp [Connecting, ProtocolTcpIpServer.restarted, hstart.listenThread]
    | skipped hc | closing hc | joined hc => rcases hstage with h | h <;> cases hc.symm.trans h
  obtain ⟨hclients, hclient, hnil, hconnecting, hphase⟩ := hsame
  have hended : ∀ j, Ended { w with server := s' } j ↔ Ended w j := by
    intro j
    rw [Ended, Ended, hclient]
  refine ⟨hs.of_frame rfl hphase hclients hconnecting (fun j => (hended j).mpr) rfl, fun h => ?_⟩
  refine h.of_frame (fun j hj => ?_) hconnecting (fun j => (hended j).mp) rfl
  rw [hnil] at hj
  cases hj

theorem session_call (hs : Session n w) {starting : Bool} (hcalling : w.calling = some starting) :
    Session n { w with server := w.server.close starting, calling := none } ∧
      (Settled w → Settled { w with server := w.server.close starting, calling := none }) := by
  have hstart : Starting n w := hs.phase.resolve_right fun h => by
    cases hcalling.symm.trans h.calling
  obtain ⟨hc, -⟩ := hstart.stage.resolve_right fun h => by cases hcalling.symm.trans h.1
  obtain rfl : starting = true := Option.some.inj (hcalling.symm.trans hc)
  have hphase : Starting n { w with server := w.server.close true, calling := none } :=
    ⟨hstart.clients, hstart.listenThread, hstart.connectedSockets, .inr ⟨rfl, rfl, .inl rfl⟩⟩
  exact ⟨hs.of_frame rfl (.inl hphase) rfl (fun _ => Iff.rfl) (fun _ => id) rfl,
    fun h => h.of_frame (fun _ => id) (fun _ => Iff.rfl) (fun _ => id) rfl⟩

theorem session_manager (hs : Session n w) (hopen : w.manager.isDestorying = false)
    {e : ObjectDelivererManager.Event} {m : ObjectDelivererManager}
    (he : e.onGameThread = true) (hst : w.manager.step e = some m) :
    Session n { w with manager := m } ∧ (Settled w → Settled { w with manager := m }) := by
  obtain ⟨-, hprotocol, hpassed, hafter⟩ := ObjectDelivererManager.onGameThread_frame he hst
  have hconnecting : ∀ j, Connecting { w with manager := m } j ↔ Connecting w j := by
    intro j
    simp only [Connecting, hpassed]
  have hended : ∀ j, Ended { w with manager := m } j ↔ Ended w j := by
    intro j
    simp only [Ended, hpassed]
  have hphase : Starting n { w with manager := m } ∨ Running { w with manager := m } :=
    hs.phase.imp (fun h => ⟨h.clients, h.listenThread, h.connectedSockets, h.stage⟩)
      fun h => ⟨h.isClosing, h.closeStage, h.calling⟩
  exact ⟨hs.of_frame hprotocol hphase rfl hconnecting (fun j => (hended j).mpr) (hafter hopen),
    fun h => h.of_frame (fun _ => id) hconnecting (fun j => (hended j).mp) (hafter hopen)⟩

def posted (w : ManagedServer σ) (d : Dispatched) : ManagedServer σ :=
  { w with manager := { w.manager with
      passed := w.manager.passed.erase d, tasks := w.manager.tasks ++ [d] } }

theorem mem_posted (hw : Attached w) {c : Dispatched} :
    c ∈ (w.posted d).manager.passed ↔ c ≠ d ∧ c ∈ w.manager.passed :=
  hw.nodup.mem_erase_iff

theorem afterTasks_posted : (w.posted d).manager.afterTasks = d.list w.manager.afterTasks :=
  afterTasks_post _ _ _

theorem connecting_posted (hw : Attached w) (hd : d ∈ w.manager.passed) :
    Connecting (w.posted d) j ↔ Connecting w j ∧ d ≠ .connected j := by
  have hlisten : ∀ i, d = .connected i → w.server.listenThread = .onListen := by
    rintro i rfl
    exact (hw.connected i hd).2
  simp only [Connecting, mem_posted hw]
  change w.server.listenThread = _ ∨ w.server.listenThread = _ ∨ _ ↔ _
  constructor
  · rintro (hl | hl | ⟨hne, hj⟩)
    · exact ⟨.inl hl, fun h => by cases hl.symm.trans (hlisten j h)⟩
    · exact ⟨.inr (.inl hl), fun h => by cases hl.symm.trans (hlisten j h)⟩
    · exact ⟨.inr (.inr hj), hne.symm⟩
  · rintro ⟨hl | hl | hj, hne⟩
    · exact .inl hl
    · exact .inr (.inl hl)
    · exact .inr (.inr ⟨hne.symm, hj⟩)

theorem ended_posted (hw : Attached w) (hd : d ∈ w.manager.passed) :
    Ended (w.posted d) j ↔ Ended w j ∨ d = .disconnected j := by
  simp only [Ended, mem_posted hw]
  change (w.server.client j).stage = .done ∧ _ ↔ _
  constructor
  · rintro ⟨hdone, hnot⟩
    rcases eq_or_ne (.disconnected j) d with rfl | hne
    · exact .inr rfl
    · exact .inl ⟨hdone, fun hj => hnot ⟨hne, hj⟩⟩
  · rintro (⟨hdone, hnot⟩ | rfl)
    · exact ⟨hdone, fun hj => hnot hj.2⟩
    · exact ⟨(hw.disconnected j hd).2.1, fun hj => hj.1 rfl⟩

theorem Session.post (hs : Session n w) (hw : Attached w) (hd : d ∈ w.manager.passed) :
    Session n (w.posted d) := by
  have hphase : Starting n (w.posted d) ∨ Running (w.posted d) :=
    hs.phase.imp (fun h => ⟨h.clients, h.listenThread, h.connectedSockets, h.stage⟩)
      fun h => ⟨h.isClosing, h.closeStage, h.calling⟩
  refine ⟨hs.protocol, hphase, hs.le_clients,
    fun i hi => hs.new i ((connecting_posted hw hd).mp hi).1, fun i hi => ?_,
    fun i hn hlt hc he => ?_⟩
  · rw [connecting_posted hw hd, not_and_not_right]
    rw [afterTasks_posted] at hi
    cases d with
    | receiveData j body =>
      obtain ⟨hn, hlt, hc⟩ := hs.listed i hi
      exact ⟨hn, hlt, fun h => absurd h hc⟩
    | disconnected j =>
      obtain ⟨hn, hlt, hc⟩ := hs.listed i (List.mem_of_mem_filter hi)
      exact ⟨hn, hlt, fun h => absurd h hc⟩
    | connected j =>
      rcases List.mem_append.mp hi with hi | hi
      · obtain ⟨hn, hlt, hc⟩ := hs.listed i hi
        exact ⟨hn, hlt, fun h => absurd h hc⟩
      · obtain rfl := List.mem_singleton.mp hi
        exact ⟨hs.new i (.inr (.inr hd)), (hw.connected i hd).1, fun _ => rfl⟩
  · rw [connecting_posted hw hd, not_and_not_right] at hc
    rw [ended_posted hw hd, not_or] at he
    rw [afterTasks_posted]
    by_cases hconnecting : Connecting w i
    · rw [hc hconnecting]
      exact List.mem_append_right _ (List.mem_singleton.mpr rfl)
    · have hi := hs.counted i hn hlt hconnecting he.1
      cases d with
      | receiveData j body => exact hi
      | connected j => exact List.mem_append_left _ hi
      | disconnected j =>
        exact List.mem_filter.mpr ⟨hi, by simpa using fun h : i = j => he.2 (by rw [h])⟩

theorem Settled.post (h : Settled w) (hw : Attached w) (hopen : w.manager.isDestorying = false)
    (hd : d ∈ w.manager.passed) : Settled (w.posted d) ↔ NoEarlyEnd w (.post d) := by
  -- what comes to be listed is connecting, and so has not ended
  have hold : ∀ i, Ended w i → i ∉ w.server.connectedSockets ∧ ¬ Connecting (w.posted d) i ∧
      i ∉ (w.posted d).manager.afterTasks := by
    intro i hi
    obtain ⟨hmem, hc, hl⟩ := h i hi
    refine ⟨hmem, mt (fun hp => ((connecting_posted hw hd).mp hp).1) hc, fun hi => ?_⟩
    rw [afterTasks_posted] at hi
    cases d with
    | receiveData j body => exact hl hi
    | disconnected j => exact hl (List.mem_of_mem_filter hi)
    | connected j =>
      rcases List.mem_append.mp hi with hi | hi
      · exact hl hi
      · obtain rfl := List.mem_singleton.mp hi
        exact hc (.inr (.inr hd))
  cases d with
  | connected j | receiveData j body =>
    refine iff_of_true (fun i hi => hold i ?_) trivial
    exact ((ended_posted hw hd).mp hi).resolve_right (by simp)
  | disconnected j =>
    constructor
    · intro hsettled _ hc
      have hended : Ended (w.posted (.disconnected j)) j := (ended_posted hw hd).mpr (.inr rfl)
      exact (hsettled j hended).2.1 ((connecting_posted hw hd).mpr ⟨hc, by simp⟩)
    · intro hQ i hi
      rcases (ended_posted hw hd).mp hi with hi | heq
      · exact hold i hi
      · obtain rfl := Dispatched.disconnected.inj heq
        refine ⟨fun hmem => (hw.disconnected j hd).2.2 (.inl hmem), fun hc => ?_, fun hl => ?_⟩
        · exact hQ hopen ((connecting_posted hw hd).mp hc).1
        · rw [afterTasks_posted] at hl
          simpa using (List.mem_filter.mp hl).2

end Steps

section Runs

/-- A step that leaves the manager open found it open, keeps the session, and settles precisely if
no polling thread comes too early. -/
theorem session_step (hw : Attached w) (hC : NoStart w e) (hst : Transition R w e w')
    (hopen' : w'.manager.isDestorying = false) :
    w.manager.isDestorying = false ∧ (Session n w →
      Session n w' ∧ (Settled w → (Settled w' ↔ NoEarlyEnd w e))) := by
  have htrivial {w₁ : ManagedServer σ} (hQ : NoEarlyEnd w e)
      (h : Session n w₁ ∧ (Settled w → Settled w₁)) :
      Session n w₁ ∧ (Settled w → (Settled w₁ ↔ NoEarlyEnd w e)) :=
    ⟨h.1, fun hsettled => iff_of_true (h.2 hsettled) hQ⟩
  cases hst with
  | start => exact hC.elim
  | close =>
    have hclosed : w.manager.close.isDestorying = true := by
      unfold ObjectDelivererManager.close
      split_ifs with hd
      · exact hd
      · rfl
    cases hclosed.symm.trans hopen'
  | call hcalling => exact ⟨hopen', fun hs => htrivial trivial (session_call hs hcalling)⟩
  | @server e s' hcall hpost hst =>
    have hopen : w.manager.isDestorying = false := (handle_frame e).1.symm.trans hopen'
    refine ⟨hopen, fun hs => ?_⟩
    cases hst with
    | start | close => cases hcall
    | closeNext hst => exact htrivial trivial (session_closes hs hst)
    | onListen hst =>
      exact htrivial trivial
        ⟨hs.listens hopen (hpost _ rfl) hst, fun h => h.listens hw hopen (hpost _ rfl) hst⟩
    | receivedData hst => exact ⟨hs.polls hw hopen hst, fun h => h.polls hs hw hopen hst⟩
  | post hd => exact ⟨hopen', fun hs => ⟨hs.post hw hd, fun h => h.post hw hopen' hd⟩⟩
  | manager he hst =>
    have hopen : w.manager.isDestorying = false :=
      (ObjectDelivererManager.onGameThread_frame he hst).1.symm.trans hopen'
    exact ⟨hopen, fun hs => htrivial trivial (session_manager hs hopen he hst)⟩

variable {w₀ w₁ : ManagedServer σ} {es : List Event} {protocol : ℕ} {clone : σ}
  {deliveryBox : Bool}

/-- As long as the manager is open, its clients are those from the `n`-th on. -/
def InSession (n : ℕ) (w : ManagedServer σ) : Prop :=
  Attached w ∧ (w.manager.isDestorying = false → Session n w)

theorem InSession.step {s s' : ManagedServer σ} (h : InSession n s) (hC : NoStart s e)
    (hst : ManagedServer.step R s e = some s') : InSession n s' := by
  have htr := transition_of_step hst
  refine ⟨h.1.step htr, fun hopen' => ?_⟩
  obtain ⟨hopen, hstep⟩ := session_step h.1 hC htr hopen'
  exact (hstep (h.2 hopen)).1

def left : List Event :=
  [.server (.receivedData 0 .died), .server (.receivedData 0 .idle),
    .server (.receivedData 0 .idle)]

end Runs

end ManagedServer

end DtProject
