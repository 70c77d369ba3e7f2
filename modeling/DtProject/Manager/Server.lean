import Mathlib.Data.List.Nodup
import DtProject.Manager.Broadcasts
import DtProject.TcpServer.Closing

/-! # A TCP server and its manager

`UObjectDelivererManager` was started with a `UProtocolTcpIpServer`. What a thread
of the server dispatches it gives to the manager, and takes no further stage before
it has posted its task. `Start` and `Close` of the manager call those of the server,
on the game thread, which runs no task while `Close` waits.
-/

namespace DtProject

open Reactive

inductive ServerThread where
  | listen
  | polling (i : ℕ)
  deriving DecidableEq

def Dispatched.thread : Dispatched → ServerThread
  | .connected _ => .listen
  | .disconnected i | .receiveData i _ => .polling i

namespace ProtocolTcpIpServer

variable {σ : Type*} (s : ProtocolTcpIpServer σ)

def dispatches : Event → Option Dispatched
  | .onListen _ =>
    match s.listenThread with
    | .dispatchConnected i => some (.connected i)
    | _ => none
  | .receivedData i _ =>
    match (s.client i).stage with
    | .dispatchReceiveData body _ => some (.receiveData i body)
    | .dispatchDisconnected => some (.disconnected i)
    | _ => none
  | _ => none

/-- The thread that takes a stage, or that `Close` waits for in it. -/
def thread : Event → Option ServerThread
  | .onListen _ => some .listen
  | .receivedData i _ => some (.polling i)
  | .closeNext _ =>
    match s.closeStage with
    | .listenThread => some .listen
    | .polling i _ => some (.polling i)
    | _ => none
  | _ => none

theorem dispatched_step {R : PacketRule σ} {s s' : ProtocolTcpIpServer σ} {e : Event}
    (hst : step R s e = some s') :
    s'.dispatched = (s.dispatches e).toList ++ s.dispatched := by
  cases transition_of_step hst with
  | start | close => rfl
  | closeNext hst => cases hst <;> first | rfl | exact closed_dispatched
  | onListen hst => cases hst <;> rename_i hl <;> simp [dispatches, hl, accept, dispatch]
  | receivedData hst =>
    cases hst <;> rename_i hpoll <;> simp_all [dispatches, setStage, modifyClient, dispatch]

end ProtocolTcpIpServer

namespace ObjectDelivererManager

def afterTasks (m : ObjectDelivererManager) : List ℕ :=
  m.tasks.foldl (fun connectedList d => d.list connectedList) m.connectedList

/-- The tasks, and the calls other than `Start` and `Close`. -/
def Event.onGameThread : Event → Bool
  | .runTask | .send _ | .sendTo _ _ | .requestSend _ _ => true
  | _ => false

end ObjectDelivererManager

/-- A server with the manager that it belongs to, and the call of the server by which `Start` (true)
or `Close` of the manager is to end. -/
structure ManagedServer (σ : Type*) where
  protocol : ℕ
  server : ProtocolTcpIpServer σ
  manager : ObjectDelivererManager := {}
  calling : Option Bool := none

namespace ManagedServer

variable {σ : Type*} (R : PacketRule σ) (w : ManagedServer σ)

def posting (t : ServerThread) : Bool := w.manager.passed.any (·.thread = t)

def free : Bool := w.calling.isNone && w.server.closeStage.isIdle

def start (deliveryBox : Bool) : ManagedServer σ :=
  { w with manager := w.manager.start (some w.protocol) deliveryBox, calling := some true }

def close : ManagedServer σ :=
  { w with
    manager := w.manager.close
    calling := if w.manager.isDestorying || w.manager.currentProtocol.isNone then none
      else some false }

/-- What the server dispatches in a stage goes to the manager. -/
def handle (e : ProtocolTcpIpServer.Event) : ObjectDelivererManager :=
  match w.server.dispatches e with
  | some d => w.manager.handle d
  | none => w.manager

/-- The calls of the manager, which call the server, the stages of the server, and what comes to
the manager by its threads and by the game thread. -/
inductive Event where
  | start (deliveryBox : Bool)
  | close
  | call
  | server (e : ProtocolTcpIpServer.Event)
  | post (d : Dispatched)
  | manager (e : ObjectDelivererManager.Event)

def step (w : ManagedServer σ) : Event → Option (ManagedServer σ)
  | .start deliveryBox => if w.free then some (w.start deliveryBox) else none
  | .close => if w.free then some w.close else none
  | .call => w.calling.map fun starting =>
    { w with server := w.server.close starting, calling := none }
  | .server e =>
    if e.isCall || (w.server.thread e).any w.posting then none
    else (w.server.step R e).map fun s => { w with server := s, manager := w.handle e }
  | .post d => (w.manager.post d).map fun m => { w with manager := m }
  | .manager e =>
    if w.free && e.onGameThread then (w.manager.step e).map fun m => { w with manager := m }
    else none

end ManagedServer

section Frames

namespace ProtocolTcpIpServer

variable {σ : Type*} {R : PacketRule σ} {s s' : ProtocolTcpIpServer σ} {i j : ℕ}

theorem not_idle_of_closes {bound : Bool} (hst : Closes s bound s') : s.closeStage ≠ .idle := by
  cases hst with
  | took hc | closed hc | skipped hc | closing hc | joined hc => simp [hc]

theorem closes_frame (hh : Holds s) {bound : Bool} (hst : Closes s bound s') :
    s'.clients = s.clients ∧ (∀ j, (s'.client j).stage = (s.client j).stage) ∧
      (∀ j, s'.Held j → s.Held j) ∧
      (s'.listenThread = s.listenThread ∨ s.listenThread = .done ∧
        ∀ i, s'.listenThread ≠ .add i ∧ s'.listenThread ≠ .dispatchConnected i) := by
  cases hst with
  | took hc hl => exact ⟨rfl, fun _ => rfl, fun _ => (held_took hc hl).mp, .inl rfl⟩
  | closed hc =>
    have hleft : ∀ j, ¬ (s.closed bound).Held j ∧ (s.closed bound).listenThread ≠
        .dispatchConnected j := hh.not_held_closed hc
    refine ⟨?_, fun j => by rw [closed_client], fun j hj => absurd hj (hleft j).1,
      .inr ⟨(hh.past_listening (by simp [hc]) (by simp [hc])).1, fun i => ⟨?_, (hleft i).2⟩⟩⟩
    · unfold closed
      split_ifs <;> rfl
    · exact fun hadd => (hleft i).1 (.inr (.inl hadd))
  | skipped hc hflag => cases hflag.symm.trans (hh.not_skipped hc)
  | closing hc => exact ⟨rfl, fun _ => tell_stage, fun _ => (held_tell hc).mp, .inl rfl⟩
  | joined hc => exact ⟨rfl, fun _ => rfl, fun _ hj => ((hh.held_joined hc).mp hj).1, .inl rfl⟩

theorem listens_frame {pending : Bool} (hst : Listens s pending s') :
    s.clients ≤ s'.clients ∧ (∀ j, j < s.clients → s'.client j = s.client j) ∧
      ∀ j, s'.Held j → s.Held j ∨ j = s.clients := by
  cases hst with
  | looked hl =>
    refine ⟨le_rfl, fun _ _ => rfl, fun j hj => .inl ((held_listen ?_ ?_).mp hj)⟩
    · simp [hl]
    · cases s.isClosing <;> simp
  | waited hl =>
    exact ⟨le_rfl, fun _ _ => rfl, fun j hj => .inl ((held_listen (by simp [hl]) (by simp)).mp hj)⟩
  | accepted hl =>
    refine ⟨Nat.le_succ _, fun j hj => accept_client_ne hj.ne, fun j hj => ?_⟩
    rcases eq_or_ne j s.clients with rfl | hne
    · exact .inr rfl
    · exact .inl ((held_accept hl hne).mp hj)
  | added hl => exact ⟨le_rfl, fun _ _ => rfl, fun j hj => .inl ((held_added hl).mp hj)⟩
  | dispatched hl =>
    refine ⟨le_rfl, fun _ _ => rfl, fun j hj => .inl ?_⟩
    exact (held_listen (s := s) (by simp [hl]) (by simp)).mp hj

theorem polls_held {result : PollResult} (hst : Polls R s i result s') :
    s'.clients = s.clients ∧ s'.isClosing = s.isClosing ∧ s'.starting = s.starting ∧
      (∀ j, j ∈ s'.connectedSockets → j ∈ s.connectedSockets) ∧ ∀ j, s'.Held j → s.Held j := by
  cases hst with
  | removed =>
    have hmem : ∀ j, j ∈ s.connectedSockets.erase i → j ∈ s.connectedSockets :=
      fun _ => List.mem_of_mem_erase
    exact ⟨rfl, rfl, rfl, hmem, fun j hj => hj.imp_left (hmem j)⟩
  | _ => exact ⟨rfl, rfl, rfl, fun _ => id, fun _ => id⟩

theorem polls_disconnected {result : PollResult}
    (hstage : (s.client i).stage = .dispatchDisconnected) (hst : Polls R s i result s') :
    s' = (s.dispatch (.disconnected i)).setStage i .done := by
  cases hst with
  | dispatched => rfl
  | stopped h | idle h | read h | died h | received h | ignored h | receiving h | dispatchedBody h
  | unreported h | reported h | removed h | missed h => cases hstage.symm.trans h

end ProtocolTcpIpServer

end Frames

theorem ObjectDelivererManager.onGameThread_frame {m m' : ObjectDelivererManager} {e : Event}
    (he : e.onGameThread = true) (hst : m.step e = some m') :
    m'.isDestorying = m.isDestorying ∧ m'.currentProtocol = m.currentProtocol ∧
      m'.passed = m.passed ∧ (m.isDestorying = false → m'.afterTasks = m.afterTasks) := by
  have hC : NoStart m e := by
    cases e with
    | start => cases he
    | _ => trivial
  cases transition_of_step hC hst with
  | start | close | handle | post => cases he
  | notify => exact ⟨rfl, rfl, rfl, fun _ => rfl⟩
  | drop hd =>
    exact ⟨rfl, rfl, rfl, fun hopen => by cases hd.symm.trans hopen⟩
  | broadcast _ htasks =>
    refine ⟨rfl, rfl, rfl, fun _ => ?_⟩
    rw [afterTasks, afterTasks, htasks]
    rfl
  | send => exact ⟨rfl, rfl, rfl, fun _ => rfl⟩

namespace ManagedServer

variable {σ : Type*} {R : PacketRule σ} {w w' : ManagedServer σ} {e : Event} {i j : ℕ}
  {d : Dispatched}

section Steps

inductive Transition (R : PacketRule σ) (w : ManagedServer σ) : Event → ManagedServer σ → Prop where
  | start (deliveryBox : Bool) : w.free = true →
      Transition R w (.start deliveryBox) (w.start deliveryBox)
  | close : w.free = true → Transition R w .close w.close
  | call {starting : Bool} : w.calling = some starting →
      Transition R w .call { w with server := w.server.close starting, calling := none }
  | server {e : ProtocolTcpIpServer.Event} {s' : ProtocolTcpIpServer σ} : e.isCall = false →
      (∀ t ∈ w.server.thread e, w.posting t = false) →
      ProtocolTcpIpServer.Transition R w.server e s' →
      Transition R w (.server e) { w with server := s', manager := w.handle e }
  | post {d : Dispatched} : d ∈ w.manager.passed → Transition R w (.post d) { w with
      manager := { w.manager with
        passed := w.manager.passed.erase d, tasks := w.manager.tasks ++ [d] } }
  | manager {e : ObjectDelivererManager.Event} {m : ObjectDelivererManager} :
      e.onGameThread = true → w.manager.step e = some m →
      Transition R w (.manager e) { w with manager := m }

theorem transition_of_step (hst : step R w e = some w') : Transition R w e w' := by
  cases e with
  | start | close =>
    simp only [step] at hst
    split_ifs at hst with hfree
    obtain rfl := Option.some.inj hst
    constructor
    exact hfree
  | call =>
    obtain ⟨starting, hcalling, rfl⟩ := Option.map_eq_some_iff.mp hst
    exact .call hcalling
  | server e =>
    simp only [step] at hst
    split_ifs at hst with hno
    obtain ⟨s', hs', rfl⟩ := Option.map_eq_some_iff.mp hst
    rw [Bool.or_eq_true, not_or, Option.any_eq_true] at hno
    refine .server (Bool.eq_false_of_not_eq_true hno.1) (fun t ht => ?_)
      (ProtocolTcpIpServer.transition_of_step hs')
    exact Bool.eq_false_of_not_eq_true fun hpost => hno.2 ⟨t, ht, hpost⟩
  | post d =>
    obtain ⟨m, hm, rfl⟩ := Option.map_eq_some_iff.mp hst
    cases ObjectDelivererManager.transition_of_post hm with
    | post hmem => exact .post hmem
    | send _ hposted => cases hposted
  | manager e =>
    simp only [step] at hst
    split_ifs at hst with hfree
    obtain ⟨m, hm, rfl⟩ := Option.map_eq_some_iff.mp hst
    exact .manager (Bool.and_eq_true_iff.mp hfree).2 hm

theorem posting_eq_false {t : ServerThread} :
    w.posting t = false ↔ ∀ d ∈ w.manager.passed, d.thread ≠ t := by
  simp [posting]

theorem mem_handle {m : ObjectDelivererManager} {c : Dispatched} :
    c ∈ (m.handle d).passed ↔ c ∈ m.passed ∨ m.isDestorying = false ∧ c = d := by
  unfold ObjectDelivererManager.handle
  cases m.isDestorying <;> simp [or_comm]

end Steps

section Attached

/-- No client is held that has been handed to the manager as disconnected, and the listen thread has
no other client in its hands than the one that the manager is yet to list. -/
structure Attached (w : ManagedServer σ) : Prop where

  holds : w.server.Holds

  calling : w.calling ≠ none → w.server.closeStage = .idle

  connecting : ∀ i, w.server.listenThread = .dispatchConnected i → i < w.server.clients

  threads : (w.manager.passed.map Dispatched.thread).Nodup

  connected : ∀ i, .connected i ∈ w.manager.passed →
    i < w.server.clients ∧ w.server.listenThread = .onListen

  disconnected : ∀ i, .disconnected i ∈ w.manager.passed →
    i < w.server.clients ∧ (w.server.client i).stage = .done ∧ ¬ w.server.Held i

namespace Attached

theorem nodup (h : Attached w) : w.manager.passed.Nodup := List.Nodup.of_map _ h.threads

theorem threads_handle (h : Attached w) (hpost : w.posting d.thread = false) :
    ((w.manager.handle d).passed.map Dispatched.thread).Nodup := by
  unfold ObjectDelivererManager.handle
  split_ifs
  · exact h.threads
  · refine List.nodup_cons.mpr ⟨fun hmem => ?_, h.threads⟩
    obtain ⟨c, hc, heq⟩ := List.mem_map.mp hmem
    exact posting_eq_false.mp hpost c hc heq

theorem closes (h : Attached w) {bound : Bool} {s' : ProtocolTcpIpServer σ}
    (hst : ProtocolTcpIpServer.Closes w.server bound s') : Attached { w with server := s' } := by
  obtain ⟨hclients, hstage, hheld, hlisten⟩ := ProtocolTcpIpServer.closes_frame h.holds hst
  refine ⟨h.holds.closes hst, fun hc => ?_, fun i hi => ?_, h.threads, fun i hi => ?_,
    fun i hi => ?_⟩
  · exact absurd (h.calling hc) (ProtocolTcpIpServer.not_idle_of_closes hst)
  · rw [hclients]
    rcases hlisten with hsame | ⟨-, hnot⟩
    · exact h.connecting i (hsame.symm.trans hi)
    · exact absurd hi (hnot i).2
  · obtain ⟨hlt, hl⟩ := h.connected i hi
    rw [hclients]
    rcases hlisten with hsame | ⟨hdone, -⟩
    · exact ⟨hlt, hsame.trans hl⟩
    · cases hl.symm.trans hdone
  · obtain ⟨hlt, hdone, hnot⟩ := h.disconnected i hi
    rw [hclients, hstage]
    exact ⟨hlt, hdone, mt (hheld i) hnot⟩

theorem listens (h : Attached w) {pending : Bool} {s' : ProtocolTcpIpServer σ}
    (hpost : w.posting .listen = false)
    (hst : ProtocolTcpIpServer.Listens w.server pending s') :
    Attached { w with server := s', manager := w.handle (.onListen pending) } := by
  obtain ⟨hclients, hclient, hheld⟩ := ProtocolTcpIpServer.listens_frame hst
  have hnone : ∀ i, .connected i ∉ w.manager.passed := fun i hi =>
    posting_eq_false.mp hpost _ hi rfl
  have hkept : ∀ i, .disconnected i ∈ w.manager.passed →
      i < s'.clients ∧ (s'.client i).stage = .done ∧ ¬ s'.Held i := by
    intro i hi
    obtain ⟨hlt, hdone, hnot⟩ := h.disconnected i hi
    rw [hclient i hlt]
    exact ⟨hlt.trans_le hclients, hdone, fun hj => (hheld i hj).elim hnot hlt.ne⟩
  have hcalling : w.calling ≠ none → s'.closeStage = .idle := by
    intro hc
    rw [← h.calling hc]
    cases hst <;> rfl
  have hsilent : w.handle (.onListen pending) = w.manager →
      (∀ i, s'.listenThread = .dispatchConnected i → i < s'.clients) →
      Attached { w with server := s', manager := w.handle (.onListen pending) } := by
    intro heq hconnecting
    rw [heq]
    exact ⟨h.holds.listens hst, hcalling, hconnecting, h.threads,
      fun i hi => absurd hi (hnone i), hkept⟩
  cases id hst with
  | looked hl =>
    refine hsilent (by simp [handle, ProtocolTcpIpServer.dispatches, hl]) fun i hi => ?_
    cases hc : w.server.isClosing <;> simp [hc] at hi
  | waited hl | accepted hl =>
    exact hsilent (by simp [handle, ProtocolTcpIpServer.dispatches, hl]) fun i hi => by cases hi
  | @added _ i hl =>
    refine hsilent (by simp [handle, ProtocolTcpIpServer.dispatches, hl]) fun j hj => ?_
    cases hj
    exact h.holds.born i (.inr (.inl hl))
  | @dispatched _ i hl =>
    have heq : w.handle (.onListen pending) = w.manager.handle (.connected i) := by
      simp [handle, ProtocolTcpIpServer.dispatches, hl]
    rw [heq]
    refine ⟨h.holds.listens hst, hcalling, by simp, h.threads_handle (d := .connected i) hpost,
      fun j hj => ?_, fun j hj => ?_⟩
    · obtain ⟨-, hj⟩ := (mem_handle.mp hj).resolve_left (hnone j)
      cases hj
      exact ⟨h.connecting i hl, rfl⟩
    · exact hkept j ((mem_handle.mp hj).resolve_right fun hd => by cases hd.2)

theorem polls (h : Attached w) {result : ProtocolTcpIpServer.PollResult}
    {s' : ProtocolTcpIpServer σ} (hpost : w.posting (.polling i) = false)
    (hst : ProtocolTcpIpServer.Polls R w.server i result s') :
    Attached { w with server := s', manager := w.handle (.receivedData i result) } := by
  obtain ⟨hstage, hl, hclient⟩ := ProtocolTcpIpServer.polls_frame hst
  obtain ⟨hclients, -, -, -, hheld⟩ := ProtocolTcpIpServer.polls_held hst
  have hnone : ∀ d ∈ w.manager.passed, d.thread ≠ .polling i := posting_eq_false.mp hpost
  have hkept : ∀ j, .disconnected j ∈ w.manager.passed →
      j < s'.clients ∧ (s'.client j).stage = .done ∧ ¬ s'.Held j := by
    intro j hj
    obtain ⟨hlt, hdone, hnot⟩ := h.disconnected j hj
    have hne : j ≠ i := fun heq => hnone _ hj (congrArg _ heq)
    rw [hclients, hclient j hne]
    exact ⟨hlt, hdone, mt (hheld j) hnot⟩
  -- only the end of a client is new of what the manager is to post
  have hhanded : ∀ m, (∀ j, .connected j ∈ m.passed → .connected j ∈ w.manager.passed) →
      (m.passed.map Dispatched.thread).Nodup →
      (∀ j, .disconnected j ∈ m.passed →
        j < s'.clients ∧ (s'.client j).stage = .done ∧ ¬ s'.Held j) →
      Attached { w with server := s', manager := m } := by
    intro m hconnected hthreads hdisconnected
    refine ⟨h.holds.polls hst, fun hc => hstage.trans (h.calling hc), fun j hj => ?_, hthreads,
      fun j hj => ?_, hdisconnected⟩
    · rw [hclients]
      exact h.connecting j (hl.symm.trans hj)
    · obtain ⟨hlt, hlisten⟩ := h.connected j (hconnected j hj)
      exact ⟨hlt.trans_eq hclients.symm, hl.trans hlisten⟩
  cases hd : w.server.dispatches (.receivedData i result) with
  | none =>
    have heq : w.handle (.receivedData i result) = w.manager := by simp [handle, hd]
    rw [heq]
    exact hhanded _ (fun _ => id) h.threads hkept
  | some d =>
    have heq : w.handle (.receivedData i result) = w.manager.handle d := by simp [handle, hd]
    rw [heq]
    cases hclientStage : (w.server.client i).stage with
    | dispatchReceiveData body bodies =>
      obtain rfl : .receiveData i body = d := by
        simpa [ProtocolTcpIpServer.dispatches, hclientStage] using hd
      exact hhanded _ (fun j hj => (mem_handle.mp hj).resolve_right fun hd => by cases hd.2)
        (h.threads_handle hpost)
        fun j hj => hkept j ((mem_handle.mp hj).resolve_right fun hd => by cases hd.2)
    | dispatchDisconnected =>
      obtain rfl : .disconnected i = d := by
        simpa [ProtocolTcpIpServer.dispatches, hclientStage] using hd
      refine hhanded _ (fun j hj => (mem_handle.mp hj).resolve_right fun hd => by cases hd.2)
        (h.threads_handle hpost) fun j hj => ?_
      rcases mem_handle.mp hj with hj | ⟨-, heq⟩
      · exact hkept j hj
      · obtain rfl := Dispatched.disconnected.inj heq
        rw [hclients]
        refine ⟨h.holds.lt_clients (by simp [hclientStage]), ?_,
          mt (hheld j) (h.holds.leaving j hclientStage)⟩
        rw [ProtocolTcpIpServer.polls_disconnected hclientStage hst]
        exact ProtocolTcpIpServer.setStage_stage
    | poll | receive | disconnected | remove | done =>
      simp [ProtocolTcpIpServer.dispatches, hclientStage] at hd

theorem step (h : Attached w) (hst : Transition R w e w') : Attached w' := by
  cases hst with
  | start deliveryBox hfree =>
    rw [free, Bool.and_eq_true] at hfree
    exact ⟨h.holds, fun _ => CloseStage.isIdle_iff.mp hfree.2, h.connecting, h.threads,
      h.connected, h.disconnected⟩
  | close hfree =>
    rw [free, Bool.and_eq_true] at hfree
    have hpassed : w.manager.close.passed = w.manager.passed := by
      unfold ObjectDelivererManager.close
      split_ifs <;> rfl
    refine ⟨h.holds, fun _ => CloseStage.isIdle_iff.mp hfree.2, h.connecting, ?_,
      fun i hi => h.connected i (hpassed ▸ hi), fun i hi => h.disconnected i (hpassed ▸ hi)⟩
    change (w.manager.close.passed.map _).Nodup
    rw [hpassed]
    exact h.threads
  | @call starting hcalling =>
    have hidle := h.calling (by simp [hcalling])
    have hheld : ∀ i, (w.server.close starting).Held i ↔ w.server.Held i :=
      fun _ => ProtocolTcpIpServer.held_close hidle
    refine ⟨h.holds.close hidle starting, fun hc => absurd rfl hc, h.connecting, h.threads,
      h.connected, fun i hi => ?_⟩
    obtain ⟨hlt, hdone, hnot⟩ := h.disconnected i hi
    exact ⟨hlt, hdone, mt (hheld i).mp hnot⟩
  | @server e s' hcall hpost hst =>
    cases hst with
    | start | close => cases hcall
    | closeNext hst => exact h.closes hst
    | onListen hst => exact h.listens (hpost _ rfl) hst
    | receivedData hst => exact h.polls (hpost _ rfl) hst
  | @post d hmem =>
    exact ⟨h.holds, h.calling, h.connecting, h.threads.sublist (List.erase_sublist.map _),
      fun i hi => h.connected i (List.mem_of_mem_erase hi),
      fun i hi => h.disconnected i (List.mem_of_mem_erase hi)⟩
  | manager he hst =>
    obtain ⟨-, -, hpassed, -⟩ := ObjectDelivererManager.onGameThread_frame he hst
    refine ⟨h.holds, h.calling, h.connecting, ?_, fun i hi => h.connected i (hpassed ▸ hi),
      fun i hi => h.disconnected i (hpassed ▸ hi)⟩
    rw [hpassed]
    exact h.threads

theorem initial (protocol : ℕ) (clone : σ) :
    Attached { protocol := protocol, server := { clone := clone } } :=
  ⟨.initial clone, fun _ => rfl, by simp, List.nodup_nil, by simp, by simp⟩

theorem reachable {protocol : ℕ} {clone : σ} {C : Contract (ManagedServer σ) Event}
    (h : Reachable (ManagedServer.step R) C
      { protocol := protocol, server := { clone := clone } } w) : Attached w :=
  h.invariant (initial protocol clone) fun _ _ _ hw _ hst => hw.step (transition_of_step hst)

end Attached

end Attached

end ManagedServer

end DtProject
