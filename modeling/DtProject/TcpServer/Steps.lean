import DtProject.TcpServer.Basic

/-! # The steps of the TCP server

What each stage of `Close`, of the listen thread and of a polling thread does, and
who holds the socket of a client: the server, the listen thread that is about to
add it, or `Close` that has taken it. No client whose polling thread is at work is
lost to all of them, so `Close` waits for every one.
-/

namespace DtProject

theorem CloseStage.isIdle_iff {stage : CloseStage} : stage.isIdle = true ↔ stage = .idle := by
  cases stage <;> simp [isIdle]

namespace ClientStage

/-- The thread has not ended and is not past its removal from the server. -/
def active : ClientStage → Bool
  | .dispatchDisconnected | .done => false
  | _ => true

theorem not_active_iff {stage : ClientStage} :
    stage.active = false ↔ stage = .dispatchDisconnected ∨ stage = .done := by
  cases stage <;> simp [active]

end ClientStage

namespace ProtocolTcpIpServer

variable {σ : Type*} {R : PacketRule σ} {s s' : ProtocolTcpIpServer σ} {i j : ℕ} {e : Event}

section Update

variable {c : TcpIpClient σ} {f : TcpIpClient σ → TcpIpClient σ} {stage : ClientStage}

@[simp] theorem modifyClient_self : (s.modifyClient i f).client i = f (s.client i) :=
  Function.update_self ..

theorem modifyClient_ne (h : j ≠ i) : (s.modifyClient i f).client j = s.client j :=
  Function.update_of_ne h ..

@[simp] theorem setStage_stage : ((s.setStage i stage).client i).stage = stage := by
  simp [setStage]

@[simp] theorem setStage_bIsClosing :
    ((s.setStage i stage).client j).bIsClosing = (s.client j).bIsClosing := by
  rcases eq_or_ne j i with rfl | hne
  · simp [setStage]
  · rw [setStage, modifyClient_ne hne]

@[simp] theorem setStage_reads :
    ((s.setStage i stage).client j).reads = (s.client j).reads := by
  rcases eq_or_ne j i with rfl | hne
  · simp [setStage]
  · rw [setStage, modifyClient_ne hne]

theorem setStage_ne (h : j ≠ i) : (s.setStage i stage).client j = s.client j := modifyClient_ne h

@[simp] theorem tell_stage : ((s.tell i).client j).stage = (s.client j).stage := by
  rcases eq_or_ne j i with rfl | hne
  · simp [tell]
  · rw [tell, modifyClient_ne hne]

@[simp] theorem tell_reads : ((s.tell i).client j).reads = (s.client j).reads := by
  rcases eq_or_ne j i with rfl | hne
  · simp [tell]
  · rw [tell, modifyClient_ne hne]

@[simp] theorem tell_bIsClosing : ((s.tell i).client i).bIsClosing = true := by
  simp [tell]

theorem tell_ne (h : j ≠ i) : (s.tell i).client j = s.client j := modifyClient_ne h

theorem accept_client_self :
    s.accept.client s.clients = { packetRule := s.clone, stage := .poll } :=
  Function.update_self ..

theorem accept_client_ne (h : j ≠ s.clients) : s.accept.client j = s.client j :=
  Function.update_of_ne h ..

end Update

section Transition

inductive Closes (s : ProtocolTcpIpServer σ) (bound : Bool) : ProtocolTcpIpServer σ → Prop where

  | took : s.closeStage = .listenThread → s.listenThread = .done →
      Closes s bound { s with connectedSockets := [], closeStage := .sockets s.connectedSockets }

  | closed : s.closeStage = .sockets [] → Closes s bound (s.closed bound)

  | skipped {i : ℕ} {rest : List ℕ} : s.closeStage = .sockets (i :: rest) →
      (s.client i).bIsClosing = true → Closes s bound { s with closeStage := .sockets rest }

  | closing {i : ℕ} {rest : List ℕ} : s.closeStage = .sockets (i :: rest) →
      (s.client i).bIsClosing = false →
      Closes s bound { s.tell i with closeStage := .polling i rest }

  | joined {i : ℕ} {rest : List ℕ} : s.closeStage = .polling i rest →
      (s.client i).stage = .done → Closes s bound { s with closeStage := .sockets rest }

theorem closes_of_closeNext {bound : Bool} (h : s.closeNext bound = some s') :
    Closes s bound s' := by
  unfold closeNext at h
  split at h
  · cases h
  · split at h
    · obtain rfl := Option.some.inj h
      apply Closes.took <;> assumption
    · cases h
  · obtain rfl := Option.some.inj h
    apply Closes.closed
    assumption
  · split_ifs at h with hclosing
    · obtain rfl := Option.some.inj h
      apply Closes.skipped <;> assumption
    · obtain rfl := Option.some.inj h
      apply Closes.closing
      · assumption
      · exact Bool.eq_false_of_not_eq_true hclosing
  · split at h
    · obtain rfl := Option.some.inj h
      apply Closes.joined <;> assumption
    · cases h

def restarted (s : ProtocolTcpIpServer σ) (bound : Bool) : ProtocolTcpIpServer σ :=
  { s with
    isClosing := false
    starting := false
    closeStage := .idle
    listenThread := if bound then .onListen else .done }

@[simp] theorem closed_client {bound : Bool} : (s.closed bound).client = s.client := by
  unfold closed
  split_ifs <;> rfl

@[simp] theorem closed_dispatched {bound : Bool} :
    (s.closed bound).dispatched = s.dispatched := by
  unfold closed
  split_ifs <;> rfl

@[simp] theorem closed_closeStage {bound : Bool} : (s.closed bound).closeStage = .idle := by
  unfold closed
  split_ifs <;> rfl

theorem closed_of_starting {bound : Bool} (h : s.starting = true) :
    s.closed bound = restarted s bound := if_pos h

theorem closed_of_not_starting {bound : Bool} (h : s.starting = false) :
    s.closed bound = { s with closeStage := .idle } :=
  if_neg (h.trans_ne Bool.false_ne_true)

inductive Listens (s : ProtocolTcpIpServer σ) : Bool → ProtocolTcpIpServer σ → Prop where

  | looked {pending : Bool} : s.listenThread = .onListen →
      Listens s pending { s with listenThread := if s.isClosing then .done else .accept }

  | accepted : s.listenThread = .accept → Listens s true s.accept

  | waited : s.listenThread = .accept → Listens s false { s with listenThread := .onListen }

  | added {pending : Bool} {i : ℕ} : s.listenThread = .add i →
      Listens s pending { s with
        connectedSockets := s.connectedSockets ++ [i], listenThread := .dispatchConnected i }

  | dispatched {pending : Bool} {i : ℕ} : s.listenThread = .dispatchConnected i →
      Listens s pending { s.dispatch (.connected i) with listenThread := .onListen }

theorem listens_of_onListen {pending : Bool} (h : s.onListen pending = some s') :
    Listens s pending s' := by
  unfold onListen at h
  split at h
  · obtain rfl := Option.some.inj h
    apply Listens.looked
    assumption
  · obtain rfl := Option.some.inj h
    cases pending with
    | true => apply Listens.accepted; assumption
    | false => apply Listens.waited; assumption
  · obtain rfl := Option.some.inj h
    apply Listens.added
    assumption
  · obtain rfl := Option.some.inj h
    apply Listens.dispatched
    assumption
  · cases h

inductive Polls (R : PacketRule σ) (s : ProtocolTcpIpServer σ) (i : ℕ) :
    PollResult → ProtocolTcpIpServer σ → Prop where

  | stopped {result : PollResult} : (s.client i).stage = .poll → (s.client i).bIsClosing = true →
      Polls R s i result (s.setStage i .done)

  | idle : (s.client i).stage = .poll → (s.client i).bIsClosing = false → Polls R s i .idle s

  | read {bytes rest : List UInt8} {bodies : List (List UInt8)} {rule : σ} :
      (s.client i).stage = .poll → (s.client i).bIsClosing = false → bytes ≠ [] →
      R.receiveLoop (s.client i).packetRule bytes = some (bodies, rule, rest) →
      Polls R s i (.data bytes) (s.modifyClient i fun c => { c with
        packetRule := rule, reads := c.reads ++ [bytes], stage := .receive bodies })

  | died {result : PollResult} : (s.client i).stage = .poll → (s.client i).bIsClosing = false →
      Polls R s i result (s.setStage i .disconnected)

  | received {result : PollResult} : (s.client i).stage = .receive [] →
      Polls R s i result (s.setStage i .poll)

  | ignored {result : PollResult} {body : List UInt8} {bodies : List (List UInt8)} :
      (s.client i).stage = .receive (body :: bodies) → s.isClosing = true →
      Polls R s i result (s.setStage i (.receive bodies))

  | receiving {result : PollResult} {body : List UInt8} {bodies : List (List UInt8)} :
      (s.client i).stage = .receive (body :: bodies) → s.isClosing = false →
      Polls R s i result (s.setStage i (.dispatchReceiveData body bodies))

  | dispatchedBody {result : PollResult} {body : List UInt8} {bodies : List (List UInt8)} :
      (s.client i).stage = .dispatchReceiveData body bodies →
      Polls R s i result ((s.dispatch (.receiveData i body)).setStage i (.receive bodies))

  | unreported {result : PollResult} : (s.client i).stage = .disconnected → s.isClosing = true →
      Polls R s i result (s.setStage i .done)

  | reported {result : PollResult} : (s.client i).stage = .disconnected → s.isClosing = false →
      Polls R s i result (s.setStage i .remove)

  | removed {result : PollResult} : (s.client i).stage = .remove → i ∈ s.connectedSockets →
      Polls R s i result { s.setStage i .dispatchDisconnected with
        connectedSockets := s.connectedSockets.erase i }

  | missed {result : PollResult} : (s.client i).stage = .remove → i ∉ s.connectedSockets →
      Polls R s i result (s.setStage i .done)

  | dispatched {result : PollResult} : (s.client i).stage = .dispatchDisconnected →
      Polls R s i result ((s.dispatch (.disconnected i)).setStage i .done)

theorem polls_of_readSocket {result : PollResult} (hpoll : (s.client i).stage = .poll)
    (hopen : (s.client i).bIsClosing = false) (h : s.readSocket R i result = some s') :
    Polls R s i result s' := by
  cases result with
  | idle =>
    obtain rfl := Option.some.inj h
    exact .idle hpoll hopen
  | data bytes =>
    simp only [readSocket] at h
    split_ifs at h with hnil
    · obtain rfl := Option.some.inj h
      exact .died hpoll hopen
    · obtain ⟨⟨bodies, rule, rest⟩, hloop, rfl⟩ := Option.map_eq_some_iff.mp h
      exact .read hpoll hopen hnil hloop
  | died =>
    obtain rfl := Option.some.inj h
    exact .died hpoll hopen

theorem polls_of_receivedData {result : PollResult} (h : s.receivedData R i result = some s') :
    Polls R s i result s' := by
  unfold receivedData at h
  split at h
  · rename_i hpoll
    split_ifs at h with hclosing
    · obtain rfl := Option.some.inj h
      exact .stopped hpoll hclosing
    · exact polls_of_readSocket hpoll (Bool.eq_false_of_not_eq_true hclosing) h
  · rename_i hreceive
    obtain rfl := Option.some.inj h
    exact .received hreceive
  · rename_i hreceive
    obtain rfl := Option.some.inj h
    cases hclosing : s.isClosing with
    | true => exact .ignored hreceive hclosing
    | false => exact .receiving hreceive hclosing
  · rename_i hdispatch
    obtain rfl := Option.some.inj h
    exact .dispatchedBody hdispatch
  · rename_i hdisconnected
    obtain rfl := Option.some.inj h
    cases hclosing : s.isClosing with
    | true => exact .unreported hdisconnected hclosing
    | false => exact .reported hdisconnected hclosing
  · rename_i hremove
    obtain rfl := Option.some.inj h
    unfold removeClient
    split_ifs with hmem
    · exact .removed hremove hmem
    · exact .missed hremove hmem
  · rename_i hdispatch
    obtain rfl := Option.some.inj h
    exact .dispatched hdispatch
  · cases h

inductive Transition (R : PacketRule σ) (s : ProtocolTcpIpServer σ) :
    Event → ProtocolTcpIpServer σ → Prop where
  | start : s.closeStage = .idle → Transition R s .start (s.close true)
  | close : s.closeStage = .idle → Transition R s .close (s.close false)
  | closeNext {bound : Bool} {s' : ProtocolTcpIpServer σ} : Closes s bound s' →
      Transition R s (.closeNext bound) s'
  | onListen {pending : Bool} {s' : ProtocolTcpIpServer σ} : Listens s pending s' →
      Transition R s (.onListen pending) s'
  | receivedData {i : ℕ} {result : PollResult} {s' : ProtocolTcpIpServer σ} :
      Polls R s i result s' → Transition R s (.receivedData i result) s'

theorem transition_of_step (h : step R s e = some s') : Transition R s e s' := by
  cases e with
  | start | close =>
    simp only [step] at h
    split_ifs at h with hidle
    obtain rfl := Option.some.inj h
    constructor
    exact CloseStage.isIdle_iff.mp hidle
  | closeNext bound => exact .closeNext (closes_of_closeNext h)
  | onListen pending => exact .onListen (listens_of_onListen h)
  | receivedData i result => exact .receivedData (polls_of_receivedData h)

end Transition

section Holding

/-- The server holds the socket of the client, or the listen thread is about to add it, or `Close`
has taken it. -/
def Held (s : ProtocolTcpIpServer σ) (i : ℕ) : Prop :=
  i ∈ s.connectedSockets ∨ s.listenThread = .add i ∨ i ∈ s.closeStage.taken

@[simp] theorem held_dispatch {d : Dispatched} : (s.dispatch d).Held i ↔ s.Held i := Iff.rfl

theorem held_listen {l : ListenStage} (hadd : ∀ i, s.listenThread ≠ .add i)
    (hadd' : ∀ i, l ≠ .add i) : Held { s with listenThread := l } i ↔ s.Held i :=
  or_congr_right (or_congr_left (iff_of_false (hadd' i) (hadd i)))

theorem held_accept (hl : s.listenThread = .accept) (h : j ≠ s.clients) :
    s.accept.Held j ↔ s.Held j := by
  simp [Held, accept, hl, h.symm]

theorem held_added (hl : s.listenThread = .add i) :
    Held { s with
      connectedSockets := s.connectedSockets ++ [i], listenThread := .dispatchConnected i } j ↔
      s.Held j := by
  simp [Held, hl, or_assoc, eq_comm]

theorem held_close (hidle : s.closeStage = .idle) {starting : Bool} :
    (s.close starting).Held j ↔ s.Held j := by
  simp [Held, close, hidle, CloseStage.taken]

theorem held_took (hc : s.closeStage = .listenThread) (hl : s.listenThread = .done) :
    Held { s with connectedSockets := [], closeStage := .sockets s.connectedSockets } j ↔
      s.Held j := by
  simp [Held, hl, hc, CloseStage.taken]

theorem held_tell {rest : List ℕ} (hc : s.closeStage = .sockets (i :: rest)) :
    Held { s.tell i with closeStage := .polling i rest } j ↔ s.Held j := by
  simp only [Held, tell, modifyClient, hc, CloseStage.taken]

theorem held_erase (h : j ≠ i) :
    Held { s.setStage i .dispatchDisconnected with
      connectedSockets := s.connectedSockets.erase i } j ↔ s.Held j :=
  or_congr_left (List.mem_erase_of_ne h)

/-- Sockets are held once, by someone who sees to their threads, and a closed server holds none. -/
structure Holds (s : ProtocolTcpIpServer σ) : Prop where

  nodup : s.connectedSockets.Nodup

  nodup_taken : s.closeStage.taken.Nodup

  fresh : ∀ i, s.listenThread = .add i → i ∉ s.connectedSockets

  born : ∀ i, s.Held i → i < s.clients

  unborn : ∀ i, s.clients ≤ i → (s.client i).stage = .done ∧ (s.client i).bIsClosing = false

  active : ∀ i, (s.client i).stage.active = true → s.Held i

  leaving : ∀ i, (s.client i).stage = .dispatchDisconnected → ¬ s.Held i

  closing : s.closeStage ≠ .idle → s.isClosing = true

  closed : s.isClosing = true → s.closeStage ≠ .listenThread →
    s.listenThread = .done ∧ s.connectedSockets = []

  flagged : ∀ i, (s.client i).bIsClosing = true →
    (∃ rest, s.closeStage = .polling i rest) ∨ ¬ s.Held i ∧ (s.client i).stage = .done

  told : ∀ i rest, s.closeStage = .polling i rest → (s.client i).bIsClosing = true

namespace Holds

theorem dispatch (h : Holds s) (d : Dispatched) : Holds (s.dispatch d) :=
  ⟨h.nodup, h.nodup_taken, h.fresh, h.born, h.unborn, h.active, h.leaving, h.closing, h.closed,
    h.flagged, h.told⟩

theorem modifyClient (h : Holds s) {f : TcpIpClient σ → TcpIpClient σ}
    (hflag : (f (s.client i)).bIsClosing = (s.client i).bIsClosing)
    (hactive : (f (s.client i)).stage.active = true → (s.client i).stage.active = true)
    (hleaving : (f (s.client i)).stage ≠ .dispatchDisconnected) : Holds (s.modifyClient i f) := by
  have hdone : (s.client i).stage = .done → (f (s.client i)).stage = .done := by
    intro hd
    cases ha : (f (s.client i)).stage.active with
    | true =>
      have := hactive ha
      rw [hd] at this
      cases this
    | false => exact (ClientStage.not_active_iff.mp ha).resolve_left hleaving
  constructor
  · exact h.nodup
  · exact h.nodup_taken
  · exact h.fresh
  · exact h.born
  · intro j hj
    obtain ⟨hstage, hopen⟩ := h.unborn j hj
    rcases eq_or_ne j i with rfl | hne
    · rw [modifyClient_self]
      exact ⟨hdone hstage, hflag.trans hopen⟩
    · rw [modifyClient_ne hne]
      exact ⟨hstage, hopen⟩
  · intro j hj
    rcases eq_or_ne j i with rfl | hne
    · rw [modifyClient_self] at hj
      exact h.active j (hactive hj)
    · rw [modifyClient_ne hne] at hj
      exact h.active j hj
  · intro j hj
    rcases eq_or_ne j i with rfl | hne
    · rw [modifyClient_self] at hj
      exact absurd hj hleaving
    · rw [modifyClient_ne hne] at hj
      exact h.leaving j hj
  · exact h.closing
  · exact h.closed
  · intro j hj
    rcases eq_or_ne j i with rfl | hne
    · rw [modifyClient_self] at hj ⊢
      exact (h.flagged j (hflag.symm.trans hj)).imp_right fun ⟨hheld, hd⟩ => ⟨hheld, hdone hd⟩
    · rw [modifyClient_ne hne] at hj ⊢
      exact h.flagged j hj
  · intro j rest hc
    rcases eq_or_ne j i with rfl | hne
    · rw [modifyClient_self, hflag]
      exact h.told j rest hc
    · rw [modifyClient_ne hne]
      exact h.told j rest hc

theorem setStage (h : Holds s) {stage : ClientStage}
    (hactive : stage.active = true → (s.client i).stage.active = true)
    (hleaving : stage ≠ .dispatchDisconnected) : Holds (s.setStage i stage) :=
  h.modifyClient rfl hactive hleaving

theorem open_of_listening (h : Holds s) (hl : s.listenThread ≠ .done) :
    s.isClosing = true → s.closeStage = .listenThread := by
  intro hc
  by_contra hne
  exact hl (h.closed hc hne).1

theorem past_listening (h : Holds s) (hidle : s.closeStage ≠ .idle)
    (hlisten : s.closeStage ≠ .listenThread) :
    s.listenThread = .done ∧ s.connectedSockets = [] :=
  h.closed (h.closing hidle) hlisten

theorem taken_eq_nil (h : Holds s) (hl : s.listenThread ≠ .done) : s.closeStage.taken = [] := by
  cases hc : s.closeStage with
  | idle | listenThread => rfl
  | sockets rest | polling i rest =>
    have hclosing := h.closing (by rw [hc]; nofun)
    cases hc.symm.trans (h.open_of_listening hl hclosing)

theorem lt_clients (h : Holds s) (hne : (s.client i).stage ≠ .done) : i < s.clients := by
  by_contra hle
  exact hne (h.unborn i (Nat.le_of_not_lt hle)).1

/-- A client that is polling while `Close` has taken its socket is no longer held by the server. -/
theorem not_mem_of_taken (h : Holds s) (hi : i ∈ s.closeStage.taken) : s.connectedSockets = [] := by
  have hne : s.closeStage ≠ .idle ∧ s.closeStage ≠ .listenThread := by
    constructor <;> intro hc <;> rw [hc] at hi <;> cases hi
  exact (h.past_listening hne.1 hne.2).2

theorem setListen (h : Holds s) {l : ListenStage} (hl : s.listenThread ≠ .done)
    (hadd : ∀ i, s.listenThread ≠ .add i) (hadd' : ∀ i, l ≠ .add i) :
    Holds { s with listenThread := l } := by
  have hheld : ∀ i, Held { s with listenThread := l } i ↔ s.Held i := fun _ =>
    held_listen hadd hadd'
  exact ⟨h.nodup, h.nodup_taken, fun i hi => absurd hi (hadd' i),
    fun i hi => h.born i ((hheld i).mp hi), h.unborn, fun i hi => (hheld i).mpr (h.active i hi),
    fun i hi hh => h.leaving i hi ((hheld i).mp hh), h.closing,
    fun hc hne => absurd (h.open_of_listening hl hc) hne,
    fun i hi => (h.flagged i hi).imp_right fun ⟨hh, hd⟩ => ⟨fun hh' => hh ((hheld i).mp hh'), hd⟩,
    h.told⟩

theorem accept (h : Holds s) (hl : s.listenThread = .accept) : Holds s.accept := by
  have hopen := h.open_of_listening (by rw [hl]; nofun)
  have htaken : s.closeStage.taken = [] := h.taken_eq_nil (by rw [hl]; nofun)
  have hheld : ∀ j, s.accept.Held j ↔ s.Held j ∨ j = s.clients := by
    intro j
    simp only [Held, ProtocolTcpIpServer.accept, hl, htaken, ListenStage.add.injEq, reduceCtorEq,
      List.not_mem_nil, or_false, eq_comm]
  have hnot : ¬ s.Held s.clients := fun hh => Nat.lt_irrefl _ (h.born _ hh)
  constructor
  · exact h.nodup
  · exact h.nodup_taken
  · rintro i ⟨⟩ hi
    exact hnot (.inl hi)
  · intro j hj
    rcases (hheld j).mp hj with hj | rfl
    · exact Nat.lt_succ_of_lt (h.born j hj)
    · exact Nat.lt_succ_self _
  · intro j hj
    rw [accept_client_ne (Nat.ne_of_gt hj)]
    exact h.unborn j (Nat.le_of_succ_le hj)
  · intro j hj
    rcases eq_or_ne j s.clients with rfl | hne
    · exact (hheld _).mpr (.inr rfl)
    · rw [accept_client_ne hne] at hj
      exact (hheld j).mpr (.inl (h.active j hj))
  · intro j hj hh
    rcases eq_or_ne j s.clients with rfl | hne
    · rw [accept_client_self] at hj
      cases hj
    · rw [accept_client_ne hne] at hj
      exact h.leaving j hj (((hheld j).mp hh).resolve_right hne)
  · exact h.closing
  · exact fun hc hne => absurd (hopen hc) hne
  · intro j hj
    rcases eq_or_ne j s.clients with rfl | hne
    · rw [accept_client_self] at hj
      cases hj
    · rw [accept_client_ne hne] at hj ⊢
      refine (h.flagged j hj).imp_right fun ⟨hh, hd⟩ => ⟨fun hh' => ?_, hd⟩
      exact hh (((hheld j).mp hh').resolve_right hne)
  · intro j rest hc
    have htaken : s.closeStage.taken = j :: rest := congrArg CloseStage.taken hc
    rw [h.taken_eq_nil (by rw [hl]; nofun)] at htaken
    cases htaken

theorem added (h : Holds s) (hl : s.listenThread = .add i) :
    Holds { s with
      connectedSockets := s.connectedSockets ++ [i], listenThread := .dispatchConnected i } := by
  have hheld : ∀ j, Held { s with
      connectedSockets := s.connectedSockets ++ [i], listenThread := .dispatchConnected i } j ↔
      s.Held j := fun _ => held_added hl
  refine ⟨?_, h.nodup_taken, nofun, fun j hj => h.born j ((hheld j).mp hj), h.unborn,
    fun j hj => (hheld j).mpr (h.active j hj), fun j hj hh => h.leaving j hj ((hheld j).mp hh),
    h.closing, fun hc hne => absurd (h.open_of_listening (by rw [hl]; nofun) hc) hne,
    fun j hj => (h.flagged j hj).imp_right fun ⟨hh, hd⟩ => ⟨fun hh' => hh ((hheld j).mp hh'), hd⟩,
    h.told⟩
  exact List.nodup_append.mpr ⟨h.nodup, by simp, fun a ha b hb hab =>
    h.fresh i hl (List.mem_singleton.mp hb ▸ hab ▸ ha)⟩

theorem removed (h : Holds s) (hstage : (s.client i).stage = .remove)
    (hi : i ∈ s.connectedSockets) :
    Holds { s.setStage i .dispatchDisconnected with
      connectedSockets := s.connectedSockets.erase i } := by
  have hadd : s.listenThread ≠ .add i := fun hl => h.fresh i hl hi
  have htaken : i ∉ s.closeStage.taken := by
    intro ht
    rw [h.not_mem_of_taken ht] at hi
    cases hi
  have hheld : ∀ j, Held { s.setStage i .dispatchDisconnected with
      connectedSockets := s.connectedSockets.erase i } j ↔ s.Held j ∧ j ≠ i := by
    intro j
    rcases eq_or_ne j i with rfl | hne
    · have hmem : j ∉ s.connectedSockets.erase j := h.nodup.not_mem_erase
      exact iff_of_false (fun hh => hh.elim hmem fun hh => hh.elim hadd htaken) fun hh => hh.2 rfl
    · rw [and_iff_left hne]
      exact held_erase hne
  constructor
  · exact h.nodup.erase i
  · exact h.nodup_taken
  · exact fun j hj hmem => h.fresh j hj (List.mem_of_mem_erase hmem)
  · exact fun j hj => h.born j ((hheld j).mp hj).1
  · intro j hj
    have hne : j ≠ i := fun hji => by
      have := h.born i (.inl hi)
      have hj : s.clients ≤ j := hj
      omega
    have hsame : (s.setStage i .dispatchDisconnected).client j = s.client j := setStage_ne hne
    exact hsame.symm ▸ h.unborn j hj
  · intro j hj
    rcases eq_or_ne j i with rfl | hne
    · have : ((s.setStage j .dispatchDisconnected).client j).stage.active = true := hj
      rw [setStage_stage] at this
      cases this
    · have : ((s.setStage i .dispatchDisconnected).client j).stage.active = true := hj
      rw [setStage_ne hne] at this
      exact (hheld j).mpr ⟨h.active j this, hne⟩
  · intro j hj hh
    have hj : ((s.setStage i .dispatchDisconnected).client j).stage = .dispatchDisconnected := hj
    have hne := ((hheld j).mp hh).2
    rw [setStage_ne hne] at hj
    exact h.leaving j hj ((hheld j).mp hh).1
  · exact h.closing
  · intro hc hne
    exact absurd hi (by rw [(h.closed hc hne).2]; exact List.not_mem_nil)
  · intro j hj
    have hj : ((s.setStage i .dispatchDisconnected).client j).bIsClosing = true := hj
    rw [setStage_bIsClosing] at hj
    refine (h.flagged j hj).imp_right fun ⟨hh, hd⟩ => ⟨fun hh' => hh ((hheld j).mp hh').1, ?_⟩
    have hne : j ≠ i := by
      rintro rfl
      cases hd.symm.trans hstage
    exact (congrArg TcpIpClient.stage (setStage_ne hne)).trans hd
  · intro j rest hc
    exact setStage_bIsClosing.trans (h.told j rest hc)

/-- A client that has been told to close has been waited for, unless `Close` waits for it now. -/
theorem waited (h : Holds s) (hc : ∀ rest, s.closeStage ≠ .polling i rest)
    (hi : (s.client i).bIsClosing = true) : ¬ s.Held i ∧ (s.client i).stage = .done :=
  (h.flagged i hi).resolve_left fun ⟨rest, hrest⟩ => hc rest hrest

theorem close (h : Holds s) (hidle : s.closeStage = .idle) (starting : Bool) :
    Holds (s.close starting) := by
  have hheld : ∀ j, (s.close starting).Held j ↔ s.Held j := fun _ => held_close hidle
  exact ⟨h.nodup, List.nodup_nil, h.fresh, fun j hj => h.born j ((hheld j).mp hj), h.unborn,
    fun j hj => (hheld j).mpr (h.active j hj), fun j hj hh => h.leaving j hj ((hheld j).mp hh),
    fun _ => rfl, fun _ hne => absurd rfl hne,
    fun j hj => .inr <| (h.waited (by simp [hidle]) hj).imp_left (mt (hheld j).mp), nofun⟩

theorem not_held (h : Holds s) (hc : s.closeStage = .sockets []) (j : ℕ) : ¬ s.Held j := by
  obtain ⟨hl, hnil⟩ := h.past_listening (by simp [hc]) (by simp [hc])
  simp [Held, hl, hnil, hc, CloseStage.taken]

theorem not_held_closed (h : Holds s) (hc : s.closeStage = .sockets []) {bound : Bool} (j : ℕ) :
    ¬ (s.closed bound).Held j ∧ (s.closed bound).listenThread ≠ .dispatchConnected j := by
  obtain ⟨hl, hnil⟩ := h.past_listening (by simp [hc]) (by simp [hc])
  unfold ProtocolTcpIpServer.closed
  cases s.starting <;> cases bound <;> simp [Held, hl, hnil, CloseStage.taken]

theorem not_skipped (h : Holds s) {rest : List ℕ} (hc : s.closeStage = .sockets (i :: rest)) :
    (s.client i).bIsClosing = false := by
  by_contra hflag
  obtain ⟨hh, -⟩ := h.waited (by simp [hc]) (Bool.eq_true_of_not_eq_false hflag)
  exact hh (.inr (.inr (by rw [hc]; exact List.mem_cons_self)))

theorem held_joined (h : Holds s) {rest : List ℕ} (hc : s.closeStage = .polling i rest) :
    Held { s with closeStage := .sockets rest } j ↔ s.Held j ∧ j ≠ i := by
  obtain ⟨hl, hnil⟩ := h.past_listening (by simp [hc]) (by simp [hc])
  have htaken := h.nodup_taken
  rw [hc, CloseStage.taken, List.nodup_cons] at htaken
  simp only [Held, hl, hnil, hc, CloseStage.taken, List.not_mem_nil, reduceCtorEq,
    List.mem_cons, false_or]
  constructor
  · exact fun hj => ⟨.inr hj, fun hji => htaken.1 (hji ▸ hj)⟩
  · exact fun hj => hj.1.resolve_left hj.2

theorem took (h : Holds s) (hc : s.closeStage = .listenThread) (hl : s.listenThread = .done) :
    Holds { s with connectedSockets := [], closeStage := .sockets s.connectedSockets } := by
  have hheld : ∀ j, Held { s with
      connectedSockets := [], closeStage := .sockets s.connectedSockets } j ↔ s.Held j :=
    fun _ => held_took hc hl
  have hclosing := h.closing (by rw [hc]; nofun)
  exact ⟨List.nodup_nil, h.nodup, fun _ _ => List.not_mem_nil,
    fun j hj => h.born j ((hheld j).mp hj), h.unborn, fun j hj => (hheld j).mpr (h.active j hj),
    fun j hj hh => h.leaving j hj ((hheld j).mp hh), fun _ => hclosing, fun _ _ => ⟨hl, rfl⟩,
    fun j hj => .inr <| (h.waited (by simp [hc]) hj).imp_left (mt (hheld j).mp), nofun⟩

theorem returned (h : Holds s) (hc : s.closeStage = .sockets []) (bound : Bool) :
    Holds (s.closed bound) := by
  have hclosing := h.closing (by rw [hc]; nofun)
  obtain ⟨hl, hnil⟩ := h.closed hclosing (by rw [hc]; nofun)
  have hnone := h.not_held hc
  have hleft : ∀ j, ¬ (s.closed bound).Held j := fun j => (h.not_held_closed hc j).1
  have hflag : ∀ j, (s.client j).bIsClosing = true → (s.client j).stage = .done :=
    fun j hj => (h.waited (by simp [hc]) hj).2
  cases hstart : s.starting with
  | true =>
    rw [closed_of_starting hstart] at hleft ⊢
    refine ⟨h.nodup, List.nodup_nil, fun j _ => ?_, fun j hj => absurd hj (hleft j),
      h.unborn, fun j hj => absurd (h.active j hj) (hnone j), fun j _ => hleft j,
      fun hne => absurd rfl hne, nofun, fun j hj => .inr ⟨hleft j, hflag j hj⟩, nofun⟩
    rw [restarted, hnil]
    exact List.not_mem_nil
  | false =>
    rw [closed_of_not_starting hstart] at hleft ⊢
    exact ⟨h.nodup, List.nodup_nil, h.fresh, fun j hj => absurd hj (hleft j),
      h.unborn, fun j hj => absurd (h.active j hj) (hnone j), fun j _ => hleft j,
      fun _ => hclosing, fun _ _ => ⟨hl, hnil⟩, fun j hj => .inr ⟨hleft j, hflag j hj⟩,
      nofun⟩

theorem telling (h : Holds s) {rest : List ℕ} (hc : s.closeStage = .sockets (i :: rest)) :
    Holds { s.tell i with closeStage := .polling i rest } := by
  have hclosing := h.closing (by rw [hc]; nofun)
  have hclosed := h.closed hclosing (by rw [hc]; nofun)
  have hheld : ∀ j, Held { s.tell i with closeStage := .polling i rest } j ↔ s.Held j :=
    fun _ => held_tell hc
  have htaken := h.nodup_taken
  rw [hc] at htaken
  refine ⟨h.nodup, htaken, h.fresh, fun j hj => h.born j ((hheld j).mp hj), fun j hj => ?_,
    fun j hj => (hheld j).mpr (h.active j ((congrArg _ tell_stage.symm).trans hj)),
    fun j hj hh => h.leaving j (tell_stage.symm.trans hj) ((hheld j).mp hh), fun _ => hclosing,
    fun _ _ => hclosed, fun j hj => ?_, ?_⟩
  · have hne : j ≠ i := by
      rintro rfl
      have hlt := h.born j (.inr (.inr (by rw [hc]; exact List.mem_cons_self)))
      have hj : s.clients ≤ j := hj
      omega
    exact (tell_ne (s := s) hne).symm ▸ h.unborn j hj
  · rcases eq_or_ne j i with rfl | hne
    · exact .inl ⟨rest, rfl⟩
    · have hj : ((s.tell i).client j).bIsClosing = true := hj
      rw [tell_ne hne] at hj
      obtain ⟨hh, hd⟩ := h.waited (by simp [hc]) hj
      exact .inr ⟨mt (hheld j).mp hh, tell_stage.trans hd⟩
  · rintro j rest' ⟨⟩
    exact tell_bIsClosing

theorem joined (h : Holds s) {rest : List ℕ} (hc : s.closeStage = .polling i rest)
    (hdone : (s.client i).stage = .done) : Holds { s with closeStage := .sockets rest } := by
  have hclosing := h.closing (by rw [hc]; nofun)
  have hclosed := h.closed hclosing (by rw [hc]; nofun)
  have htaken := h.nodup_taken
  rw [hc, CloseStage.taken, List.nodup_cons] at htaken
  have hheld : ∀ j, Held { s with closeStage := .sockets rest } j ↔ s.Held j ∧ j ≠ i :=
    fun _ => h.held_joined hc
  refine ⟨h.nodup, htaken.2, h.fresh, fun j hj => h.born j ((hheld j).mp hj).1, h.unborn,
    fun j hj => (hheld j).mpr ⟨h.active j hj, ?_⟩,
    fun j hj hh => h.leaving j hj ((hheld j).mp hh).1, fun _ => hclosing, fun _ _ => hclosed,
    fun j hj => .inr ?_, nofun⟩
  · rintro rfl
    have hj : (s.client j).stage.active = true := hj
    rw [hdone] at hj
    cases hj
  · rcases h.flagged j hj with ⟨rest', hrest⟩ | ⟨hh, hd⟩
    · obtain ⟨rfl, -⟩ := CloseStage.polling.inj (hc.symm.trans hrest)
      exact ⟨fun hh => ((hheld i).mp hh).2 rfl, hdone⟩
    · exact ⟨fun hh' => hh ((hheld j).mp hh').1, hd⟩

theorem closes (h : Holds s) {bound : Bool} (hst : Closes s bound s') : Holds s' := by
  cases hst with
  | took hc hl => exact h.took hc hl
  | closed hc => exact h.returned hc bound
  | skipped hc hflag => cases hflag.symm.trans (h.not_skipped hc)
  | closing hc _ => exact h.telling hc
  | joined hc hdone => exact h.joined hc hdone

theorem listens (h : Holds s) {pending : Bool} (hst : Listens s pending s') : Holds s' := by
  cases hst with
  | looked hl =>
    refine h.setListen (by rw [hl]; nofun) (fun i => by rw [hl]; nofun) fun i => ?_
    split_ifs <;> nofun
  | accepted hl => exact h.accept hl
  | waited hl => exact h.setListen (by rw [hl]; nofun) (fun i => by rw [hl]; nofun) nofun
  | added hl => exact h.added hl
  | dispatched hl =>
    exact (h.dispatch _).setListen (by rw [show (s.dispatch _).listenThread = _ from hl]; nofun)
      (fun i => by rw [show (s.dispatch _).listenThread = _ from hl]; nofun) nofun

theorem polls (h : Holds s) {result : PollResult} (hst : Polls R s i result s') : Holds s' := by
  cases hst with
  | stopped | unreported | missed => exact h.setStage nofun nofun
  | idle => exact h
  | read hpoll hopen => exact h.modifyClient rfl (fun _ => by rw [hpoll]; rfl) nofun
  | died hpoll | received hpoll | ignored hpoll | receiving hpoll | reported hpoll =>
    exact h.setStage (fun _ => by rw [hpoll]; rfl) nofun
  | dispatchedBody hpoll =>
    exact (h.dispatch _).setStage
      (fun _ => by rw [show ((s.dispatch _).client i).stage = _ from hpoll]; rfl) nofun
  | removed hremove hi => exact h.removed hremove hi
  | dispatched => exact (h.dispatch _).setStage nofun nofun

theorem not_told (h : Holds s) (hi : (s.client i).stage ≠ .done) (htaken : i ∉ s.closeStage.taken) :
    (s.client i).bIsClosing = false := by
  by_contra hflag
  rcases h.flagged i (Bool.eq_true_of_not_eq_false hflag) with ⟨rest, hrest⟩ | ⟨-, hd⟩
  · exact htaken (by rw [hrest]; exact List.mem_cons_self)
  · exact hi hd

theorem step (h : Holds s) (hst : Transition R s e s') : Holds s' := by
  cases hst with
  | start hidle | close hidle => exact h.close hidle _
  | closeNext hst => exact h.closes hst
  | onListen hst => exact h.listens hst
  | receivedData hst => exact h.polls hst

theorem initial (clone : σ) : Holds { clone := clone } where
  nodup := List.nodup_nil
  nodup_taken := List.nodup_nil
  fresh := nofun
  born := by rintro i (h | h | h) <;> cases h
  unborn _ _ := ⟨rfl, rfl⟩
  active := nofun
  leaving := nofun
  closing h := absurd rfl h
  closed := nofun
  flagged := nofun
  told := nofun

end Holds

end Holding

end ProtocolTcpIpServer

end DtProject
