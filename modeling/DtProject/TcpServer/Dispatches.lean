import DtProject.TcpServer.Closing

/-! # What the TCP server dispatches

The bodies dispatched of a client are those that its packet rule gives for the data
read from it, in their order. None is missing of a client that goes of itself. A
client that is closed may lose the last of them. No client is connected or
disconnected twice, and no body follows its end.
-/

namespace DtProject

open Reactive

def ClientStage.pending : ClientStage → List (List UInt8)
  | .receive bodies => bodies
  | .dispatchReceiveData body bodies => body :: bodies
  | _ => []

namespace ProtocolTcpIpServer

variable {σ : Type*} {R : PacketRule σ} {s s' t : ProtocolTcpIpServer σ} {i j : ℕ} {e : Event}

/-- The bodies dispatched of a client, oldest first. -/
def bodiesFrom (i : ℕ) (ds : List Dispatched) : List (List UInt8) :=
  ds.reverse.filterMap fun
    | .receiveData j body => if j = i then some body else none
    | _ => none

section Bodies

variable {body : List UInt8} {ds : List Dispatched}

@[simp] theorem bodiesFrom_nil : bodiesFrom i [] = [] := rfl

@[simp] theorem bodiesFrom_connected : bodiesFrom i (.connected j :: ds) = bodiesFrom i ds := by
  simp [bodiesFrom]

@[simp] theorem bodiesFrom_disconnected :
    bodiesFrom i (.disconnected j :: ds) = bodiesFrom i ds := by
  simp [bodiesFrom]

@[simp] theorem bodiesFrom_self :
    bodiesFrom i (.receiveData i body :: ds) = bodiesFrom i ds ++ [body] := by
  simp [bodiesFrom]

theorem bodiesFrom_ne (h : j ≠ i) :
    bodiesFrom i (.receiveData j body :: ds) = bodiesFrom i ds := by
  simp [bodiesFrom, h]

end Bodies

/-- The server has ignored bodies of the client, and will ignore all that follow. -/
structure Cut (s : ProtocolTcpIpServer σ) (i : ℕ) (bodies : List (List UInt8)) : Prop where

  isPrefix : bodiesFrom i s.dispatched <+: bodies

  closing : (s.client i).bIsClosing = true ∨ s.isClosing = true ∧ s.Held i

  stage : (s.client i).stage = .poll ∨ (∃ bodies, (s.client i).stage = .receive bodies) ∨
    (s.client i).stage = .disconnected ∨ (s.client i).stage = .done

/-- What the packet rule of the client gives for the data read from it has been dispatched or is
still to be, unless the client was cut. -/
def Received (R : PacketRule σ) (clone : σ) (s : ProtocolTcpIpServer σ) (i : ℕ) : Prop :=
  ∃ bodies, R.receiveOver clone (s.client i).reads = some (bodies, (s.client i).packetRule) ∧
    (bodiesFrom i s.dispatched ++ (s.client i).stage.pending = bodies ∨ Cut s i bodies)

theorem Cut.isClosing {bodies : List (List UInt8)} (h : Cut s i bodies) (hh : Holds s)
    (hi : (s.client i).stage ≠ .done) : s.isClosing = true := by
  rcases h.closing with hflag | ⟨hc, -⟩
  · rcases hh.flagged i hflag with ⟨rest, hrest⟩ | ⟨-, hdone⟩
    · exact hh.closing (by rw [hrest]; nofun)
    · exact absurd hdone hi
  · exact hc

theorem Cut.stage_ne {bodies : List (List UInt8)} (h : Cut s i bodies)
    (hi : (s.client i).stage ≠ .poll ∧ (∀ rest, (s.client i).stage ≠ .receive rest) ∧
      (s.client i).stage ≠ .disconnected ∧ (s.client i).stage ≠ .done) : False := by
  obtain ⟨hpoll, hreceive, hdisconnected, hdone⟩ := hi
  rcases h.stage with hs | ⟨rest, hs⟩ | hs | hs
  · exact hpoll hs
  · exact hreceive rest hs
  · exact hdisconnected hs
  · exact hdone hs

namespace Received

variable {clone : σ}

theorem congr (h : Received R clone s i) (hclient : s'.client i = s.client i)
    (hbodies : bodiesFrom i s'.dispatched = bodiesFrom i s.dispatched)
    (hclosing : s.isClosing = true → s.Held i → (s.client i).bIsClosing = true ∨
      s'.isClosing = true ∧ s'.Held i) : Received R clone s' i := by
  obtain ⟨bodies, hreads, hdispatched⟩ := h
  refine ⟨bodies, by rw [hclient]; exact hreads, ?_⟩
  rw [hclient, hbodies]
  refine hdispatched.imp_right fun hcut => ⟨hbodies ▸ hcut.isPrefix, ?_, hclient ▸ hcut.stage⟩
  rw [hclient]
  rcases hcut.closing with hflag | ⟨hc, hh⟩
  · exact .inl hflag
  · exact hclosing hc hh

theorem setStage (h : Received R clone s i) {stage : ClientStage}
    (hpending : stage.pending = (s.client i).stage.pending)
    (hcut : ∀ bodies, Cut s i bodies → stage = .poll ∨ (∃ bodies, stage = .receive bodies) ∨
      stage = .disconnected ∨ stage = .done) : Received R clone (s.setStage i stage) i := by
  obtain ⟨bodies, hreads, hdispatched⟩ := h
  have hclient : (s.setStage i stage).client i = { s.client i with stage := stage } :=
    modifyClient_self
  refine ⟨bodies, by rw [hclient]; exact hreads, ?_⟩
  rw [hclient]
  refine hdispatched.imp (fun hall => ?_) fun hc => ⟨hc.isPrefix, ?_, ?_⟩
  · exact (congrArg _ hpending).trans hall
  · rw [hclient]
    exact hc.closing
  · rw [hclient]
    exact hcut bodies hc

theorem polls_ne (h : Received R clone s j) (hne : j ≠ i) {result : PollResult}
    (hst : Polls R s i result s') : Received R clone s' j := by
  have hclient : s'.client j = s.client j := (polls_frame hst).2.2 j hne
  cases hst with
  | stopped | idle | read | died | received | ignored | receiving | unreported | reported
  | missed => exact h.congr hclient rfl fun hc hh => .inr ⟨hc, hh⟩
  | dispatchedBody => exact h.congr hclient (bodiesFrom_ne hne.symm) fun hc hh => .inr ⟨hc, hh⟩
  | dispatched => exact h.congr hclient bodiesFrom_disconnected fun hc hh => .inr ⟨hc, hh⟩
  | removed => exact h.congr hclient rfl fun hc hh => .inr ⟨hc, (held_erase hne).mpr hh⟩

theorem read (h : Received R clone s i) (hpoll : (s.client i).stage = .poll)
    {bytes rest : List UInt8} {new : List (List UInt8)} {rule : σ}
    (hloop : R.receiveLoop (s.client i).packetRule bytes = some (new, rule, rest)) :
    Received R clone (s.modifyClient i fun c => { c with
      packetRule := rule, reads := c.reads ++ [bytes], stage := .receive new }) i := by
  obtain ⟨bodies, hreads, hdispatched⟩ := h
  have hclient : ∀ f, (s.modifyClient i f).client i = f (s.client i) := fun _ => modifyClient_self
  refine ⟨bodies ++ new, ?_, ?_⟩
  · rw [hclient, PacketRule.receiveOver_append, hreads, Option.bind_some, hloop]
    rfl
  · rw [hclient]
    refine hdispatched.imp (fun hall => ?_) fun hc => ⟨?_, ?_, ?_⟩
    · rw [hpoll] at hall
      rw [← hall]
      simp [ClientStage.pending, modifyClient]
    · exact hc.isPrefix.trans (List.prefix_append bodies new)
    · rw [hclient]
      exact hc.closing
    · rw [hclient]
      exact .inr (.inl ⟨new, rfl⟩)

theorem ignored (h : Received R clone s i) (hheld : s.Held i) (hclosing : s.isClosing = true)
    (rest : List (List UInt8)) : Received R clone (s.setStage i (.receive rest)) i := by
  obtain ⟨bodies, hreads, hdispatched⟩ := h
  have hclient : (s.setStage i (.receive rest)).client i =
      { s.client i with stage := .receive rest } := modifyClient_self
  have hfirst : bodiesFrom i s.dispatched <+: bodies :=
    hdispatched.elim (fun hall => hall ▸ List.prefix_append ..) Cut.isPrefix
  refine ⟨bodies, by rw [hclient]; exact hreads, .inr ⟨hfirst, .inr ⟨hclosing, hheld⟩, ?_⟩⟩
  rw [hclient]
  exact .inr (.inl ⟨rest, rfl⟩)

theorem dispatchedBody (h : Received R clone s i) {body : List UInt8} {rest : List (List UInt8)}
    (hpoll : (s.client i).stage = .dispatchReceiveData body rest) :
    Received R clone ((s.dispatch (.receiveData i body)).setStage i (.receive rest)) i := by
  obtain ⟨bodies, hreads, hdispatched⟩ := h
  have hclient : ((s.dispatch (.receiveData i body)).setStage i (.receive rest)).client i =
      { s.client i with stage := .receive rest } := modifyClient_self
  have hall := hdispatched.resolve_right fun hcut => hcut.stage_ne (by simp [hpoll])
  refine ⟨bodies, by rw [hclient]; exact hreads, .inl ?_⟩
  rw [hclient, ← hall, hpoll]
  simp [dispatch, ProtocolTcpIpServer.setStage, modifyClient, ClientStage.pending]

theorem removed (h : Received R clone s i) (hremove : (s.client i).stage = .remove) :
    Received R clone { s.setStage i .dispatchDisconnected with
      connectedSockets := s.connectedSockets.erase i } i := by
  obtain ⟨bodies, hreads, hdispatched⟩ := h
  have hclient : (s.setStage i .dispatchDisconnected).client i =
      { s.client i with stage := .dispatchDisconnected } := modifyClient_self
  have hall := hdispatched.resolve_right fun hcut => hcut.stage_ne (by simp [hremove])
  refine ⟨bodies, (congrArg (fun c => R.receiveOver clone c.reads = some (bodies, c.packetRule))
    hclient).mpr hreads, .inl ?_⟩
  rw [hremove] at hall
  rw [← hall]
  exact congrArg (fun c => bodiesFrom i s.dispatched ++ c.stage.pending) hclient

theorem polls_self (h : Received R clone s i) (hh : Holds s) {result : PollResult}
    (hst : Polls R s i result s') : Received R clone s' i := by
  cases hst with
  | stopped hpoll | received hpoll | unreported hpoll | missed hpoll | died hpoll =>
    exact h.setStage (by rw [hpoll]; rfl) fun _ _ => by simp
  | idle => exact h
  | read hpoll _ _ hloop => exact h.read hpoll hloop
  | ignored hpoll hclosing => exact h.ignored (hh.active i (by rw [hpoll]; rfl)) hclosing _
  | receiving hpoll hopen | reported hpoll hopen =>
    refine h.setStage (by rw [hpoll]; rfl) fun bodies hcut => ?_
    cases hopen.symm.trans (hcut.isClosing hh (by simp [hpoll]))
  | dispatchedBody hpoll => exact h.dispatchedBody hpoll
  | removed hremove => exact h.removed hremove
  | dispatched hd =>
    have hdispatch : Received R clone (s.dispatch (.disconnected i)) i :=
      h.congr rfl bodiesFrom_disconnected fun hc hheld => .inr ⟨hc, hheld⟩
    exact hdispatch.setStage (by rw [show ((s.dispatch _).client i).stage = _ from hd]; rfl)
      fun _ _ => by simp

theorem polls (h : ∀ i, Received R clone s i) (hh : Holds s) {result : PollResult}
    (hst : Polls R s i result s') : ∀ j, Received R clone s' j := by
  intro j
  rcases eq_or_ne j i with rfl | hne
  · exact (h j).polls_self hh hst
  · exact (h j).polls_ne hne hst

theorem close (h : Received R clone s i) (hidle : s.closeStage = .idle) (starting : Bool) :
    Received R clone (s.close starting) i :=
  h.congr rfl rfl fun _ hheld => .inr ⟨rfl, (held_close hidle).mpr hheld⟩

theorem closes (h : Received R clone s j) (hh : Holds s) {bound : Bool}
    (hst : Closes s bound s') : Received R clone s' j := by
  cases hst with
  | took hc hl => exact h.congr rfl rfl fun hc' hheld => .inr ⟨hc', (held_took hc hl).mpr hheld⟩
  | closed hc =>
    exact h.congr (congrFun closed_client j) (by rw [closed_dispatched])
      fun _ hheld => absurd hheld (hh.not_held hc j)
  | skipped hc hflag => cases hflag.symm.trans (hh.not_skipped hc)
  | @closing i rest hc hopen =>
    rcases eq_or_ne j i with rfl | hne
    · obtain ⟨bodies, hreads, hdispatched⟩ := h
      have hclient : (s.tell j).client j = { s.client j with bIsClosing := true } :=
        modifyClient_self
      refine ⟨bodies, (congrArg (fun c => R.receiveOver clone c.reads = some (bodies, c.packetRule))
        hclient).mpr hreads, hdispatched.imp (fun hall => ?_) fun hcut => ⟨hcut.isPrefix, ?_, ?_⟩⟩
      · exact (congrArg (bodiesFrom j s.dispatched ++ ·.stage.pending) hclient).trans hall
      · exact .inl tell_bIsClosing
      · change ((s.tell j).client j).stage = _ ∨ (∃ bodies, ((s.tell j).client j).stage = _) ∨
          ((s.tell j).client j).stage = _ ∨ ((s.tell j).client j).stage = _
        simp only [tell_stage]
        exact hcut.stage
    · exact h.congr (tell_ne hne) rfl fun hc' hheld => .inr ⟨hc', (held_tell hc).mpr hheld⟩
  | @joined i rest hc hdone =>
    refine h.congr rfl rfl fun hc' hheld => ?_
    rcases eq_or_ne j i with rfl | hne
    · exact .inl (hh.told j rest hc)
    · exact .inr ⟨hc', (hh.held_joined hc).mpr ⟨hheld, hne⟩⟩

theorem listens (h : Received R clone s j) (hclone : s.clone = clone)
    (hnone : s.clients ≤ j → bodiesFrom j s.dispatched = []) {pending : Bool}
    (hst : Listens s pending s') : Received R clone s' j := by
  cases hst with
  | looked hl =>
    refine h.congr rfl rfl fun hc hheld => .inr ⟨hc, (held_listen (by rw [hl]; nofun) ?_).mpr hheld⟩
    intro i
    cases s.isClosing <;> simp
  | waited hl =>
    exact h.congr rfl rfl fun hc hheld =>
      .inr ⟨hc, (held_listen (l := .onListen) (by rw [hl]; nofun) nofun).mpr hheld⟩
  | accepted hl =>
    rcases eq_or_ne j s.clients with rfl | hne
    · refine ⟨[], ?_, .inl ?_⟩
      · rw [accept_client_self, hclone]
        rfl
      · rw [accept_client_self]
        exact congrArg (· ++ []) (hnone le_rfl)
    · exact h.congr (accept_client_ne hne) rfl fun hc hheld =>
        .inr ⟨hc, (held_accept hl hne).mpr hheld⟩
  | added hl => exact h.congr rfl rfl fun hc hheld => .inr ⟨hc, (held_added hl).mpr hheld⟩
  | dispatched hl =>
    exact h.congr rfl bodiesFrom_connected fun hc hheld =>
      .inr ⟨hc, (held_listen (s := s) (l := .onListen) (by rw [hl]; nofun) nofun).mpr hheld⟩

end Received

/-- Nothing is received of clients that are not accepted yet, and no client reads no bytes. -/
structure AllReceived (R : PacketRule σ) (clone : σ) (s : ProtocolTcpIpServer σ) : Prop where

  clone_eq : s.clone = clone

  unborn : ∀ i, s.clients ≤ i → bodiesFrom i s.dispatched = []

  nonempty : ∀ i, ∀ bytes ∈ (s.client i).reads, bytes ≠ []

  received : ∀ i, Received R clone s i

namespace AllReceived

variable {clone : σ}

theorem closes (h : AllReceived R clone s) (hh : Holds s) {bound : Bool}
    (hst : Closes s bound s') : AllReceived R clone s' := by
  have hframe : s'.clone = s.clone ∧ s'.clients = s.clients ∧ s'.dispatched = s.dispatched ∧
      ∀ i, (s'.client i).reads = (s.client i).reads := by
    cases hst with
    | closed =>
      unfold closed
      split_ifs <;> exact ⟨rfl, rfl, rfl, fun _ => rfl⟩
    | took | skipped | joined => exact ⟨rfl, rfl, rfl, fun _ => rfl⟩
    | closing => exact ⟨rfl, rfl, rfl, fun _ => tell_reads⟩
  obtain ⟨hclone, hclients, hdispatched, hreads⟩ := hframe
  refine ⟨hclone.trans h.clone_eq, fun i hi => ?_, fun i => ?_,
    fun i => (h.received i).closes hh hst⟩
  · rw [hdispatched]
    exact h.unborn i (hclients ▸ hi)
  · rw [hreads]
    exact h.nonempty i

theorem listens (h : AllReceived R clone s) {pending : Bool} (hst : Listens s pending s') :
    AllReceived R clone s' := by
  have hframe : s'.clone = s.clone ∧ s.clients ≤ s'.clients ∧
      (∀ i, bodiesFrom i s'.dispatched = bodiesFrom i s.dispatched) ∧
      ∀ i, (s'.client i).reads = (s.client i).reads ∨ (s'.client i).reads = [] := by
    cases hst with
    | looked | waited | added => exact ⟨rfl, le_rfl, fun _ => rfl, fun _ => .inl rfl⟩
    | accepted =>
      refine ⟨rfl, Nat.le_succ _, fun _ => rfl, fun i => ?_⟩
      rcases eq_or_ne i s.clients with rfl | hne
      · exact .inr (by rw [accept_client_self])
      · exact .inl (by rw [accept_client_ne hne])
    | dispatched => exact ⟨rfl, le_rfl, fun _ => bodiesFrom_connected, fun _ => .inl rfl⟩
  obtain ⟨hclone, hclients, hdispatched, hreads⟩ := hframe
  refine ⟨hclone.trans h.clone_eq, fun i hi => ?_, fun i => ?_,
    fun i => (h.received i).listens h.clone_eq (h.unborn i) hst⟩
  · rw [hdispatched]
    exact h.unborn i (hclients.trans hi)
  · rcases hreads i with heq | hnil
    · rw [heq]
      exact h.nonempty i
    · rw [hnil]
      nofun

theorem polls (h : AllReceived R clone s) (hh : Holds s) {result : PollResult}
    (hst : Polls R s i result s') : AllReceived R clone s' := by
  have hframe : s'.clone = s.clone ∧ s'.clients = s.clients ∧
      ∀ j, s.clients ≤ j → bodiesFrom j s'.dispatched = bodiesFrom j s.dispatched := by
    cases hst with
    | stopped | idle | read | died | received | ignored | receiving | unreported | reported
    | removed | missed => exact ⟨rfl, rfl, fun _ _ => rfl⟩
    | dispatched => exact ⟨rfl, rfl, fun _ _ => bodiesFrom_disconnected⟩
    | dispatchedBody hpoll =>
      refine ⟨rfl, rfl, fun j hj => bodiesFrom_ne ?_⟩
      have hborn := hh.born i (hh.active i (by rw [hpoll]; rfl))
      omega
  have hreads : (s'.client i).reads = (s.client i).reads ∨
      ∃ bytes, bytes ≠ [] ∧ (s'.client i).reads = (s.client i).reads ++ [bytes] := by
    cases hst with
    | read _ _ hne => exact .inr ⟨_, hne, congrArg _ modifyClient_self⟩
    | idle => exact .inl rfl
    | stopped | died | received | ignored | receiving | dispatchedBody | unreported | reported
    | removed | missed | dispatched => exact .inl setStage_reads
  obtain ⟨hclone, hclients, hdispatched⟩ := hframe
  refine ⟨hclone.trans h.clone_eq, fun j hj => ?_, fun j => ?_, Received.polls h.received hh hst⟩
  · rw [hclients] at hj
    rw [hdispatched j hj]
    exact h.unborn j hj
  · rcases eq_or_ne j i with rfl | hne
    · rcases hreads with heq | ⟨bytes, hbytes, heq⟩
      · rw [heq]
        exact h.nonempty j
      · rw [heq]
        intro d hd
        rcases List.mem_append.mp hd with hd | hd
        · exact h.nonempty j d hd
        · rw [List.mem_singleton.mp hd]
          exact hbytes
    · rw [(polls_frame hst).2.2 j hne]
      exact h.nonempty j

theorem step (h : AllReceived R clone s) (hh : Holds s) (hst : Transition R s e s') :
    AllReceived R clone s' := by
  cases hst with
  | start hidle | close hidle =>
    exact ⟨h.clone_eq, h.unborn, h.nonempty, fun i => (h.received i).close hidle _⟩
  | closeNext hst => exact h.closes hh hst
  | onListen hst => exact h.listens hst
  | receivedData hst => exact h.polls hh hst

theorem reachable (h : Reachable (ProtocolTcpIpServer.step R) ⊤ { clone := clone } s) :
    AllReceived R clone s :=
  (h.invariant (I := fun s => Holds s ∧ AllReceived R clone s)
    ⟨Holds.initial clone, rfl, fun _ _ => rfl, fun _ => nofun, fun _ => ⟨[], rfl, .inl rfl⟩⟩
    fun _ _ _ hs _ hst =>
      ⟨hs.1.step (transition_of_step hst), hs.2.step hs.1 (transition_of_step hst)⟩).2

end AllReceived

/-- An open client has received, but for what is still to be handed on, what its packet rule gives
for the data read from it. -/
theorem Received.all {clone : σ} (h : Received R clone s i) (hopen : s.isClosing = false)
    (hflag : (s.client i).bIsClosing = false) :
    ∃ bodies, R.receiveOver clone (s.client i).reads = some (bodies, (s.client i).packetRule) ∧
      bodiesFrom i s.dispatched ++ (s.client i).stage.pending = bodies := by
  obtain ⟨bodies, hreads, hall | hcut⟩ := h
  · exact ⟨bodies, hreads, hall⟩
  · rcases hcut.closing with hflag' | ⟨hclosing, -⟩
    · cases hflag.symm.trans hflag'
    · cases hopen.symm.trans hclosing

/-- The bodies dispatched of a client are the first of those that its own packet rule gives for the
data read from it. While the server is open they are all but those still to be handed on, for
every client that `Close` has not come to. -/
theorem received_in_order {clone : σ} (h : Reachable (step R) ⊤ { clone := clone } s) (i : ℕ) :
    ∃ bodies, R.receiveOver clone (s.client i).reads = some (bodies, (s.client i).packetRule) ∧
      bodiesFrom i s.dispatched <+: bodies ∧
      (s.isClosing = false → (s.client i).bIsClosing = false →
        bodiesFrom i s.dispatched ++ (s.client i).stage.pending = bodies) := by
  have hreceived := (AllReceived.reachable h).received i
  have ⟨bodies, hreads, hdispatched⟩ := hreceived
  refine ⟨bodies, hreads, hdispatched.elim (fun hall => hall ▸ List.prefix_append ..)
    Cut.isPrefix, fun hopen hflag => ?_⟩
  obtain ⟨bodies', hreads', hall⟩ := hreceived.all hopen hflag
  cases hreads.symm.trans hreads'
  exact hall

def accepted : List Event :=
  [.start, .closeNext true, .closeNext true, .onListen true, .onListen true, .onListen true,
    .onListen true]

theorem run_accepted (R : PacketRule σ) (clone : σ) : ∃ s,
    Run (step R) ⊤ { clone := clone } accepted s ∧ s.isClosing = false ∧
      s.client 0 = { packetRule := clone, stage := .poll } :=
  ⟨_, .cons trivial rfl (.cons trivial rfl (.cons trivial rfl (.cons trivial rfl
    (.cons trivial rfl (.cons trivial rfl (.cons trivial rfl (.nil _))))))), rfl, rfl⟩

theorem step_data {bytes : List UInt8} (hstage : (s.client i).stage = .poll)
    (hflag : (s.client i).bIsClosing = false) (hne : bytes ≠ [])
    (hwant : R.getWantSize (s.client i).packetRule = 0) :
    step R s (.receivedData i (.data bytes)) = some (s.modifyClient i fun c => { c with
      packetRule := (R.notifyReceiveData (s.client i).packetRule bytes).2
      reads := c.reads ++ [bytes]
      stage := .receive (R.notifyReceiveData (s.client i).packetRule bytes).1 }) := by
  simp only [step, receivedData, hstage, hflag, Bool.false_eq_true, if_false, readSocket, hne,
    PacketRule.receiveLoop_all hne hwant]
  rfl

/-- Two reads of a client, of which the first has been handed on. -/
theorem received_in_order_accepted : ∃ s : ProtocolTcpIpServer Unit,
    Reachable (step packetRuleNodivision.toPacketRule) ⊤ { clone := () } s ∧
      (s.client 0).reads = [[1, 2], [3]] ∧ (s.client 0).stage.pending = [[3]] ∧
      bodiesFrom 0 s.dispatched = [[1, 2]] ∧ ∃ bodies,
        packetRuleNodivision.receiveOver () [[1, 2], [3]] = some (bodies, ()) ∧
          bodiesFrom 0 s.dispatched ++ (s.client 0).stage.pending = bodies := by
  have hrun : Run (step packetRuleNodivision.toPacketRule) ⊤ { clone := () }
      (accepted ++ [.receivedData 0 (.data [1, 2]), .receivedData 0 .idle, .receivedData 0 .idle,
        .receivedData 0 .idle, .receivedData 0 (.data [3])]) _ :=
    .cons trivial rfl (.cons trivial rfl (.cons trivial rfl (.cons trivial rfl
      (.cons trivial rfl (.cons trivial rfl (.cons trivial rfl
        (.cons trivial (step_data rfl rfl (by decide) rfl) (.cons trivial rfl
          (.cons trivial rfl (.cons trivial rfl
            (.cons trivial (step_data rfl rfl (by decide) rfl) (.nil _))))))))))))
  obtain ⟨bodies, hreads, -, hall⟩ := received_in_order ⟨_, hrun⟩ 0
  exact ⟨_, ⟨_, hrun⟩, rfl, rfl, rfl, bodies, hreads, hall rfl rfl⟩

/-- With a terminator, every client of an open server that has sent whole packets of clean bodies
has its bodies dispatched as sent, however its bytes were divided. -/
theorem received_terminated {rule : PacketRuleTerminate} (hempty : rule.receiveTempBuffer = [])
    {s : ProtocolTcpIpServer PacketRuleTerminate} {sent : List (List UInt8)}
    (h : Reachable (step PacketRuleTerminate.receiving) ⊤ { clone := rule } s)
    (hopen : s.isClosing = false) (hflag : (s.client i).bIsClosing = false)
    (hclean : ∀ body ∈ sent, rule.Clean body)
    (hsent : (s.client i).reads.flatten = sent.flatMap rule.makeSendPacket) :
    bodiesFrom i s.dispatched ++ (s.client i).stage.pending = sent := by
  have hall := AllReceived.reachable h
  obtain ⟨bodies, hreads, hbodies⟩ := (hall.received i).all hopen hflag
  rw [PacketRuleTerminate.receiveOver_eq (hall.nonempty i),
    PacketRuleTerminate.receiveAll_sent hclean hempty hsent] at hreads
  cases hreads
  exact hbodies

def twoPackets : List UInt8 := [7, 13, 10, 8, 13, 10]

theorem received_terminated_twice : ∃ s : ProtocolTcpIpServer PacketRuleTerminate,
    Reachable (step PacketRuleTerminate.receiving) ⊤ { clone := {} } s ∧
      (s.client 0).reads = [twoPackets] ∧
      bodiesFrom 0 s.dispatched ++ (s.client 0).stage.pending = [[7], [8]] := by
  obtain ⟨s, hrun, hopen, hclient⟩ := run_accepted PacketRuleTerminate.receiving {}
  have hpoll : (s.client 0).stage = .poll := by rw [hclient]
  have hflag : (s.client 0).bIsClosing = false := by rw [hclient]
  have ht := step_data (R := PacketRuleTerminate.receiving) hpoll hflag
    (show twoPackets ≠ [] by decide) rfl
  have hreads : ∀ f : TcpIpClient PacketRuleTerminate → TcpIpClient PacketRuleTerminate,
      (s.modifyClient 0 f).client 0 = f { packetRule := {}, stage := .poll } := by
    intro f
    rw [modifyClient_self, hclient]
  have hreach := Reachable.tail ⟨_, hrun⟩ trivial ht
  refine ⟨_, hreach, by rw [hreads]; rfl,
    received_terminated rfl hreach hopen (by rw [hreads]) ?_ (by rw [hreads]; rfl)⟩
  intro body hbody
  rcases List.mem_pair.mp hbody with rfl | rfl <;> exact fun j hj => by
    obtain rfl := Nat.lt_one_iff.mp hj
    decide

section Once

/-- What may be dispatched after what: no client is connected or disconnected twice, and no body
follows its end. -/
def Follows : Dispatched → Dispatched → Prop
  | .connected i, .connected j => i ≠ j
  | .disconnected i, .disconnected j => i ≠ j
  | .receiveData i _, .disconnected j => i ≠ j
  | _, _ => True

/-- A client that has been said to be connected is past that, and one that has been said to be
disconnected has ended. -/
structure Ordered (s : ProtocolTcpIpServer σ) : Prop where

  pairwise : s.dispatched.Pairwise Follows

  connecting : ∀ i, s.listenThread = .add i ∨ s.listenThread = .dispatchConnected i → i < s.clients

  connected : ∀ i, .connected i ∈ s.dispatched →
    i < s.clients ∧ s.listenThread ≠ .add i ∧ s.listenThread ≠ .dispatchConnected i

  disconnected : ∀ i, .disconnected i ∈ s.dispatched →
    i < s.clients ∧ (s.client i).stage = .done

namespace Ordered

theorem not_disconnected (h : Ordered s) (hne : (s.client i).stage ≠ .done) :
    .disconnected i ∉ s.dispatched :=
  fun hd => hne (h.disconnected i hd).2

theorem modifyClient (h : Ordered s) {f : TcpIpClient σ → TcpIpClient σ}
    (hdone : (s.client i).stage = .done → (f (s.client i)).stage = .done) :
    Ordered (s.modifyClient i f) := by
  refine ⟨h.pairwise, h.connecting, h.connected, fun j hj => ?_⟩
  obtain ⟨hborn, hstage⟩ := h.disconnected j hj
  refine ⟨hborn, ?_⟩
  rcases eq_or_ne j i with rfl | hne
  · rw [modifyClient_self]
    exact hdone hstage
  · rw [modifyClient_ne hne]
    exact hstage

theorem setStage (h : Ordered s) {stage : ClientStage}
    (hdone : (s.client i).stage = .done → stage = .done) : Ordered (s.setStage i stage) :=
  h.modifyClient hdone

theorem polls (h : Ordered s) (hh : Holds s) {result : PollResult} (hst : Polls R s i result s') :
    Ordered s' := by
  cases hst with
  | idle => exact h
  | stopped | unreported | missed => exact h.setStage fun _ => rfl
  | read hpoll => exact h.modifyClient fun hd => by cases hpoll.symm.trans hd
  | died hpoll | received hpoll | ignored hpoll | receiving hpoll | reported hpoll =>
    exact h.setStage fun hd => by cases hpoll.symm.trans hd
  | removed hremove =>
    have hs : Ordered (s.setStage i .dispatchDisconnected) := h.setStage fun hd => by
      cases hremove.symm.trans hd
    exact ⟨hs.pairwise, hs.connecting, hs.connected, hs.disconnected⟩
  | @dispatchedBody _ body rest hpoll =>
    have hd : Ordered (s.dispatch (.receiveData i body)) := by
      refine ⟨List.pairwise_cons.mpr ⟨fun d hd => ?_, h.pairwise⟩, h.connecting, fun j hj => ?_,
        fun j hj => ?_⟩
      · cases d with
        | connected | receiveData => trivial
        | disconnected j =>
          rintro rfl
          exact h.not_disconnected (by simp [hpoll]) hd
      · exact h.connected j ((List.mem_cons.mp hj).resolve_left nofun)
      · exact h.disconnected j ((List.mem_cons.mp hj).resolve_left nofun)
    exact hd.setStage fun hd => by cases hpoll.symm.trans hd
  | dispatched hpoll =>
    have hborn : i < s.clients := hh.lt_clients (by simp [hpoll])
    refine ⟨List.pairwise_cons.mpr ⟨fun d hd => ?_, h.pairwise⟩, h.connecting, fun j hj => ?_,
      fun j hj => ?_⟩
    · cases d with
      | connected | receiveData => trivial
      | disconnected j =>
        rintro rfl
        exact h.not_disconnected (by simp [hpoll]) hd
    · exact h.connected j ((List.mem_cons.mp hj).resolve_left nofun)
    · rcases eq_or_ne j i with rfl | hne
      · exact ⟨hborn, setStage_stage⟩
      · rw [setStage_ne hne]
        exact h.disconnected j ((List.mem_cons.mp hj).resolve_left fun heq =>
          hne (Dispatched.disconnected.inj heq))

theorem setListen (h : Ordered s) {l : ListenStage}
    (hl : ∀ i, l ≠ .add i ∧ l ≠ .dispatchConnected i) : Ordered { s with listenThread := l } :=
  ⟨h.pairwise, fun i hi => (hi.elim (hl i).1 (hl i).2).elim,
    fun i hi => ⟨(h.connected i hi).1, hl i⟩, h.disconnected⟩

theorem dispatch_connected (h : Ordered s) (hl : s.listenThread = .dispatchConnected i) :
    Ordered { s.dispatch (.connected i) with listenThread := .onListen } := by
  refine ⟨List.pairwise_cons.mpr ⟨fun d hd => ?_, h.pairwise⟩, by simp, fun j hj => ?_,
    fun j hj => h.disconnected j ((List.mem_cons.mp hj).resolve_left nofun)⟩
  · cases d with
    | disconnected | receiveData => trivial
    | connected j =>
      rintro rfl
      exact (h.connected i hd).2.2 hl
  · refine ⟨?_, nofun, nofun⟩
    rcases List.mem_cons.mp hj with heq | hj
    · obtain rfl := Dispatched.connected.inj heq
      exact h.connecting j (.inr hl)
    · exact (h.connected j hj).1

theorem listens (h : Ordered s) {pending : Bool} (hst : Listens s pending s') : Ordered s' := by
  cases hst with
  | looked => exact h.setListen fun i => by cases s.isClosing <;> simp
  | waited => exact h.setListen fun _ => ⟨nofun, nofun⟩
  | accepted =>
    refine ⟨h.pairwise, fun i hi => ?_, fun i hi => ?_, fun i hi => ?_⟩
    · rcases hi with ⟨⟨⟩⟩ | ⟨⟨⟩⟩
      exact Nat.lt_succ_self _
    · have hborn := (h.connected i hi).1
      refine ⟨Nat.lt_succ_of_lt hborn, fun heq => ?_, nofun⟩
      exact hborn.ne (ListenStage.add.inj heq).symm
    · obtain ⟨hborn, hdone⟩ := h.disconnected i hi
      rw [accept_client_ne hborn.ne]
      exact ⟨Nat.lt_succ_of_lt hborn, hdone⟩
  | @added _ i hl =>
    refine ⟨h.pairwise, fun j hj => ?_, fun j hj => ?_, h.disconnected⟩
    · rcases hj with ⟨⟨⟩⟩ | ⟨⟨⟩⟩
      exact h.connecting i (.inl hl)
    · obtain ⟨hborn, hadd, -⟩ := h.connected j hj
      refine ⟨hborn, nofun, fun heq => hadd ?_⟩
      rw [hl, ListenStage.dispatchConnected.inj heq]
  | dispatched hl => exact h.dispatch_connected hl

theorem closes (h : Ordered s) (hh : Holds s) {bound : Bool} (hst : Closes s bound s') :
    Ordered s' := by
  cases hst with
  | took | joined | skipped => exact ⟨h.pairwise, h.connecting, h.connected, h.disconnected⟩
  | closing =>
    exact ⟨h.pairwise, h.connecting, h.connected,
      fun j hj => (h.disconnected j hj).imp_right tell_stage.trans⟩
  | closed hc =>
    have hl := (hh.past_listening (by simp [hc]) (by simp [hc])).1
    cases hs : s.starting with
    | true =>
      rw [closed_of_starting hs]
      have hset := h.setListen (l := if bound then .onListen else .done)
        fun i => by cases bound <;> simp
      exact ⟨hset.pairwise, hset.connecting, hset.connected, hset.disconnected⟩
    | false =>
      rw [closed_of_not_starting hs]
      exact ⟨h.pairwise, h.connecting, h.connected, h.disconnected⟩

theorem step (h : Ordered s) (hh : Holds s) (hst : Transition R s e s') : Ordered s' := by
  cases hst with
  | start | close => exact ⟨h.pairwise, h.connecting, h.connected, h.disconnected⟩
  | closeNext hst => exact h.closes hh hst
  | onListen hst => exact h.listens hst
  | receivedData hst => exact h.polls hh hst

end Ordered

/-- In whatever order the threads run, the server says of no client twice that it is connected or
disconnected, and hands on no body of a client after it has said that it is disconnected. -/
theorem dispatched_in_order {clone : σ} (h : Reachable (step R) ⊤ { clone := clone } s) :
    s.dispatched.Pairwise Follows :=
  (h.invariant (I := fun s => Holds s ∧ Ordered s)
    ⟨Holds.initial clone, List.Pairwise.nil, by simp, nofun, nofun⟩ fun _ _ _ hs _ hst =>
      ⟨hs.1.step (transition_of_step hst), hs.2.step hs.1 (transition_of_step hst)⟩).2.pairwise

def cameAndWent : List Event :=
  [.start, .closeNext true, .closeNext true, .onListen true, .onListen true, .onListen true,
    .onListen true, .receivedData 0 .died, .receivedData 0 .idle, .receivedData 0 .idle,
    .receivedData 0 .idle]

theorem dispatched_in_order_cameAndWent : ∃ s : ProtocolTcpIpServer Unit,
    s.dispatched = [.disconnected 0, .connected 0] ∧ s.dispatched.Pairwise Follows := by
  have hrun : Run (step packetRuleNodivision.toPacketRule) ⊤ { clone := () } cameAndWent _ :=
    .cons trivial rfl (.cons trivial rfl (.cons trivial rfl (.cons trivial rfl
      (.cons trivial rfl (.cons trivial rfl (.cons trivial rfl (.cons trivial rfl
        (.cons trivial rfl (.cons trivial rfl (.cons trivial rfl (.nil _)))))))))))
  exact ⟨_, rfl, dispatched_in_order ⟨_, hrun⟩⟩

end Once

end ProtocolTcpIpServer

end DtProject
