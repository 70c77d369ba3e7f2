import DtProject.GrowBuffer.Receive
import DtProject.Packet.SizeBody
import DtProject.Reactive.Run

/-! # Datagrams of several senders

`UProtocolUdpSocketReceiver` keeps a socket object for each sender, with a clone of
the packet rule and a buffer of its own. Whatever the order in which datagrams of
different senders come in, each sender's bodies are those of its own datagrams.
-/

namespace DtProject

open Reactive

structure Datagram (ι : Type*) extends SocketRead where
  sender : ι

structure ProtocolUdpSocket (σ : Type*) where
  packetRule : σ
  receiveBuffer : ODGrowBuffer := .new

/-- The receiver, with what `Clone` gives of its packet rule and the bodies received from each
sender, newest first. -/
structure ProtocolUdpSocketReceiver (ι σ : Type*) where
  clone : σ
  receiveBuffer : ODGrowBuffer := .new
  connectedSockets : ι → Option (ProtocolUdpSocket σ) := fun _ => none
  received : List (ι × List UInt8) := []

namespace ProtocolUdpSocketReceiver

variable {ι σ : Type*} [DecidableEq ι] (R : PacketRule σ)

/-- The socket object of a sender, which a first datagram creates. -/
def socketOf (s : ProtocolUdpSocketReceiver ι σ) (ip : ι) : ProtocolUdpSocket σ :=
  (s.connectedSockets ip).getD { packetRule := s.clone }

def receivedData (s : ProtocolUdpSocketReceiver ι σ) (d : Datagram ι) :
    Option (ProtocolUdpSocketReceiver ι σ) :=
  let buffer := s.receiveBuffer.receive d.toSocketRead
  if buffer.getLength = 0 then some { s with receiveBuffer := buffer }
  else
    let socket := s.socketOf d.sender
    (R.drain socket.packetRule (socket.receiveBuffer.add buffer.content)).map fun r =>
      { s with
        receiveBuffer := buffer.clear
        connectedSockets := Function.update s.connectedSockets d.sender (some ⟨r.2.1, r.2.2⟩)
        received := (r.1.map fun body => (d.sender, body)).reverse ++ s.received }

/-- The data of a sender's datagrams. Empty ones are skipped. -/
def dataFrom (ip : ι) (ds : List (Datagram ι)) : List (List UInt8) :=
  ds.filterMap fun d => if d.sender = ip ∧ d.data ≠ [] then some d.data else none

def bodiesFrom (s : ProtocolUdpSocketReceiver ι σ) (ip : ι) : List (List UInt8) :=
  s.received.reverse.filterMap fun e => if e.1 = ip then some e.2 else none

variable {R} {s s' : ProtocolUdpSocketReceiver ι σ} {d : Datagram ι} {ds : List (Datagram ι)}
  {ip : ι}

theorem dataFrom_cons :
    dataFrom ip (d :: ds) =
      if d.sender = ip ∧ d.data ≠ [] then d.data :: dataFrom ip ds else dataFrom ip ds := by
  unfold dataFrom
  split_ifs with h
  · exact List.filterMap_cons_some (if_pos h)
  · exact List.filterMap_cons_none (if_neg h)

omit [DecidableEq ι] in
theorem getLength_receive : (s.receiveBuffer.receive d.toSocketRead).getLength = 0 ↔
    d.data = [] := List.length_eq_zero_iff

theorem receivedData_empty (h : d.data = []) :
    receivedData R s d =
      some { s with receiveBuffer := s.receiveBuffer.receive d.toSocketRead } :=
  if_pos (getLength_receive.mpr h)

/-- A datagram is handed to the socket object of its sender. -/
theorem receivedData_eq (h : d.data ≠ []) :
    receivedData R s d =
      (R.drain (s.socketOf d.sender).packetRule
        ((s.socketOf d.sender).receiveBuffer.add d.data)).map fun r =>
          { s with
            receiveBuffer := (s.receiveBuffer.receive d.toSocketRead).clear
            connectedSockets := Function.update s.connectedSockets d.sender (some ⟨r.2.1, r.2.2⟩)
            received := (r.1.map fun body => (d.sender, body)).reverse ++ s.received } := by
  rw [receivedData]
  dsimp only
  rw [if_neg fun hlen => h (getLength_receive.mp hlen), ODGrowBuffer.content_receive]

/-- The bodies that a sender's own datagrams give, from where its socket object stands. -/
def kept (R : PacketRule σ) (s : ProtocolUdpSocketReceiver ι σ) (ip : ι)
    (datas : List (List UInt8)) : Option (List (List UInt8) × σ × List UInt8) :=
  R.receiveKept (s.socketOf ip).packetRule (s.socketOf ip).receiveBuffer.content datas

section Step

/-- What a datagram does for each sender: its own gets what it gives, and the others nothing. -/
theorem kept_step (hst : receivedData R s d = some s') (ip : ι) :
    ∃ new, s'.bodiesFrom ip = s.bodiesFrom ip ++ new ∧ ∀ ds,
      kept R s ip (dataFrom ip (d :: ds)) =
        (kept R s' ip (dataFrom ip ds)).map fun t => (new ++ t.1, t.2) := by
  by_cases hdata : d.data = []
  · rw [receivedData_empty hdata] at hst
    cases hst
    refine ⟨[], (List.append_nil _).symm, fun ds => ?_⟩
    rw [dataFrom_cons, if_neg fun h => h.2 hdata]
    exact Option.map_id'.symm
  · rw [receivedData_eq hdata] at hst
    obtain ⟨r, hr, rfl⟩ := Option.map_eq_some_iff.mp hst
    by_cases hip : d.sender = ip
    · subst hip
      refine ⟨r.1, ?_, fun ds => ?_⟩
      · simp [bodiesFrom, List.filterMap_map]
      · have hloop := (PacketRule.drain_eq (R := R) (s.socketOf d.sender).packetRule
          ((s.socketOf d.sender).receiveBuffer.add d.data)).1
        rw [hr, Option.map_some, ODGrowBuffer.content_add] at hloop
        rw [dataFrom_cons, if_pos ⟨rfl, hdata⟩, kept, PacketRule.receiveKept, ← hloop,
          Option.bind_some]
        simp only [kept, socketOf, Function.update_self, Option.getD_some]
    · refine ⟨[], ?_, fun ds => ?_⟩
      · simp [bodiesFrom, List.filterMap_map, hip]
      · rw [dataFrom_cons, if_neg fun h => hip h.1]
        simp only [kept, socketOf, Function.update_of_ne (Ne.symm hip), List.nil_append]
        exact Option.map_id'.symm

theorem kept_run (h : Run (receivedData R) ⊤ s ds s') (ip : ι) :
    ∃ t, kept R s ip (dataFrom ip ds) = some t ∧ s'.bodiesFrom ip = s.bodiesFrom ip ++ t.1 := by
  induction h with
  | nil s => exact ⟨_, rfl, (List.append_nil _).symm⟩
  | @cons s s₁ s' d ds _ hst _ ih =>
    obtain ⟨new, hnew, hkept⟩ := kept_step hst ip
    obtain ⟨t, ht, hbodies⟩ := ih
    refine ⟨_, by rw [hkept, ht]; rfl, ?_⟩
    rw [hbodies, hnew, List.append_assoc]

theorem exists_run (h : ∀ ip, ∃ t, kept R s ip (dataFrom ip ds) = some t) :
    ∃ s', Run (receivedData R) ⊤ s ds s' := by
  induction ds generalizing s with
  | nil => exact ⟨s, .nil s⟩
  | cons d ds ih =>
    have hstep : ∃ s₁, receivedData R s d = some s₁ := by
      by_cases hdata : d.data = []
      · exact ⟨_, receivedData_empty hdata⟩
      · obtain ⟨t, ht⟩ := h d.sender
        rw [dataFrom_cons, if_pos ⟨rfl, hdata⟩, kept, PacketRule.receiveKept] at ht
        obtain ⟨r, hr, -⟩ := Option.bind_eq_some_iff.mp ht
        have hloop := (PacketRule.drain_eq (R := R) (s.socketOf d.sender).packetRule
          ((s.socketOf d.sender).receiveBuffer.add d.data)).1
        rw [ODGrowBuffer.content_add, hr] at hloop
        obtain ⟨r', hr', -⟩ := Option.map_eq_some_iff.mp hloop
        exact ⟨_, by rw [receivedData_eq hdata, hr']; rfl⟩
    obtain ⟨s₁, hs₁⟩ := hstep
    obtain ⟨s', hs'⟩ := ih (s := s₁) fun ip => by
      obtain ⟨t, ht⟩ := h ip
      obtain ⟨new, -, hkept⟩ := kept_step hs₁ ip
      rw [hkept] at ht
      obtain ⟨t', ht', -⟩ := Option.map_eq_some_iff.mp ht
      exact ⟨t', ht'⟩
    exact ⟨s', .cons trivial hs₁ hs'⟩

end Step

/-- The receiver goes through some datagrams precisely if the packet rule goes through those of
each sender, and then has received from each what its own datagrams give. -/
theorem received_demultiplexed {clone : σ} :
    ((∃ s', Run (receivedData R) ⊤ { clone := clone } ds s') ↔
      ∀ ip : ι, ∃ t, R.receiveKept clone [] (dataFrom ip ds) = some t) ∧
    ∀ s', Run (receivedData R) ⊤ { clone := clone } ds s' → ∀ ip : ι,
      (R.receiveKept clone [] (dataFrom ip ds)).map Prod.fst = some (s'.bodiesFrom ip) := by
  refine ⟨⟨?_, fun h => exists_run (s := { clone := clone }) h⟩, ?_⟩
  · rintro ⟨s', hs'⟩ ip
    obtain ⟨t, ht, -⟩ := kept_run hs' ip
    exact ⟨t, ht⟩
  · intro s' hs' ip
    obtain ⟨t, ht, hbodies⟩ := kept_run hs' ip
    have hkept : R.receiveKept clone [] (dataFrom ip ds) = some t := ht
    rw [hkept, hbodies]
    rfl

end ProtocolUdpSocketReceiver

end DtProject
