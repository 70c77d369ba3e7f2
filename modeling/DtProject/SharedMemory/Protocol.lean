import Mathlib.Logic.Function.Basic
import DtProject.Bytes.Layout
import DtProject.Packet.Rules
import DtProject.Reactive.Run

/-! # Processes that share a memory

`UProtocolSharedMemory` maps a named memory: a counter, the size of a packet, and
the packet. A sender advances its own counter and copies counter, size and packet
into the memory. The polling thread of a receiver copies the packet out when the
counter is not its own. Both copies are made under a named mutex, so each is one
step.
-/

namespace DtProject

/-- The protocol object of one process, with the packets copied out of the memory and the bodies
handed on, newest first. -/
structure ProtocolSharedMemory (σ : Type*) where
  packetRule : σ
  mapped : Bool := false
  bIsClosing : Bool := false
  nowCounter : UInt8 := 0
  packets : List (List UInt8) := []
  bodies : List (List UInt8) := []

def ProtocolSharedMemory.isOpen {σ : Type*} (p : ProtocolSharedMemory σ) : Bool :=
  p.mapped && !p.bIsClosing

/-- A packet in the memory, the body it was made of and the process that sent it. -/
structure Written (ι : Type*) where
  process : ι
  body : List UInt8
  packet : List UInt8

/-- The memory and its processes, with the packets written so far, newest first. -/
structure SharedMemory (ι σ : Type*) where
  sharedMemorySize : ι → ℕ
  data : List UInt8
  process : ι → ProtocolSharedMemory σ
  written : List (Written ι) := []
  int32 : ∀ i, sharedMemorySize i < 2 ^ 31
  fits : ∀ i, (process i).mapped = true → 1 + 4 + sharedMemorySize i ≤ data.length

section Memory

def counterOf (data : List UInt8) : UInt8 := (Bytes.read data 0 1).headD 0

def packetSizeOf (data : List UInt8) : ℕ := Bytes.ofLE (Bytes.read data 1 4)

/-- The counter that a sender advances to; zero stands for a memory that was reset. -/
def nextCounter (nowCounter : UInt8) : UInt8 :=
  if nowCounter + 1 = 0 then 1 else nowCounter + 1

/-- What `RequestSend` copies into the memory. -/
def writePacket (nowCounter : UInt8) (dataBuffer data : List UInt8) : List UInt8 :=
  Bytes.write (Bytes.write (Bytes.write data 0 [nowCounter]) 1 (Bytes.toLE 4 dataBuffer.length))
    5 dataBuffer

/-- What `ReceivedData` copies out of the memory: its counter after that, and the packet, which is
empty where it copies none. -/
def copyPacket (sharedMemorySize : ℕ) (nowCounter : UInt8) (data : List UInt8) :
    UInt8 × List UInt8 :=
  let counter := counterOf data
  if counter = nowCounter then (nowCounter, [])
  else
    let size := packetSizeOf data
    if size = 0 ∨ sharedMemorySize < size then (counter, [])
    else (counter, Bytes.read data 5 (min sharedMemorySize size))

end Memory

namespace PacketRule

variable {σ : Type*} (R : PacketRule σ)

/-- The loop of `ReceivedData` over a packet. A negative size is too large as an unsigned one. -/
def receiveCopied (sharedMemorySize : ℕ) (rule : σ) (tempBuffer : List UInt8) :
    List (List UInt8) × σ :=
  if _htemp : tempBuffer = [] then ([], rule)
  else
    let receiveSize := R.receiveSize rule tempBuffer
    if _hsize : R.getWantSize rule < 0 ∨ tempBuffer.length < receiveSize ∨
        sharedMemorySize < receiveSize then ([], rule)
    else
      let r := R.notifyReceiveData rule (tempBuffer.take receiveSize)
      let t := receiveCopied sharedMemorySize r.2 (tempBuffer.drop receiveSize)
      (r.1 ++ t.1, t.2)
termination_by tempBuffer.length
decreasing_by
  have hpos := R.receiveSize_pos _htemp (not_lt.mp (not_or.mp _hsize).1)
  have := List.length_pos_iff.mpr _htemp
  rw [List.length_drop]
  omega

variable {R} {size : ℕ} {rule rule' : σ} {buffer rest : List UInt8} {bodies : List (List UInt8)}

theorem receiveCopied_short (hwant : 0 < R.getWantSize rule)
    (hlen : buffer.length < R.getWantSize rule) :
    R.receiveCopied size rule buffer = ([], rule) := by
  have hbig : buffer.length < R.receiveSize rule buffer := by
    unfold receiveSize
    split_ifs <;> omega
  rw [receiveCopied]
  split_ifs
  · rfl
  · exact dif_pos (Or.inr (Or.inl hbig))

end PacketRule

section Writing

variable {nowCounter : UInt8} {dataBuffer data : List UInt8} {n : ℕ}

theorem length_writeCounter (h : 1 ≤ data.length) :
    (Bytes.write data 0 [nowCounter]).length = data.length :=
  Bytes.length_write (by rw [List.length_singleton]; omega)

theorem length_writeSize (h : 1 + 4 ≤ data.length) :
    (Bytes.write (Bytes.write data 0 [nowCounter]) 1 (Bytes.toLE 4 n)).length = data.length := by
  have hcounter : (Bytes.write data 0 [nowCounter]).length = data.length :=
    length_writeCounter (by omega)
  rw [Bytes.length_write (by rw [Bytes.length_toLE]; omega), hcounter]

theorem length_writePacket (h : 1 + 4 + dataBuffer.length ≤ data.length) :
    (writePacket nowCounter dataBuffer data).length = data.length := by
  have hsize : (Bytes.write (Bytes.write data 0 [nowCounter]) 1
      (Bytes.toLE 4 dataBuffer.length)).length = data.length := length_writeSize (by omega)
  rw [writePacket, Bytes.length_write (by omega), hsize]

end Writing

namespace SharedMemory

variable {ι σ : Type*} [DecidableEq ι] (w : SharedMemory ι σ)

/-- Change the memory and one process, which maps what fits. -/
def update (i : ι) (p : ProtocolSharedMemory σ) (data : List UInt8)
    (hlen : data.length = w.data.length)
    (hp : p.mapped = true → 1 + 4 + w.sharedMemorySize i ≤ w.data.length) : SharedMemory ι σ where
  sharedMemorySize := w.sharedMemorySize
  data := data
  process := Function.update w.process i p
  written := w.written
  int32 := w.int32
  fits := by
    intro j hj
    rw [hlen]
    rcases eq_or_ne j i with rfl | hne
    · rw [Function.update_self] at hj
      exact hp hj
    · rw [Function.update_of_ne hne] at hj
      exact w.fits j hj

def setProcess (i : ι) (p : ProtocolSharedMemory σ)
    (hp : p.mapped = true → 1 + 4 + w.sharedMemorySize i ≤ w.data.length) : SharedMemory ι σ :=
  w.update i p w.data rfl hp

/-- `Start`: map the memory and reset it, unless the system refuses. -/
def start (i : ι) (granted : Bool) : SharedMemory ι σ :=
  let p := w.process i
  if h : granted = true ∧ 1 + 4 + w.sharedMemorySize i ≤ w.data.length then
    w.update i { p with mapped := true, bIsClosing := false, nowCounter := 0 }
      (Bytes.write w.data 0 (List.replicate (1 + 4 + w.sharedMemorySize i) 0))
      (Bytes.length_write (by rw [List.length_replicate]; omega)) (fun _ => h.2)
  else w.setProcess i { p with mapped := false } (by simp)

def close (i : ι) : SharedMemory ι σ :=
  let p := w.process i
  if p.bIsClosing then w
  else w.setProcess i { p with bIsClosing := true, mapped := false } (by simp)

def accepts (i : ι) (dataBuffer : List UInt8) : Bool :=
  (w.process i).isOpen && dataBuffer.length ≤ w.sharedMemorySize i

omit [DecidableEq ι] in
theorem accepts_fits {i : ι} {dataBuffer : List UInt8} (h : w.accepts i dataBuffer = true) :
    1 + 4 + w.sharedMemorySize i ≤ w.data.length ∧ dataBuffer.length ≤ w.sharedMemorySize i := by
  simp only [accepts, ProtocolSharedMemory.isOpen, Bool.and_eq_true, decide_eq_true_eq] at h
  exact ⟨w.fits i h.1.1, h.2⟩

def requestSend (i : ι) (body dataBuffer : List UInt8) : SharedMemory ι σ :=
  let p := w.process i
  if h : w.accepts i dataBuffer = true then
    have hfits := w.accepts_fits h
    let nowCounter := nextCounter p.nowCounter
    { w.update i { p with nowCounter := nowCounter } (writePacket nowCounter dataBuffer w.data)
        (length_writePacket (by omega)) (fun _ => hfits.1) with
      written := ⟨i, body, dataBuffer⟩ :: w.written }
  else w

def send (R : DuplexRule σ) (i : ι) (dataBuffer : List UInt8) : SharedMemory ι σ :=
  if (w.process i).mapped then
    w.requestSend i dataBuffer (R.makeSendPacket (w.process i).packetRule dataBuffer)
  else w

def receivedData (R : DuplexRule σ) (i : ι) : SharedMemory ι σ :=
  let p := w.process i
  if p.isOpen then
    let c := copyPacket (w.sharedMemorySize i) p.nowCounter w.data
    if c.2 = [] then w.setProcess i { p with nowCounter := c.1 } (w.fits i)
    else
      let wantSize := R.getWantSize p.packetRule
      if 0 < wantSize ∧ c.2.length < wantSize then
        w.setProcess i { p with nowCounter := c.1, packets := c.2 :: p.packets } (w.fits i)
      else
        let r := R.receiveCopied (w.sharedMemorySize i) p.packetRule c.2
        w.setProcess i
          { p with
            nowCounter := c.1
            packetRule := r.2
            packets := c.2 :: p.packets
            bodies := r.1.reverse ++ p.bodies } (w.fits i)
  else w

inductive Event (ι : Type*) where
  | start (i : ι) (granted : Bool)
  | close (i : ι)
  | send (i : ι) (dataBuffer : List UInt8)
  | poll (i : ι)

def step (R : DuplexRule σ) (w : SharedMemory ι σ) : Event ι → Option (SharedMemory ι σ)
  | .start i granted => some (w.start i granted)
  | .close i => some (w.close i)
  | .send i dataBuffer => some (w.send R i dataBuffer)
  | .poll i => some (w.receivedData R i)

omit [DecidableEq ι] in
def initial (sharedMemorySize : ι → ℕ) (int32 : ∀ i, sharedMemorySize i < 2 ^ 31)
    (totalSize : ℕ) (packetRule : ι → σ) : SharedMemory ι σ where
  sharedMemorySize := sharedMemorySize
  data := List.replicate totalSize 0
  process i := { packetRule := packetRule i }
  int32 := int32
  fits := by simp

end SharedMemory

end DtProject
