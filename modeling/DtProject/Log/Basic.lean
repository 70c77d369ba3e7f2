import DtProject.Numeric.Bits
import DtProject.Packet.Rules
import DtProject.Reactive.Run

/-! # Logging packets and replaying them

`UProtocolLogWriter` appends each packet to a file, after the milliseconds since
its start and the size. The polling thread of `UProtocolLogReader` reads the
records back and hands each one to its packet rule when as many milliseconds
have passed since its own start. The thread ends where the file has no further
record, and then reports the end of the connection.
-/

namespace DtProject

open Numeric

/-- Spans of time, in ticks and as doubles. -/
structure Clock where
  totalMilliseconds : ℤ → Bits64
  fromMilliseconds : Bits64 → ℤ

/-- The writer, with the file as written so far and the bodies logged, newest first. -/
structure ProtocolLogWriter (σ : Type*) where
  packetRule : σ
  isOpen : Bool := false
  startTime : ℤ := 0
  file : List UInt8 := []
  logged : List (Bits64 × List UInt8) := []

namespace ProtocolLogWriter

def record (time : Bits64) (dataBuffer : List UInt8) : List UInt8 :=
  time.toBytes ++ (Bytes.toLE 4 dataBuffer.length ++ dataBuffer)

inductive Event where
  | start (now : ℤ) (opened : Bool)
  | send (now : ℤ) (dataBuffer : List UInt8)
  | close

variable {σ : Type*} (clock : Clock) (R : DuplexRule σ) (w : ProtocolLogWriter σ)

/-- `Start`: an earlier file of that name is overwritten. -/
def start (now : ℤ) (opened : Bool) : ProtocolLogWriter σ :=
  if opened then { w with isOpen := true, startTime := now, file := [], logged := [] }
  else { w with isOpen := false }

def requestSend (now : ℤ) (body dataBuffer : List UInt8) : ProtocolLogWriter σ :=
  if w.isOpen then
    let time := clock.totalMilliseconds (now - w.startTime)
    { w with
      file := w.file ++ record time dataBuffer
      logged := (time, body) :: w.logged }
  else w

def send (now : ℤ) (dataBuffer : List UInt8) : ProtocolLogWriter σ :=
  w.requestSend clock now dataBuffer (R.makeSendPacket w.packetRule dataBuffer)

def close : ProtocolLogWriter σ := { w with isOpen := false }

def step : Event → Option (ProtocolLogWriter σ)
  | .start now opened => some (w.start now opened)
  | .send now dataBuffer => some (w.send clock R now dataBuffer)
  | .close => some w.close

end ProtocolLogWriter

namespace PacketRule

variable {σ : Type*} (R : PacketRule σ)

/-- The inner loop of `ReadData`, without a check against the bytes left: it is `none` where the
rule wants more of them, or a negative number. -/
def receiveRead (rule : σ) (readBuffer : List UInt8) : Option (List (List UInt8) × σ) :=
  if _hread : readBuffer = [] then some ([], rule)
  else
    let receiveSize := R.receiveSize rule readBuffer
    if _hsize : R.getWantSize rule < 0 ∨ readBuffer.length < receiveSize then none
    else
      let r := R.notifyReceiveData rule (readBuffer.take receiveSize)
      (receiveRead r.2 (readBuffer.drop receiveSize)).map fun t => (r.1 ++ t.1, t.2)
termination_by readBuffer.length
decreasing_by
  have hpos := R.receiveSize_pos _hread (not_lt.mp (not_or.mp _hsize).1)
  have := List.length_pos_iff.mpr _hread
  rw [List.length_drop]
  omega

variable {R} {rule rule' : σ} {buffer : List UInt8} {bodies : List (List UInt8)}

@[simp] theorem receiveRead_nil : R.receiveRead rule [] = some ([], rule) := by
  rw [receiveRead, dif_pos rfl]

/-- Where the receive loop of the sockets leaves nothing, so does this loop. -/
theorem receiveRead_eq (h : R.receiveLoop rule buffer = some (bodies, rule', [])) :
    R.receiveRead rule buffer = some (bodies, rule') := by
  induction hn : buffer.length using Nat.strongRecOn generalizing rule buffer bodies with
  | ind m ih =>
    subst hn
    rcases eq_or_ne buffer [] with rfl | hne
    · rw [receiveLoop_nil] at h
      cases h
      exact receiveRead_nil
    · have hpos := List.length_pos_iff.mpr hne
      rcases lt_or_ge (R.getWantSize rule) 0 with hneg | hwant
      · rw [receiveLoop_neg hne hneg] at h
        cases h
      · rcases lt_or_ge (buffer.length : ℤ) (R.getWantSize rule) with hlt | hle
        · rw [receiveLoop_short hlt] at h
          cases h
          exact absurd rfl hne
        · have hround := receiveSize_pos hne hwant
          have hfit := receiveSize_le hle
          rw [receiveLoop_round hne hwant hle] at h
          obtain ⟨⟨bodies₁, t⟩, ht, heq⟩ := Option.map_eq_some_iff.mp h
          cases heq
          have hdrop : (buffer.drop (R.receiveSize rule buffer)).length < buffer.length := by
            rw [List.length_drop]
            omega
          rw [receiveRead, dif_neg hne]
          dsimp only
          rw [dif_neg (by omega), ih _ hdrop ht rfl]
          rfl

end PacketRule

/-- The reader after `Start`, with the file from its position on and the bodies handed on, newest
first. -/
structure ProtocolLogReader (σ : Type*) where
  cutFirstInterval : Bool
  packetRule : σ
  reader : List UInt8
  startTime : ℤ
  currentLogTime : Bits64 := .minusOne
  readBuffer : List UInt8 := []
  isFirst : Bool := true
  running : Bool := true
  bodies : List (List UInt8) := []

namespace ProtocolLogReader

variable {σ : Type*} (clock : Clock) (R : PacketRule σ) (r : ProtocolLogReader σ)

def start (cutFirstInterval : Bool) (packetRule : σ) (file : List UInt8) (now : ℤ) :
    ProtocolLogReader σ where
  cutFirstInterval := cutFirstInterval
  packetRule := packetRule
  reader := file
  startTime := now

def pending : Bool := Bits64.zero.le r.currentLogTime

def early (now : ℤ) : Bool :=
  (clock.totalMilliseconds (now - r.startTime)).lt r.currentLogTime

def readInt32 (bs : List UInt8) : ℤ := Int.bmod (Bytes.ofLE bs) (2 ^ 32)

/-- Read the next record. The thread ends where the file is too short for it. -/
def readNext : Option (ProtocolLogReader σ) :=
  if r.reader.length < 8 then some { r with running := false }
  else
    let time := Bits64.ofBytes (r.reader.take 8)
    let r :=
      { r with
        currentLogTime := time
        startTime :=
          if r.isFirst && r.cutFirstInterval then r.startTime - clock.fromMilliseconds time
          else r.startTime
        isFirst := false
        reader := r.reader.drop 8 }
    if r.reader.length < 4 then some { r with running := false }
    else
      let bufferSize := readInt32 (r.reader.take 4)
      let r := { r with reader := r.reader.drop 4 }
      if r.reader.length < bufferSize then some { r with running := false }
      else if bufferSize < 0 then none
      else
        some
          { r with
            readBuffer := r.reader.take bufferSize.toNat
            reader := r.reader.drop bufferSize.toNat }

def handOn : Option (ProtocolLogReader σ) :=
  (R.receiveRead r.packetRule r.readBuffer).map fun t =>
    { r with
      packetRule := t.2
      bodies := t.1.reverse ++ r.bodies
      currentLogTime := .minusOne }

/-- One round of the loop of `ReadData`. Its `break` and its `return true` come back to the loop
after a pause, at the same state. -/
def readData (now : ℤ) : Option (ProtocolLogReader σ) :=
  if r.pending then
    if r.early clock now then some r
    else
      let wantSize := R.getWantSize r.packetRule
      if 0 < wantSize ∧ r.readBuffer.length < wantSize then some r
      else (r.handOn R).bind (readNext clock)
  else if r.reader = [] then some r
  else r.readNext clock

/-- The polling thread, at the time that its clock shows. -/
def step (now : ℤ) : Option (ProtocolLogReader σ) :=
  if r.running then r.readData clock R now else some r

end ProtocolLogReader

end DtProject
