import DtProject.Bytes.Layout
import DtProject.Packet.Receive

/-! # The growing receive buffer

`ODGrowBuffer` keeps the bytes received in an array that only grows, by whole
packet sizes, with a length of its own. The sockets append what they read, or read
over what is left, and remove what they have handed on from the start. On its
content the receive loop over the buffer is the receive loop over a list.
-/

namespace DtProject

/-- What a socket reads, after the system has announced a size. -/
structure SocketRead where
  size : ℕ
  data : List UInt8
  le : data.length ≤ size

/-- The buffer. Its length never passes its array. -/
structure ODGrowBuffer where
  packetSize : ℕ
  innerBuffer : List UInt8
  currentSize : ℕ
  packetSize_pos : 0 < packetSize
  fits : currentSize ≤ innerBuffer.length

namespace ODGrowBuffer

def new (initialSize : ℕ := 1024) (packetSize : ℕ := 1024) (hpos : 0 < packetSize := by decide) :
    ODGrowBuffer where
  packetSize := packetSize
  innerBuffer := List.replicate initialSize 0
  currentSize := 0
  packetSize_pos := hpos
  fits := Nat.zero_le _

variable (b : ODGrowBuffer)

abbrev getLength : ℕ := b.currentSize

def getInnerBufferSize : ℕ := b.innerBuffer.length

def asSpan (position length : ℕ) : List UInt8 := Bytes.read b.innerBuffer position length

def content : List UInt8 := b.asSpan 0 b.getLength

/-- `SetNum` of an array, which fills up with zeros. -/
def setNum (array : List UInt8) (n : ℕ) : List UInt8 :=
  array.take n ++ List.replicate (n - array.length) 0

def packetCount (newSize : ℕ) : ℕ :=
  newSize / b.packetSize + if newSize % b.packetSize = 0 then 0 else 1

def grown (newSize : ℕ) : List UInt8 :=
  if b.innerBuffer.length < newSize then
    setNum b.innerBuffer (b.packetSize * b.packetCount newSize)
  else b.innerBuffer

theorem length_setNum {array : List UInt8} {n : ℕ} : (setNum array n).length = n := by
  rw [setNum, List.length_append, List.length_take, List.length_replicate]
  omega

theorem le_packets (newSize : ℕ) : newSize ≤ b.packetSize * b.packetCount newSize := by
  have hdiv := Nat.div_add_mod newSize b.packetSize
  have hmod := Nat.mod_lt newSize b.packetSize_pos
  unfold packetCount
  split_ifs
  · rw [Nat.add_zero]
    omega
  · rw [Nat.mul_add, Nat.mul_one]
    omega

theorem packets_lt (newSize : ℕ) :
    b.packetSize * b.packetCount newSize < newSize + b.packetSize := by
  have hdiv := Nat.div_add_mod newSize b.packetSize
  have hpos := b.packetSize_pos
  unfold packetCount
  split_ifs
  · rw [Nat.add_zero]
    omega
  · rw [Nat.mul_add, Nat.mul_one]
    omega

theorem le_length_grown (newSize : ℕ) : newSize ≤ (b.grown newSize).length := by
  unfold grown
  split_ifs with h
  · rw [length_setNum]
    exact b.le_packets newSize
  · exact Nat.not_lt.mp h

def setLength (newSize : ℕ) : ODGrowBuffer where
  packetSize := b.packetSize
  innerBuffer := b.grown newSize
  currentSize := newSize
  packetSize_pos := b.packetSize_pos
  fits := b.le_length_grown newSize

def copyInto (position : ℕ) (xs : List UInt8) (h : position + xs.length ≤ b.innerBuffer.length) :
    ODGrowBuffer where
  packetSize := b.packetSize
  innerBuffer := Bytes.write b.innerBuffer position xs
  currentSize := b.currentSize
  packetSize_pos := b.packetSize_pos
  fits := by rw [Bytes.length_write h]; exact b.fits

def add (addBuffer : List UInt8) : ODGrowBuffer :=
  (b.setLength (b.getLength + addBuffer.length)).copyInto b.getLength addBuffer
    (b.le_length_grown _)

def copyFrom (fromBuffer : List UInt8) (myOffset : ℕ) : ODGrowBuffer :=
  let newSize := max b.getLength (fromBuffer.length + myOffset)
  (b.setLength newSize).copyInto myOffset fromBuffer (by
    have := b.le_length_grown newSize
    change _ ≤ (b.grown newSize).length
    omega)

/-- `RemoveRangeFromStart`. A range that ends beyond the length fails a check of the engine. -/
def removeRangeFromStart (start length : ℕ) : Option ODGrowBuffer :=
  if h : start + length ≤ b.getLength then
    let moveLength := b.getLength - (start + length)
    have hfits := b.fits
    some
      { packetSize := b.packetSize
        innerBuffer := Bytes.write b.innerBuffer start (b.asSpan (start + length) moveLength)
        currentSize := moveLength
        packetSize_pos := b.packetSize_pos
        fits := by
          have hspan : (b.asSpan (start + length) moveLength).length ≤ moveLength :=
            List.length_take_le ..
          change b.getLength ≤ b.innerBuffer.length at hfits
          rw [Bytes.length_write (by omega)]
          omega }
  else none

def clear : ODGrowBuffer :=
  { b with currentSize := 0, fits := Nat.zero_le _ }

/-- Data is read over the buffer, and the length set to what was read. -/
def receive (r : SocketRead) : ODGrowBuffer :=
  ((b.setLength r.size).copyInto 0 r.data (by
    have := b.le_length_grown r.size
    have := r.le
    change _ ≤ (b.grown r.size).length
    omega)).setLength r.data.length

/-- The array is as large as that of another buffer, and grows alike. -/
structure SameArray (b' b : ODGrowBuffer) : Prop where
  packetSize : b'.packetSize = b.packetSize
  innerBuffer : b'.getInnerBufferSize = b.getInnerBufferSize

theorem SameArray.trans {b₁ b₂ b₃ : ODGrowBuffer} (h : b₁.SameArray b₂) (h' : b₂.SameArray b₃) :
    b₁.SameArray b₃ :=
  ⟨h.packetSize.trans h'.packetSize, h.innerBuffer.trans h'.innerBuffer⟩

section Content

variable {b} {xs data : List UInt8} {n size start length : ℕ}

@[simp] theorem length_content : b.content.length = b.getLength := by
  rw [content, asSpan, Bytes.read, List.drop_zero, List.length_take]
  exact Nat.min_eq_left b.fits

theorem content_eq : b.content = b.innerBuffer.take b.currentSize := by
  rw [content, asSpan, Bytes.read, List.drop_zero]

theorem take_grown (hn : n ≤ b.innerBuffer.length) :
    (b.grown size).take n = b.innerBuffer.take n := by
  unfold grown
  split_ifs with h
  · have hle := b.le_packets size
    have hall : b.innerBuffer.take (b.packetSize * b.packetCount size) = b.innerBuffer :=
      List.take_of_length_le (by omega)
    rw [setNum, hall, List.take_append_of_le_length hn]
  · rfl

theorem content_setLength (hn : n ≤ b.getLength) : (b.setLength n).content = b.content.take n := by
  rw [content_eq, content_eq, List.take_take, min_eq_left hn]
  exact take_grown (Nat.le_trans hn b.fits)

theorem content_add : (b.add xs).content = b.content ++ xs := by
  have hgrown := b.le_length_grown (b.getLength + xs.length)
  have hcontent : (b.grown (b.getLength + xs.length)).take b.getLength = b.content := by
    rw [take_grown b.fits, content_eq]
  change (b.add xs).asSpan 0 (b.getLength + xs.length) = _
  rw [asSpan, Bytes.read, List.drop_zero]
  change (Bytes.write (b.grown (b.getLength + xs.length)) b.getLength xs).take _ = _
  rw [Bytes.write, hcontent, ← List.append_assoc]
  exact List.take_left' (by rw [List.length_append, length_content])

/-- Appending grows the array by less than one packet more than the content needs. -/
theorem add_innerBuffer_le {c : ℕ} (xs : List UInt8) (hb : b.getInnerBufferSize ≤ c)
    (hc : b.getLength + xs.length + b.packetSize ≤ c) : (b.add xs).getInnerBufferSize ≤ c := by
  have hgrown := b.le_length_grown (b.getLength + xs.length)
  have hlt := b.packets_lt (b.getLength + xs.length)
  change (Bytes.write (b.grown (b.getLength + xs.length)) b.getLength xs).length ≤ c
  rw [Bytes.length_write hgrown, grown]
  split_ifs
  · rw [length_setNum]
    omega
  · exact hb

theorem content_clear : b.clear.content = [] := by
  rw [content_eq]
  rfl

theorem content_receive (r : SocketRead) : (b.receive r).content = r.data := by
  have hle := b.le_length_grown r.size
  have hdata := r.le
  have hwrite : (Bytes.write (b.grown r.size) 0 r.data).take r.data.length = r.data := by
    rw [Bytes.write, List.take_zero, List.nil_append]
    exact List.take_left' rfl
  rw [content_eq]
  change ((ODGrowBuffer.grown _ r.data.length).take r.data.length) = r.data
  rw [take_grown]
  · exact hwrite
  · change r.data.length ≤ (Bytes.write (b.grown r.size) 0 r.data).length
    rw [Bytes.length_write (by omega)]
    omega

theorem asSpan_zero (hn : n ≤ b.getLength) : b.asSpan 0 n = b.content.take n := by
  rw [content_eq, asSpan, Bytes.read, List.drop_zero, List.take_take, min_eq_left hn]

theorem getLength_removeRange {b' : ODGrowBuffer}
    (h : b.removeRangeFromStart start length = some b') :
    b'.getLength = b.getLength - (start + length) := by
  unfold removeRangeFromStart at h
  split_ifs at h
  exact congrArg getLength (Option.some.inj h).symm

theorem content_removeRange (hlen : length ≤ b.getLength) :
    ∃ b', b.removeRangeFromStart 0 length = some b' ∧ b'.content = b.content.drop length ∧
      b'.SameArray b := by
  have hfits : b.getLength ≤ b.innerBuffer.length := b.fits
  have hspan : b.asSpan (0 + length) (b.getLength - (0 + length)) = b.content.drop length := by
    rw [content_eq, asSpan, Bytes.read, Nat.zero_add, List.drop_take]
  have hspanlen : (b.content.drop length).length = b.getLength - length := by
    rw [List.length_drop, length_content]
  refine ⟨_, dif_pos (by omega), ?_, ?_⟩
  · rw [content_eq]
    dsimp only
    rw [hspan, Bytes.write, List.take_zero, List.nil_append]
    exact List.take_left' (by rw [hspanlen, Nat.zero_add])
  · refine ⟨rfl, ?_⟩
    change (Bytes.write b.innerBuffer 0 _).length = b.innerBuffer.length
    rw [hspan, Bytes.length_write (by rw [hspanlen]; omega)]

end Content

end ODGrowBuffer

end DtProject
