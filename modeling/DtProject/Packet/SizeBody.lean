import Mathlib.Data.Nat.Bitwise
import DtProject.Packet.Receive

/-! # Packets with a size header

`UPacketRuleSizeBody` of ObjectDeliverer sends the size of a body in a header of
one to four bytes before it. Receiving alternates between the header and the
body. An empty body makes the rule want no bytes in particular, so it swallows
what follows; all other bodies arrive as sent, however the data is divided, where
the bytes left are kept.
-/

namespace DtProject

inductive ECNBufferEndian where
  | big
  | little

inductive EReceiveMode where
  | size
  | body

/-- The rule, with the size of the body it waits for. -/
structure PacketRuleSizeBody where
  sizeLength : ℕ := 4
  sizeBufferEndian : ECNBufferEndian := .big
  receiveMode : EReceiveMode := .size
  bodySize : ℕ := 0
  sizeLength_pos : 0 < sizeLength := by decide
  sizeLength_le : sizeLength ≤ 4 := by decide

namespace PacketRuleSizeBody

variable (rule : PacketRuleSizeBody)

def offset (i : ℕ) : ℕ :=
  match rule.sizeBufferEndian with
  | .big => 8 * (rule.sizeLength - i - 1)
  | .little => 8 * i

/-- The header that `MakeSendPacket` writes for a size. -/
def header (bodyBufferNum : ℕ) : List UInt8 :=
  (List.range rule.sizeLength).map fun i => UInt8.ofNat (bodyBufferNum >>> rule.offset i)

def makeSendPacket (bodyBuffer : List UInt8) : List UInt8 :=
  rule.header bodyBuffer.length ++ bodyBuffer

/-- The size that `OnReceivedSize` reads from a header, which the engine checks to be there. -/
def readSize (dataBuffer : List UInt8) : ℕ :=
  (List.range rule.sizeLength).foldl
    (fun bodySize i => bodySize ||| ((dataBuffer.getD i 0).toNat <<< rule.offset i)) 0

def onReceivedSize (dataBuffer : List UInt8) : List (List UInt8) × PacketRuleSizeBody :=
  ([], { rule with bodySize := rule.readSize dataBuffer, receiveMode := .body })

def onReceivedBody (dataBuffer : List UInt8) : List (List UInt8) × PacketRuleSizeBody :=
  ([dataBuffer], { rule with bodySize := 0, receiveMode := .size })

def notifyReceiveData (dataBuffer : List UInt8) : List (List UInt8) × PacketRuleSizeBody :=
  match rule.receiveMode with
  | .size => rule.onReceivedSize dataBuffer
  | .body => rule.onReceivedBody dataBuffer

/-- `GetWantSize`; a body size from `2 ^ 31` on turns negative. -/
def getWantSize : ℤ :=
  match rule.receiveMode with
  | .size => rule.sizeLength
  | .body => (rule.bodySize : ℤ).bmod (2 ^ 32)

/-- The header that a rule reads is there. -/
def inBounds (dataBuffer : List UInt8) : Bool :=
  match rule.receiveMode with
  | .size => rule.sizeLength ≤ dataBuffer.length
  | .body => true

def receiving : PacketRule PacketRuleSizeBody where
  getWantSize := getWantSize
  notifyReceiveData := notifyReceiveData
  inBounds := inBounds

theorem inBounds_of_want {dataBuffer : List UInt8}
    (hwant : (dataBuffer.length : ℤ) = rule.getWantSize) : rule.inBounds dataBuffer = true := by
  unfold getWantSize at hwant
  unfold inBounds
  cases hmode : rule.receiveMode with
  | body => rfl
  | size =>
    rw [hmode] at hwant
    exact decide_eq_true (Int.ofNat_inj.mp hwant).ge

section Header

variable {rule} {size : ℕ}

theorem foldl_or_testBit (f : ℕ → ℕ) (is : List ℕ) (a j : ℕ) :
    (is.foldl (fun b i => b ||| f i) a).testBit j =
      (a.testBit j || is.any fun i => (f i).testBit j) := by
  induction is generalizing a with
  | nil => simp
  | cons i is ih => rw [List.foldl_cons, ih, Nat.testBit_or, List.any_cons, Bool.or_assoc]

theorem exists_offset {k : ℕ} (hk : k < rule.sizeLength) :
    ∃ i < rule.sizeLength, rule.offset i = 8 * k := by
  unfold offset
  cases rule.sizeBufferEndian with
  | big => exact ⟨rule.sizeLength - k - 1, by omega, by dsimp only; omega⟩
  | little => exact ⟨k, hk, rfl⟩

@[simp] theorem header_length : (rule.header size).length = rule.sizeLength := by
  simp [header]

theorem readSize_header (hsize : size < 2 ^ (8 * rule.sizeLength)) :
    rule.readSize (rule.header size) = size := by
  apply Nat.eq_of_testBit_eq
  intro j
  unfold readSize
  rw [foldl_or_testBit, Nat.zero_testBit, Bool.false_or, Bool.eq_iff_iff, List.any_eq_true]
  have hbyte : ∀ i < rule.sizeLength,
      (((rule.header size).getD i 0).toNat <<< rule.offset i).testBit j =
        (decide (rule.offset i ≤ j) && decide (j - rule.offset i < 8) && size.testBit j) := by
    intro i hi
    have hget : (rule.header size).getD i 0 = UInt8.ofNat (size >>> rule.offset i) := by
      simp [header, List.getD_eq_getElem?_getD, hi]
    rw [hget, Nat.testBit_shiftLeft, UInt8.toNat_ofNat', Nat.testBit_mod_two_pow,
      Nat.testBit_shiftRight]
    by_cases ho : rule.offset i ≤ j
    · simp [ho]
    · simp [ho]
  constructor
  · rintro ⟨i, hi, hbit⟩
    rw [hbyte i (List.mem_range.mp hi), Bool.and_eq_true] at hbit
    exact hbit.2
  · intro hbit
    have hj : j < 8 * rule.sizeLength := by
      by_contra hge
      have hlt : size < 2 ^ j :=
        lt_of_lt_of_le hsize (Nat.pow_le_pow_right (by decide) (not_lt.mp hge))
      rw [Nat.testBit_lt_two_pow hlt] at hbit
      cases hbit
    obtain ⟨i, hi, ho⟩ := exists_offset (show j / 8 < rule.sizeLength by omega)
    refine ⟨i, List.mem_range.mpr hi, ?_⟩
    rw [hbyte i hi, ho, hbit]
    simp only [Bool.and_true, Bool.and_eq_true, decide_eq_true_eq]
    omega

end Header

section Stream

variable {rule} {rule' : PacketRuleSizeBody} {buffer future xs b : List UInt8}
  {bodies : List (List UInt8)} {n : ℕ}

/-- Bodies that are not empty and whose size fits the header and an int32. -/
structure Sendable (rule : PacketRuleSizeBody) (b : List UInt8) : Prop where
  ne_nil : b ≠ []
  fits : b.length < 2 ^ (8 * rule.sizeLength)
  lt_int32 : b.length < 2 ^ 31

/-- The bodies that a rule is still to hand on from a stream. -/
inductive Pending : PacketRuleSizeBody → List UInt8 → List (List UInt8) → Prop where
  | size {rule : PacketRuleSizeBody} {bodies : List (List UInt8)} :
      rule.receiveMode = .size → (∀ b ∈ bodies, rule.Sendable b) →
      Pending rule (bodies.flatMap rule.makeSendPacket) bodies
  | body {rule : PacketRuleSizeBody} {b : List UInt8} {bodies : List (List UInt8)} :
      rule.receiveMode = .body → rule.bodySize = b.length → rule.Sendable b →
      (∀ b ∈ bodies, rule.Sendable b) →
      Pending rule (b ++ bodies.flatMap rule.makeSendPacket) (b :: bodies)

theorem getWantSize_size (h : rule.receiveMode = .size) : rule.getWantSize = rule.sizeLength := by
  rw [getWantSize, h]

theorem getWantSize_body (h : rule.receiveMode = .body) (hsize : rule.bodySize < 2 ^ 31) :
    rule.getWantSize = rule.bodySize := by
  rw [getWantSize, h]
  exact Int.bmod_eq_of_le (by omega) (by omega)

theorem Pending.want (h : Pending rule xs bodies) : ∃ n : ℕ, 0 < n ∧ rule.getWantSize = n := by
  cases h with
  | size hmode => exact ⟨_, rule.sizeLength_pos, getWantSize_size hmode⟩
  | body hmode hsize hb =>
    refine ⟨_, ?_, getWantSize_body hmode (hsize ▸ hb.lt_int32)⟩
    rw [hsize]
    exact List.length_pos_iff.mpr hb.ne_nil

theorem Pending.step (h : Pending rule (buffer ++ future) bodies) (hn : rule.getWantSize = n)
    (hlen : n ≤ buffer.length) :
    ∃ left, bodies = (rule.notifyReceiveData (buffer.take n)).1 ++ left ∧
      Pending (rule.notifyReceiveData (buffer.take n)).2 (buffer.drop n ++ future) left := by
  have htake : buffer.take n = (buffer ++ future).take n :=
    (List.take_append_of_le_length hlen).symm
  rw [htake, ← List.drop_append_of_le_length hlen]
  generalize hxs : buffer ++ future = xs at h
  cases h with
  | size hmode hb =>
    obtain rfl : rule.sizeLength = n := by
      rw [getWantSize_size hmode] at hn
      exact_mod_cast hn
    cases bodies with
    | nil =>
      have hpos := rule.sizeLength_pos
      have hzero := congrArg List.length hxs
      rw [List.length_append, List.flatMap_nil, List.length_nil] at hzero
      omega
    | cons b bs =>
      have hsend := hb b List.mem_cons_self
      have hpacket : (b :: bs).flatMap rule.makeSendPacket =
          rule.header b.length ++ (b ++ bs.flatMap rule.makeSendPacket) := by
        rw [List.flatMap_cons, makeSendPacket, List.append_assoc]
      rw [hpacket, List.take_left' header_length, List.drop_left' header_length,
        notifyReceiveData, hmode]
      refine ⟨b :: bs, rfl, .body rfl (readSize_header hsend.fits) ⟨hsend.1, hsend.2, hsend.3⟩ ?_⟩
      intro c hc
      obtain ⟨hne, hfits, hlt⟩ := hb c (List.mem_cons_of_mem b hc)
      exact ⟨hne, hfits, hlt⟩
  | @body b bs hmode hsize hsend hb =>
    obtain rfl : b.length = n := by
      rw [getWantSize_body hmode (hsize ▸ hsend.lt_int32), hsize] at hn
      exact_mod_cast hn
    rw [List.take_left' rfl, List.drop_left' rfl, notifyReceiveData, hmode]
    refine ⟨bs, rfl, .size rfl ?_⟩
    intro c hc
    obtain ⟨hne, hfits, hlt⟩ := hb c hc
    exact ⟨hne, hfits, hlt⟩

/-- The receive loop hands on bodies in order until it has fewer bytes than the rule wants. -/
theorem receiveLoop_pending (h : Pending rule (buffer ++ future) bodies) :
    ∃ got left rule' rest, receiving.receiveLoop rule buffer = some (got, rule', rest) ∧
      bodies = got ++ left ∧ Pending rule' (rest ++ future) left ∧
      (rest.length : ℤ) < rule'.getWantSize := by
  induction hn : buffer.length using Nat.strongRecOn generalizing rule buffer bodies with
  | ind m ih =>
    subst hn
    obtain ⟨n, hpos, hwant⟩ := h.want
    rcases Nat.lt_or_ge buffer.length n with hlt | hge
    · have hshort : (buffer.length : ℤ) < receiving.getWantSize rule := by
        change (buffer.length : ℤ) < rule.getWantSize
        rw [hwant]
        exact_mod_cast hlt
      exact ⟨[], bodies, rule, buffer, PacketRule.receiveLoop_short hshort, rfl, h, hshort⟩
    · obtain ⟨left, rfl, hleft⟩ := h.step hwant hge
      have hdrop : (buffer.drop n).length < buffer.length := by
        rw [List.length_drop]
        omega
      obtain ⟨got, left', rule', rest, hloop, rfl, hpend, hshort⟩ := ih _ hdrop hleft rfl
      have hfirst := PacketRule.receiveLoop_want (R := receiving) hpos hwant hge
      refine ⟨(rule.notifyReceiveData (buffer.take n)).1 ++ got, left', rule', rest, ?_,
        (List.append_assoc ..).symm, hpend, hshort⟩
      have hloop' : receiving.receiveLoop (receiving.notifyReceiveData rule (buffer.take n)).2
          (buffer.drop n) = some (got, rule', rest) := hloop
      rw [hfirst, hloop']
      rfl

theorem makeSendPacket_length : (rule.makeSendPacket b).length = rule.sizeLength + b.length := by
  rw [makeSendPacket, List.length_append, header_length]

theorem Pending.done (h : Pending rule buffer bodies)
    (hshort : (buffer.length : ℤ) < rule.getWantSize) :
    bodies = [] ∧ buffer = [] ∧ rule.receiveMode = .size := by
  cases h with
  | size hmode hb =>
    rw [getWantSize_size hmode] at hshort
    cases bodies with
    | nil => exact ⟨rfl, rfl, hmode⟩
    | cons b bs =>
      rw [List.flatMap_cons, List.length_append, makeSendPacket_length] at hshort
      omega
  | body hmode hsize hb =>
    rw [getWantSize_body hmode (hsize ▸ hb.lt_int32), hsize, List.length_append] at hshort
    omega

/-- The TCP socket hands on nothing of a stream that comes in pieces shorter than a header. -/
theorem receiveOver_lost {datas : List (List UInt8)} (hmode : rule.receiveMode = .size)
    (hd : ∀ data ∈ datas, data.length < rule.sizeLength) :
    receiving.receiveOver rule datas = some ([], rule) := by
  apply PacketRule.receiveOver_short
  intro data hdata
  change (data.length : ℤ) < rule.getWantSize
  rw [getWantSize_size hmode]
  exact_mod_cast hd data hdata

theorem receiveLoop_waiting_empty (hmode : rule.receiveMode = .body) (hsize : rule.bodySize = 0)
    (hxs : xs ≠ []) :
    receiving.receiveLoop rule xs = some ([xs], (rule.onReceivedBody xs).2, []) := by
  have hwant : rule.getWantSize = 0 := by
    rw [getWantSize_body hmode (by omega), hsize]
    rfl
  have hnotify : rule.notifyReceiveData xs = rule.onReceivedBody xs := by
    rw [notifyReceiveData, hmode]
  have hall := PacketRule.receiveLoop_all (R := receiving) hxs hwant
  rw [hall]
  change some ((rule.notifyReceiveData xs).1, (rule.notifyReceiveData xs).2, []) = _
  rw [hnotify]
  rfl

/-- After an empty body the rule hands on all bytes that follow at once. -/
theorem receiveLoop_empty_body (hmode : rule.receiveMode = .size) (hxs : xs ≠ []) :
    ∃ rule', receiving.receiveLoop rule (rule.makeSendPacket [] ++ xs) =
      some ([xs], rule', []) := by
  have hlen : rule.sizeLength ≤ (rule.makeSendPacket [] ++ xs).length := by
    rw [List.length_append, makeSendPacket_length]
    omega
  have hfirst := PacketRule.receiveLoop_want (R := receiving) rule.sizeLength_pos
    (getWantSize_size hmode) hlen
  have hheader : rule.makeSendPacket [] = rule.header 0 := List.append_nil _
  have hnotify : receiving.notifyReceiveData rule (rule.header 0) =
      rule.onReceivedSize (rule.header 0) := by
    change rule.notifyReceiveData _ = _
    rw [notifyReceiveData, hmode]
  rw [hheader, List.take_left' header_length, List.drop_left' header_length, hnotify] at hfirst
  have hsize : (rule.onReceivedSize (rule.header 0)).2.bodySize = 0 :=
    readSize_header (Nat.two_pow_pos _)
  rw [hheader, hfirst, receiveLoop_waiting_empty rfl hsize hxs]
  exact ⟨_, rfl⟩

end Stream

end PacketRuleSizeBody

end DtProject
