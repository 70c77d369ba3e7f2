import DtProject.Framing.Search
import DtProject.Packet.Receive

/-! # Packets ended by a terminator

`UPacketRuleTerminate` of ObjectDeliverer appends the terminator to every body
it sends. It buffers what it receives and hands on the bytes before each
terminator. The factory refuses an empty terminator, for which the receive loop
would not end.
-/

namespace DtProject

open Framing

/-- The rule, with the bytes received and not yet handed on. -/
structure PacketRuleTerminate where
  terminate : List UInt8 := [13, 10]
  receiveTempBuffer : List UInt8 := []
  terminate_ne : terminate ≠ [] := by decide

namespace PacketRuleTerminate

/-- `CreatePacketRuleTerminate`: the given terminator unless it is empty. -/
def createPacketRuleTerminate (terminate : List UInt8) : PacketRuleTerminate :=
  if h : 0 < terminate.length then
    { terminate := terminate, terminate_ne := List.length_pos_iff.mp h }
  else {}

variable (rule : PacketRuleTerminate)

def makeSendPacket (bodyBuffer : List UInt8) : List UInt8 := bodyBuffer ++ rule.terminate

/-- The inner loop of `NotifyReceiveData`: compare the terminator at a position. -/
def bTerminate (buffer : List UInt8) (i : ℕ) : Bool :=
  (List.range rule.terminate.length).all fun j => buffer[i + j]? == rule.terminate[j]?

/-- The outer search loop: the first position of the terminator. -/
def findIndex (buffer : List UInt8) : Option ℕ :=
  (List.range (buffer.length - rule.terminate.length + 1)).find? (rule.bTerminate buffer)

def receiveLoop (buffer : List UInt8) : List (List UInt8) × List UInt8 :=
  if _hlen : rule.terminate.length ≤ buffer.length then
    match rule.findIndex buffer with
    | none => ([], buffer)
    | some i =>
      have := List.length_pos_iff.mpr rule.terminate_ne
      let r := receiveLoop (buffer.drop (i + rule.terminate.length))
      (buffer.take i :: r.1, r.2)
  else ([], buffer)
termination_by buffer.length

def notifyReceiveData (dataBuffer : List UInt8) : List (List UInt8) × PacketRuleTerminate :=
  let r := rule.receiveLoop (rule.receiveTempBuffer ++ dataBuffer)
  (r.1, { rule with receiveTempBuffer := r.2 })

def receiveAll : PacketRuleTerminate → List (List UInt8) →
    List (List UInt8) × PacketRuleTerminate
  | rule, [] => ([], rule)
  | rule, dataBuffer :: dataBuffers =>
    let r := rule.notifyReceiveData dataBuffer
    let t := receiveAll r.2 dataBuffers
    (r.1 ++ t.1, t.2)

def framing : Framing UInt8 (List UInt8) := terminated rule.terminate rule.terminate_ne

variable {rule} {buffer body : List UInt8} {i : ℕ}

theorem bTerminate_iff : rule.bTerminate buffer i = true ↔ rule.terminate <+: buffer.drop i := by
  unfold bTerminate
  rw [List.all_eq_true, List.prefix_iff_getElem?]
  constructor
  · intro h j hj
    rw [List.getElem?_drop, beq_iff_eq.mp (h j (List.mem_range.mpr hj)),
      List.getElem?_eq_getElem hj]
  · intro h j hj
    rw [List.mem_range] at hj
    have hget := h j hj
    rw [List.getElem?_drop] at hget
    rw [beq_iff_eq, hget, List.getElem?_eq_getElem hj]

theorem findIndex_eq (hlen : rule.terminate.length ≤ buffer.length) :
    rule.findIndex buffer = findPattern rule.terminate buffer := by
  have hiff : ∀ i, rule.findIndex buffer = some i ↔
      findPattern rule.terminate buffer = some i := by
    intro i
    rw [findIndex, List.find?_range_eq_some, findPattern_eq_some_iff rule.terminate_ne,
      bTerminate_iff]
    refine and_congr_right fun hpre => ?_
    have hle := hpre.length_le
    rw [List.length_drop] at hle
    have hpos := List.length_pos_iff.mpr rule.terminate_ne
    have hmem : i ∈ List.range (buffer.length - rule.terminate.length + 1) :=
      List.mem_range.mpr (by omega)
    simp only [hmem, true_and, Bool.not_eq_true', ← bTerminate_iff, Bool.not_eq_true]
  exact Option.ext hiff

theorem receiveLoop_eq (buffer : List UInt8) :
    rule.receiveLoop buffer = rule.framing.drain buffer := by
  induction hn : buffer.length using Nat.strongRecOn generalizing buffer with
  | ind n ih =>
    subst hn
    unfold receiveLoop
    split_ifs with hlen
    · rw [findIndex_eq hlen]
      cases hf : findPattern rule.terminate buffer with
      | none =>
        have hnext : rule.framing.next buffer = none := by simp [framing, terminated, hf]
        rw [drain_none hnext]
      | some i =>
        have hnext : rule.framing.next buffer =
            some (buffer.take i, buffer.drop (i + rule.terminate.length)) := by
          simp [framing, terminated, hf]
        rw [drain_some hnext]
        dsimp only
        rw [ih _ (rule.framing.shrinks hnext) _ rfl]
    · have hnext : rule.framing.next buffer = none := by
        have hf : findPattern rule.terminate buffer = none := by
          rw [findPattern_eq_none_iff rule.terminate_ne]
          exact fun h => hlen h.length_le
        simp [framing, terminated, hf]
      rw [drain_none hnext]

theorem receiveAll_eq_feedAll (dataBuffers : List (List UInt8)) (rule : PacketRuleTerminate) :
    rule.receiveAll dataBuffers =
      ((rule.framing.feedAll rule.receiveTempBuffer dataBuffers).1,
        { rule with
          receiveTempBuffer := (rule.framing.feedAll rule.receiveTempBuffer dataBuffers).2 }) := by
  induction dataBuffers generalizing rule with
  | nil => rfl
  | cons dataBuffer dataBuffers ih =>
    simp only [receiveAll, notifyReceiveData, receiveLoop_eq, ih, feedAll, feed]
    rfl

/-- The terminator does not occur before the end of the packet of the body. -/
def Clean (rule : PacketRuleTerminate) (body : List UInt8) : Prop :=
  ∀ j < body.length, ¬ rule.terminate <+: (rule.makeSendPacket body).drop j

theorem clean_iff : rule.Clean body ↔
    rule.framing.next (rule.makeSendPacket body) = some (body, []) := by
  unfold framing makeSendPacket
  rw [terminated_next_iff, findPattern_eq_some_iff rule.terminate_ne, List.drop_left]
  exact (and_iff_right (List.prefix_refl _)).symm

/-- Clean bodies arrive as they were sent, however the stream is divided on its way. -/
theorem receiveAll_sent {bodies dataBuffers : List (List UInt8)} (hb : ∀ b ∈ bodies, rule.Clean b)
    (hempty : rule.receiveTempBuffer = [])
    (hs : dataBuffers.flatten = bodies.flatMap rule.makeSendPacket) :
    rule.receiveAll dataBuffers = (bodies, rule) := by
  rw [receiveAll_eq_feedAll, hempty, feedAll_eq [] next_nil, List.nil_append, hs,
    drain_flatMap fun b hb' => clean_iff.mp (hb b hb')]
  rw [← hempty]

/-- A body arrives as it was sent exactly when it is clean. -/
theorem receiveAll_sent_iff {dataBuffers : List (List UInt8)} (hempty : rule.receiveTempBuffer = [])
    (hs : dataBuffers.flatten = rule.makeSendPacket body) :
    rule.receiveAll dataBuffers = ([body], rule) ↔ rule.Clean body := by
  rw [clean_iff, ← drain_eq_singleton_iff, receiveAll_eq_feedAll, hempty, feedAll_eq [] next_nil,
    List.nil_append, hs]
  constructor
  · intro h
    obtain ⟨hbodies, hrule⟩ := Prod.mk.inj h
    have hleft := congrArg receiveTempBuffer hrule
    exact Prod.ext hbodies (hleft.trans hempty)
  · intro h
    rw [h, ← hempty]

def receiving : PacketRule PacketRuleTerminate where
  getWantSize _ := 0
  notifyReceiveData := notifyReceiveData

theorem receiveOver_eq {dataBuffers : List (List UInt8)} (hd : ∀ d ∈ dataBuffers, d ≠ []) :
    receiving.receiveOver rule dataBuffers = some (rule.receiveAll dataBuffers) := by
  induction dataBuffers generalizing rule with
  | nil => rfl
  | cons d ds ih =>
    rw [PacketRule.receiveOver, PacketRule.receiveLoop_all (hd d List.mem_cons_self) rfl,
      Option.bind_some, ih fun c hc => hd c (List.mem_cons_of_mem d hc)]
    rfl

theorem clean_default_iff : ({} : PacketRuleTerminate).Clean body ↔ ¬ [13, 10] <:+: body := by
  unfold Clean makeSendPacket
  constructor
  · rintro h ⟨s, t, rfl⟩
    refine h s.length (by simp) ?_
    rw [List.append_assoc, List.append_assoc, List.drop_left]
    exact List.prefix_append _ _
  · intro h j hj hpre
    rw [List.drop_append_of_le_length hj.le] at hpre
    have hsuffix := List.drop_suffix j body
    cases hd : body.drop j with
    | nil => exact absurd (List.drop_eq_nil_iff.mp hd) (not_le.mpr hj)
    | cons x rest =>
      rw [hd, List.cons_append, List.cons_prefix_cons] at hpre
      cases rest with
      | nil =>
        have hbreak := List.cons_prefix_cons.mp hpre.2
        exact absurd hbreak.1 (by decide)
      | cons y rest =>
        obtain ⟨rfl, hbreak⟩ := hpre
        obtain ⟨rfl, -⟩ := List.cons_prefix_cons.mp hbreak
        have hhead : [13, 10] <+: body.drop j := by
          rw [hd]
          exact List.prefix_append [13, 10] rest
        exact h (hhead.isInfix.trans hsuffix.isInfix)

end PacketRuleTerminate

end DtProject
