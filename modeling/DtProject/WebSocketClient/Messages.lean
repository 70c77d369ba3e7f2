import DtProject.Packet.SizeBody
import DtProject.WebSocketClient.Reconnect

/-! # Messages handed to a packet rule whole

The web socket client hands each message to its packet rule at once, and not as
many bytes as the rule wants. A rule with a size header takes one message for the
header and the next for the body, so it hands on every second packet with its
header. Of a text message the client takes as many UTF-8 bytes as the message has
UTF-16 units, which are all of them exactly if the message is ASCII.
-/

namespace DtProject

open Reactive

def PacketRule.notifyAll {σ : Type*} (R : PacketRule σ) :
    σ → List (List UInt8) → List (List UInt8) × σ
  | rule, [] => ([], rule)
  | rule, dataBuffer :: dataBuffers =>
    let r := R.notifyReceiveData rule dataBuffer
    let t := R.notifyAll r.2 dataBuffers
    (r.1 ++ t.1, t.2)

/-- Every second element of a list, from the second one on. -/
def everySecond {α : Type*} : List α → List α
  | _ :: a :: as => a :: everySecond as
  | _ => []

/-- In its size mode the rule takes messages in pairs, and hands on the second of each. -/
theorem PacketRuleSizeBody.notifyAll_eq {rule : PacketRuleSizeBody}
    (hmode : rule.receiveMode = .size)
    (messages : List (List UInt8)) :
    (receiving.notifyAll rule messages).1 = everySecond messages := by
  induction messages using everySecond.induct generalizing rule with
  | case1 header body messages ih =>
    have hsize : rule.notifyReceiveData header = rule.onReceivedSize header := by
      rw [notifyReceiveData, hmode]
    have hrest := @ih ((rule.onReceivedSize header).2.onReceivedBody body).2 rfl
    change (rule.notifyReceiveData header).1 ++
      (((rule.notifyReceiveData header).2.notifyReceiveData body).1 ++
        (receiving.notifyAll ((rule.notifyReceiveData header).2.notifyReceiveData body).2
          messages).1) = _
    rw [hsize, everySecond, ← hrest]
    rfl
  | case2 messages hshort =>
    cases messages with
    | nil => rfl
    | cons header messages =>
      cases messages with
      | nil =>
        have hsize : rule.notifyReceiveData header = rule.onReceivedSize header := by
          rw [notifyReceiveData, hmode]
        change (rule.notifyReceiveData header).1 ++ [] = _
        rw [hsize]
        rfl
      | cons body messages => exact absurd rfl (hshort header body messages)

namespace ProtocolWebSocketClient

variable {σ : Type*} {R : PacketRule σ} {w w' : ProtocolWebSocketClient σ} {e : Event}

def Event.message : Event → Option (List UInt8)
  | .callback _ c => callbackMessage c
  | _ => none

section Text

theorem utf8Size_eq (c : Char) :
    c.utf8Size = if c.toNat ≤ 0x7F then 1 else if c.toNat ≤ 0x7FF then 2
      else if c.toNat ≤ 0xFFFF then 3 else 4 := rfl

/-- A character has as many UTF-16 units as UTF-8 bytes if it is ASCII, and else fewer. -/
theorem utf16_lt_utf8_iff (c : Char) :
    (if c.toNat < 0x10000 then 1 else 2) ≤ c.utf8Size ∧
      ((if c.toNat < 0x10000 then 1 else 2) = c.utf8Size ↔ c.toNat < 0x80) := by
  rw [utf8Size_eq]
  split_ifs <;> omega

theorem messageLen_le (cs : List Char) :
    (cs.map fun c => if c.toNat < 0x10000 then 1 else 2).sum ≤ (cs.map Char.utf8Size).sum := by
  induction cs with
  | nil => exact le_rfl
  | cons c cs ih => exact Nat.add_le_add (utf16_lt_utf8_iff c).1 ih

theorem messageLen_eq_iff (cs : List Char) :
    (cs.map Char.utf8Size).sum ≤ (cs.map fun c => if c.toNat < 0x10000 then 1 else 2).sum ↔
      ∀ c ∈ cs, c.toNat < 0x80 := by
  induction cs with
  | nil => simp
  | cons c cs ih =>
    obtain ⟨hle, hiff⟩ := utf16_lt_utf8_iff c
    have hrest := messageLen_le cs
    rw [List.forall_mem_cons, ← ih, ← hiff, List.map_cons, List.map_cons, List.sum_cons,
      List.sum_cons]
    omega

theorem length_le_flatMap (cs : List Char) :
    cs.length ≤ (cs.flatMap String.utf8EncodeChar).length := by
  induction cs with
  | nil => exact le_rfl
  | cons c cs ih =>
    have hpos := c.utf8Size_pos
    rw [List.flatMap_cons, List.length_append, String.length_utf8EncodeChar, List.length_cons]
    omega

theorem utf8Bytes_length (message : String) :
    (utf8Bytes message).length = (message.toList.map Char.utf8Size).sum := by
  rw [utf8Bytes, List.length_flatMap]
  simp only [String.length_utf8EncodeChar]

theorem messageBytes_length (message : String) (behind : ℕ → UInt8) :
    (messageBytes message behind).length = messageLen message := by
  rw [messageBytes, List.length_take, List.length_append, List.length_cons, List.length_map,
    List.length_range]
  omega

/-- Memory behind the text is taken unless the text and its NUL are long enough. -/
theorem messageLen_le_of_forall {message : String} {bytes : List UInt8}
    (h : ∀ behind, messageBytes message behind = bytes) :
    messageLen message ≤ (tcharToUtf8 message).length + 1 := by
  by_contra hlong
  have hget : ∀ behind : ℕ → UInt8,
      bytes[(tcharToUtf8 message).length + 1]? = some (behind 0) := by
    intro behind
    rw [← h behind, messageBytes, List.getElem?_take_of_lt (by omega),
      List.getElem?_append_right (by omega)]
    simp [List.getElem?_range (show 0 < messageLen message by omega)]
  have := (hget fun _ => 0).symm.trans (hget fun _ => 1)
  cases this

theorem nul_not_mem_dropLast_iff (cs : List Char) :
    nul ∉ cs.dropLast ↔ (cs.dropWhile (· ≠ nul)).length ≤ 1 := by
  induction cs with
  | nil => simp
  | cons c cs ih =>
    cases cs with
    | nil => by_cases hc : c = nul <;> simp [hc]
    | cons d ds =>
      by_cases hc : c = nul
      · simp [hc]
      · have hdrop : (c :: d :: ds).dropWhile (· ≠ nul) = (d :: ds).dropWhile (· ≠ nul) :=
          List.dropWhile_cons_of_pos (by simpa using hc)
        rw [List.dropLast_cons_cons, List.mem_cons, not_or, ih, hdrop]
        exact and_iff_right (Ne.symm hc)

/-- A text message is taken as its bytes, whatever lies behind it in memory, exactly if it is ASCII
with no NUL but at its end. -/
theorem messageBytes_eq_iff (message : String) :
    (∀ behind, messageBytes message behind = utf8Bytes message) ↔
      (∀ c ∈ message.toList, c.toNat < 0x80) ∧ nul ∉ message.toList.dropLast := by
  have hsplit := utf8Bytes_eq message
  have hparts := congrArg List.length hsplit
  rw [List.length_append] at hparts
  rw [nul_not_mem_dropLast_iff, ← messageLen_eq_iff, ← utf8Bytes_length]
  constructor
  · intro h
    have hlen := messageLen_le_of_forall h
    rw [← messageBytes_length message fun _ => 0, h] at hlen
    refine ⟨?_, ?_⟩
    · rw [← h fun _ => 0, messageBytes_length]
      exact le_rfl
    · have hdrop := length_le_flatMap (message.toList.dropWhile (· ≠ nul))
      omega
  · rintro ⟨hall, hshort⟩ behind
    have hlen : messageLen message = (utf8Bytes message).length :=
      le_antisymm (by rw [utf8Bytes_length]; exact messageLen_le _) hall
    rw [messageBytes, hlen, hsplit]
    cases hdrop : message.toList.dropWhile (· ≠ nul) with
    | nil =>
      rw [List.flatMap_nil, List.append_nil]
      exact List.take_left
    | cons c cs =>
      -- what follows the text is its NUL, which the conversion writes as well
      rw [hdrop, List.length_cons] at hshort
      obtain rfl : cs = [] := List.length_eq_zero_iff.mp (by omega)
      have hhead := List.head?_dropWhile_not (· ≠ nul) message.toList
      rw [hdrop] at hhead
      obtain rfl : c = nul := by simpa using hhead
      have hnul : List.flatMap String.utf8EncodeChar [nul] = [0] := rfl
      rw [hnul, List.append_cons (tcharToUtf8 message) 0 (List.map _ _)]
      exact List.take_left

end Text

section Run

theorem notify_some {rule : σ} (hrule : w.packetRule = some rule) (dataBuffer : List UInt8) :
    (w.notify R dataBuffer).packetRule = some (R.notifyReceiveData rule dataBuffer).2 ∧
      (w.notify R dataBuffer).bodies =
        (R.notifyReceiveData rule dataBuffer).1.reverse ++ w.bodies := by
  unfold notify
  rw [hrule]
  exact ⟨rfl, rfl⟩

theorem reconnect_received :
    w.reconnect.packetRule = w.packetRule ∧ w.reconnect.bodies = w.bodies := by
  unfold reconnect
  split_ifs <;> exact ⟨rfl, rfl⟩

/-- The rule has been handed some messages, and the bodies it gave for them have been handed on. -/
def Received (R : PacketRule σ) (w : ProtocolWebSocketClient σ) (messages : List (List UInt8))
    (w' : ProtocolWebSocketClient σ) : Prop :=
  ∀ rule, w.packetRule = some rule →
    w'.packetRule = some (R.notifyAll rule messages).2 ∧
      w'.bodies.reverse = w.bodies.reverse ++ (R.notifyAll rule messages).1

theorem received_nil (hrule : w'.packetRule = w.packetRule) (hbodies : w'.bodies = w.bodies) :
    Received R w [] w' := fun rule h =>
  ⟨hrule.trans h, by rw [hbodies]; exact (List.append_nil _).symm⟩

theorem received_notify (dataBuffer : List UInt8) :
    Received R w [dataBuffer] (w.notify R dataBuffer) := by
  intro rule h
  obtain ⟨hrule, hbodies⟩ := notify_some (R := R) h dataBuffer
  refine ⟨hrule, ?_⟩
  rw [hbodies, List.reverse_append, List.reverse_reverse]
  exact congrArg (w.bodies.reverse ++ ·) (List.append_nil _).symm

theorem received_callback {s : ℕ} {c : SocketCallback} :
    Received R w (Event.callback s c).message.toList ((w.deliver s c).handle R c) := by
  cases c with
  | onConnected => exact received_nil rfl rfl
  | onConnectionError =>
    change Received R w [] (if w.bIsManualClose then w.deliver s _ else (w.deliver s _).reconnect)
    split_ifs
    · exact received_nil rfl rfl
    · exact received_nil reconnect_received.1 reconnect_received.2
  | onClosed => exact received_nil reconnect_received.1 reconnect_received.2
  | onMessage message behind => exact received_notify (w := w.deliver s _) _
  | onBinaryMessage data bIsLastFragment =>
    cases bIsLastFragment with
    | true => exact received_notify (w := w.deliver s _) data
    | false => exact received_nil rfl rfl

theorem received_step (hst : step R w e = some w') : Received R w e.message.toList w' := by
  cases transition_of_step hst with
  | callback => exact received_callback
  | @start created => cases created <;> exact received_nil rfl rfl
  | @created i created => cases created <;> exact received_nil rfl rfl
  | finishClose =>
    rw [finishClose_eq]
    exact received_nil rfl rfl
  | close | setAutoReconnect | running | stopped | refused | allowed | cleared =>
    exact received_nil rfl rfl

theorem notifyAll_append {rule : σ} {xs ys : List (List UInt8)} :
    R.notifyAll rule (xs ++ ys) =
      ((R.notifyAll rule xs).1 ++ (R.notifyAll (R.notifyAll rule xs).2 ys).1,
        (R.notifyAll (R.notifyAll rule xs).2 ys).2) := by
  induction xs generalizing rule with
  | nil => rfl
  | cons x xs ih =>
    rw [List.cons_append, PacketRule.notifyAll, ih, PacketRule.notifyAll, List.append_assoc]

theorem received_run {C : Contract (ProtocolWebSocketClient σ) Event} {es : List Event}
    (h : Run (step R) C w es w') : Received R w (es.filterMap Event.message) w' := by
  induction h with
  | nil w => exact received_nil rfl rfl
  | @cons w w₁ w₂ e es _ hst _ ih =>
    intro rule hrule
    obtain ⟨hrule₁, hbodies₁⟩ := received_step hst rule hrule
    obtain ⟨hrule₂, hbodies₂⟩ := ih _ hrule₁
    have hmessages : (e :: es).filterMap Event.message =
        e.message.toList ++ es.filterMap Event.message := by
      cases hm : e.message with
      | none => exact List.filterMap_cons_none hm
      | some dataBuffer => exact List.filterMap_cons_some hm
    rw [hmessages, notifyAll_append]
    exact ⟨hrule₂, by rw [hbodies₂, hbodies₁, List.append_assoc]⟩

/-- A client with a size header hands on every second packet that it is sent, header and all. -/
theorem sizeBody_messages {rule : PacketRuleSizeBody} (hmode : rule.receiveMode = .size)
    {w : ProtocolWebSocketClient PacketRuleSizeBody} {es : List Event}
    (h : Run (step PacketRuleSizeBody.receiving) ⊤ { packetRule := some rule } es w)
    {sent : List (List UInt8)}
    (hsent : es.filterMap Event.message = sent.map rule.makeSendPacket) :
    w.bodies.reverse = everySecond (sent.map rule.makeSendPacket) := by
  rw [← hsent, ← PacketRuleSizeBody.notifyAll_eq hmode]
  exact (received_run h rule rfl).2

theorem sizeBody_messages_twoSent : ∃ w : ProtocolWebSocketClient PacketRuleSizeBody,
    Run (step PacketRuleSizeBody.receiving) ⊤ { packetRule := some {} }
      [.start true, .callback 0 (.onBinaryMessage [0, 0, 0, 1, 7] true),
        .callback 0 (.onBinaryMessage [0, 0, 0, 2, 8, 9] true)] w ∧
    w.bodies.reverse = [[0, 0, 0, 2, 8, 9]] := by
  have hrun : Run (step PacketRuleSizeBody.receiving) ⊤
      { packetRule := some ({} : PacketRuleSizeBody) }
      [.start true, .callback 0 (.onBinaryMessage [0, 0, 0, 1, 7] true),
        .callback 0 (.onBinaryMessage [0, 0, 0, 2, 8, 9] true)] _ :=
    .cons trivial rfl (.cons trivial rfl (.cons trivial rfl (.nil _)))
  have hsent : [[0, 0, 0, 1, 7], [0, 0, 0, 2, 8, 9]] =
      [[7], [8, 9]].map ({} : PacketRuleSizeBody).makeSendPacket := by decide
  exact ⟨_, hrun, sizeBody_messages rfl hrun hsent⟩

end Run

end ProtocolWebSocketClient

end DtProject
