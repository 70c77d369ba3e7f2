import DtProject.Bytes.Layout
import DtProject.Packet.SizeBody
import DtProject.Packet.Terminate

/-! # Packet rules between two ends

Sender and receiver hold the same packet rule. A rule delivers whole packets if,
idle before a packet, it hands on one body for the packet's bytes and is idle
again. All four rules of ObjectDeliverer do so, each for the bodies it can carry.
-/

namespace DtProject

structure DuplexRule (σ : Type*) extends PacketRule σ where
  makeSendPacket : σ → List UInt8 → List UInt8

/-- Between packets the rule is idle, and a packet of a body that it carries arrives as one
body. -/
structure Whole {σ : Type*} (R : DuplexRule σ) (Idle : σ → Prop) (Carried : List UInt8 → Prop)
    (arrives : List UInt8 → List UInt8) : Prop where
  once {rule sender : σ} {body : List UInt8} : Idle rule → Idle sender → Carried body →
    ∃ rule', R.receiveLoop rule (R.makeSendPacket sender body) = some ([arrives body], rule', []) ∧
      Idle rule'

/-- `UPacketRuleFixedLength`: packets of one size, cut or filled up with zeros. -/
structure PacketRuleFixedLength where
  fixedSize : ℕ := 128

namespace PacketRuleFixedLength

variable (rule : PacketRuleFixedLength)

def makeSendPacket (bodyBuffer : List UInt8) : List UInt8 :=
  Bytes.write (List.replicate rule.fixedSize 0) 0
    (bodyBuffer.take (min bodyBuffer.length rule.fixedSize))

def duplex : DuplexRule PacketRuleFixedLength where
  getWantSize rule := rule.fixedSize
  notifyReceiveData rule dataBuffer := ([dataBuffer], rule)
  makeSendPacket := makeSendPacket

variable {rule} {body : List UInt8}

theorem makeSendPacket_length : (rule.makeSendPacket body).length = rule.fixedSize := by
  rw [makeSendPacket, Bytes.length_write, List.length_replicate]
  rw [List.length_take, List.length_replicate]
  omega

theorem makeSendPacket_of_length (h : body.length = rule.fixedSize) :
    rule.makeSendPacket body = body := by
  have htake : body.take (min body.length rule.fixedSize) = body :=
    List.take_of_length_le (by omega)
  have hdrop : (List.replicate rule.fixedSize (0 : UInt8)).drop (0 + body.length) = [] :=
    List.drop_eq_nil_of_le (by rw [List.length_replicate]; omega)
  rw [makeSendPacket, htake, Bytes.write, hdrop, List.take_zero, List.append_nil, List.nil_append]

theorem whole (hpos : 0 < rule.fixedSize) :
    Whole duplex (· = rule) (fun _ => True) rule.makeSendPacket where
  once := by
    intro first sender body hi hs _
    obtain rfl : rule = first := hi.symm
    obtain rfl : rule = sender := hs.symm
    have hlen : (rule.makeSendPacket body).length = rule.fixedSize := makeSendPacket_length
    have hloop : duplex.receiveLoop rule (rule.makeSendPacket body) = _ :=
      PacketRule.receiveLoop_want hpos rfl hlen.ge
    have hall : (rule.makeSendPacket body).take rule.fixedSize = rule.makeSendPacket body :=
      List.take_of_length_le hlen.le
    have hrest : (rule.makeSendPacket body).drop rule.fixedSize = [] :=
      List.drop_eq_nil_of_le hlen.le
    rw [hall, hrest, PacketRule.receiveLoop_nil] at hloop
    exact ⟨rule, hloop, rfl⟩

end PacketRuleFixedLength

/-- `UPacketRuleNodivision`: what is received at once is one body. -/
def packetRuleNodivision : DuplexRule Unit where
  getWantSize _ := 0
  notifyReceiveData rule dataBuffer := ([dataBuffer], rule)
  makeSendPacket _ bodyBuffer := bodyBuffer

theorem packetRuleNodivision_whole :
    Whole packetRuleNodivision (fun _ => True) (· ≠ []) id where
  once := by
    rintro ⟨⟩ ⟨⟩ body - - hne
    exact ⟨(), PacketRule.receiveLoop_all hne rfl, trivial⟩

namespace PacketRuleTerminate

def duplex : DuplexRule PacketRuleTerminate where
  toPacketRule := receiving
  makeSendPacket := makeSendPacket

theorem whole (rule : PacketRuleTerminate) (hempty : rule.receiveTempBuffer = []) :
    Whole duplex (· = rule) rule.Clean id where
  once := by
    intro first sender body hi hs hclean
    obtain rfl : rule = first := hi.symm
    obtain rfl : rule = sender := hs.symm
    have hne : rule.makeSendPacket body ≠ [] :=
      List.append_ne_nil_of_right_ne_nil _ rule.terminate_ne
    have hsent : rule.receiveAll [rule.makeSendPacket body] = ([body], rule) :=
      (receiveAll_sent_iff hempty (List.append_nil _)).mpr hclean
    have hnotify : rule.notifyReceiveData (rule.makeSendPacket body) = ([body], rule) := by
      simpa [receiveAll] using hsent
    have hloop : duplex.receiveLoop rule (rule.makeSendPacket body) =
        some ((rule.notifyReceiveData (rule.makeSendPacket body)).1,
          (rule.notifyReceiveData (rule.makeSendPacket body)).2, []) :=
      PacketRule.receiveLoop_all hne rfl
    rw [hnotify] at hloop
    exact ⟨rule, hloop, rfl⟩

end PacketRuleTerminate

namespace PacketRuleSizeBody

def duplex : DuplexRule PacketRuleSizeBody where
  toPacketRule := receiving
  makeSendPacket := makeSendPacket

structure Like (config rule : PacketRuleSizeBody) : Prop where
  sizeLength : rule.sizeLength = config.sizeLength
  sizeBufferEndian : rule.sizeBufferEndian = config.sizeBufferEndian

variable {config rule sender : PacketRuleSizeBody} {body : List UInt8}

theorem Like.notify (h : Like config rule) (data : List UInt8) :
    Like config (rule.notifyReceiveData data).2 := by
  unfold notifyReceiveData
  cases rule.receiveMode with
  | size | body => exact ⟨h.sizeLength, h.sizeBufferEndian⟩

theorem Like.makeSendPacket (h : Like config sender) :
    sender.makeSendPacket body = config.makeSendPacket body := by
  simp only [PacketRuleSizeBody.makeSendPacket, header, offset, h.sizeLength, h.sizeBufferEndian]

theorem Like.sendable (h : Like config rule) (hb : config.Sendable body) : rule.Sendable body :=
  ⟨hb.ne_nil, by rw [h.sizeLength]; exact hb.fits, hb.lt_int32⟩

theorem whole (config : PacketRuleSizeBody) :
    Whole duplex (fun rule => Like config rule ∧ rule.receiveMode = .size) config.Sendable id where
  once := by
    rintro rule sender body ⟨hlike, hmode⟩ ⟨hsender, -⟩ hb
    have hpacket : sender.makeSendPacket body ++ [] = [body].flatMap rule.makeSendPacket := by
      simp only [hsender.makeSendPacket, List.flatMap_cons, List.flatMap_nil,
        hlike.makeSendPacket]
    have hsize : Pending rule ([body].flatMap rule.makeSendPacket) [body] :=
      .size hmode (by simpa using hlike.sendable hb)
    obtain ⟨got, left, rule', rest, hloop, hbodies, hpend, hshort⟩ :=
      receiveLoop_pending (hpacket ▸ hsize)
    rw [List.append_nil] at hpend
    obtain ⟨rfl, rfl, hmode'⟩ := hpend.done hshort
    rw [List.append_nil] at hbodies
    subst hbodies
    exact ⟨rule', hloop, PacketRule.receiveLoop_keeps (fun _ data h => h.notify data) hlike hloop,
      hmode'⟩

end PacketRuleSizeBody

end DtProject
