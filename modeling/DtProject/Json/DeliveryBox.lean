import DtProject.Json.RoundTrip
import DtProject.Packet.Rules
import DtProject.Text.Utf8

/-! # Delivery boxes

A delivery box sends a text as the bytes of its UTF-8 encoding up to a NUL, and
reads what it receives up to the first NUL, so that a text survives the zeros that
a rule of fixed length fills a packet up with. The box for objects sends the JSON
text of an object and creates a new object from the one that it receives.
-/

namespace DtProject

/-- The engine's conversion from UTF-8, which gives back what has been encoded. -/
structure Utf8Decoder where
  decode : List UInt8 → String
  decode_encode : ∀ cs : List Char, decode (cs.flatMap String.utf8EncodeChar) = String.ofList cs

section Text

/-- `StringToBuffer`: the converted text with its NUL. -/
def stringToBuffer (message : String) : List UInt8 :=
  tcharToUtf8 message ++ [0]

/-- `BufferToString`, which fails on an empty buffer. A buffer that does not end in NUL gets one
more. -/
def bufferToString (U : Utf8Decoder) (dataBuffer : List UInt8) : Option String :=
  dataBuffer.getLast?.map fun last =>
    if last = 0 then U.decode (dataBuffer.takeWhile (· ≠ 0))
    else U.decode ((dataBuffer ++ [0]).takeWhile (· ≠ 0))

variable {U : Utf8Decoder} {message : String} {dataBuffer : List UInt8}

theorem stringToBuffer_eq (h : nul ∉ message.toList) :
    stringToBuffer message = utf8Bytes message ++ [0] := by
  rw [stringToBuffer, tcharToUtf8_eq h]

theorem bufferToString_of_takeWhile (hne : dataBuffer ≠ [])
    (h : dataBuffer.takeWhile (· ≠ 0) = utf8Bytes message) :
    bufferToString U dataBuffer = some message := by
  have hdecode : U.decode (utf8Bytes message) = message := by
    rw [utf8Bytes, U.decode_encode, String.ofList_toList]
  have hmore : (dataBuffer ++ [0]).takeWhile (· ≠ 0) = dataBuffer.takeWhile (· ≠ 0) := by
    rw [List.takeWhile_append]
    split_ifs with hall
    · simpa using (List.takeWhile_prefix _).eq_of_length hall |>.symm
    · rfl
  rw [bufferToString, List.getLast?_eq_some_getLast hne, Option.map_some, hmore, h, hdecode,
    ite_self]

end Text

/-- A rule lets a text through if the body that arrives begins with it, and nothing but zeros comes
after. -/
def KeepsText (arrives : List UInt8 → List UInt8) (message : String) : Prop :=
  arrives (stringToBuffer message) ≠ [] ∧
    (arrives (stringToBuffer message)).takeWhile (· ≠ 0) = utf8Bytes message

theorem keepsText_id {message : String} (h : nul ∉ message.toList) : KeepsText id message := by
  have hzero := zero_not_mem_utf8Bytes h
  rw [KeepsText, id, stringToBuffer_eq h]
  refine ⟨List.concat_ne_nil _ _, ?_⟩
  rw [List.takeWhile_append_of_pos fun x hx => by simpa using ne_of_mem_of_not_mem hx hzero]
  simp

theorem keepsText_fixedLength {rule : PacketRuleFixedLength} {message : String}
    (hpos : 0 < rule.fixedSize) (h : nul ∉ message.toList)
    (hfits : (utf8Bytes message).length ≤ rule.fixedSize) :
    KeepsText rule.makeSendPacket message := by
  have hzero := zero_not_mem_utf8Bytes h
  have hlen : (rule.makeSendPacket (stringToBuffer message)).length = rule.fixedSize :=
    PacketRuleFixedLength.makeSendPacket_length
  refine ⟨List.ne_nil_of_length_pos (hlen.symm ▸ hpos), ?_⟩
  obtain ⟨zeros, hzeros, hall⟩ : ∃ zeros, rule.makeSendPacket (stringToBuffer message) =
      utf8Bytes message ++ zeros ∧ ∀ z ∈ zeros, z = 0 := by
    have hcut : (utf8Bytes message).length ≤
        min (utf8Bytes message ++ [0]).length rule.fixedSize := by simp [hfits]
    rw [PacketRuleFixedLength.makeSendPacket, stringToBuffer_eq h, Bytes.write, List.take_zero,
      List.nil_append, List.take_append, List.take_of_length_le hcut, List.append_assoc]
    refine ⟨_, rfl, fun z hz => ?_⟩
    rcases List.mem_append.mp hz with hz | hz
    · exact List.mem_singleton.mp (List.mem_of_mem_take hz)
    · exact List.eq_of_mem_replicate (List.mem_of_mem_drop hz)
  rw [hzeros, List.takeWhile_append_of_pos fun x hx => by
    simpa using ne_of_mem_of_not_mem hx hzero]
  cases zeros with
  | nil => simp
  | cons z zeros => simp [hall z List.mem_cons_self]

/-- The engine's JSON reader and writer. The reader fails on texts that are no JSON object. -/
structure JsonText where
  serialize : FJsonValue → String
  deserialize : String → Option FJsonObject

section Box

universe u

variable {ι α : Type u} {κ π : Type*} (S : Schema κ π α) (H : ObjectHeap ι κ π α) (J : JsonText)

def sendTo [DecidableEq ι] [Fintype ι] (message : ι) : Option (List UInt8) :=
  (createJsonObject S H (Fintype.card ι + 1) message).map fun r =>
    stringToBuffer (J.serialize r.1)

def notifyReceiveBuffer (U : Utf8Decoder) (target : Option κ) (buffer : List UInt8) :
    Option (Option (ObjectTree κ π α)) :=
  (bufferToString U buffer).bind fun jsonString =>
    (J.deserialize jsonString).map fun fields => jsonObjectToUObject S target (.object fields)

variable {S H J} {U : Utf8Decoder} {σ : Type*} {R : DuplexRule σ} {Idle : σ → Prop}
  {Carried : List UInt8 → Prop} {arrives : List UInt8 → List UInt8} {rule sender : σ}
  {target : Option κ} {message : ι}

/-- If the rule carries the JSON text of an object and the text is read back, the box at the other
end creates one object, that which the JSON of the sent object stands for. -/
theorem message_delivered [DecidableEq ι] [Fintype ι] (whole : Whole R Idle Carried arrives)
    (hrule : Idle rule) (hsender : Idle sender)
    (hjson : ∀ fields,
      createJsonObject S H (Fintype.card ι + 1) message = some (.object fields, []) →
        J.deserialize (J.serialize (.object fields)) = some fields ∧
          Carried (stringToBuffer (J.serialize (.object fields))) ∧
            KeepsText arrives (J.serialize (.object fields))) :
    ∃ buffer body rule', sendTo S H J message = some buffer ∧
      R.receiveLoop rule (R.makeSendPacket sender buffer) = some ([body], rule', []) ∧
        Idle rule' ∧
          notifyReceiveBuffer S J U target body = some (deliverObject S H target message) := by
  obtain ⟨fields, hfields⟩ := exists_createJsonObject (S := S) (H := H)
    (Nat.lt_succ_self (Fintype.card ι)) message
  obtain ⟨hread, hcarried, hne, htext⟩ := hjson fields hfields
  obtain ⟨rule', hloop, hidle⟩ := whole.once hrule hsender hcarried
  refine ⟨_, _, rule', ?_, hloop, hidle, ?_⟩
  · rw [sendTo, hfields, Option.map_some]
  · rw [notifyReceiveBuffer, bufferToString_of_takeWhile hne htext, Option.bind_some, hread,
      Option.map_some, deliverObject, hfields, Option.bind_some]

section Witness

def sampleDecoder : Utf8Decoder where
  decode bytes := (String.fromUTF8? bytes.toByteArray).getD ""
  decode_encode cs := by
    have hvalid : (cs.flatMap String.utf8EncodeChar).toByteArray =
        (String.ofList cs).toByteArray := String.toByteArray_ofList.symm
    rw [hvalid, String.fromUTF8?, dif_pos (String.ofList cs).isValidUTF8]
    rfl

/-- The JSON text of two links, condensed where the engine's writer breaks and indents lines. -/
def linkText : JsonText where
  serialize _ := "\x7b\"Next\":\x7b\"Next\":null\x7d\x7d"
  deserialize _ := some [("Next", .object [("Next", .null)])]

theorem message_delivered_twoLinks : ∃ buffer body rule',
    sendTo linkSchema twoLinks linkText true = some buffer ∧
      PacketRuleFixedLength.duplex.receiveLoop {}
        (PacketRuleFixedLength.duplex.makeSendPacket {} buffer) = some ([body], rule', []) ∧
        rule' = {} ∧
          notifyReceiveBuffer linkSchema linkText sampleDecoder (some ()) body =
            some (deliverObject linkSchema twoLinks (some ()) true) := by
  refine message_delivered (PacketRuleFixedLength.whole (by decide)) rfl rfl
    fun fields hfields => ?_
  have hsent : createJsonObject linkSchema twoLinks (Fintype.card Bool + 1) true =
      some (.object [("Next", .object [("Next", .null)])], []) := rfl
  obtain rfl : fields = _ := by simpa using hfields.symm.trans hsent
  exact ⟨rfl, trivial, keepsText_fixedLength (by decide) (by decide) (by decide)⟩

end Witness

end Box

end DtProject
