/-
  RE-ENCODING A MESSAGE — the packet constructors and `Serialize` of `clientmsg.hpp`.

  The payload of a message that was built from a packet starts where its body starts: the
  constructor does not look where the body has ended.  `Serialize` writes the body and then the
  payload.  So the body is written twice, and the message that is built from the result has it in
  its payload once more.

  `Serialize` is `const`, but the length in a protobuf header is `mutable`: the header that the
  result is compared with is the one behind the call, whose length is that of the bytes written.

  **The result** (`reencodes_iff`): a message is decoded again from what it serializes to if and
  only if its body writes nothing, which of the raw bodies is true of the two without members.
-/
import SteamMin.Messages.Bodies
import SteamMin.Messages.WireFormat

namespace SteamMin.Messages

open ReadBack

/-- What a packet constructor takes as the payload. -/
theorem payload_eq_drop (data : Bytes) (offset : Nat) :
    (if offset < data.length then data.drop offset else []) = data.drop offset := by
  split
  · rfl
  · exact (List.drop_of_length_le (by omega)).symm

/-! ## Raw messages

  The constructor from a packet reads the body and takes it into the payload too, so serializing
  writes it twice. -/

section
variable {TBody : Type} [ISteamSerializableMessage TBody] {m : Msg TBody}

/-- `Msg<TBody>(PacketMsg(f))` -/
def Msg.ofFrame (f : Bytes) : Except Fault (Msg TBody) := do
  let packet ← PacketMsg.make (firstWord f) f
  Msg.ofPacket (.raw packet)

/-- `m` is decoded again from what it serializes to. -/
def Msg.Reencodes (m : Msg TBody) : Prop :=
  ∃ f m', m.serialize = .ok f ∧ Msg.ofFrame f = .ok m' ∧
    m'.header = m.header ∧ m'.body = m.body ∧ m'.payload = m.payload

/-- A plain header is taken back from its bytes. -/
theorem MsgHdr.takes_deserialize (h : MsgHdr) :
    Takes Stream.reading MsgHdr.deserialize h.wire h :=
  (Stream.takes_readInt32 h.msg).bind ((Stream.takes_readInt64 h.targetJobID).bind
    ((Stream.takes_readInt64 h.sourceJobID).map (MsgHdr.mk h.msg h.targetJobID)))

/-- Twenty of them. -/
theorem MsgHdr.length_wire (h : MsgHdr) : h.wire.length = 20 := by
  simp [wire]

/-- The packet of a frame that starts with a header. -/
theorem PacketMsg.make_wire (eMsg : EMsg) (h : MsgHdr) (rest : Bytes) :
    PacketMsg.make eMsg (h.wire ++ rest)
      = .ok { msgType := eMsg, header := h, payload := h.wire ++ rest, bodyOffset := 20 } := by
  have hheader := h.takes_deserialize [] rest
  rw [List.nil_append, List.length_nil, Nat.zero_add, MsgHdr.length_wire] at hheader
  rw [make, hheader]
  rfl

/-- The message of such a frame. -/
theorem Msg.ofFrame_wire (h : MsgHdr) (rest : Bytes) :
    (Msg.ofFrame (h.wire ++ rest) : Except Fault (Msg TBody))
      = Msg.ofPacket (.raw { msgType := firstWord (h.wire ++ rest), header := h,
                             payload := h.wire ++ rest, bodyOffset := 20 }) := by
  rw [ofFrame, PacketMsg.make_wire]
  rfl

/-- Behind the header everything is payload. -/
theorem Msg.payload_ofFrame {h : MsgHdr} {rest : Bytes}
    (hm : Msg.ofFrame (h.wire ++ rest) = .ok m) : m.payload = rest := by
  rw [ofFrame_wire, ofPacket] at hm
  dsimp only at hm
  split at hm
  · cases hm
  · cases hm
    rw [payload_eq_drop, List.drop_left' h.length_wire]

/-- **What comes back**: the header and the body that were sent, and the body once more in front of
    the payload. -/
theorem Msg.ofFrame_serialize {data : Bytes}
    (hbody : Stream.Appends (ISteamSerializableMessage.serialize m.body) data)
    (htakes : Takes Stream.reading ISteamSerializableMessage.deserialize data m.body) :
    ∃ f, m.serialize = .ok f ∧
      Msg.ofFrame f = .ok { m with payload := data ++ m.payload, readPos := 0 } := by
  refine ⟨_, Msg.serialize_eq hbody, ?_⟩
  have hread := htakes m.header.wire m.payload
  rw [List.append_assoc, MsgHdr.length_wire] at hread
  rw [ofFrame_wire, ofPacket]
  dsimp only
  rw [hread]
  dsimp only
  rw [payload_eq_drop, List.drop_left' m.header.length_wire]

/-- A message with a body of its own is not decoded again. -/
theorem Msg.Reencodes.body_eq_nil {data : Bytes} (h : m.Reencodes)
    (hbody : Stream.Appends (ISteamSerializableMessage.serialize m.body) data) : data = [] := by
  obtain ⟨f, m', hf, hm', -, -, hpayload⟩ := h
  obtain rfl := Except.ok.inj ((Msg.serialize_eq hbody).symm.trans hf)
  -- the payload is what it was, and it is the body followed by what it was
  rw [Msg.payload_ofFrame hm'] at hpayload
  exact List.append_left_eq_self.mp hpayload

end

/-! ## Protobuf messages

  The same duplication, behind a header whose length is measured again. -/

namespace Codec

variable {M : Type}

/-- `ByteSizeLong()` of what can be serialized. -/
def byteSize (codec : Codec M) (a : M) : Option Nat := (codec.serializeToString a).map List.length

/-- Protobuf parses what it has serialized `a` to. -/
def ReadsBack (codec : Codec M) (a : M) : Prop :=
  ∀ data, codec.serializeToString a = some data → codec.parseFromArray data = (true, a)

/-- Protobuf serializes `a`, to less than the 2 GiB that it allows a message, and parses it back. -/
def RoundTrips (codec : Codec M) (a : M) : Prop :=
  ∃ data, codec.serializeToString a = some data ∧ data.length < 2 ^ 31 ∧
    codec.parseFromArray data = (true, a)

end Codec

section
variable {TBody : Type} {headerCodec : Codec CMsgProtoBufHeader} {codec : Codec TBody} {f : Bytes}
  {m : MsgProto TBody}

/-- `MsgProto<TBody>(PacketClientMsgProtobuf(f))` -/
def MsgProto.ofFrame (headerCodec : Codec CMsgProtoBufHeader) (codec : Codec TBody) (f : Bytes) :
    Except Fault (MsgProto TBody) := do
  let packet ← PacketClientMsgProtobuf.make headerCodec (firstWord f) f
  MsgProto.ofPacket codec (.proto packet)

/-- `m` is decoded again from what it serializes to: `m₁` is `m` behind `Serialize`, and `m'` what the
    constructors make of the bytes. -/
def MsgProto.Reencodes (headerCodec : Codec CMsgProtoBufHeader) (codec : Codec TBody)
    (m : MsgProto TBody) : Prop :=
  ∃ f m₁ m', Stream.wrote (m.serializing headerCodec codec) = .ok (f, m₁) ∧
    MsgProto.ofFrame headerCodec codec f = .ok m' ∧
    m'.header = m₁.header ∧ m'.body = m₁.body ∧ m'.payload = m₁.payload

/-- What the constructors take from a frame. -/
structure MsgProto.Decodes (codec : Codec TBody) (f : Bytes) (m : MsgProto TBody) : Prop where
  msg : m.header.msg = getMsg (firstWord f)
  headerLength : m.header.headerLength = (firstWord (f.drop 4)).toInt32
  nonneg : 0 ≤ m.header.headerLength
  length : 8 + m.header.headerLength.toNatClampNeg ≤ f.length
  payload : m.payload = f.drop (8 + m.header.headerLength.toNatClampNeg)
  body : m.body = (codec.parseFromArray m.payload).2

/-- What decoding a frame returns, when it does. -/
theorem MsgProto.ofFrame_eq_ok (h : MsgProto.ofFrame headerCodec codec f = .ok m) :
    m.Decodes codec f := by
  obtain ⟨packet, hpacket, hm⟩ := Calls.except_bind_eq_ok h
  rw [PacketClientMsgProtobuf.make] at hpacket
  split at hpacket
  · cases hpacket
  · rename_i header s hheader
    cases hpacket
    obtain ⟨hmsg, hlen, hnonneg, hlength, hpos, -⟩ := MsgHdrProtoBuf.deserialize_eq_ok hheader
    cases hm
    exact
      { msg := hmsg
        headerLength := hlen
        nonneg := hnonneg
        length := hlength
        payload := by
          dsimp only
          rw [payload_eq_drop, hpos]
        body := by
          dsimp only
          rw [payload_eq_drop] }

/-- What is made of a frame that starts with a header: all behind it is the body, and the payload
    too. -/
theorem MsgProto.ofFrame_wire {h : MsgHdrProtoBuf} {protoData : Bytes} (rest : Bytes)
    (hmsg : h.msg.toNat < 2 ^ 31) (hlen : protoData.length < 2 ^ 31)
    (hparse : headerCodec.parseFromArray protoData = (true, h.proto)) :
    MsgProto.ofFrame headerCodec codec (h.wire protoData ++ rest)
      = .ok { header := { h with headerLength := (UInt32.ofNat protoData.length).toInt32 }
              body := (codec.parseFromArray rest).2, payload := rest, readPos := 0 } := by
  rw [ofFrame, PacketClientMsgProtobuf.make_wire _ _ hmsg hlen hparse]
  show MsgProto.ofPacket codec (.proto _) = _
  rw [ofPacket]
  dsimp only
  rw [payload_eq_drop, List.drop_left' MsgHdrProtoBuf.length_wire]

/-- **A received message re-encodes** exactly if it has no body: otherwise there is more behind the
    header than before. -/
theorem MsgProto.reencodes_iff_byteSize (hm : MsgProto.ofFrame headerCodec codec f = .ok m)
    (hback : headerCodec.RoundTrips m.header.proto) :
    m.Reencodes headerCodec codec ↔ codec.byteSize m.body = some 0 := by
  have hdecodes := MsgProto.ofFrame_eq_ok hm
  have hmsg : m.header.msg.toNat < 2 ^ 31 := by
    rw [hdecodes.msg]
    exact getMsg_lt _
  obtain ⟨protoData, hproto, hlen, hparse⟩ := hback
  -- what is made of the bytes: the header behind the call, and everything else as the payload
  have hagain (data : Bytes) : MsgProto.ofFrame headerCodec codec
        (m.header.wire protoData ++ (data ++ m.payload))
      = .ok { header := m.header.measured protoData
              body := (codec.parseFromArray (data ++ m.payload)).2
              payload := data ++ m.payload, readPos := 0 } :=
    MsgProto.ofFrame_wire _ hmsg hlen hparse
  constructor
  · rintro ⟨f, m₁, m', hwrote, hm', -, -, hpayload⟩
    rcases serializing_cases headerCodec codec m with ⟨protoData', data, hproto', hdata⟩ | ⟨what, hraise⟩
    · obtain rfl := Option.some.inj (hproto.symm.trans hproto')
      obtain ⟨rfl, rfl⟩ := Prod.mk.inj
        (Except.ok.inj ((serializing_eq hproto hdata).symm.trans hwrote))
      rw [hagain data] at hm'
      cases hm'
      -- the payload is what it was, and it is the body followed by what it was
      rw [Codec.byteSize, hdata, List.append_left_eq_self.mp hpayload]
      rfl
    · cases hraise.symm.trans hwrote
  · intro hbody
    obtain ⟨data, hdata, hdataLength⟩ := Option.map_eq_some_iff.mp hbody
    obtain rfl := List.length_eq_zero_iff.mp hdataLength
    exact ⟨_, _, _, serializing_eq hproto hdata, hagain [], rfl, hdecodes.body.symm, rfl⟩

end

/-! ## Which messages re-encode

  Those for which writing the body twice is writing nothing. -/

/-- A class without members fits, with no byte. -/
theorem Values.nil_fits (values : Values []) : values.Fits ∧ values.encode = [] := by
  cases values
  exact ⟨trivial, rfl⟩

/-- A class with members has at least one byte. -/
theorem BodyType.encode_ne_nil {T : BodyType} (hsize : 0 < T.minSize) (body : T.Body) :
    Values.encode body ≠ [] := by
  intro hnil
  have hle := Values.minSize_le body
  rw [hnil, List.length_nil] at hle
  rw [minSize] at hsize
  omega

/-- A raw message re-encodes exactly if its body has no members. -/
theorem BodyType.reencodes_iff_members {T : BodyType} (hT : T ∈ all) (m : Msg T.Body) :
    m.Reencodes ↔ T.members = [] := by
  constructor
  · intro h
    rcases minSize_all T hT with hnone | hsize
    · exact List.length_eq_zero_iff.mp hnone
    · have hnil := h.body_eq_nil (Values.appends_serialize m.body)
      exact absurd hnil (encode_ne_nil hsize m.body)
  · obtain ⟨eMsg, members⟩ := T
    rintro rfl
    obtain ⟨hfits, hnil⟩ := Values.nil_fits m.body
    obtain ⟨f, hf, hm⟩ := Msg.ofFrame_serialize (m := m) (Values.appends_serialize m.body)
      (Values.takes_deserialize m.body hfits)
    -- what comes in front of the payload is nothing
    exact ⟨f, _, hf, hm, rfl, rfl, congrArg (· ++ m.payload) hnil⟩

/-- Nor does one over a class that follows a list with members. -/
theorem Follows.not_reencodes {TBody : Type} [ISteamSerializableMessage TBody] {T : BodyType}
    {values : TBody → T.Body} (h : Follows TBody T values) (hsize : 0 < T.minSize) (m : Msg TBody) :
    ¬ m.Reencodes := by
  intro hre
  have hbody : Stream.Appends (ISteamSerializableMessage.serialize m.body)
      (Values.encode (values m.body)) := by
    rw [h.serialize]
    exact Values.appends_serialize _
  exact BodyType.encode_ne_nil hsize _ (hre.body_eq_nil hbody)

/-- **Re-encoding.**  A raw message, received or built, is decoded again from what it serializes to
    exactly if its type has no members to write, so no message of the handshake is; a protobuf
    message that was received, exactly if its body is serialized to nothing. -/
theorem reencodes_iff {TBody : Type} (headerCodec : Codec CMsgProtoBufHeader)
    (codec : Codec TBody) :
    (∀ T ∈ BodyType.all, ∀ m : Msg T.Body, m.Reencodes ↔ T.members = []) ∧
    (∀ m : Msg MsgChannelEncryptRequest, ¬ m.Reencodes) ∧
    (∀ m : Msg MsgChannelEncryptResponse, ¬ m.Reencodes) ∧
    (∀ m : Msg MsgChannelEncryptResult, ¬ m.Reencodes) ∧
    ∀ f m, MsgProto.ofFrame headerCodec codec f = .ok m → headerCodec.RoundTrips m.header.proto →
      (m.Reencodes headerCodec codec ↔ codec.byteSize m.body = some 0) := by
  refine ⟨?_, ?_, ?_, ?_, ?_⟩
  · exact fun T hT m => BodyType.reencodes_iff_members hT m
  · exact MsgChannelEncryptRequest.follows.not_reencodes (by decide)
  · exact MsgChannelEncryptResponse.follows.not_reencodes (by decide)
  · exact MsgChannelEncryptResult.follows.not_reencodes (by decide)
  · exact fun f m hm hback => MsgProto.reencodes_iff_byteSize hm hback

/-- A logon, as the example has it. -/
def logonBody : CMsgClientLogon := ⟨some 65580, some 1771⟩

/-- And a codec for it. -/
def logonCodec : Codec CMsgClientLogon where
  serializeToString b := some b.wire
  parseFromArray data := if data = logonBody.wire then (true, logonBody) else (data.isEmpty, .new)

/-- A login, whose header of four bytes has the session id twice. -/
def twiceFrame : Bytes := [0x8A, 0x15, 0x00, 0x80, 4, 0, 0, 0, 0x10, 2, 0x10, 1]

/-- The frame without a body re-encodes, though the header is serialized to two bytes; the one with a
    body behind the same header does not. -/
theorem reencodes_iff_logon :
    (∃ m, MsgProto.ofFrame Protobuf.wireFormat.header logonCodec twiceFrame = .ok m ∧
      m.header.headerLength = 4 ∧ Protobuf.wireFormat.header.byteSize m.header.proto = some 2 ∧
      m.Reencodes Protobuf.wireFormat.header logonCodec) ∧
    ∃ m, MsgProto.ofFrame Protobuf.wireFormat.header logonCodec (twiceFrame ++ logonBody.wire)
        = .ok m ∧
      ¬ m.Reencodes Protobuf.wireFormat.header logonCodec := by
  let proto : CMsgProtoBufHeader := { CMsgProtoBufHeader.new with clientSessionid := some 1 }
  let received (rest : Bytes) (body : CMsgClientLogon) : MsgProto CMsgClientLogon :=
    { header := ⟨EMsg.clientLogon, 4, proto⟩, body, payload := rest, readPos := 0 }
  have hempty : MsgProto.ofFrame Protobuf.wireFormat.header logonCodec twiceFrame
      = .ok (received [] .new) := by rfl
  have hlogon : MsgProto.ofFrame Protobuf.wireFormat.header logonCodec (twiceFrame ++ logonBody.wire)
      = .ok (received logonBody.wire logonBody) := by rfl
  -- a header with one optional field, which every codec of the format writes in two bytes
  have hback : Protobuf.wireFormat.header.RoundTrips proto := ⟨[0x10, 1], rfl, by decide, rfl⟩
  refine ⟨⟨_, hempty, rfl, rfl, ?_⟩, _, hlogon, ?_⟩
  · exact ((reencodes_iff _ _).2.2.2.2 _ _ hempty hback).mpr rfl
  · intro hre
    have hsize := ((reencodes_iff _ _).2.2.2.2 _ _ hlogon hback).mp hre
    revert hsize
    decide

/-- The end of a handshake: the header and `EResult::OK`. -/
def resultFrame : Bytes := [0x19, 0x05, 0, 0] ++ List.replicate 16 0xFF ++ [1, 0, 0, 0]

/-- Decoded, encoded and decoded again, its payload has grown from four bytes to eight. -/
theorem resultFrame_grows :
    ∃ m : Msg BodyType.msgChannelEncryptResult.Body, Msg.ofFrame resultFrame = .ok m ∧
      m.payload = [1, 0, 0, 0] ∧ ¬ m.Reencodes ∧
      ∃ f m', m.serialize = .ok f ∧
        (Msg.ofFrame f : Except Fault (Msg BodyType.msgChannelEncryptResult.Body)) = .ok m' ∧
        m'.payload = [1, 0, 0, 0, 1, 0, 0, 0] := by
  let sent : Msg BodyType.msgChannelEncryptResult.Body :=
    { header := MsgHdr.new.setEMsg EMsg.channelEncryptResult, body := .cons (word EResult.ok) .nil
      payload := [], readPos := 0 }
  let received := { sent with payload := [1, 0, 0, 0] }
  have hbody : Stream.Appends (ISteamSerializableMessage.serialize sent.body) [1, 0, 0, 0] :=
    Values.appends_serialize sent.body
  have htakes : Takes Stream.reading ISteamSerializableMessage.deserialize [1, 0, 0, 0] sent.body :=
    Values.takes_deserialize sent.body ⟨trivial, trivial⟩
  obtain ⟨f, hf, hreceived⟩ := Msg.ofFrame_serialize (m := sent) hbody htakes
  have hwire : sent.header.wire ++ ([1, 0, 0, 0] ++ sent.payload) = resultFrame := by decide
  have hframe : f = resultFrame :=
    Except.ok.inj (hf.symm.trans ((Msg.serialize_eq hbody).trans (congrArg _ hwire)))
  rw [hframe] at hreceived
  refine ⟨_, hreceived, rfl, ?_, ?_⟩
  · intro hre
    cases hre.body_eq_nil hbody
  · obtain ⟨f', hf', hagain⟩ := Msg.ofFrame_serialize (m := received) hbody htakes
    exact ⟨f', _, hf', hagain, rfl⟩

end SteamMin.Messages
