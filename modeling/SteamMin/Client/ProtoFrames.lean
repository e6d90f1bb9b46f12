/-
  A PROTOBUF MESSAGE ON THE RECEIVING PATH.

  The type of a message is written once, by the header, with the protobuf bit set.  It is read three
  times: `consume_frame` assembles the first four bytes with shifts, the header reads them as an
  `int32_t` and takes the bit off, and the dispatcher takes the bit off what `consume_frame`
  assembled.  The body has no length of its own; it starts where the header stops.

  **The result** (`protoFrame_readBack`): all of them agree, for every type below the bit and every
  header and body that protobuf itself reads back.

  The types in question are those below the mark: a type with the top bit would lose it on the
  way.  The codec is asked for one thing only, that the two messages at hand are read back from
  what it wrote for them.
-/
import SteamMin.Client.System

namespace SteamMin.Client

open Messages Crypto

/-! ## The frame -/

/-- `data[0] | (data[1] << 8) | (data[2] << 16) | (data[3] << 24)`, on 32 bits. -/
def assembleEmsg (data : Bytes) : UInt32 :=
  (data.getD 0 0).toUInt32 ||| ((data.getD 1 0).toUInt32 <<< 8) |||
    ((data.getD 2 0).toUInt32 <<< 16) ||| ((data.getD 3 0).toUInt32 <<< 24)

/-- The shifts give the word that a stream would read. -/
theorem assembleEmsg_eq {data : Bytes} (h : 4 ≤ data.length) : assembleEmsg data = firstWord data := by
  obtain ⟨a, b, c, d, rest, rfl⟩ : ∃ a b c d rest, data = a :: b :: c :: d :: rest := by
    rcases data with _ | ⟨a, _ | ⟨b, _ | ⟨c, _ | ⟨d, rest⟩⟩⟩⟩
    · simp at h
    · simp at h
    · simp at h
    · simp at h
    · exact ⟨a, b, c, d, rest, rfl⟩
  exact LittleEndian.word32_eq_or a b c d

/-- The three handshake messages carry no protobuf bit. -/
theorem not_isEncryptionMsg_makeMsg (msg : EMsg) : isEncryptionMsg (makeMsg msg true) = false := by
  have hrequest : makeMsg msg true ≠ EMsg.channelEncryptRequest := makeMsg_ne rfl
  have hresponse : makeMsg msg true ≠ EMsg.channelEncryptResponse := makeMsg_ne rfl
  have hresult : makeMsg msg true ≠ EMsg.channelEncryptResult := makeMsg_ne rfl
  simp [isEncryptionMsg, hrequest, hresponse, hresult]

/-- **A protobuf message is read back** on the receiving path as it was sent: its type word is
    classified as protobuf, its packet has the body where the header ends, the message built from
    the packet has the type, the header and the body that were sent, and the dispatcher looks for
    the same type. -/
theorem protoFrame_readBack {C E TBody : Type} [IConnection C E] (p : Platform)
    (codec : Codec TBody) {m : MsgProto TBody} {f protoData : Bytes}
    (hf : m.serialize p.protobuf.header codec = .ok f) (hpayload : m.payload = [])
    (hmsg : m.header.msg.toNat < 2 ^ 31)
    (hproto : p.protobuf.header.serializeToString m.header.proto = some protoData)
    (hlen : protoData.length < 2 ^ 31)
    (hheader : p.protobuf.header.parseFromArray protoData = (true, m.header.proto))
    (hbody : ∀ data, codec.serializeToString m.body = some data →
      codec.parseFromArray data = (true, m.body)) :
    ∃ packet received, readEmsg f = .ok (assembleEmsg f) ∧
      isEncryptionMsg (assembleEmsg f) = false ∧ isProtobufMsg (assembleEmsg f) = true ∧
      PacketClientMsgProtobuf.make p.protobuf.header (assembleEmsg f) f = .ok packet ∧
      packet.bodyOffset = 8 + protoData.length ∧ packet.bodyOffset ≤ f.length ∧
      MsgProto.ofPacket codec (.proto packet) = .ok received ∧
      received.header.msg = m.header.msg ∧ received.header.proto = m.header.proto ∧
      received.body = m.body ∧ getMsg packet.msgType = m.header.msg ∧
      ∀ (table : DispatchTable C E) (emit : Event → Calling C E Unit),
        dispatchFrame table emit p (assembleEmsg f) f = dispatchProto table emit packet := by
  obtain ⟨protoData', data, hproto', hdata, rfl⟩ := MsgProto.serialize_eq_ok hf
  obtain rfl : protoData = protoData' := Option.some.inj (hproto.symm.trans hproto')
  rw [hpayload, List.append_nil]
  have hlength : (m.header.wire protoData ++ data).length = 8 + protoData.length + data.length := by
    rw [List.length_append, MsgHdrProtoBuf.length_wire]
  have hfour : 4 ≤ (m.header.wire protoData ++ data).length := by
    omega
  -- all three readings are of the word that was written
  have hword : firstWord (m.header.wire protoData ++ data) = makeMsg m.header.msg true := by
    rw [MsgHdrProtoBuf.wire, List.append_assoc, firstWord_append]
  have hassembled := (assembleEmsg_eq hfour).trans hword
  have hread : readEmsg (m.header.wire protoData ++ data)
      = .ok (assembleEmsg (m.header.wire protoData ++ data)) := by
    rw [readEmsg, if_pos hfour, assembleEmsg_eq hfour]
  rw [hassembled] at hread ⊢
  let packet : PacketClientMsgProtobuf :=
    { msgType := makeMsg m.header.msg true
      header := { msg := m.header.msg, headerLength := (UInt32.ofNat protoData.length).toInt32,
                  proto := m.header.proto }
      payload := m.header.wire protoData ++ data
      bodyOffset := 8 + protoData.length }
  have hmake : PacketClientMsgProtobuf.make p.protobuf.header (makeMsg m.header.msg true)
      (m.header.wire protoData ++ data) = .ok packet :=
    PacketClientMsgProtobuf.make_wire _ data hmsg hlen hheader
  -- behind the header there is the body, and nothing else
  have hparse : codec.parseFromArray (packet.payload.drop packet.bodyOffset) = (true, m.body) := by
    rw [show packet.payload.drop packet.bodyOffset = data
      from List.drop_left' MsgHdrProtoBuf.length_wire]
    exact hbody data hdata
  obtain ⟨received, hreceived, hreceivedHeader, hreceivedBody⟩ := MsgProto.ofPacket_proto hparse
  refine ⟨packet, received, hread, not_isEncryptionMsg_makeMsg _, isProtobufMsg_makeMsg _, hmake, rfl,
    ?_, hreceived, ?_, ?_, hreceivedBody, getMsg_makeMsg hmsg, ?_⟩
  · rw [hlength]
    exact Nat.le_add_right _ _
  · rw [hreceivedHeader]
  · rw [hreceivedHeader]
  · intro table emit
    rw [dispatchFrame, if_neg (Bool.eq_false_iff.mp (not_isEncryptionMsg_makeMsg _)),
      if_pos (isProtobufMsg_makeMsg _), hmake]
    rfl

/-- A header with a SteamID, and the protobuf codec on it. -/
def sampleHeader : CMsgProtoBufHeader := { CMsgProtoBufHeader.new with steamid := some 440 }

/-- A codec for the headers of the example. -/
def sampleHeaderCodec : Codec CMsgProtoBufHeader where
  serializeToString h := some h.wire
  parseFromArray data := if data = sampleHeader.wire then (true, sampleHeader) else (false, .new)

/-- The same for the body of a login. -/
def sampleLogon : CMsgClientLogon := ⟨some 65580, some 1771⟩

/-- And for its body. -/
def sampleLogonCodec : Codec CMsgClientLogon where
  serializeToString b := some b.wire
  parseFromArray data := if data = sampleLogon.wire then (true, sampleLogon) else (false, .new)

/-- A login as the client makes it. -/
def sampleLogin : MsgProto CMsgClientLogon :=
  { MsgProto.new EMsg.clientLogon sampleLogon with
    header := { msg := EMsg.clientLogon, headerLength := 0, proto := sampleHeader } }

/-- Its type, the length of the header, the header and the body. -/
def loginFrame : Bytes :=
  [0x8A, 0x15, 0x00, 0x80, 9, 0, 0, 0] ++ [0x09, 0xB8, 0x01, 0, 0, 0, 0, 0, 0] ++
    [0x08, 0xAC, 0x80, 0x04, 0x28, 0xEB, 0x0D]

/-- The frame of that login, decoded again. -/
theorem protoFrame_readBack_login :
    ∃ packet received, PacketClientMsgProtobuf.make sampleHeaderCodec 0x8000158A loginFrame
        = .ok packet ∧ packet.bodyOffset = 17 ∧
      MsgProto.ofPacket sampleLogonCodec (.proto packet) = .ok received ∧
      received.header.msg = EMsg.clientLogon ∧ received.body = sampleLogon := by
  let p : Platform :=
    { plainPlatform with protobuf := { Protobuf.writing with header := sampleHeaderCodec } }
  have hf : sampleLogin.serialize p.protobuf.header sampleLogonCodec = .ok loginFrame := rfl
  have hbody : ∀ data, sampleLogonCodec.serializeToString sampleLogin.body = some data →
      sampleLogonCodec.parseFromArray data = (true, sampleLogin.body) := by
    intro data hdata
    obtain rfl := Option.some.inj hdata
    rfl
  have hheader : p.protobuf.header.parseFromArray sampleHeader.wire = (true, sampleHeader) := rfl
  have hlen : sampleHeader.wire.length < 2 ^ 31 := by decide
  obtain ⟨packet, received, -, -, -, hmake, hoffset, -, hreceived, hmsg, -, hreceivedBody, -⟩ :=
    protoFrame_readBack (C := Net.Connection) p sampleLogonCodec hf rfl (by decide) rfl hlen hheader
      hbody
  exact ⟨packet, received, hmake, hoffset, hreceived, hmsg, hreceivedBody⟩

end SteamMin.Client
