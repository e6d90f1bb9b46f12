/-
  PACKETS AND MESSAGES — `packetbase.hpp`, `msgbase.hpp`, `clientmsg.hpp`.

  A packet is a received frame with its header decoded; a message is a header, a typed body and a
  payload, built from a packet or to be sent.  Either comes in a raw kind (`PacketMsg`, `Msg`) and a
  protobuf kind (`PacketClientMsgProtobuf`, `MsgProto`).

  The payload of a message built from a packet starts where the body starts, not behind it.

  So a handler that reads the payload of such a message sees its body first:
  `handle_encrypt_request` skips eight bytes of it to get to the challenge, and `handle_multi` and
  the others never look.

  A protobuf message that is read is what the codec makes of its two parts, with the outcome of
  the second one dropped: the constructor ignores whether the body could be parsed.
-/
import SteamMin.Messages.SteamLanguage

namespace SteamMin.Messages

/-! ## Packets

  A packet keeps the whole frame, with its type, its header and the offset at which the body
  begins. -/

/-- `PacketMsg`: a raw packet, its header already read. -/
structure PacketMsg where
  msgType : EMsg
  header : MsgHdr
  payload : Bytes
  bodyOffset : Nat
  deriving DecidableEq

/-- `PacketMsg(eMsg, data)` -/
def PacketMsg.make (eMsg : EMsg) (data : Bytes) : Except Fault PacketMsg :=
  match MsgHdr.deserialize (Stream.reading data 0) with
  | .error e _ => .error e
  | .ok header s => .ok { msgType := eMsg, header, payload := data, bodyOffset := s.position }

/-- `PacketClientMsgProtobuf`: a protobuf packet, its header already read. -/
structure PacketClientMsgProtobuf where
  msgType : EMsg
  header : MsgHdrProtoBuf
  payload : Bytes
  bodyOffset : Nat

/-- `PacketClientMsgProtobuf(eMsg, data)` -/
def PacketClientMsgProtobuf.make (codec : Codec CMsgProtoBufHeader) (eMsg : EMsg) (data : Bytes) :
    Except Fault PacketClientMsgProtobuf :=
  match MsgHdrProtoBuf.deserialize codec (Stream.reading data 0) with
  | .error e _ => .error e
  | .ok header s => .ok { msgType := eMsg, header, payload := data, bodyOffset := s.position }

/-- The classes that derive from `IPacketMsg`. -/
inductive IPacketMsg
  | raw (packet : PacketMsg)
  | proto (packet : PacketClientMsgProtobuf)

/-! ## Messages

  A message decoded from a packet, or built to be sent; header, body and payload are serialized in
  this order. -/

/-- `MsgBase`: the payload and the cursor of its readers. -/
structure MsgBase where
  payload : Bytes
  readPos : Nat

/-- `MsgBase()` -/
def MsgBase.new : MsgBase := ⟨[], 0⟩

/-- `WriteBytes(data)` -/
def MsgBase.writeBytes (data : Bytes) (m : MsgBase) : MsgBase :=
  { m with payload := m.payload ++ data }

/-- `Msg<TBody>` -/
structure Msg (TBody : Type) extends MsgBase where
  header : MsgHdr
  body : TBody

namespace Msg

variable {TBody : Type} [ISteamSerializableMessage TBody]

/-- `Msg()` -/
def new : Msg TBody where
  toMsgBase := .new
  header := MsgHdr.new.setEMsg (ISteamSerializableMessage.getEMsg TBody)
  body := ISteamSerializableMessage.new

/-- `Msg(const Msg& other)`, the copy constructor. -/
def copy (other : Msg TBody) : Msg TBody :=
  { (new : Msg TBody) with
    header := { (new : Msg TBody).header with targetJobID := other.header.sourceJobID } }

/-- `Msg(const IPacketMsg& packet)` -/
def ofPacket (packet : IPacketMsg) : Except Fault (Msg TBody) :=
  match packet with
  | .proto _ => runtimeError "Msg<TBody> used for wrong packet type"
  | .raw packet =>
    let data := packet.payload
    let offset := packet.bodyOffset
    match ISteamSerializableMessage.deserialize (Stream.reading data offset) with
    | .error e _ => .error e
    | .ok body _ =>
      .ok { header := packet.header, body, readPos := 0,
            payload := if offset < data.length then data.drop offset else [] }

/-- `Serialize()`: header, body and payload. -/
def serialize (m : Msg TBody) : Except Fault Bytes :=
  Stream.written do
    m.header.serialize
    ISteamSerializableMessage.serialize m.body
    Stream.writeBytes m.payload

/-- `WriteBytes(data)` -/
def writeBytes (data : Bytes) (m : Msg TBody) : Msg TBody :=
  { m with toMsgBase := m.toMsgBase.writeBytes data }

end Msg

/-- `MsgProto<TBody>` -/
structure MsgProto (TBody : Type) extends MsgBase where
  header : MsgHdrProtoBuf
  body : TBody

namespace MsgProto

variable {TBody : Type}

/-- `MsgProto(eMsg)`; `body` is the default body of the class. -/
def new (eMsg : EMsg) (body : TBody) : MsgProto TBody where
  toMsgBase := .new
  header := MsgHdrProtoBuf.new.setEMsg eMsg
  body

/-- `MsgProto(const IPacketMsg& packet)`; whether the body could be parsed is not asked. -/
def ofPacket (codec : Codec TBody) (packet : IPacketMsg) : Except Fault (MsgProto TBody) :=
  match packet with
  | .raw _ => runtimeError "MsgProto<TBody> used for non-protobuf packet"
  | .proto packet =>
    let data := packet.payload
    let offset := packet.bodyOffset
    let (_, body) := codec.parseFromArray (data.drop offset)
    .ok { header := packet.header, body, readPos := 0,
          payload := if offset < data.length then data.drop offset else [] }

/-- `Serialize() const` on its stream, with the message as it is behind the call: the header has its
    serialized length in `headerLength`. -/
def serializing (headerCodec : Codec CMsgProtoBufHeader) (codec : Codec TBody) (m : MsgProto TBody) :
    Streaming (MsgProto TBody) := do
  let header ← m.header.serialize headerCodec
  match codec.serializeToString m.body with
  | none => Stream.raise "Failed to serialize protobuf body"
  | some data =>
    Stream.writeRaw data
    Stream.writeBytes m.payload
    pure { m with header }

/-- The bytes that `Serialize()` returns. -/
def serialize (headerCodec : Codec CMsgProtoBufHeader) (codec : Codec TBody) (m : MsgProto TBody) :
    Except Fault Bytes :=
  Stream.written (m.serializing headerCodec codec)

/-- The job id of the request, which the answer names as its target. -/
def setSourceJobID (id : UInt64) (m : MsgProto TBody) : MsgProto TBody :=
  { m with header := { m.header with proto := { m.header.proto with jobidSource := some id } } }

end MsgProto

/-! ## What a raw packet holds

  What the constructors find at the front of a frame, and that they come to an end.  A raw header
  needs twenty bytes and nothing else. -/

/-- The word a frame starts with. -/
def firstWord (data : Bytes) : UInt32 := LittleEndian.word32 (data.take 4)

/-- A word that was read, and where the stream stands behind it. -/
theorem Stream.readInt32_eq_ok {input : Bytes} {offset : Nat} {w : UInt32} {s : Stream}
    (h : readInt32 (reading input offset) = .ok w s) :
    offset + 4 ≤ input.length ∧ w = firstWord (input.drop offset) ∧
      s = reading input (offset + 4) := by
  obtain ⟨field, s', hfield, hw⟩ := Calls.bind_eq_ok h
  obtain ⟨input', hinput, hinside, rfl, rfl⟩ := readRange_eq_ok hfield
  cases hinput
  cases hw
  exact ⟨hinside, rfl, rfl⟩

/-- The first word of bytes that begin with one. -/
theorem firstWord_append {w : UInt32} (rest : Bytes) :
    firstWord (LittleEndian.bytes 4 w.toNat ++ rest) = w := by
  rw [firstWord, List.take_append_of_le_length (LittleEndian.length_bytes 4 _).ge,
    List.take_of_length_le (LittleEndian.length_bytes 4 _).le, LittleEndian.word32_bytes]

/-- A header fits into 20 bytes, and its first field is the first word of the frame. -/
theorem MsgHdr.deserialize_reading {data : Bytes} (h : 20 ≤ data.length) :
    MsgHdr.deserialize (Stream.reading data 0)
      = .ok { msg := firstWord data,
              targetJobID := LittleEndian.word64 ((data.drop 4).take 8),
              sourceJobID := LittleEndian.word64 ((data.drop 12).take 8) }
          (Stream.reading data 20) := by
  have hmsg : 0 + 4 ≤ data.length := by omega
  have htarget : 4 + 8 ≤ data.length := by omega
  have hsource : 12 + 8 ≤ data.length := h
  rw [deserialize, Calls.bind_ok (Stream.readInt32_reading hmsg),
    Calls.bind_ok (Stream.readInt64_reading htarget),
    Calls.bind_ok (Stream.readInt64_reading hsource)]
  rfl

/-- Less than twenty bytes are no header. -/
theorem MsgHdr.deserialize_short {data : Bytes} (h : data.length < 20) :
    ∃ e s, MsgHdr.deserialize (Stream.reading data 0) = .error (.throws e) s := by
  rw [deserialize]
  -- the first of the three fields that does not fit throws
  by_cases hmsg : 0 + 4 ≤ data.length
  · rw [Calls.bind_ok (Stream.readInt32_reading hmsg)]
    by_cases htarget : 4 + 8 ≤ data.length
    · rw [Calls.bind_ok (Stream.readInt64_reading htarget),
        Calls.bind_error (Stream.readInt64_underflow h (by omega))]
      exact ⟨_, _, rfl⟩
    · rw [Calls.bind_error (Stream.readInt64_underflow (by omega) (by omega))]
      exact ⟨_, _, rfl⟩
  · rw [Calls.bind_error (Stream.readInt32_underflow (by omega) (by omega))]
    exact ⟨_, _, rfl⟩

/-- What the constructor returns, when it does. -/
theorem PacketMsg.make_eq_ok {eMsg : EMsg} {data : Bytes} {packet : PacketMsg}
    (h : PacketMsg.make eMsg data = .ok packet) :
    packet.msgType = eMsg ∧ packet.payload = data ∧ packet.bodyOffset = 20 ∧
      20 ≤ data.length := by
  by_cases hlen : 20 ≤ data.length
  · rw [PacketMsg.make, MsgHdr.deserialize_reading hlen] at h
    cases h
    exact ⟨rfl, rfl, rfl, hlen⟩
  · have hshort : data.length < 20 := by omega
    obtain ⟨e, s, herror⟩ := MsgHdr.deserialize_short hshort
    rw [PacketMsg.make, herror] at h
    nomatch h

/-- The same for a protobuf packet. -/
theorem PacketClientMsgProtobuf.make_eq_ok {codec : Codec CMsgProtoBufHeader} {eMsg : EMsg}
    {data : Bytes} {packet : PacketClientMsgProtobuf}
    (h : PacketClientMsgProtobuf.make codec eMsg data = .ok packet) :
    packet.msgType = eMsg ∧ packet.payload = data := by
  rw [PacketClientMsgProtobuf.make] at h
  split at h
  · cases h
  · cases h
    exact ⟨rfl, rfl⟩

/-- The headers are read to their end, or to an error. -/
theorem MsgHdr.failsOnly_deserialize : Calls.FailsOnly (· ≠ Fault.diverges) MsgHdr.deserialize := by
  refine Calls.failsOnly_bind Stream.failsOnly_readInt32 fun msg => ?_
  refine Calls.failsOnly_bind Stream.failsOnly_readInt64 fun targetJobID => ?_
  exact Calls.failsOnly_bind Stream.failsOnly_readInt64 fun sourceJobID => Calls.failsOnly_pure _

/-- Reading a header ends. -/
theorem MsgHdrProtoBuf.failsOnly_deserialize (codec : Codec CMsgProtoBufHeader) :
    Calls.FailsOnly (· ≠ Fault.diverges) (MsgHdrProtoBuf.deserialize codec) := by
  refine Calls.failsOnly_bind Stream.failsOnly_readInt32 fun msg => ?_
  refine Calls.failsOnly_bind Stream.failsOnly_readInt32 fun headerLength => ?_
  dsimp only
  split
  · intro s fault s' h
    cases h
    simp
  · refine Calls.failsOnly_bind (Stream.failsOnly_readRange _) fun buffer => ?_
    split
    · exact Calls.failsOnly_throw (by simp)
    · exact Calls.failsOnly_pure _

/-- So does the constructor. -/
theorem PacketMsg.make_ne_diverges (eMsg : EMsg) (data : Bytes) :
    PacketMsg.make eMsg data ≠ .error .diverges := by
  intro h
  rw [PacketMsg.make] at h
  split at h
  · rename_i fault s herror
    exact MsgHdr.failsOnly_deserialize _ _ _ herror (Except.error.inj h)
  · cases h

/-- And that of a protobuf packet. -/
theorem PacketClientMsgProtobuf.make_ne_diverges (codec : Codec CMsgProtoBufHeader) (eMsg : EMsg)
    (data : Bytes) : PacketClientMsgProtobuf.make codec eMsg data ≠ .error .diverges := by
  intro h
  rw [PacketClientMsgProtobuf.make] at h
  split at h
  · rename_i fault s herror
    exact MsgHdrProtoBuf.failsOnly_deserialize codec _ _ _ herror (Except.error.inj h)
  · cases h

/-! ## Headers that cannot be read

  Whatever the bytes, a header is read or refused by an exception.  The length of a protobuf header
  is an `int32_t`, too small for the sum of the guard to wrap around. -/

/-- A packet that cannot be made of a frame is refused by an exception. -/
theorem PacketMsg.make_throws {eMsg : EMsg} {data : Bytes} {fault : Fault}
    (h : PacketMsg.make eMsg data = .error fault) : ∃ e, fault = .throws e := by
  by_cases hlen : 20 ≤ data.length
  · rw [PacketMsg.make, MsgHdr.deserialize_reading hlen] at h
    cases h
  · have hshort : data.length < 20 := by omega
    obtain ⟨e, s, herror⟩ := MsgHdr.deserialize_short hshort
    rw [PacketMsg.make, herror] at h
    cases h
    exact ⟨e, rfl⟩

/-- A header that is refused is refused by an exception. -/
theorem MsgHdrProtoBuf.deserialize_throws {codec : Codec CMsgProtoBufHeader} {data : Bytes}
    {fault : Fault} {s : Stream}
    (h : deserialize codec (Stream.reading data 0) = .error fault s) : ∃ e, fault = .throws e := by
  rw [deserialize] at h
  -- the first of the three reads that fails
  rcases Calls.bind_eq_error h with hmsg | ⟨w, s₁, hmsg, h⟩
  · exact Stream.readInt32_only_throws (by omega) hmsg
  obtain ⟨-, rfl, rfl⟩ := Stream.readInt32_eq_ok hmsg
  rcases Calls.bind_eq_error h with hlen | ⟨len, s₂, hlen, h⟩
  · exact Stream.readInt32_only_throws (by omega) hlen
  obtain ⟨-, rfl, rfl⟩ := Stream.readInt32_eq_ok hlen
  dsimp only at h
  split at h
  · cases h
    exact ⟨_, rfl⟩
  · rcases Calls.bind_eq_error h with hproto | ⟨buffer, s₃, -, h⟩
    · -- an `int32_t` is no length that could wrap around
      have hbound := Int32.toNatClampNeg_lt (firstWord (data.drop (0 + 4))).toInt32
      exact Stream.readRange_only_throws (by omega) hproto
    · generalize codec.parseFromArray buffer = parsed at h
      obtain ⟨_ | _, proto⟩ := parsed
      · cases h
        exact ⟨_, rfl⟩
      · cases h

/-- So the constructor throws, or returns. -/
theorem PacketClientMsgProtobuf.make_throws {codec : Codec CMsgProtoBufHeader} {eMsg : EMsg}
    {data : Bytes} {fault : Fault}
    (h : PacketClientMsgProtobuf.make codec eMsg data = .error fault) :
    ∃ e, fault = .throws e := by
  rw [PacketClientMsgProtobuf.make] at h
  split at h
  · rename_i fault' s herror
    cases h
    exact MsgHdrProtoBuf.deserialize_throws herror
  · cases h

/-! ## What a message is on the wire

  The bytes that `Serialize` returns, and the one side effect it has: the length it has measured
  stays in the header. -/

/-- The bytes of a raw header. -/
def MsgHdr.wire (h : MsgHdr) : Bytes :=
  LittleEndian.bytes 4 h.msg.toNat ++
    (LittleEndian.bytes 8 h.targetJobID.toNat ++ LittleEndian.bytes 8 h.sourceJobID.toNat)

/-- The plain header is appended as its twenty bytes. -/
theorem MsgHdr.appends_serialize (h : MsgHdr) : Stream.Appends h.serialize h.wire :=
  (Stream.appends_append _).seq ((Stream.appends_append _).seq (Stream.appends_append _))

/-- A raw message on the wire. -/
theorem Msg.serialize_eq {TBody : Type} [ISteamSerializableMessage TBody] {m : Msg TBody}
    {body : Bytes} (hbody : Stream.Appends (ISteamSerializableMessage.serialize m.body) body) :
    m.serialize = .ok (m.header.wire ++ (body ++ m.payload)) :=
  (m.header.appends_serialize.seq (hbody.seq (Stream.appends_append _))).written

/-- The bytes of a protobuf header, with the serialized `proto`. -/
def MsgHdrProtoBuf.wire (h : MsgHdrProtoBuf) (protoData : Bytes) : Bytes :=
  LittleEndian.bytes 4 (makeMsg h.msg true).toNat ++
    (LittleEndian.bytes 4 (UInt32.ofNat protoData.length).toNat ++ protoData)

/-- The header behind `Serialize`. -/
def MsgHdrProtoBuf.measured (h : MsgHdrProtoBuf) (protoData : Bytes) : MsgHdrProtoBuf :=
  { h with headerLength := (UInt32.ofNat protoData.length).toInt32 }

/-- The protobuf header is appended with the length of what was serialized, and has that length
    behind. -/
theorem MsgHdrProtoBuf.yields_serialize {codec : Codec CMsgProtoBufHeader} {h : MsgHdrProtoBuf}
    {protoData : Bytes} (hproto : codec.serializeToString h.proto = some protoData) :
    Stream.Yields (h.serialize codec) (h.wire protoData) (h.measured protoData) := by
  rw [serialize, hproto, ← List.append_nil (h.wire protoData), wire, List.append_assoc,
    List.append_assoc]
  exact (Stream.appends_append _).bind ((Stream.appends_append _).bind
    ((Stream.appends_writeRaw _).bind (Stream.yields_pure _)))

section
variable {TBody : Type} {headerCodec : Codec CMsgProtoBufHeader} {codec : Codec TBody}
  {m : MsgProto TBody} {protoData data : Bytes}

/-- A message whose header and body are serialized: its bytes, and the message behind the call. -/
theorem MsgProto.serializing_eq
    (hproto : headerCodec.serializeToString m.header.proto = some protoData)
    (hbody : codec.serializeToString m.body = some data) :
    Stream.wrote (m.serializing headerCodec codec)
      = .ok (m.header.wire protoData ++ (data ++ m.payload),
          { m with header := m.header.measured protoData }) := by
  have hyields : Stream.Yields (m.serializing headerCodec codec)
      (m.header.wire protoData ++ (data ++ (m.payload ++ [])))
      { m with header := m.header.measured protoData } := by
    rw [serializing, hbody]
    exact (MsgHdrProtoBuf.yields_serialize hproto).bind ((Stream.appends_writeRaw _).bind
      ((Stream.appends_append _).bind (Stream.yields_pure _)))
  rw [List.append_nil] at hyields
  exact hyields.wrote

/-- A protobuf message on the wire. -/
theorem MsgProto.serialize_eq (hproto : headerCodec.serializeToString m.header.proto = some protoData)
    (hbody : codec.serializeToString m.body = some data) :
    m.serialize headerCodec codec = .ok (m.header.wire protoData ++ (data ++ m.payload)) := by
  rw [serialize, Stream.written, serializing_eq hproto hbody]
  rfl

/-- Either the header and the body are serialized, or an exception says which of them is not. -/
theorem MsgProto.serializing_cases (headerCodec : Codec CMsgProtoBufHeader) (codec : Codec TBody)
    (m : MsgProto TBody) :
    (∃ protoData data, headerCodec.serializeToString m.header.proto = some protoData ∧
      codec.serializeToString m.body = some data) ∨
    ∃ what, Stream.wrote (m.serializing headerCodec codec) = runtimeError what := by
  cases hproto : headerCodec.serializeToString m.header.proto with
  | none =>
    refine .inr ⟨"Failed to serialize proto message", ?_⟩
    rw [serializing, MsgHdrProtoBuf.serialize, hproto]
    rfl
  | some protoData =>
    cases hbody : codec.serializeToString m.body with
    | none =>
      refine .inr ⟨"Failed to serialize protobuf body", ?_⟩
      rw [serializing, hbody]
      exact (MsgHdrProtoBuf.yields_serialize hproto).wrote_raise _
    | some data => exact .inl ⟨protoData, data, rfl, rfl⟩

/-- A message is only serialized if its header and its body are. -/
theorem MsgProto.serialize_eq_ok {message : Bytes}
    (h : m.serialize headerCodec codec = .ok message) :
    ∃ protoData data, headerCodec.serializeToString m.header.proto = some protoData ∧
      codec.serializeToString m.body = some data ∧
      message = m.header.wire protoData ++ (data ++ m.payload) := by
  rcases serializing_cases headerCodec codec m with ⟨protoData, data, hproto, hbody⟩ | ⟨what, hraise⟩
  · exact ⟨protoData, data, hproto, hbody,
      Except.ok.inj (h.symm.trans (serialize_eq hproto hbody))⟩
  · rw [serialize, Stream.written, hraise] at h
    cases h

/-- Otherwise an exception says so. -/
theorem MsgProto.serialize_throws {fault : Fault} (h : m.serialize headerCodec codec = .error fault) :
    ∃ e, fault = .throws e := by
  rcases serializing_cases headerCodec codec m with ⟨protoData, data, hproto, hbody⟩ | ⟨what, hraise⟩
  · cases (serialize_eq hproto hbody).symm.trans h
  · rw [serialize, Stream.written, hraise] at h
    cases h
    exact ⟨_, rfl⟩

end

/-- A serialized protobuf message shows its mark. -/
theorem MsgProto.isProtobufMsg_serialize {TBody : Type} {headerCodec : Codec CMsgProtoBufHeader}
    {codec : Codec TBody} {m : MsgProto TBody} {message : Bytes}
    (h : m.serialize headerCodec codec = .ok message) : isProtobufMsg (firstWord message) = true := by
  obtain ⟨protoData, data, -, -, rfl⟩ := MsgProto.serialize_eq_ok h
  rw [MsgHdrProtoBuf.wire, List.append_assoc, firstWord_append]
  exact isProtobufMsg_makeMsg _

/-! ## The type word of a protobuf message

  The highest bit marks it, and comes off again. -/

/-- The bit that marks a protobuf message comes off again. -/
theorem getMsg_makeMsg {msg : EMsg} (h : msg.toNat < 2 ^ 31) : getMsg (makeMsg msg true) = msg := by
  apply UInt32.toBitVec_inj.mp
  show (msg.toBitVec ||| PROTO_MASK.toBitVec) &&& ~~~PROTO_MASK.toBitVec = msg.toBitVec
  ext i hi
  have hmask : PROTO_MASK.toBitVec[i] = decide (i = 31) := by
    revert i
    decide
  rw [BitVec.getElem_and, BitVec.getElem_or, BitVec.getElem_not, hmask]
  by_cases htop : i = 31
  · subst htop
    have hclear : msg.toBitVec[31] = false := by
      show msg.toNat.testBit 31 = false
      exact Nat.testBit_lt_two_pow h
    rw [hclear]
    rfl
  · simp [htop]

/-- A type that was taken from a frame has no protobuf bit. -/
theorem getMsg_lt (w : UInt32) : (getMsg w).toNat < 2 ^ 31 := by
  have hmask : (~~~PROTO_MASK).toNat = 2 ^ 31 - 1 := rfl
  have hle : (getMsg w).toNat ≤ (~~~PROTO_MASK).toNat := by
    rw [getMsg, UInt32.toNat_and]
    exact Nat.and_le_right
  omega

/-- A marked word is no number of a message without the mark. -/
theorem makeMsg_ne {msg w : EMsg} (h : isProtobufMsg w = false) : makeMsg msg true ≠ w := by
  rintro rfl
  cases (isProtobufMsg_makeMsg msg).symm.trans h

/-! ## The header of a protobuf message

  A header is read back from the front of whatever follows it, and what was read has its place in
  the frame. -/

section
variable {codec : Codec CMsgProtoBufHeader} {h : MsgHdrProtoBuf} {protoData : Bytes}

/-- Two words, and the header itself. -/
theorem MsgHdrProtoBuf.length_wire : (h.wire protoData).length = 8 + protoData.length := by
  rw [wire, List.length_append, List.length_append, LittleEndian.length_bytes,
    LittleEndian.length_bytes]
  omega

/-- The length of a header that fits into an `int32_t`. -/
theorem toInt32_length {n : Nat} (hn : n < 2 ^ 31) :
    ¬ (UInt32.ofNat n).toInt32 < 0 ∧ (UInt32.ofNat n).toInt32.toNatClampNeg = n := by
  rw [UInt32.toInt32_ofNat']
  constructor
  · rw [Int32.lt_iff_toInt_lt, Int32.toInt_ofNat_of_lt hn]
    exact Int.not_lt.mpr (Int.natCast_nonneg n)
  · exact Int32.toNatClampNeg_ofNat_of_lt hn

/-- **The header reads back** from the front of a frame, and stops where it ends. -/
theorem MsgHdrProtoBuf.deserialize_wire (rest : Bytes) (hmsg : h.msg.toNat < 2 ^ 31)
    (hlen : protoData.length < 2 ^ 31) (hparse : codec.parseFromArray protoData = (true, h.proto)) :
    MsgHdrProtoBuf.deserialize codec (Stream.reading (h.wire protoData ++ rest) 0)
      = .ok { msg := h.msg, headerLength := (UInt32.ofNat protoData.length).toInt32,
              proto := h.proto }
          (Stream.reading (h.wire protoData ++ rest) (8 + protoData.length)) := by
  have hframe : (h.wire protoData ++ rest).length = 8 + protoData.length + rest.length := by
    rw [List.length_append, length_wire]
  -- the two words and the header behind them, each where it was written
  have hword : LittleEndian.word32 (((h.wire protoData ++ rest).drop 0).take 4)
      = makeMsg h.msg true := by
    rw [wire, List.append_assoc]
    exact firstWord_append _
  have hsecond : LittleEndian.word32 (((h.wire protoData ++ rest).drop 4).take 4)
      = UInt32.ofNat protoData.length := by
    rw [wire, List.append_assoc, List.append_assoc, List.drop_left' (LittleEndian.length_bytes 4 _)]
    exact firstWord_append _
  have hdata : ((h.wire protoData ++ rest).drop 8).take protoData.length = protoData := by
    rw [wire, ← List.append_assoc, List.append_assoc (_ ++ _), List.drop_left', List.take_left]
    rw [List.length_append, LittleEndian.length_bytes, LittleEndian.length_bytes]
  obtain ⟨hpos, hclamp⟩ := toInt32_length hlen
  rw [deserialize, Calls.bind_ok (Stream.readInt32_reading (by omega)),
    Calls.bind_ok (Stream.readInt32_reading (by omega)), hword, hsecond, if_neg hpos]
  dsimp only
  rw [hclamp, Stream.readInto, Calls.bind_ok (Stream.readRange_reading (by omega)), hdata, hparse,
    getMsg_makeMsg hmsg]
  rfl

/-- A header that was read: its two words, where it ends, and what was parsed. -/
theorem MsgHdrProtoBuf.deserialize_eq_ok {f : Bytes} {s : Stream}
    (hok : deserialize codec (Stream.reading f 0) = .ok h s) :
    h.msg = getMsg (firstWord f) ∧ h.headerLength = (firstWord (f.drop 4)).toInt32 ∧
      0 ≤ h.headerLength ∧ 8 + h.headerLength.toNatClampNeg ≤ f.length ∧
      s.position = 8 + h.headerLength.toNatClampNeg ∧
      codec.parseFromArray ((f.drop 8).take h.headerLength.toNatClampNeg) = (true, h.proto) := by
  rw [deserialize] at hok
  -- the two words have been read, the length was not negative, and the codec has accepted
  obtain ⟨w, s₁, hw, hok⟩ := Calls.bind_eq_ok hok
  obtain ⟨-, rfl, rfl⟩ := Stream.readInt32_eq_ok hw
  obtain ⟨len, s₂, hlen, hok⟩ := Calls.bind_eq_ok hok
  obtain ⟨-, rfl, rfl⟩ := Stream.readInt32_eq_ok hlen
  by_cases hneg : (firstWord (f.drop 4)).toInt32 < 0
  · dsimp only at hok
    rw [if_pos hneg] at hok
    cases hok
  · dsimp only at hok
    rw [if_neg hneg] at hok
    obtain ⟨buffer, s₄, hbuffer, hok⟩ := Calls.bind_eq_ok hok
    obtain ⟨input, hinput, hinside, rfl, rfl⟩ := Stream.readRange_eq_ok hbuffer
    cases hinput
    generalize hparsed : codec.parseFromArray _ = parsed at hok
    obtain ⟨_ | _, proto⟩ := parsed
    · cases hok
    · cases hok
      exact ⟨rfl, rfl, Int32.not_lt.mp hneg, hinside, rfl, hparsed⟩

end

/-- The body of a packet starts behind the two words of the header, inside the frame. -/
theorem PacketClientMsgProtobuf.bodyOffset_of_make {codec : Codec CMsgProtoBufHeader} {eMsg : EMsg}
    {data : Bytes} {packet : PacketClientMsgProtobuf}
    (h : PacketClientMsgProtobuf.make codec eMsg data = .ok packet) :
    8 ≤ packet.bodyOffset ∧ packet.bodyOffset ≤ data.length := by
  rw [PacketClientMsgProtobuf.make] at h
  split at h
  · cases h
  · rename_i header s hheader
    cases h
    obtain ⟨-, -, -, hinside, hposition, -⟩ := MsgHdrProtoBuf.deserialize_eq_ok hheader
    dsimp only
    omega

/-- The packet of a frame that starts with a header. -/
theorem PacketClientMsgProtobuf.make_wire {codec : Codec CMsgProtoBufHeader} {h : MsgHdrProtoBuf}
    {protoData : Bytes} (emsg : EMsg) (rest : Bytes) (hmsg : h.msg.toNat < 2 ^ 31)
    (hlen : protoData.length < 2 ^ 31) (hparse : codec.parseFromArray protoData = (true, h.proto)) :
    PacketClientMsgProtobuf.make codec emsg (h.wire protoData ++ rest)
      = .ok { msgType := emsg
              header := { msg := h.msg, headerLength := (UInt32.ofNat protoData.length).toInt32,
                          proto := h.proto }
              payload := h.wire protoData ++ rest
              bodyOffset := 8 + protoData.length } := by
  rw [make, MsgHdrProtoBuf.deserialize_wire rest hmsg hlen hparse]
  rfl

/-- A message built from a packet has the header of the packet, and the body behind it. -/
theorem MsgProto.ofPacket_proto {TBody : Type} {codec : Codec TBody} {b : TBody} {ok : Bool}
    {packet : PacketClientMsgProtobuf}
    (hparse : codec.parseFromArray (packet.payload.drop packet.bodyOffset) = (ok, b)) :
    ∃ m, MsgProto.ofPacket codec (.proto packet) = .ok m ∧ m.header = packet.header ∧ m.body = b := by
  rw [ofPacket]
  exact ⟨_, rfl, rfl, congrArg Prod.snd hparse⟩

end SteamMin.Messages
