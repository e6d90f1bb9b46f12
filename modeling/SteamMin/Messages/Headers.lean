/-
  THE OTHER HEADERS — `include/steamclient/types/generated/SteamLanguageInternal.hpp`.

  Beside the two headers of client messages the generator has written those of the UDP transport, the
  extended client header and the two headers of the game coordinator.  All but one are lists of
  members, as the bodies are; an enumeration is cast to the integer it is written as.  They have a
  static size, and every string of that size is the encoding of one header (`headers_readBack`).

  The last one is `MsgGCHdrProtoBuf`.  Its `Deserialize` is that of `MsgHdrProtoBuf`, and its
  `Serialize` is so but for the last line: the serialized header is measured, and not written.  Alone,
  what it wrote can be read back only if there was nothing to write (`gcHeader_readBack_iff`).
-/
import SteamMin.Messages.Reencoding

namespace SteamMin.Messages

open MachineInt ReadBack

/-! ## The members -/

namespace Header

/-- `magic`, `payloadSize`, `packetType : EUdpPacketType`, `flags`, `sourceConnID`, `destConnID`,
    `seqThis`, `seqAck`, `packetsInMsg`, `msgStartSeq`, `msgSize` -/
def udpHeader : List Member :=
  [.int .uint32 0x31305356, .int .uint16 0, .int .uint8 0, .int .uint8 0, .int .uint32 512,
   .int .uint32 0, .int .uint32 0, .int .uint32 0, .int .uint32 0, .int .uint32 0, .int .uint32 0]

/-- `challengeValue`, `serverLoad` -/
def challengeData : List Member := [.int .uint32 0, .int .uint32 0]

/-- `challengeValue` -/
def connectData : List Member := [.int .uint32 0]

/-- `Accept`, `Datagram` and `Disconnect` have no members. -/
def accept : List Member := []

/-- A class without a body of its own. -/
def datagram : List Member := []

/-- Another one. -/
def disconnect : List Member := []

/-- `Msg : EMsg`, `headerSize`, `headerVersion`, `targetJobID`, `sourceJobID`, `headerCanary`,
    `steamID`, `sessionID` -/
def extendedClientMsgHdr : List Member :=
  [.int .int32 0, .int .uint8 36, .int .uint16 2, .int .uint64 (2 ^ 64 - 1),
   .int .uint64 (2 ^ 64 - 1), .int .uint8 239, .int .uint64 0, .int .int32 0]

/-- `headerVersion`, `targetJobID`, `sourceJobID` -/
def msgGCHdr : List Member :=
  [.int .uint16 1, .int .uint64 (2 ^ 64 - 1), .int .uint64 (2 ^ 64 - 1)]

/-- The headers that are lists of members, in their order. -/
def all : List (List Member) :=
  [udpHeader, challengeData, connectData, accept, datagram, disconnect, extendedClientMsgHdr,
   msgGCHdr]

/-- The static size of a list of integers. -/
def size (members : List Member) : Nat := (members.map fun member => member.type.minSize).sum

end Header

/-! ## Lists of integers -/

/-- Every member is an integer: a vector may have no bytes at all. -/
def Sized (members : List Member) : Prop := ∀ member ∈ members, 0 < member.type.minSize

/-- Every member of a header has a fixed size. -/
theorem sized_header : ∀ members ∈ Header.all, Sized members := by
  unfold Sized
  decide

section
variable {members : List Member}

/-- Bytes put together and taken apart again. -/
theorem shiftBytes_assemble {t : IntType} {field : Bytes} (h : field.length = t.size) :
    t.shiftBytes (t.assemble field) = field := by
  rw [IntType.shiftBytes_eq, IntType.toNat_assemble h, ← h, LittleEndian.bytes_value]

/-- A body of numbers always has the size it is read with. -/
theorem Sized.fits (hsized : Sized members) (values : Values members) : values.Fits := by
  induction values with
  | nil => trivial
  | @cons member members value values ih =>
    obtain ⟨hfirst, hrest⟩ := List.forall_mem_cons.mp hsized
    refine ⟨?_, ih hrest⟩
    obtain ⟨_ | _, init⟩ := member
    · trivial
    · exact absurd hfirst (Nat.lt_irrefl 0)

/-- Its encoding has the static size of the class. -/
theorem Sized.length_encode (hsized : Sized members) (values : Values members) :
    values.encode.length = Header.size members := by
  induction values with
  | nil => rfl
  | @cons member members value values ih =>
    obtain ⟨hfirst, hrest⟩ := List.forall_mem_cons.mp hsized
    have hvalue : (member.type.encode value).length = member.type.minSize := by
      obtain ⟨_ | _, init⟩ := member
      · exact IntType.length_shiftBytes value
      · exact absurd hfirst (Nat.lt_irrefl 0)
    rw [Values.encode, List.length_append, hvalue, ih hrest]
    simp only [Header.size, List.map_cons, List.sum_cons]

/-- Bytes of the static size are the bytes of some values. -/
theorem Sized.exists_encode (hsized : Sized members) {data : Bytes}
    (hdata : data.length = Header.size members) : ∃ values : Values members, values.encode = data := by
  induction members generalizing data with
  | nil => exact ⟨.nil, (List.eq_nil_of_length_eq_zero hdata).symm⟩
  | cons member members ih =>
    obtain ⟨hfirst, hrest⟩ := List.forall_mem_cons.mp hsized
    obtain ⟨t | _, init⟩ := member
    -- the value is what the first bytes are read as: no integer of the size has other bytes
    · have hlen : data.length = t.size + Header.size members := hdata
      have hfield : (data.take t.size).length = t.size := List.length_take_of_le (by omega)
      have hbehind : (data.drop t.size).length = Header.size members := by
        rw [List.length_drop]
        omega
      obtain ⟨values, hvalues⟩ := ih hrest hbehind
      refine ⟨.cons (t.assemble (data.take t.size)) values, ?_⟩
      show t.shiftBytes (t.assemble (data.take t.size)) ++ values.encode = data
      rw [shiftBytes_assemble hfield, hvalues, List.take_append_drop]
    · exact absurd hfirst (Nat.lt_irrefl 0)

end

/-- **The headers read back.**  Whatever its members hold, a header is written to its static size, and
    is read again wherever these bytes stand; and all bytes of that size are written by one header. -/
theorem headers_readBack : ∀ members ∈ Header.all,
    (∀ values : Values members, Stream.written values.serialize = .ok values.encode ∧
      values.encode.length = Header.size members ∧
      Takes Stream.reading (Values.deserialize members) values.encode values) ∧
    ∀ data : Bytes, data.length = Header.size members →
      ∃ values : Values members, values.encode = data := by
  intro members hmembers
  have hsized := sized_header members hmembers
  refine ⟨fun values => ⟨?_, ?_, ?_⟩, fun _ hdata => hsized.exists_encode hdata⟩
  · exact values.appends_serialize.written
  · exact hsized.length_encode values
  · exact values.takes_deserialize (hsized.fits values)

/-- Any 36 bytes are a UDP header. -/
theorem headers_readBack_udp : ∃ values : Values Header.udpHeader, values.encode = List.replicate 36 7 ∧
    Takes Stream.reading (Values.deserialize Header.udpHeader) (List.replicate 36 7) values := by
  obtain ⟨hread, hwritten⟩ := headers_readBack Header.udpHeader (List.mem_cons_self ..)
  obtain ⟨values, hvalues⟩ := hwritten (List.replicate 36 7) rfl
  have htakes := (hread values).2.2
  rw [hvalues] at htakes
  exact ⟨values, hvalues, htakes⟩

/-! ## The header that is not written -/

/-- The word of a coordinator message, marked when a protobuf follows. -/
def makeGcMsg (msg : UInt32) (isProto : Bool) : UInt32 :=
  if isProto then msg ||| PROTO_MASK else msg

/-- The header in front of a coordinator's protobuf. -/
structure MsgGCHdrProtoBuf where
  msg : UInt32
  headerLength : Int32
  proto : CMsgProtoBufHeader

namespace MsgGCHdrProtoBuf

/-- `MsgGCHdrProtoBuf()` -/
def new : MsgGCHdrProtoBuf := ⟨0, 0, .new⟩

/-- Only the type changes. -/
def setEMsg (h : MsgGCHdrProtoBuf) (msg : UInt32) : MsgGCHdrProtoBuf := { h with msg }

variable (codec : Codec CMsgProtoBufHeader)

/-- `protoData` is measured, but there is no `stream.Write(protoData.data(), protoData.size())`.  The
    header behind the call is returned, as its `headerLength` is `mutable`. -/
def serialize (h : MsgGCHdrProtoBuf) : Streaming MsgGCHdrProtoBuf :=
  (codec.serializeToString h.proto).elim (Stream.raise "Failed to serialize proto message")
    fun protoData => do
      let headerLength := UInt32.ofNat protoData.length
      Stream.writeInt32 (makeGcMsg h.msg true)
      Stream.writeInt32 headerLength
      pure { h with headerLength := headerLength.toInt32 }

/-- Line for line that of `MsgHdrProtoBuf`: `get_gc_msg` masks as `get_msg` does. -/
def deserialize : Streaming MsgGCHdrProtoBuf := do
  let h ← MsgHdrProtoBuf.deserialize codec
  pure { msg := h.msg, headerLength := h.headerLength, proto := h.proto }

/-- What is read from the front of `data` has the type and the `proto` of `h`. -/
def ReadsBack (h : MsgGCHdrProtoBuf) (data : Bytes) : Prop :=
  ∃ h' s, deserialize codec (Stream.reading data 0) = .ok h' s ∧ h'.msg = h.msg ∧ h'.proto = h.proto

/-- The two words of a header whose `proto` has `n` bytes. -/
def words (h : MsgGCHdrProtoBuf) (n : Nat) : Bytes :=
  LittleEndian.bytes 4 (makeGcMsg h.msg true).toNat ++ LittleEndian.bytes 4 (UInt32.ofNat n).toNat

variable {codec} {h : MsgGCHdrProtoBuf}

/-- Two words. -/
theorem length_words (n : Nat) : (h.words n).length = 8 := by
  rw [words, List.length_append, LittleEndian.length_bytes, LittleEndian.length_bytes]

/-- The header is written with the length of what was serialized, and has that length behind. -/
theorem yields_serialize {protoData : Bytes}
    (hproto : codec.serializeToString h.proto = some protoData) :
    Stream.Yields (h.serialize codec) (h.words protoData.length)
      { h with headerLength := (UInt32.ofNat protoData.length).toInt32 } := by
  rw [serialize, hproto, ← List.append_nil (h.words _), words, List.append_assoc]
  exact (Stream.appends_append _).bind ((Stream.appends_append _).bind (Stream.yields_pure _))

/-- With enough bytes behind them, the two words are those of a header with these bytes. -/
theorem words_append (proto : CMsgProtoBufHeader) {n : Nat} {rest : Bytes} (hrest : n ≤ rest.length) :
    h.words n ++ rest
      = MsgHdrProtoBuf.wire ⟨h.msg, 0, proto⟩ (rest.take n) ++ rest.drop n := by
  rw [words, MsgHdrProtoBuf.wire, List.length_take_of_le hrest, List.append_assoc, List.append_assoc,
    List.append_assoc, List.take_append_drop]
  rfl

/-- What stands behind the two words is taken for the header, and must be it. -/
theorem readsBack_iff {n : Nat} {rest : Bytes} (hmsg : h.msg.toNat < 2 ^ 31) (hn : n < 2 ^ 31) :
    h.ReadsBack codec (h.words n ++ rest) ↔
      n ≤ rest.length ∧ codec.parseFromArray (rest.take n) = (true, h.proto) := by
  obtain ⟨-, hclamp⟩ := toInt32_length hn
  constructor
  -- the length that is read is the one that was measured, so as many bytes stand behind it
  · rintro ⟨h', s, hok, -, hproto⟩
    obtain ⟨header, s₁, hheader, hok⟩ := Calls.bind_eq_ok hok
    obtain ⟨-, hlength, -, hinside, -, hparse⟩ := MsgHdrProtoBuf.deserialize_eq_ok hheader
    cases hok
    have hword : firstWord ((h.words n ++ rest).drop 4) = UInt32.ofNat n := by
      rw [words, List.append_assoc, List.drop_left' (LittleEndian.length_bytes 4 _)]
      exact firstWord_append _
    rw [hword] at hlength
    rw [hlength, hclamp, List.length_append, length_words] at hinside
    rw [hlength, hclamp, List.drop_left' (length_words n)] at hparse
    rw [← hproto]
    exact ⟨by omega, hparse⟩
  -- the reader cannot tell who wrote them
  · rintro ⟨hrest, hparse⟩
    have hread := MsgHdrProtoBuf.deserialize_wire (h := ⟨h.msg, 0, h.proto⟩) (rest.drop n) hmsg
      (lt_of_eq_of_lt (List.length_take_of_le hrest) hn) hparse
    rw [← words_append h.proto hrest] at hread
    exact ⟨_, _, Calls.bind_ok hread, rfl, rfl⟩

end MsgGCHdrProtoBuf

/-- **A header that is measured and not written** comes back only from what is written behind it.  The
    eight bytes of `MsgGCHdrProtoBuf`, before any others, are read as the header they were written for
    exactly if the bytes behind them start with that header; alone, if it was serialized to nothing. -/
theorem gcHeader_readBack_iff {codec : Codec CMsgProtoBufHeader} (h : MsgGCHdrProtoBuf)
    {protoData : Bytes} (hproto : codec.serializeToString h.proto = some protoData)
    (hmsg : h.msg.toNat < 2 ^ 31) (hlen : protoData.length < 2 ^ 31) :
    ∃ data, Stream.written (h.serialize codec) = .ok data ∧ data.length = 8 ∧
      (∀ rest, h.ReadsBack codec (data ++ rest) ↔ protoData.length ≤ rest.length ∧
        codec.parseFromArray (rest.take protoData.length) = (true, h.proto)) ∧
      (h.ReadsBack codec data ↔ protoData = [] ∧ codec.parseFromArray [] = (true, h.proto)) := by
  refine ⟨h.words protoData.length, (MsgGCHdrProtoBuf.yields_serialize hproto).written,
    MsgGCHdrProtoBuf.length_words _, fun rest => MsgGCHdrProtoBuf.readsBack_iff hmsg hlen, ?_⟩
  have halone : h.ReadsBack codec (h.words protoData.length ++ []) ↔ _ :=
    MsgGCHdrProtoBuf.readsBack_iff hmsg hlen
  rwa [List.append_nil, List.take_nil, List.length_nil, Nat.le_zero, List.length_eq_zero_iff]
    at halone

/-- Of an empty header, and of one with a Steam ID. -/
theorem gcHeader_readBack_steamID :
    let empty : MsgGCHdrProtoBuf := ⟨4006, 0, .new⟩
    let named : MsgGCHdrProtoBuf := ⟨4006, 0, { CMsgProtoBufHeader.new with steamid := some 1 }⟩
    (∃ data, Stream.written (empty.serialize Protobuf.wireFormat.header) = .ok data ∧
      empty.ReadsBack Protobuf.wireFormat.header data) ∧
    ∃ data, Stream.written (named.serialize Protobuf.wireFormat.header) = .ok data ∧
      ¬ named.ReadsBack Protobuf.wireFormat.header data := by
  intro empty named
  have hempty : empty.proto.wire = [] := by decide
  have hnamed : named.proto.wire ≠ [] := by decide
  have hemptyData : Protobuf.wireFormat.header.serializeToString empty.proto = some empty.proto.wire := rfl
  have hnamedData : Protobuf.wireFormat.header.serializeToString named.proto = some named.proto.wire := rfl
  obtain ⟨data, hdata, -, -, halone⟩ := gcHeader_readBack_iff empty hemptyData (by decide) (by decide)
  obtain ⟨data', hdata', -, -, halone'⟩ :=
    gcHeader_readBack_iff named hnamedData (by decide) (by decide)
  exact ⟨⟨data, hdata, halone.mpr ⟨hempty, rfl⟩⟩, data', hdata', fun hback =>
    hnamed (halone'.mp hback).1⟩

end SteamMin.Messages
