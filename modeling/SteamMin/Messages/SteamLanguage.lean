/-
  THE STEAM LANGUAGE — `include/steamclient/types/generated` and `utilities/msg_utils.hpp`.

  The enumerations of the wire protocol are `int`s that may hold any value, also one without an
  enumerator: here they are their 32-bit words, with a name for each enumerator the code uses.
  A header and a body know how to write themselves to a stream and how to read themselves from one.

  The type word of a message carries one bit that is no part of the type (`PROTO_MASK`): it says
  which of the two headers follows.  `makeMsg` sets it and `getMsg` takes it off.  Only
  `is_encryption_msg` compares a word as it came with enumerators, so that a message of the
  handshake with the bit set is none.

  Reading is stated twice for the challenge: what it reads where the bytes are there, and which
  exception it is where they are not (`MsgChannelEncryptRequest.deserialize_cases`).
-/
import SteamMin.Messages.Stream
import SteamMin.Messages.Protobuf

namespace SteamMin.Messages

/-! ## Enumerations -/

/-- `EMsg`; a value of the wire need not be one of the list. -/
abbrev EMsg := UInt32

namespace EMsg

def invalid : EMsg := 0
def multi : EMsg := 1
def clientChatAction : EMsg := 597
def clientLogOff : EMsg := 706
def clientGetLegacyGameKey : EMsg := 730
def clientAppUsageEvent : EMsg := 747
def clientLogOnResponse : EMsg := 751
def clientLoggedOff : EMsg := 757
def gsApprove : EMsg := 758
def gsDeny : EMsg := 759
def gsKick : EMsg := 760
def clientVACBanStatus : EMsg := 782
def clientGetLegacyGameKeyResponse : EMsg := 785
def clientUpdateGuestPassesList : EMsg := 798
def clientChatMsg : EMsg := 799
def clientJoinChat : EMsg := 801
def clientChatMemberInfo : EMsg := 802
def clientChatEnter : EMsg := 807
def clientCreateChat : EMsg := 809
def clientCreateChatResponse : EMsg := 810
def clientP2PIntroducerMessage : EMsg := 813
def clientChatActionResult : EMsg := 814
def clientSetIgnoreFriend : EMsg := 855
def clientSetIgnoreFriendResponse : EMsg := 856
def gsGetPlayStatsResponse : EMsg := 919
def gsGetUserGroupStatus : EMsg := 920
def gsGetUserGroupStatusResponse : EMsg := 923
def gsGetReputationResponse : EMsg := 937
def channelEncryptRequest : EMsg := 1303
def channelEncryptResponse : EMsg := 1304
def channelEncryptResult : EMsg := 1305
def clientChatRoomInfo : EMsg := 4026
def gsPerformHardwareSurvey : EMsg := 5440
def clientGetFriendsWhoPlayGame : EMsg := 5488
def clientGetFriendsWhoPlayGameResponse : EMsg := 5489
def clientOGSBeginSession : EMsg := 5490
def clientOGSBeginSessionResponse : EMsg := 5491
def clientOGSEndSession : EMsg := 5492
def clientOGSEndSessionResponse : EMsg := 5493
def clientOGSWriteRow : EMsg := 5494
def clientServerUnavailable : EMsg := 5500
def clientMarketingMessageUpdate2 : EMsg := 5510
def clientLogon : EMsg := 5514
def clientPICSProductInfoRequest : EMsg := 8903
def clientPICSProductInfoResponse : EMsg := 8904
def clientPendingGameLaunchResponse : EMsg := 12301

end EMsg

/-- `EResult` -/
abbrev EResult := UInt32

namespace EResult

def invalid : EResult := 0
def ok : EResult := 1

end EResult

/-- `EUniverse` -/
abbrev EUniverse := UInt32

namespace EUniverse

def invalid : EUniverse := 0
/-- `EUniverse::Public` -/
def pub : EUniverse := 1

end EUniverse

/-- `EAccountType` -/
abbrev EAccountType := UInt32

def EAccountType.anonUser : EAccountType := 10

/-! ## `MsgUtil` -/

/-- The top bit of a type word on the wire: set, a protobuf header follows; clear, a plain one. -/
def PROTO_MASK : UInt32 := 0x80000000

/-- The word that goes on the wire for a message type, marked when the body is a protobuf. -/
def makeMsg (msg : EMsg) (isProto : Bool) : UInt32 := if isProto then msg ||| PROTO_MASK else msg

/-- The message type behind a word of the wire: the mark is cleared, so both kinds share the
    numbers. -/
def getMsg (raw : UInt32) : EMsg := raw &&& ~~~PROTO_MASK

/-- Which of the two headers follows a word, decided by the mark alone. -/
def isProtobufMsg (emsg : UInt32) : Bool := 0 < emsg &&& PROTO_MASK

/-- A word with the bit is a protobuf message. -/
theorem isProtobufMsg_makeMsg (msg : EMsg) : isProtobufMsg (makeMsg msg true) = true := by
  have hbit : (msg ||| PROTO_MASK) &&& PROTO_MASK = PROTO_MASK := by
    rw [PROTO_MASK]
    apply UInt32.toBitVec_inj.mp
    ext i
    simp only [UInt32.toBitVec_and, UInt32.toBitVec_or, BitVec.getElem_and, BitVec.getElem_or]
    cases (UInt32.toBitVec 2147483648)[i] <;> simp
  show decide (0 < (msg ||| PROTO_MASK) &&& PROTO_MASK) = true
  rw [hbit]
  rfl

/-! ## `SteamID` -/

/-- `SteamID` -/
structure SteamID where
  value : UInt64

/-- `SteamID(accountID, instance, universe, accountType)` -/
def SteamID.make (accountID inst : UInt32) (euniverse : EUniverse) (accountType : EAccountType) :
    SteamID where
  value := (accountID.toUInt64 <<< 0) ||| (inst.toUInt64 <<< 32) |||
    (accountType.toUInt64 <<< 52) ||| (euniverse.toUInt64 <<< 56)

/-- `ConvertToUInt64()` -/
def SteamID.convertToUInt64 (s : SteamID) : UInt64 := s.value

/-! ## Headers -/

/-- `MsgHdr` -/
structure MsgHdr where
  msg : EMsg
  targetJobID : UInt64
  sourceJobID : UInt64
  deriving DecidableEq

namespace MsgHdr

/-- `MsgHdr()` -/
def new : MsgHdr := ⟨EMsg.invalid, UInt64.ofNat (2 ^ 64 - 1), UInt64.ofNat (2 ^ 64 - 1)⟩

/-- Only the type changes: the job ids that the constructor put in stay. -/
def setEMsg (h : MsgHdr) (msg : EMsg) : MsgHdr := { h with msg }

/-- Twenty bytes in the order of the fields, each little endian. -/
def serialize (h : MsgHdr) : Streaming Unit := do
  Stream.writeInt32 h.msg
  Stream.writeInt64 h.targetJobID
  Stream.writeInt64 h.sourceJobID

/-- The mirror of `serialize`: short data stops it with the exception of the stream. -/
def deserialize : Streaming MsgHdr := do
  let msg ← Stream.readInt32
  let targetJobID ← Stream.readInt64
  let sourceJobID ← Stream.readInt64
  pure { msg, targetJobID, sourceJobID }

end MsgHdr

/-- `MsgHdrProtoBuf` -/
structure MsgHdrProtoBuf where
  msg : EMsg
  headerLength : Int32
  proto : CMsgProtoBufHeader

namespace MsgHdrProtoBuf

/-- `MsgHdrProtoBuf()` -/
def new : MsgHdrProtoBuf := ⟨EMsg.invalid, 0, .new⟩

/-- Only the type changes, as for the plain header. -/
def setEMsg (h : MsgHdrProtoBuf) (msg : EMsg) : MsgHdrProtoBuf := { h with msg }

variable (codec : Codec CMsgProtoBufHeader)

/-- `Serialize() const`, which returns the header as it is behind the call: `headerLength` is
    `mutable`, and the length of the serialized `proto` is assigned to it before it is written. -/
def serialize (h : MsgHdrProtoBuf) : Streaming MsgHdrProtoBuf :=
  match codec.serializeToString h.proto with
  | none => Stream.raise "Failed to serialize proto message"
  | some protoData => do
    let headerLength := UInt32.ofNat protoData.length
    Stream.writeInt32 (makeMsg h.msg true)
    Stream.writeInt32 headerLength
    Stream.writeRaw protoData
    pure { h with headerLength := headerLength.toInt32 }

def deserialize : Streaming MsgHdrProtoBuf := do
  let msg := getMsg (← Stream.readInt32)
  let headerLength := (← Stream.readInt32).toInt32
  if headerLength < 0 then throw (.throws (.outOfRange "Negative length"))
  let buffer ← Stream.readInto headerLength.toNatClampNeg
  match codec.parseFromArray buffer with
  | (false, _) => Stream.raise "Failed to parse protobuf message"
  | (true, proto) => pure { msg, headerLength, proto }

end MsgHdrProtoBuf

/-! ## Bodies of raw messages -/

/-- `ISteamSerializableMessage`, with the default constructor of the class. -/
class ISteamSerializableMessage (TBody : Type) where
  getEMsg : EMsg
  new : TBody
  serialize : TBody → Streaming Unit
  deserialize : Streaming TBody

/-- The first message of the handshake, in front of the challenge. -/
structure MsgChannelEncryptRequest where
  protocolVersion : UInt32
  euniverse : EUniverse

/-- `PROTOCOL_VERSION`, the version that a new request has, and a new response. -/
def MsgChannelEncryptRequest.PROTOCOL_VERSION : UInt32 := 1

instance : ISteamSerializableMessage MsgChannelEncryptRequest where
  getEMsg := EMsg.channelEncryptRequest
  new := ⟨MsgChannelEncryptRequest.PROTOCOL_VERSION, EUniverse.invalid⟩
  serialize m := do
    Stream.writeInt32 m.protocolVersion
    Stream.writeInt32 m.euniverse
  deserialize := do
    let protocolVersion ← Stream.readInt32
    let euniverse ← Stream.readInt32
    pure { protocolVersion, euniverse }

/-- With eight bytes left the request reads both words and leaves the cursor behind them: the
    challenge is what follows. -/
theorem MsgChannelEncryptRequest.deserialize_reading {data : Bytes} {offset : Nat}
    (h : offset + 8 ≤ data.length) :
    (ISteamSerializableMessage.deserialize : Streaming MsgChannelEncryptRequest)
        (Stream.reading data offset)
      = .ok { protocolVersion := LittleEndian.word32 ((data.drop offset).take 4)
              euniverse := LittleEndian.word32 ((data.drop (offset + 4)).take 4) }
          (Stream.reading data (offset + 8)) := by
  show (Stream.readInt32 >>= fun protocolVersion => Stream.readInt32 >>=
    fun euniverse => pure ⟨protocolVersion, euniverse⟩ : Streaming MsgChannelEncryptRequest) _ = _
  rw [Calls.bind_ok (Stream.readInt32_reading (by omega)),
    Calls.bind_ok (Stream.readInt32_reading (by omega))]
  rfl

/-- Two words are read, or the stream ends before. -/
theorem MsgChannelEncryptRequest.deserialize_cases (data : Bytes) (offset : Nat)
    (hsize : offset + 8 < 2 ^ 64) :
    (offset + 8 ≤ data.length ∧ ∃ m s, (ISteamSerializableMessage.deserialize :
        Streaming MsgChannelEncryptRequest) (Stream.reading data offset) = .ok m s) ∨
    (data.length < offset + 8 ∧ ∃ what s, (ISteamSerializableMessage.deserialize :
        Streaming MsgChannelEncryptRequest) (Stream.reading data offset)
          = .error (.throws (.runtimeError what)) s) := by
  by_cases hlen : offset + 8 ≤ data.length
  · exact .inl ⟨hlen, _, _, deserialize_reading hlen⟩
  · refine .inr ⟨by omega, ?_⟩
    show ∃ what s, (Stream.readInt32 >>= fun protocolVersion => Stream.readInt32 >>=
      fun euniverse => pure ⟨protocolVersion, euniverse⟩ : Streaming MsgChannelEncryptRequest) _
        = EStateM.Result.error (.throws (.runtimeError what)) s
    -- the first of the two words that does not fit throws
    by_cases hfirst : offset + 4 ≤ data.length
    · rw [Calls.bind_ok (Stream.readInt32_reading hfirst),
        Calls.bind_error (Stream.readInt32_underflow (by omega) (by omega))]
      exact ⟨_, _, rfl⟩
    · rw [Calls.bind_error (Stream.readInt32_underflow (by omega) (by omega))]
      exact ⟨_, _, rfl⟩

/-- The answer, in front of the enciphered key. -/
structure MsgChannelEncryptResponse where
  protocolVersion : UInt32
  keySize : UInt32

instance : ISteamSerializableMessage MsgChannelEncryptResponse where
  getEMsg := EMsg.channelEncryptResponse
  new := ⟨MsgChannelEncryptRequest.PROTOCOL_VERSION, 128⟩
  serialize m := do
    Stream.writeInt32 m.protocolVersion
    Stream.writeInt32 m.keySize
  deserialize := do
    let protocolVersion ← Stream.readInt32
    let keySize ← Stream.readInt32
    pure { protocolVersion, keySize }

theorem MsgChannelEncryptResponse.appends_serialize (m : MsgChannelEncryptResponse) :
    Stream.Appends (ISteamSerializableMessage.serialize m)
      (LittleEndian.bytes 4 m.protocolVersion.toNat ++ LittleEndian.bytes 4 m.keySize.toNat) :=
  (Stream.appends_append _).seq (Stream.appends_append _)

/-- The verdict of the server. -/
structure MsgChannelEncryptResult where
  result : EResult

instance : ISteamSerializableMessage MsgChannelEncryptResult where
  getEMsg := EMsg.channelEncryptResult
  new := ⟨EResult.invalid⟩
  serialize m := Stream.writeInt32 m.result
  deserialize := do
    let result ← Stream.readInt32
    pure { result }

end SteamMin.Messages
