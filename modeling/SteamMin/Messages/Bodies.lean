/-
  THE BODIES OF RAW MESSAGES — `include/steamclient/types/generated/SteamLanguageInternal.hpp`.

  The header is generated: every body is a list of members, written and read one after the other.  A
  `BodyType` is that list, with the initial values of the constructor, and `BodyType.all` are the
  types of the header.  An unsigned integer of more than one byte is read as the signed one of its
  size and cast; an enumeration is cast to `int` and written as that.

  `SteamLanguage.lean` has the three bodies of the handshake as classes of their own; they follow
  their lists (`Follows`).

  A family of near-identical classes is one definition with the list of members as its parameter;
  the source's names are the values of that parameter, each with its members in the order of the
  header.  What is proved is proved once, by induction on the list: a body is appended as its
  encoding, takes at least its smallest size, and is read back wherever it stands if its parts
  have the sizes they are read with.
-/
import SteamMin.Messages.TypedValues

namespace SteamMin.Messages

open MachineInt ReadBack

/-! ## Members -/

/-- The types of the members of a body. -/
inductive MemberType
  | int (t : IntType)
  /-- a `std::vector<unsigned char>`, of which `count` bytes are read -/
  | bytes (count : Nat)

namespace MemberType

/-- What a member holds. -/
abbrev Value : MemberType → Type
  | .int t => t.Value
  | .bytes _ => Bytes

/-- The integer type a member is read as. -/
def readType : IntType → IntType
  | .uint16 => .int16
  | .uint32 => .int32
  | .uint64 => .int64
  | t => t

/-- The call that writes a member. -/
def write : (type : MemberType) → type.Value → Streaming Unit
  | .int t, value => Stream.write t value
  | .bytes _, data => Stream.writeBytes data

/-- The call that reads it, into a variable of the type the generator chose. -/
def read : (type : MemberType) → Streaming type.Value
  | .int t => do pure ((← Stream.read (readType t)).setWidth t.width)
  | .bytes count => do pure ((← Stream.readArray .uint8 count).map fun v => UInt8.ofNat v.toNat)

/-- The bytes of a member. -/
def encode : (type : MemberType) → type.Value → Bytes
  | .int t, value => t.shiftBytes value
  | .bytes _, data => data

/-- A vector has the size that will be read. -/
def Fits : (type : MemberType) → type.Value → Prop
  | .int _, _ => True
  | .bytes count, data => data.length = count

/-- How many bytes a member has at least. -/
def minSize : MemberType → Nat
  | .int t => t.size
  | .bytes _ => 0

end MemberType

/-- A member with its initializer. -/
structure Member where
  type : MemberType
  init : type.Value

/-- A number, with its initial value. -/
def Member.int (t : IntType) (init : Nat) : Member := ⟨.int t, BitVec.ofNat _ init⟩

/-- Bytes, zero at first. -/
def Member.bytes (count : Nat) : Member := ⟨.bytes count, List.replicate count 0⟩

/-! ## Bodies -/

/-- One value for each member. -/
inductive Values : List Member → Type
  | nil : Values []
  | cons {member : Member} {members : List Member} (value : member.type.Value)
      (values : Values members) : Values (member :: members)

namespace Values

/-- The default constructor: every member has its initializer. -/
def new : (members : List Member) → Values members
  | [] => .nil
  | member :: members => .cons member.init (new members)

/-- Member after member. -/
def serialize {members : List Member} : Values members → Streaming Unit
  | .nil => pure ()
  | .cons value values => do
    MemberType.write _ value
    values.serialize

/-- Member after member, in the same order. -/
def deserialize : (members : List Member) → Streaming (Values members)
  | [] => pure .nil
  | member :: members => do
    let value ← member.type.read
    let values ← deserialize members
    pure (.cons value values)

/-- The bytes of the members, one behind the other. -/
def encode {members : List Member} : Values members → Bytes
  | .nil => []
  | .cons value values => MemberType.encode _ value ++ values.encode

/-- Every member has the size it is read with. -/
def Fits {members : List Member} : Values members → Prop
  | .nil => True
  | .cons value values => MemberType.Fits _ value ∧ values.Fits

end Values

/-- A generated class: its type and its members. -/
structure BodyType where
  eMsg : EMsg
  members : List Member

namespace BodyType

/-- A value of the class. -/
def Body (T : BodyType) : Type := Values T.members

instance (T : BodyType) : ISteamSerializableMessage T.Body where
  getEMsg := T.eMsg
  new := Values.new T.members
  serialize := Values.serialize
  deserialize := Values.deserialize T.members

/-- How many bytes a body has at least. -/
def minSize (T : BodyType) : Nat := (T.members.map fun member => member.type.minSize).sum

/-- no members -/
def msgClientJustStrings : BodyType := ⟨EMsg.invalid, []⟩

/-- `result : EResult` -/
def msgClientGenericResponse : BodyType := ⟨EMsg.invalid, [.int .int32 0]⟩

/-- `protocolVersion`, `universe : EUniverse` -/
def msgChannelEncryptRequest : BodyType :=
  ⟨EMsg.channelEncryptRequest, [.int .uint32 1, .int .int32 0]⟩

/-- `protocolVersion`, `keySize` -/
def msgChannelEncryptResponse : BodyType :=
  ⟨EMsg.channelEncryptResponse, [.int .uint32 1, .int .uint32 128]⟩

/-- `result : EResult` -/
def msgChannelEncryptResult : BodyType := ⟨EMsg.channelEncryptResult, [.int .int32 0]⟩

/-- no members -/
def msgClientLogon : BodyType := ⟨EMsg.clientLogon, []⟩

/-- `numBans` -/
def msgClientVACBanStatus : BodyType := ⟨EMsg.clientVACBanStatus, [.int .uint32 0]⟩

/-- `appUsageEvent : EAppUsageEvent`, `gameID`, `offline` -/
def msgClientAppUsageEvent : BodyType :=
  ⟨EMsg.clientAppUsageEvent, [.int .int32 0, .int .uint64 0, .int .uint16 0]⟩

/-- `result : EResult`, `countGuestPassesToGive`, `countGuestPassesToRedeem` -/
def msgClientUpdateGuestPassesList : BodyType :=
  ⟨EMsg.clientUpdateGuestPassesList, [.int .int32 0, .int .int32 0, .int .int32 0]⟩

/-- `steamID`, `routingType : EIntroducerRouting`, `data`, `dataLen` -/
def msgClientP2PIntroducerMessage : BodyType :=
  ⟨EMsg.clientP2PIntroducerMessage, [.int .uint64 0, .int .int32 0, .bytes 1450, .int .uint32 0]⟩

/-- `accountType`, `accountId`, `appId`, `timeStarted` -/
def msgClientOGSBeginSession : BodyType :=
  ⟨EMsg.clientOGSBeginSession, [.int .uint8 0, .int .uint64 0, .int .uint32 0, .int .uint32 0]⟩

/-- `result : EResult`, `collectingAny`, `collectingDetails`, `sessionId` -/
def msgClientOGSBeginSessionResponse : BodyType :=
  ⟨EMsg.clientOGSBeginSessionResponse,
    [.int .int32 0, .int .uint8 0, .int .uint8 0, .int .uint64 0]⟩

/-- `sessionId`, `timeEnded`, `reasonCode`, `countAttributes` -/
def msgClientOGSEndSession : BodyType :=
  ⟨EMsg.clientOGSEndSession, [.int .uint64 0, .int .uint32 0, .int .int32 0, .int .int32 0]⟩

/-- `result : EResult` -/
def msgClientOGSEndSessionResponse : BodyType := ⟨EMsg.clientOGSEndSessionResponse, [.int .int32 0]⟩

/-- `sessionId`, `countAttributes` -/
def msgClientOGSWriteRow : BodyType := ⟨EMsg.clientOGSWriteRow, [.int .uint64 0, .int .int32 0]⟩

/-- `gameId` -/
def msgClientGetFriendsWhoPlayGame : BodyType :=
  ⟨EMsg.clientGetFriendsWhoPlayGame, [.int .uint64 0]⟩

/-- `result : EResult`, `gameId`, `countFriends` -/
def msgClientGetFriendsWhoPlayGameResponse : BodyType :=
  ⟨EMsg.clientGetFriendsWhoPlayGameResponse, [.int .int32 0, .int .uint64 0, .int .uint32 0]⟩

/-- `flags` -/
def msgGSPerformHardwareSurvey : BodyType := ⟨EMsg.gsPerformHardwareSurvey, [.int .uint32 0]⟩

/-- `result : EResult`, `rank`, `lifetimeConnects`, `lifetimeMinutesPlayed` -/
def msgGSGetPlayStatsResponse : BodyType :=
  ⟨EMsg.gsGetPlayStatsResponse, [.int .int32 0, .int .int32 0, .int .uint32 0, .int .uint32 0]⟩

/-- `result : EResult`, `reputationScore`, `banned`, `bannedIp`, `bannedPort`, `bannedGameId`,
    `timeBanExpires` -/
def msgGSGetReputationResponse : BodyType :=
  ⟨EMsg.gsGetReputationResponse,
    [.int .int32 0, .int .uint32 0, .int .uint8 0, .int .uint32 0, .int .uint16 0,
     .int .uint64 0, .int .uint32 0]⟩

/-- `steamId`, `denyReason : EDenyReason` -/
def msgGSDeny : BodyType := ⟨EMsg.gsDeny, [.int .uint64 0, .int .int32 0]⟩

/-- `steamId` -/
def msgGSApprove : BodyType := ⟨EMsg.gsApprove, [.int .uint64 0]⟩

/-- `steamId`, `denyReason : EDenyReason`, `waitTilMapChange` -/
def msgGSKick : BodyType := ⟨EMsg.gsKick, [.int .uint64 0, .int .int32 0, .int .int32 0]⟩

/-- `steamIdUser`, `steamIdGroup` -/
def msgGSGetUserGroupStatus : BodyType :=
  ⟨EMsg.gsGetUserGroupStatus, [.int .uint64 0, .int .uint64 0]⟩

/-- `steamIdUser`, `steamIdGroup`, `clanRelationship : EClanRelationship`, `clanRank : EClanRank` -/
def msgGSGetUserGroupStatusResponse : BodyType :=
  ⟨EMsg.gsGetUserGroupStatusResponse,
    [.int .uint64 0, .int .uint64 0, .int .int32 0, .int .int32 0]⟩

/-- `steamIdChat`, `isVoiceSpeaker` -/
def msgClientJoinChat : BodyType := ⟨EMsg.clientJoinChat, [.int .uint64 0, .int .uint8 0]⟩

/-- `steamIdChat`, `steamIdFriend`, `chatRoomType : EChatRoomType`, `steamIdOwner`, `steamIdClan`,
    `chatFlags`, `enterResponse : EChatRoomEnterResponse`, `numMembers` -/
def msgClientChatEnter : BodyType :=
  ⟨EMsg.clientChatEnter,
    [.int .uint64 0, .int .uint64 0, .int .int32 0, .int .uint64 0, .int .uint64 0,
     .int .uint8 0, .int .int32 0, .int .int32 0]⟩

/-- `steamIdChatter`, `steamIdChatRoom`, `chatMsgType : EChatEntryType` -/
def msgClientChatMsg : BodyType :=
  ⟨EMsg.clientChatMsg, [.int .uint64 0, .int .uint64 0, .int .int32 0]⟩

/-- `steamIdChat`, `type : EChatInfoType` -/
def msgClientChatMemberInfo : BodyType :=
  ⟨EMsg.clientChatMemberInfo, [.int .uint64 0, .int .int32 0]⟩

/-- `steamIdChat`, `steamIdUserToActOn`, `chatAction : EChatAction` -/
def msgClientChatAction : BodyType :=
  ⟨EMsg.clientChatAction, [.int .uint64 0, .int .uint64 0, .int .int32 0]⟩

/-- `steamIdChat`, `steamIdUserActedOn`, `chatAction : EChatAction`,
    `actionResult : EChatActionResult` -/
def msgClientChatActionResult : BodyType :=
  ⟨EMsg.clientChatActionResult, [.int .uint64 0, .int .uint64 0, .int .int32 0, .int .int32 0]⟩

/-- `steamIdChat`, `type : EChatInfoType` -/
def msgClientChatRoomInfo : BodyType := ⟨EMsg.clientChatRoomInfo, [.int .uint64 0, .int .int32 0]⟩

/-- `mySteamId`, `steamIdFriend`, `ignore` -/
def msgClientSetIgnoreFriend : BodyType :=
  ⟨EMsg.clientSetIgnoreFriend, [.int .uint64 0, .int .uint64 0, .int .uint8 0]⟩

/-- `friendId`, `result : EResult` -/
def msgClientSetIgnoreFriendResponse : BodyType :=
  ⟨EMsg.clientSetIgnoreFriendResponse, [.int .uint64 0, .int .int32 0]⟩

/-- `result : EResult`, `secMinReconnectHint`, `secMaxReconnectHint` -/
def msgClientLoggedOff : BodyType :=
  ⟨EMsg.clientLoggedOff, [.int .int32 0, .int .int32 0, .int .int32 0]⟩

/-- `result : EResult`, `outOfGameHeartbeatRateSec`, `inGameHeartbeatRateSec`,
    `clientSuppliedSteamId`, `ipPublic`, `serverRealTime` -/
def msgClientLogOnResponse : BodyType :=
  ⟨EMsg.clientLogOnResponse,
    [.int .int32 0, .int .int32 0, .int .int32 0, .int .uint64 0, .int .uint32 0,
     .int .uint32 0]⟩

/-- `jobidSent`, `eMsgSent`, `eServerTypeUnavailable : EServerType` -/
def msgClientServerUnavailable : BodyType :=
  ⟨EMsg.clientServerUnavailable, [.int .uint64 0, .int .uint32 0, .int .int32 0]⟩

/-- `chatRoomType : EChatRoomType`, `gameId`, `steamIdClan`, `permissionOfficer : EChatPermission`,
    `permissionMember : EChatPermission`, `permissionAll : EChatPermission`, `membersMax`,
    `chatFlags`, `steamIdFriendChat`, `steamIdInvited` -/
def msgClientCreateChat : BodyType :=
  ⟨EMsg.clientCreateChat,
    [.int .int32 0, .int .uint64 0, .int .uint64 0, .int .int32 282, .int .int32 282,
     .int .int32 891, .int .uint32 0, .int .uint8 0, .int .uint64 0, .int .uint64 0]⟩

/-- `result : EResult`, `steamIdChat`, `chatRoomType : EChatRoomType`, `steamIdFriendChat` -/
def msgClientCreateChatResponse : BodyType :=
  ⟨EMsg.clientCreateChatResponse, [.int .int32 0, .int .uint64 0, .int .int32 0, .int .uint64 0]⟩

/-- `marketingMessageUpdateTime`, `count` -/
def msgClientMarketingMessageUpdate2 : BodyType :=
  ⟨EMsg.clientMarketingMessageUpdate2, [.int .uint32 0, .int .uint32 0]⟩

/-- `appId` -/
def msgClientGetLegacyGameKey : BodyType := ⟨EMsg.clientGetLegacyGameKey, [.int .uint32 0]⟩

/-- `appId`, `result : EResult`, `length` -/
def msgClientGetLegacyGameKeyResponse : BodyType :=
  ⟨EMsg.clientGetLegacyGameKeyResponse, [.int .uint32 0, .int .int32 0, .int .uint32 0]⟩

/-- The bodies of the header, in its order. -/
def all : List BodyType :=
  [msgClientJustStrings, msgClientGenericResponse, msgChannelEncryptRequest,
   msgChannelEncryptResponse, msgChannelEncryptResult, msgClientLogon, msgClientVACBanStatus,
   msgClientAppUsageEvent, msgClientUpdateGuestPassesList, msgClientP2PIntroducerMessage,
   msgClientOGSBeginSession, msgClientOGSBeginSessionResponse, msgClientOGSEndSession,
   msgClientOGSEndSessionResponse, msgClientOGSWriteRow, msgClientGetFriendsWhoPlayGame,
   msgClientGetFriendsWhoPlayGameResponse, msgGSPerformHardwareSurvey, msgGSGetPlayStatsResponse,
   msgGSGetReputationResponse, msgGSDeny, msgGSApprove, msgGSKick, msgGSGetUserGroupStatus,
   msgGSGetUserGroupStatusResponse, msgClientJoinChat, msgClientChatEnter, msgClientChatMsg,
   msgClientChatMemberInfo, msgClientChatAction, msgClientChatActionResult, msgClientChatRoomInfo,
   msgClientSetIgnoreFriend, msgClientSetIgnoreFriendResponse, msgClientLoggedOff,
   msgClientLogOnResponse, msgClientServerUnavailable, msgClientCreateChat,
   msgClientCreateChatResponse, msgClientMarketingMessageUpdate2, msgClientGetLegacyGameKey,
   msgClientGetLegacyGameKeyResponse]

/-- Only the bodies without members may be empty. -/
theorem minSize_all : ∀ T ∈ all, T.members.length = 0 ∨ 0 < T.minSize := by
  decide

end BodyType

/-! ## What a body does to a stream -/

namespace MemberType

variable {t : IntType}

/-- A member is appended as its encoding. -/
theorem appends_write (type : MemberType) (value : type.Value) :
    Stream.Appends (type.write value) (type.encode value) := by
  cases type with
  | int t => exact Stream.appends_append _
  | bytes count => exact Stream.appends_append _

/-- A member takes at least its smallest size. -/
theorem minSize_le (type : MemberType) (value : type.Value) :
    type.minSize ≤ (type.encode value).length := by
  cases type with
  | int t => exact (IntType.length_shiftBytes value).ge
  | bytes count => exact Nat.zero_le _

/-- The type a member is read as has the size of the type it is written as. -/
theorem size_readType (t : IntType) : (readType t).size = t.size := by
  cases t <;> rfl

/-- An integer is read as another type of its size, whose bytes are the same. -/
theorem takes_readInt (value : t.Value) :
    Takes Stream.reading (read (.int t)) (t.shiftBytes value) value := by
  -- no bit is lost on the way, as the two types have the same width
  have hwidth : (readType t).width = t.width := by rw [IntType.width, size_readType]
  have hlt : value.toNat < 2 ^ (readType t).width := by
    rw [hwidth]
    exact value.isLt
  have hbytes : (readType t).shiftBytes (value.setWidth _) = t.shiftBytes value := by
    rw [IntType.shiftBytes_eq, IntType.shiftBytes_eq, size_readType, BitVec.toNat_setWidth,
      Nat.mod_eq_of_lt hlt]
  have hvalue : (value.setWidth (readType t).width).setWidth t.width = value := by
    simp [hwidth]
  have hread := (Stream.takes_read (value.setWidth (readType t).width)).map
    fun word => word.setWidth t.width
  rwa [hbytes, hvalue] at hread

/-- A byte as an `unsigned char`. -/
def uchar (b : Byte) : IntType.uint8.Value := BitVec.ofNat _ b.toNat

/-- A byte is written as itself. -/
theorem shiftBytes_uchar (b : Byte) : IntType.uint8.shiftBytes (uchar b) = [b] := by
  rw [uchar, IntType.shiftBytes_ofNat b.toNat_lt]
  simp [LittleEndian.bytes, IntType.size]

/-- And has its value. -/
theorem toNat_uchar (b : Byte) : (uchar b).toNat = b.toNat := by
  rw [uchar, BitVec.toNat_ofNat]
  exact Nat.mod_eq_of_lt b.toNat_lt

/-- Bytes are taken back. -/
theorem takes_readBytes {count : Nat} {data : Bytes} (h : data.length = count) :
    Takes Stream.reading (read (.bytes count)) data data := by
  subst h
  have hbytes : (data.map uchar).flatMap IntType.uint8.shiftBytes = data := by
    simp [List.flatMap_map, shiftBytes_uchar]
  have hdata : (data.map uchar).map (fun v => UInt8.ofNat v.toNat) = data := by
    simp [Function.comp_def, toNat_uchar]
  have hread := (Stream.takes_readArray (data.map uchar)).map
    fun bytes => bytes.map fun v => UInt8.ofNat v.toNat
  rw [hbytes, hdata, List.length_map] at hread
  exact hread

/-- A member is read where its bytes stand. -/
theorem takes_read (type : MemberType) {value : type.Value} (h : type.Fits value) :
    Takes Stream.reading type.read (type.encode value) value := by
  cases type with
  | int t => exact takes_readInt value
  | bytes count => exact takes_readBytes h

end MemberType

namespace Values

variable {members : List Member}

/-- A body is appended as its encoding, by induction on its members. -/
theorem appends_serialize (values : Values members) :
    Stream.Appends values.serialize values.encode := by
  induction values with
  | nil =>
    intro buffer
    simp [encode]
    rfl
  | cons value values ih => exact (MemberType.appends_write _ value).seq ih

theorem minSize_le (values : Values members) :
    (members.map fun member => member.type.minSize).sum ≤ values.encode.length := by
  induction values with
  | nil => simp
  | cons value values ih =>
    have hfirst := MemberType.minSize_le _ value
    simp only [List.map_cons, List.sum_cons, encode, List.length_append]
    omega

/-- **A body reads back**, if its vectors have the size that the reader expects. -/
theorem takes_deserialize (values : Values members) (h : values.Fits) :
    Takes Stream.reading (deserialize members) values.encode values := by
  induction values with
  | nil => exact takes_pure Values.nil
  | cons value values ih =>
    obtain ⟨hvalue, hvalues⟩ := h
    exact (MemberType.takes_read _ hvalue).bind ((ih hvalues).map (Values.cons value))

end Values

/-! ## The bodies of the handshake -/

/-- `TBody` is a class with the members of `T`. -/
structure Follows (TBody : Type) [ISteamSerializableMessage TBody] (T : BodyType)
    (values : TBody → T.Body) : Prop where
  getEMsg : ISteamSerializableMessage.getEMsg TBody = T.eMsg
  new : values ISteamSerializableMessage.new = ISteamSerializableMessage.new
  serialize : ∀ m, ISteamSerializableMessage.serialize m
    = ISteamSerializableMessage.serialize (values m)
  deserialize : (do pure (values (← ISteamSerializableMessage.deserialize)))
    = (ISteamSerializableMessage.deserialize : Streaming T.Body)

/-- A word as an integer of its size. -/
def word (w : UInt32) : BitVec 32 := BitVec.ofNat _ w.toNat

/-- A word of the body as a number and back. -/
theorem word_ofNat (v : BitVec 32) : word (UInt32.ofNat v.toNat) = v := by
  simp [word]

/-- A word is a member of either sign. -/
theorem readWord_eq : MemberType.read (.int .int32) = (do pure (word (← Stream.readInt32))) ∧
    MemberType.read (.int .uint32) = (do pure (word (← Stream.readInt32))) := by
  have hread : (do pure (word (← Stream.readInt32)))
      = (do pure ((← Stream.read .int32).setWidth 32) : Streaming (BitVec 32)) := by
    rw [Stream.readInt32_eq, bind_assoc]
    refine bind_congr fun v => ?_
    rw [pure_bind]
    exact congrArg pure ((word_ofNat v).trans (BitVec.setWidth_eq v).symm)
  exact ⟨hread.symm, hread.symm⟩

/-- The challenge is one of the generated bodies. -/
theorem MsgChannelEncryptRequest.follows : Follows MsgChannelEncryptRequest .msgChannelEncryptRequest
    fun m => .cons (word m.protocolVersion) (.cons (word m.euniverse) .nil) where
  getEMsg := rfl
  new := rfl
  serialize m := by
    show (do Stream.writeInt32 m.protocolVersion; Stream.writeInt32 m.euniverse) = _
    rw [(Stream.writeInt32_eq m.protocolVersion).1, (Stream.writeInt32_eq m.euniverse).2]
    exact congrArg _ (funext fun _ => (bind_pure _).symm)
  deserialize := by
    show _ = Values.deserialize [.int .uint32 1, .int .int32 0]
    simp only [Values.deserialize, Member.int, readWord_eq, ISteamSerializableMessage.deserialize,
      bind_assoc, pure_bind]
    rfl

/-- So is the answer. -/
theorem MsgChannelEncryptResponse.follows :
    Follows MsgChannelEncryptResponse .msgChannelEncryptResponse
      fun m => .cons (word m.protocolVersion) (.cons (word m.keySize) .nil) where
  getEMsg := rfl
  new := rfl
  serialize m := by
    show (do Stream.writeInt32 m.protocolVersion; Stream.writeInt32 m.keySize) = _
    rw [(Stream.writeInt32_eq m.protocolVersion).1, (Stream.writeInt32_eq m.keySize).1]
    exact congrArg _ (funext fun _ => (bind_pure _).symm)
  deserialize := by
    show _ = Values.deserialize [.int .uint32 1, .int .uint32 128]
    simp only [Values.deserialize, Member.int, readWord_eq, ISteamSerializableMessage.deserialize,
      bind_assoc, pure_bind]
    rfl

/-- So is the result. -/
theorem MsgChannelEncryptResult.follows : Follows MsgChannelEncryptResult .msgChannelEncryptResult
    fun m => .cons (word m.result) .nil where
  getEMsg := rfl
  new := rfl
  serialize m := by
    show Stream.writeInt32 m.result = _
    rw [(Stream.writeInt32_eq m.result).2]
    exact (bind_pure _).symm
  deserialize := by
    show _ = Values.deserialize [.int .int32 0]
    simp only [Values.deserialize, Member.int, readWord_eq, ISteamSerializableMessage.deserialize,
      bind_assoc, pure_bind]
    rfl

end SteamMin.Messages
