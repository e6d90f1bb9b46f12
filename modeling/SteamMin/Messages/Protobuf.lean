/-
  PROTOBUF MESSAGES — the classes protoc generates from `resources/protobufs`.

  The generated code is not part of the repository, so the two functions the code calls on every
  message, `SerializeToString` and `ParseFromArray`, are a parameter: a `Codec` for each class,
  collected in `Protobuf`.  The fields are those of the `.proto` files that the code reads or
  writes; an `optional` field may be absent, and its accessor then gives the default.

  `CMsgProtoBufHeader` is sent on after it was received, so it keeps what it holds beside the fields
  the code knows (`otherFields`).

  What a codec is asked for appears as named hypotheses where it is needed: that a message it
  wrote is read back (`ReadsBack`), that serializing does not fail, that a string field of the
  result is no longer than the input.  `WireFormat.lean` and `WireReadBack.lean` have a codec for
  the wire format itself, for which they are theorems.
-/
import SteamMin.Basic
import SteamMin.Lib.LittleEndian

namespace SteamMin.Messages

/-- `SerializeToString` and `ParseFromArray`.  A parse that fails leaves the fields it has read. -/
structure Codec (M : Type) where
  serializeToString : M → Option Bytes
  parseFromArray : Bytes → Bool × M

/-! ## `steammessages_base.proto` -/

/-- The fields of the header that the client reads or writes. -/
structure CMsgProtoBufHeader where
  steamid : Option UInt64
  clientSessionid : Option Int32
  jobidSource : Option UInt64
  jobidTarget : Option UInt64
  otherFields : Bytes
  deriving DecidableEq

/-- `CMsgProtoBufHeader()` -/
def CMsgProtoBufHeader.new : CMsgProtoBufHeader := ⟨none, none, none, none, []⟩

/-- `client_sessionid()` -/
def CMsgProtoBufHeader.getClientSessionid (m : CMsgProtoBufHeader) : Int32 :=
  m.clientSessionid.getD 0

/-- A batch: the frames, and their unzipped size where they are zipped. -/
structure CMsgMulti where
  sizeUnzipped : Option UInt32
  messageBody : Option Bytes

/-- `size_unzipped()` -/
def CMsgMulti.getSizeUnzipped (m : CMsgMulti) : UInt32 := m.sizeUnzipped.getD 0

/-- `message_body()` -/
def CMsgMulti.getMessageBody (m : CMsgMulti) : Bytes := m.messageBody.getD []

/-! ## `steammessages_clientserver_login.proto` -/

/-- The two fields of a logon that the client sets. -/
structure CMsgClientLogon where
  protocolVersion : Option UInt32
  clientPackageVersion : Option UInt32

/-- `CMsgClientLogon()` -/
def CMsgClientLogon.new : CMsgClientLogon := ⟨none, none⟩

/-- The two fields of the answer that the handler reads. -/
structure CMsgClientLogonResponse where
  eresult : Option Int32
  clientSuppliedSteamid : Option UInt64

/-- `eresult()`, whose default is 2. -/
def CMsgClientLogonResponse.getEresult (m : CMsgClientLogonResponse) : Int32 := m.eresult.getD 2

/-- `client_supplied_steamid()` -/
def CMsgClientLogonResponse.getClientSuppliedSteamid (m : CMsgClientLogonResponse) : UInt64 :=
  m.clientSuppliedSteamid.getD 0

/-! ## `steammessages_clientserver_appinfo.proto` -/

/-- `CMsgClientPICSProductInfoRequest::AppInfo` -/
structure AppInfoRequest where
  appid : Option UInt32
  accessToken : Option UInt64

/-- A product request, of apps only. -/
structure CMsgClientPICSProductInfoRequest where
  apps : List AppInfoRequest

/-- `CMsgClientPICSProductInfoRequest()` -/
def CMsgClientPICSProductInfoRequest.new : CMsgClientPICSProductInfoRequest := ⟨[]⟩

/-- An entry of `CMsgClientPICSProductInfoResponse`: an `AppInfo` with its `appid` or a
    `PackageInfo` with its `packageid`. -/
structure ProductInfo where
  id : Option UInt32
  sha : Option Bytes
  buffer : Option Bytes

/-- `appid()`, `packageid()` -/
def ProductInfo.getId (m : ProductInfo) : UInt32 := m.id.getD 0

/-- `sha()` -/
def ProductInfo.getSha (m : ProductInfo) : Bytes := m.sha.getD []

/-- `buffer()` -/
def ProductInfo.getBuffer (m : ProductInfo) : Bytes := m.buffer.getD []

/-- A product response, in entries for apps and for packages. -/
structure CMsgClientPICSProductInfoResponse where
  apps : List ProductInfo
  packages : List ProductInfo

/-- The codecs of the classes. -/
structure Protobuf where
  header : Codec CMsgProtoBufHeader
  multi : Codec CMsgMulti
  clientLogon : Codec CMsgClientLogon
  clientLogonResponse : Codec CMsgClientLogonResponse
  productInfoRequest : Codec CMsgClientPICSProductInfoRequest
  productInfoResponse : Codec CMsgClientPICSProductInfoResponse

/-! ## The messages the code sends, in the wire format -/

/-- Seven bits at a time, the low ones first; ten bytes are enough for 64 bits. -/
def varintLoop : Nat → Nat → Bytes
  | 0, _ => []
  | fuel + 1, n =>
    if n < 128 then [UInt8.ofNat n] else UInt8.ofNat (n % 128 + 128) :: varintLoop fuel (n / 128)

/-- A number in at most ten groups of seven bits. -/
def varint (n : Nat) : Bytes := varintLoop 10 n

/-- A field of wire type 0. -/
def varintField (number : Nat) (n : Option Nat) : Bytes :=
  match n with
  | none => []
  | some n => varint (8 * number) ++ varint n

/-- A field of wire type 1. -/
def fixed64Field (number : Nat) (v : Option UInt64) : Bytes :=
  match v with
  | none => []
  | some v => varint (8 * number + 1) ++ LittleEndian.bytes 8 v.toNat

/-- A field of wire type 2. -/
def bytesField (number : Nat) (data : Bytes) : Bytes :=
  varint (8 * number + 2) ++ varint data.length ++ data

/-- A negative `int32` is written with 64 bits. -/
def CMsgProtoBufHeader.wire (m : CMsgProtoBufHeader) : Bytes :=
  fixed64Field 1 m.steamid ++ varintField 2 (m.clientSessionid.map fun i => i.toInt64.toUInt64.toNat) ++
    fixed64Field 10 m.jobidSource ++ fixed64Field 11 m.jobidTarget ++ m.otherFields

/-- The fields in the order of their numbers. -/
def CMsgClientLogon.wire (m : CMsgClientLogon) : Bytes :=
  varintField 1 (m.protocolVersion.map UInt32.toNat) ++
    varintField 5 (m.clientPackageVersion.map UInt32.toNat)

/-- The fields in the order of their numbers. -/
def AppInfoRequest.wire (m : AppInfoRequest) : Bytes :=
  varintField 1 (m.appid.map UInt32.toNat) ++ varintField 2 (m.accessToken.map UInt64.toNat)

/-- The apps one behind the other. -/
def CMsgClientPICSProductInfoRequest.wire (m : CMsgClientPICSProductInfoRequest) : Bytes :=
  m.apps.flatMap fun app => bytesField 2 app.wire

/-- Codecs for a peer that sends no protobuf messages: they write the wire format and parse
    nothing. -/
def Protobuf.writing : Protobuf where
  header := ⟨fun m => some m.wire, fun _ => (false, .new)⟩
  multi := ⟨fun _ => none, fun _ => (false, ⟨none, none⟩)⟩
  clientLogon := ⟨fun m => some m.wire, fun _ => (false, .new)⟩
  clientLogonResponse := ⟨fun _ => none, fun _ => (false, ⟨none, none⟩)⟩
  productInfoRequest := ⟨fun m => some m.wire, fun _ => (false, .new)⟩
  productInfoResponse := ⟨fun _ => none, fun _ => (false, ⟨[], []⟩)⟩

end SteamMin.Messages
