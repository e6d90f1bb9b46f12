/-
  INCOMING FRAMES — `CMClient::consume_frame`, the dispatcher and the handlers of
  `src/routing/events`.

  A frame is decrypted if the channel is secured, classified by its first word, decoded as a packet
  and dispatched to the handler registered for its message type.  One handler, `handle_multi`, feeds
  the frames of a batch back into `consume_frame`; it takes `consumeFrame` as an argument, and each
  nesting costs one unit of fuel.

  An array access outside its bounds is `Fault.undefined`: the dispatch tables have `MAX_EMSG`
  slots, the first word is assembled from four bytes that need not be there.

  Exceptions end at two places.  The dispatch of a frame runs inside a `try` block that swallows
  them; opening the envelope stands in front of it, so a frame that does not open throws out of
  `consume_frame` into the read handler of the connection.

  What a handler of the user does is behind `emit`, which is a parameter here: everything in this
  module is the code's own.
-/
import SteamMin.Client.CMClient
import SteamMin.Vdf.TextParser
import SteamMin.Vdf.BinaryParser

namespace SteamMin.Client

open Messages Crypto

variable {C E : Type}

/-! ## The dispatcher -/

/-- The size of both tables: an index of this value or above is outside. -/
def MAX_EMSG : Nat := 12301

/-- `DispatchTable` -/
structure DispatchTable (C E : Type) where
  proto : Nat → Option (PacketClientMsgProtobuf → Calling C E Unit)
  msg : Nat → Option (PacketMsg → Calling C E Unit)

/-- `table[id]`, for an array of `MAX_EMSG` slots. -/
def slot {H : Type} (table : Nat → Option H) (id : Nat) : Except Fault (Option H) :=
  if id < MAX_EMSG then .ok (table id) else .error .undefined

variable (table : DispatchTable C E) (emit : Event → Calling C E Unit)

/-- `dispatch_proto`.  The bound check admits `MAX_EMSG` itself, one behind the table; an empty
    slot emits the event of an unknown message. -/
def dispatchProto (packet : PacketClientMsgProtobuf) : Calling C E Unit := do
  record (.dispatchedProto packet)
  let id := getMsg packet.msgType
  if id.toNat ≤ MAX_EMSG then
    match ← Calls.lift (slot table.proto id.toNat) with
    | some fn => fn packet
    | none => emit (.msgNotImplemented id (.proto packet))
  else pure ()

/-- `dispatch_msg`, the same for raw packets. -/
def dispatchMsg (packet : PacketMsg) : Calling C E Unit := do
  record (.dispatchedMsg packet)
  let id := packet.msgType
  if id.toNat ≤ MAX_EMSG then
    match ← Calls.lift (slot table.msg id.toNat) with
    | some fn => fn packet
    | none => emit (.msgNotImplemented id (.raw packet))
  else pure ()

/-! ## The handshake -/

section
variable [IConnection C E] (p : Platform)

/-- `e.what()` -/
def what : Exn → String
  | .runtimeError what => what
  | .outOfRange what => what
  | .invalidArgument what => what
  | .lengthError what => what
  | .badVariantAccess => "std::bad_variant_access"
  | .cryptoPP what => what

/-- `handle_encrypt_request`: the answer is built by the encryption manager and sent; any
    exception becomes a failed event. -/
def handleEncryptRequest (packet : PacketMsg) : Calling C E Unit :=
  catchStd
    (do
      let response ← onCrypto (EncryptionManager.generateEncryptionResponse p packet)
      sendMsg p response.serialize)
    fun e => emit (.channelSecured (.fail (what e)))

/-- `handle_encrypt_result`: the flag follows the result of the server. -/
def handleEncryptResult (packet : PacketMsg) : Calling C E Unit := do
  let res : Msg MsgChannelEncryptResult ← Calls.lift (Msg.ofPacket (.raw packet))
  let success : Bool := res.body.result = EResult.ok
  setChannelSecured success
  emit (.channelSecured
    (if success then .ok else .fail "Failed to encrypt channel; bad server?"))

end

/-! ## The session -/

section
variable (p : Platform)

/-- `handle_logon_response`: decodes the answer and emits what it says. -/
def handleLogonResponse (packet : PacketClientMsgProtobuf) : Calling C E Unit := do
  let msg : MsgProto CMsgClientLogonResponse ←
    Calls.lift (MsgProto.ofPacket p.protobuf.clientLogonResponse (.proto packet))
  let result : EResult := msg.body.getEresult.toUInt32
  let success : Bool := result = EResult.ok
  emit (.clientLogon
    (if success then .ok else .fail "Client login failed; incorrect information?")
    (some msg.body.getClientSuppliedSteamid) (some msg.header.proto.getClientSessionid))

/-! ## Product information -/

/-- Two lower-case digits a byte. -/
def hexlify (data : Bytes) : Bytes :=
  let hex := ascii "0123456789abcdef"
  data.flatMap fun (b : Byte) => [hex.getD (b >>> 4).toNat 0, hex.getD (b &&& 0xF).toNat 0]

/-- `obj[key]`, which makes a node with an empty string when there is none. -/
def subscript (obj : Vdf.Object) (key : Bytes) : Vdf.VDFNode := (obj.get key).getD (.string [])

/-- `node.as_object()` -/
def asObject (node : Vdf.VDFNode) : Except Fault Vdf.Object :=
  match node with
  | ⟨.object entries, canonical⟩ => .ok ⟨entries, canonical.1, canonical.2⟩
  | _ => .error (.throws .badVariantAccess)

/-- The text parser runs over the buffer of the entry without its last byte, where the terminator
    stands. -/
def parseApp (app : ProductInfo) : Except Fault ProductAppInfo := do
  let buffer := app.getBuffer.dropLast
  let vdf ← Vdf.parseText buffer
  let appinfo ← asObject (subscript vdf (ascii "appinfo"))
  pure { appid := app.getId, sha := hexlify app.getSha, appinfo := .object appinfo }

/-- The pointer skips four bytes and the size is a `size_t`, whatever the size of the buffer. -/
def parsePkg (pkg : ProductInfo) : Except Fault ProductPackageInfo := do
  let buffer := pkg.getBuffer
  let vdf ← Vdf.parseBinary (buffer.drop 4) (sizeT (buffer.length + 2 ^ 64 - 4))
  let pkginfo ← asObject (subscript vdf (ascii (toString pkg.getId.toNat)))
  pure { packageid := pkg.getId, sha := hexlify pkg.getSha, pkginfo := .object pkginfo }

/-- `handle_prod_info_response`: apps first, packages behind them, one event for all.  An exception
    leaves before the event. -/
def handleProdInfoResponse (packet : PacketClientMsgProtobuf) : Calling C E Unit := do
  let msg : MsgProto CMsgClientPICSProductInfoResponse ←
    Calls.lift (MsgProto.ofPacket p.protobuf.productInfoResponse (.proto packet))
  let apps ← Calls.lift (msg.body.apps.mapM parseApp)
  let packages ← Calls.lift (msg.body.packages.mapM parsePkg)
  emit (.productInfoResult apps packages)

/-! ## Batches -/

/-- `read_frame`: the frame at `offset` and the offset behind it. -/
def readFrame (payload : Bytes) (offset : Nat) : Option (Bytes × Nat) :=
  if payload.length < offset + 4 then none
  else
    let subSize := (LittleEndian.word32 ((payload.drop offset).take 4)).toNat
    let offset := offset + 4
    if payload.length < offset + subSize then none
    else some ((payload.drop offset).take subSize, offset + subSize)

/-- `GZip::gzip_decompress`, which does not look at the expected size. -/
def gzipDecompress (input : Bytes) (_expectedSize : Nat) : Except Fault Bytes :=
  match p.cryptoPP.gunzip input with
  | .ok output => .ok output
  | .error what => runtimeError what

variable (consumeFrame : Bytes → Bool → Calling C E Unit)

/-- The loop of `handle_multi`; every turn moves the offset by at least four bytes. -/
def multiLoop (payload : Bytes) : Nat → Nat → Calling C E Unit
  | 0, _ => throw .diverges
  | fuel + 1, offset =>
    match readFrame payload offset with
    | none => pure ()
    | some (frame, offset) => do
      consumeFrame frame false
      multiLoop payload fuel offset

/-- `handle_multi`: the payload is unzipped when it says so, and its frames are consumed
    in order. -/
def handleMulti (packet : PacketClientMsgProtobuf) : Calling C E Unit := do
  let multi : MsgProto CMsgMulti ←
    Calls.lift (MsgProto.ofPacket p.protobuf.multi (.proto packet))
  let payload := multi.body.getMessageBody
  let sizeUnzipped := multi.body.getSizeUnzipped
  let payload ←
    (if 0 < sizeUnzipped then Calls.lift (gzipDecompress p payload sizeUnzipped.toNat)
     else pure payload)
  multiLoop consumeFrame payload (payload.length + 1) 0

end

/-! ## `consume_frame` -/

section
variable [IConnection C E] (p : Platform)

/-- `g_dispatch` once the handlers have been registered. -/
def gDispatch (consumeFrame : Bytes → Bool → Calling C E Unit) : DispatchTable C E where
  proto id :=
    if id = EMsg.multi.toNat then some (handleMulti p consumeFrame)
    else if id = EMsg.clientLogOnResponse.toNat then some (handleLogonResponse emit p)
    else if id = EMsg.clientPICSProductInfoResponse.toNat then
      some (handleProdInfoResponse emit p)
    else none
  msg id :=
    if id = EMsg.channelEncryptRequest.toNat then some (handleEncryptRequest emit p)
    else if id = EMsg.channelEncryptResult.toNat then some (handleEncryptResult emit)
    else none

/-- The three messages of the handshake, which are decoded as raw packets.  The mark of a protobuf
    makes another word. -/
def isEncryptionMsg (emsgCode : UInt32) : Bool :=
  emsgCode = EMsg.channelEncryptRequest || emsgCode = EMsg.channelEncryptResponse ||
    emsgCode = EMsg.channelEncryptResult

/-- `data[0] | (data[1] << 8) | (data[2] << 16) | (data[3] << 24)` -/
def readEmsg (data : Bytes) : Except Fault UInt32 :=
  if 4 ≤ data.length then .ok (firstWord data) else .error .undefined

/-- The `try` block of `consume_frame`. -/
def dispatchFrame (emsg : UInt32) (data : Bytes) : Calling C E Unit :=
  if isEncryptionMsg emsg then do
    let raw ← Calls.lift (PacketMsg.make emsg data)
    dispatchMsg table emit raw
  else if isProtobufMsg emsg then do
    let proto ← Calls.lift (PacketClientMsgProtobuf.make p.protobuf.header emsg data)
    dispatchProto table emit proto
  else pure ()

/-- `consume_frame`.  A batch calls it again for its frames, with `encrypt` false; the fuel bounds
    how deep. -/
def consumeFrame : Nat → Bytes → Bool → Calling C E Unit
  | 0, _, _ => throw .diverges
  | fuel + 1, frame, encrypt => do
    if frame.length < 4 then pure ()
    else
      let c ← get
      record (.consumed frame encrypt c.channelSecured)
      let data ←
        (if encrypt && c.channelSecured then
           Calls.lift (EncryptionManager.processIncomingEncryptedMessage p c.crypto frame)
         else pure frame)
      let emsg ← Calls.lift (readEmsg data)
      catchStd (dispatchFrame (gDispatch emit p (consumeFrame fuel)) emit p emsg data)
        fun _ => pure ()

end

end SteamMin.Client
