/-
  THE CHANNEL: a client as its peer and its user can tell.

  All that is left of a client here is `channel_secured_`, the record and the connection.  `Step`
  says what can be added to the record at a time and what becomes of the flag and the connection:
  it knows no callbacks, no nesting of frames, no tables and no keys.  What holds in every state that
  `Step` reaches holds of the client however its callbacks re-enter it, because every call of the
  client is a run of `Step` (`SteamMin.Client.ChannelRefinement`).

  `Src` is where the dispatched packets may come from: `Step p Src` dispatches only packets whose
  bytes satisfy `Src`.

  Two facts about the flag are visible in `Step`: only a raw packet of type ChannelEncryptResult
  moves it, and nothing ever moves it at the begin of a session.
-/
import SteamMin.Client.Handlers

namespace SteamMin.Client

open Messages Crypto

/-- What a client shows of its channel: the flag, the log and the connection. -/
structure Channel (C : Type) where
  secured : Bool
  log : List Entry
  connection : C

/-! ## What frames and buffers are -/

/-- The serialization of a ChannelEncryptResponse. -/
def IsHandshake (buffer : Bytes) : Prop :=
  ∃ m : Msg MsgChannelEncryptResponse,
    m.header.msg = EMsg.channelEncryptResponse ∧ m.serialize = .ok buffer

/-- The frame is a raw packet of the handshake, in plaintext. -/
def IsRaw (frame : Bytes) (packet : PacketMsg) : Prop :=
  isEncryptionMsg (firstWord frame) ∧ PacketMsg.make (firstWord frame) frame = .ok packet

/-- What a ChannelEncryptResult says: whether the peer accepts.  A packet that cannot be decoded
    says nothing. -/
def verdict (packet : PacketMsg) : Option Bool :=
  match (Msg.ofPacket (.raw packet) : Except Fault (Msg MsgChannelEncryptResult)) with
  | .ok res => some (res.body.result = EResult.ok)
  | .error _ => none

/-- Product information requests are serialized: all their fields are numbers. -/
structure SerializesRequests (protobuf : Protobuf) : Prop where
  header : ∀ m : CMsgProtoBufHeader, m.otherFields = [] →
    (protobuf.header.serializeToString m).isSome
  body : ∀ m : CMsgClientPICSProductInfoRequest, m.apps.length ≤ 1 →
    (protobuf.productInfoRequest.serializeToString m).isSome

/-! ## Batches -/

section
variable (p : Platform)

/-- The payload of a batch, decompressed if it says so. -/
def multiPayload (packet : PacketClientMsgProtobuf) : Except Fault Bytes := do
  let multi : MsgProto CMsgMulti ← MsgProto.ofPacket p.protobuf.multi (.proto packet)
  let payload := multi.body.getMessageBody
  let sizeUnzipped := multi.body.getSizeUnzipped
  if 0 < sizeUnzipped then gzipDecompress p payload sizeUnzipped.toNat else pure payload

/-- The offsets at which the loop of `handle_multi` looks for a frame. -/
inductive LoopOffset (payload : Bytes) : Nat → Prop
  | start : LoopOffset payload 0
  | next {offset offset' : Nat} {frame : Bytes} (h : LoopOffset payload offset)
      (hread : readFrame payload offset = some (frame, offset')) : LoopOffset payload offset'

/-- `frame` is a batch, and `sub` one of the frames in it. -/
def SubFrame (frame sub : Bytes) : Prop :=
  isProtobufMsg (firstWord frame) ∧ ∃ packet payload offset offset',
    PacketClientMsgProtobuf.make p.protobuf.header (firstWord frame) frame = .ok packet ∧
    getMsg packet.msgType = EMsg.multi ∧ multiPayload p packet = .ok payload ∧
    LoopOffset payload offset ∧ readFrame payload offset = some (sub, offset')

/-- With a batch, what is in it. -/
def Closed (Src : Bytes → Prop) : Prop := ∀ frame sub, Src frame → SubFrame p frame sub → Src sub

end

/-! ## The steps -/

/-- The event says that the channel is secured. -/
def Event.IsSecured : Event → Prop
  | .channelSecured result => result.success = true
  | _ => False

/-- The event behind a ChannelEncryptResult. -/
def resultEvent (success : Bool) : Event :=
  .channelSecured (if success then .ok else .fail "Failed to encrypt channel; bad server?")

section
variable (p : Platform) (b : Bool)

/-- What follows a ChannelEncryptRequest at once, on a channel with `channel_secured_ = b`. -/
inductive Answer (packet : PacketMsg) : List Entry → Prop
  /-- a response is sent; in the clear if the channel is -/
  | handed {message buffer : Bytes} (hmessage : IsHandshake message)
      (hplain : b = false → buffer = message) : Answer packet [.handed message buffer b]
  /-- no response can be made, and the user is told why -/
  | failed {crypto crypto' : EncryptionManager} {e : Exn}
      (hfailed : EncryptionManager.generateEncryptionResponse p packet crypto
        = .error (.throws e) crypto') : Answer packet [.emitted (.channelSecured (.fail (what e)))]
  /-- the envelope of a secured channel cannot be built -/
  | stuck (hsecured : b = true) : Answer packet []

/-- What is recorded from the dispatch of a raw packet on, and the flag behind it. -/
inductive Dispatched : PacketMsg → List Entry → Bool → Prop
  | request {packet : PacketMsg} {es : List Entry}
      (htype : packet.msgType = EMsg.channelEncryptRequest) (hanswer : Answer p b packet es) :
      Dispatched packet (.dispatchedMsg packet :: es) b
  | result {packet : PacketMsg} {success connected : Bool}
      (htype : packet.msgType = EMsg.channelEncryptResult)
      (hverdict : verdict packet = some success) :
      Dispatched packet [.dispatchedMsg packet, .securedSet success b connected,
        .emitted (resultEvent success)] success
  /-- a ChannelEncryptResult that cannot be decoded -/
  | unreadable {packet : PacketMsg} (htype : packet.msgType = EMsg.channelEncryptResult)
      (hverdict : verdict packet = none) : Dispatched packet [.dispatchedMsg packet] b
  | other {packet : PacketMsg} (hrequest : packet.msgType ≠ EMsg.channelEncryptRequest)
      (hresult : packet.msgType ≠ EMsg.channelEncryptResult) :
      Dispatched packet [.dispatchedMsg packet] b

end

section
variable {C E : Type} [IConnection C E]

/-- What the connection is told when the entry is recorded. -/
def Entry.send (k : C) : Entry → C
  | .handed _ buffer _ => IConnection.asyncSend buffer k
  | _ => k

/-- What a client can do to it, each time with all that it records at once. -/
inductive Channel.Step (p : Platform) (Src : Bytes → Prop) : Channel C → Channel C → Prop
  | startCalled {b : Bool} {l : List Entry} {k : C} (net : E) : Step p Src ⟨b, l, k⟩
      ⟨b, l ++ [.startCalled],
        Calls.after (IConnection.networkConnect net (IConnection.setOnFrame k))⟩
  | started {b : Bool} {l : List Entry} {k : C} : Step p Src ⟨b, l, k⟩ ⟨b, l ++ [.started b], k⟩
  | shutdownCalled {b : Bool} {l : List Entry} {k : C} : Step p Src ⟨b, l, k⟩
      ⟨b, l ++ [.shutdownCalled],
        if IConnection.isConnected k then IConnection.networkClose k else k⟩
  | emitted {b : Bool} {l : List Entry} {k : C} (event : Event) (hevent : ¬ event.IsSecured) :
      Step p Src ⟨b, l, k⟩ ⟨b, l ++ [.emitted event], k⟩
  /-- a command that sends its message -/
  | commanded {b : Bool} {l : List Entry} {k : C} {command : Command} {message buffer : Bytes}
      (hproto : isProtobufMsg (firstWord message) = true)
      (hplain : b = false → buffer = message ∧ command.IsProductInfo) :
      Step p Src ⟨b, l, k⟩ ⟨b, l ++ [.executed command b, .handed message buffer b],
        IConnection.asyncSend buffer k⟩
  /-- a command that sends nothing -/
  | refused {b : Bool} {l : List Entry} {k : C} {command : Command}
      (hrefused : b = false → command.IsProductInfo → ¬ SerializesRequests p.protobuf) :
      Step p Src ⟨b, l, k⟩ ⟨b, l ++ [.executed command b], k⟩
  /-- a raw packet in the clear -/
  | rawFrame {b b' : Bool} {l es : List Entry} {k : C} {frame : Bytes} {encrypt : Bool}
      {packet : PacketMsg} (hsrc : Src packet.payload) (hplain : (encrypt && b) = false)
      (hraw : IsRaw frame packet) (hdispatched : Dispatched p b packet es b') :
      Step p Src ⟨b, l, k⟩ ⟨b', l ++ .consumed frame encrypt b :: es, es.foldl Entry.send k⟩
  /-- any other frame -/
  | frame {b : Bool} {l : List Entry} {k : C} {frame : Bytes} {encrypt : Bool}
      (hother : (encrypt && b) = false → ∀ packet, ¬ IsRaw frame packet) :
      Step p Src ⟨b, l, k⟩ ⟨b, l ++ [.consumed frame encrypt b], k⟩
  /-- a raw packet that was decrypted -/
  | dispatchedMsg {b b' : Bool} {l es : List Entry} {k : C} {packet : PacketMsg}
      (hsrc : Src packet.payload) (hdispatched : Dispatched p b packet es b') :
      Step p Src ⟨b, l, k⟩ ⟨b', l ++ es, es.foldl Entry.send k⟩
  | dispatchedProto {b : Bool} {l : List Entry} {k : C} (packet : PacketClientMsgProtobuf)
      (hsrc : Src packet.payload) : Step p Src ⟨b, l, k⟩ ⟨b, l ++ [.dispatchedProto packet], k⟩

end

/-! ## Words on the wire -/

/-- A ChannelEncryptResponse starts with its type. -/
theorem firstWord_handshake {buffer : Bytes} (h : IsHandshake buffer) :
    firstWord buffer = EMsg.channelEncryptResponse := by
  obtain ⟨m, hmsg, hm⟩ := h
  rw [Msg.serialize_eq m.body.appends_serialize] at hm
  rw [← Except.ok.inj hm, MsgHdr.wire, List.append_assoc, firstWord_append, hmsg]

/-- So no protobuf message is one. -/
theorem not_isHandshake_of_proto {buffer : Bytes} (h : isProtobufMsg (firstWord buffer) = true) :
    ¬ IsHandshake buffer := by
  intro hhandshake
  rw [firstWord_handshake hhandshake] at h
  nomatch h

end SteamMin.Client
