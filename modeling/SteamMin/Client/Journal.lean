/-
  THE JOURNAL: the record of a client, turn by turn.

  A turn is what one call leaves in the record before anything else can: a call of the user with what
  it sends, or a frame with the packet it decodes to and what that packet brings about at once.  The
  user's callbacks, and the frames of a batch, come behind the turn they belong to, with turns of
  their own.

  `Turn` says for each kind of turn what stands in it, to the last byte of the message that is sent
  and the last field of the event that is emitted.  Besides `channel_secured_` it needs two things of
  the client: the session key, which never changes, and the counter of the job ids.

  * `Journal.Step` — one turn is added, or a listener;
  * `Turns` — a record made of turns from the beginning, with the flag and the counter behind it;
  * `Turns.turn_of` — every entry of such a record stands in a turn.

  That the record of a client is one is `turns_run` (`SteamMin.Client.JournalRefinement`).
-/
import SteamMin.Client.BadBodies

namespace SteamMin.Client

open Messages Crypto

/-! ## Messages on their way out -/

/-- The message of a command; `jobid` is the next job id. -/
def Command.message (p : Platform) (jobid : UInt64) : Command → Except Fault Bytes
  | .anonymousLogin => anonLogonMessage.serialize p.protobuf.header p.protobuf.clientLogon
  | .clientLogoff => logoffMessage.serialize p.protobuf.header p.protobuf.clientLogon
  | .getProductInfo id steamid clientSessionid appToken =>
    (productInfoRequest id steamid clientSessionid appToken jobid).serialize p.protobuf.header
      p.protobuf.productInfoRequest

/-- The counter of the job ids behind a command. -/
def Command.draws (jobid : UInt64) : Command → UInt64
  | .getProductInfo _ _ _ _ => jobid + 1
  | _ => jobid

/-- What a command that needs a secured channel does without one. -/
def Command.refusal : Command → List Entry
  | .anonymousLogin => [.emitted (.clientLogon (.fail "Channel not secured") none none)]
  | _ => []

section
variable (p : Platform) (key : Bytes) (b : Bool)

/-- `buffer` goes out for `message`: its envelope if the channel is secured. -/
def Carries (message buffer : Bytes) : Prop :=
  if b then ∃ pool pool',
    Helpers.symmetricEncryptHmacIv p.cryptoPP message key (key.take 16) pool = .ok buffer pool'
  else buffer = message

/-- The channel is secured, and there is no envelope for the message. -/
def NoEnvelope (message : Bytes) : Prop :=
  b = true ∧ ∃ pool fault pool',
    Helpers.symmetricEncryptHmacIv p.cryptoPP message key (key.take 16) pool = .error fault pool'

/-! ## Frames on their way in -/

/-- What is read of a frame: its plaintext if the channel is secured. -/
def receivedUnder (frame : Bytes) (encrypt : Bool) : Except Fault Bytes :=
  if encrypt && b then Helpers.symmetricDecryptHmacIv p.cryptoPP frame key (key.take 16)
  else .ok frame

/-- The bytes are a protobuf packet. -/
def IsProto (data : Bytes) (packet : PacketClientMsgProtobuf) : Prop :=
  isEncryptionMsg (firstWord data) = false ∧ isProtobufMsg (firstWord data) = true ∧
    PacketClientMsgProtobuf.make p.protobuf.header (firstWord data) data = .ok packet

/-- What a protobuf packet brings about at once: an event, or nothing.  The frames of a batch have
    turns of their own. -/
def protoReaction (packet : PacketClientMsgProtobuf) : List Entry :=
  let id := getMsg packet.msgType
  if MAX_EMSG ≤ id.toNat || id = EMsg.multi then []
  else if id = EMsg.clientLogOnResponse then
    [.emitted (logonEvent packet
      (p.protobuf.clientLogonResponse.parseFromArray (bodyBytes packet)).2)]
  else if id = EMsg.clientPICSProductInfoResponse then
    match parseEntries (responseBody p packet) with
    | .ok entries => [.emitted (.productInfoResult entries.1 entries.2)]
    | .error _ => []
  else [.emitted (.msgNotImplemented id (.proto packet))]

/-- What a raw packet brings about at once, and the flag behind it. -/
inductive RawReaction (packet : PacketMsg) : List Entry → Bool → Prop
  /-- a request is answered -/
  | answered {crypto crypto' : EncryptionManager} {response : Msg MsgChannelEncryptResponse}
      {message buffer : Bytes} (htype : packet.msgType = EMsg.channelEncryptRequest)
      (hkey : crypto.sessionKey = key)
      (hresponse : EncryptionManager.generateEncryptionResponse p packet crypto
        = .ok response crypto')
      (hmessage : response.serialize = .ok message) (hbuffer : Carries p key b message buffer) :
      RawReaction packet [.handed message buffer b] b
  /-- there is a response, but no envelope for it -/
  | unanswered {crypto crypto' : EncryptionManager} {response : Msg MsgChannelEncryptResponse}
      {message : Bytes} (htype : packet.msgType = EMsg.channelEncryptRequest)
      (hkey : crypto.sessionKey = key)
      (hresponse : EncryptionManager.generateEncryptionResponse p packet crypto
        = .ok response crypto')
      (hmessage : response.serialize = .ok message) (hbuffer : NoEnvelope p key b message) :
      RawReaction packet [] b
  /-- a request is refused, and the user is told why -/
  | declined {crypto crypto' : EncryptionManager} {e : Exn}
      (htype : packet.msgType = EMsg.channelEncryptRequest) (hkey : crypto.sessionKey = key)
      (hfailed : EncryptionManager.generateEncryptionResponse p packet crypto
        = .error (.throws e) crypto') :
      RawReaction packet [.emitted (.channelSecured (.fail (what e)))] b
  /-- the verdict of the peer -/
  | result {success connected : Bool} (htype : packet.msgType = EMsg.channelEncryptResult)
      (hverdict : verdict packet = some success) :
      RawReaction packet [.securedSet success b connected, .emitted (resultEvent success)] success
  /-- a verdict that cannot be decoded -/
  | unreadable (htype : packet.msgType = EMsg.channelEncryptResult)
      (hverdict : verdict packet = none) : RawReaction packet [] b
  /-- a ChannelEncryptResponse, which has no handler -/
  | unhandled (htype : packet.msgType = EMsg.channelEncryptResponse) :
      RawReaction packet [.emitted (.msgNotImplemented packet.msgType (.raw packet))] b

/-- What a frame brings about at once, and the flag behind it. -/
inductive FrameReaction : Except Fault Bytes → List Entry → Bool → Prop
  /-- the frame cannot be decrypted -/
  | rejected {fault : Fault} : FrameReaction (.error fault) [] b
  | raw {data : Bytes} {packet : PacketMsg} {es : List Entry} {b' : Bool}
      (hraw : IsRaw data packet) (hreaction : RawReaction p key b packet es b') :
      FrameReaction (.ok data) (.dispatchedMsg packet :: es) b'
  | proto {data : Bytes} {packet : PacketClientMsgProtobuf} (hproto : IsProto p data packet) :
      FrameReaction (.ok data) (.dispatchedProto packet :: protoReaction p packet) b
  /-- it is no packet -/
  | ignored {data : Bytes} (hraw : ∀ packet, ¬ IsRaw data packet)
      (hproto : ∀ packet, ¬ IsProto p data packet) : FrameReaction (.ok data) [] b

end

/-! ## Turns -/

section
variable (p : Platform) (key : Bytes)

/-- A turn, with the flag and the counter in front of it and behind it. -/
inductive Turn : Bool → UInt64 → List Entry → Bool → UInt64 → Prop
  | startCalled {b : Bool} {n : UInt64} : Turn b n [.startCalled] b n
  | started {b : Bool} {n : UInt64} : Turn b n [.startCalled, .started b] b n
  | shutdownCalled {b : Bool} {n : UInt64} : Turn b n [.shutdownCalled] b n
  /-- a command sends its message -/
  | sent {b : Bool} {n : UInt64} {command : Command} {message buffer : Bytes}
      (hsends : b = true ∨ command.IsProductInfo) (hmessage : command.message p n = .ok message)
      (hbuffer : Carries p key b message buffer) :
      Turn b n [.executed command b, .handed message buffer b] b (command.draws n)
  /-- its message cannot be serialized -/
  | unserialized {b : Bool} {n : UInt64} {command : Command} {fault : Fault}
      (hsends : b = true ∨ command.IsProductInfo) (hmessage : command.message p n = .error fault) :
      Turn b n [.executed command b] b (command.draws n)
  /-- there is no envelope for it -/
  | unsealed {b : Bool} {n : UInt64} {command : Command} {message : Bytes}
      (hmessage : command.message p n = .ok message) (hbuffer : NoEnvelope p key b message) :
      Turn b n [.executed command b] b (command.draws n)
  /-- a command needs a secured channel -/
  | refused {n : UInt64} {command : Command} (hcommand : ¬ command.IsProductInfo) :
      Turn false n (.executed command false :: command.refusal) false n
  | frame {b b' : Bool} {n : UInt64} {frame : Bytes} {encrypt : Bool} {es : List Entry}
      (hreaction : FrameReaction p key b (receivedUnder p key b frame encrypt) es b') :
      Turn b n (.consumed frame encrypt b :: es) b' n

end

/-- What the journal is about, and who listens. -/
structure Journal (E : Type) where
  sessionKey : Bytes
  secured : Bool
  nextJobid : UInt64
  log : List Entry
  listeners : EventType → Option (Listener E)

namespace Journal

variable {E : Type}

/-- The journal with `es` behind it, the flag and the counter being what they are there. -/
def add (j : Journal E) (es : List Entry) (secured : Bool) (nextJobid : UInt64) : Journal E :=
  { j with secured, nextJobid, log := j.log ++ es }

/-- Entries that are added in two stretches. -/
theorem add_add (j : Journal E) (es es' : List Entry) (b b' : Bool) (n n' : UInt64) :
    (j.add es b n).add es' b' n' = j.add (es ++ es') b' n' := by
  simp only [add, List.append_assoc]

/-- A turn is added, or a listener registered. -/
inductive Step (p : Platform) : Journal E → Journal E → Prop
  | turn {j : Journal E} {es : List Entry} {b : Bool} {n : UInt64}
      (hturn : Turn p j.sessionKey j.secured j.nextJobid es b n) : Step p j (j.add es b n)
  | on {j : Journal E} (listeners : EventType → Option (Listener E)) :
      Step p j { j with listeners }

end Journal

/-- A record of turns, with the flag and the counter behind it. -/
inductive Turns (p : Platform) (key : Bytes) : Bool → UInt64 → List Entry → Prop
  | nil : Turns p key false 0 []
  | snoc {b b' : Bool} {n n' : UInt64} {l es : List Entry} (h : Turns p key b n l)
      (hturn : Turn p key b n es b' n') : Turns p key b' n' (l ++ es)

/-! ## Entries and their turns -/

section
variable {p : Platform} {key : Bytes} {b : Bool} {n : UInt64} {l l₁ l₂ : List Entry} {e : Entry}

/-- An entry of a record that was continued stands in the old part or in the new one. -/
theorem split_append {α : Type} {l es l₁ l₂ : List α} {e : α} (h : l ++ es = l₁ ++ e :: l₂) :
    (∃ r, l = l₁ ++ e :: r ∧ l₂ = r ++ es) ∨ (∃ m, es = m ++ e :: l₂ ∧ l₁ = l ++ m) := by
  rcases List.append_eq_append_iff.mp h with ⟨m, rfl, hes⟩ | ⟨r, rfl, hr⟩
  · exact .inr ⟨m, hes, rfl⟩
  · cases r with
    | nil => exact .inr ⟨[], hr.symm, by rw [List.append_nil, List.append_nil]⟩
    | cons e' r =>
      obtain ⟨rfl, rfl⟩ := List.cons.inj hr
      exact .inl ⟨r, rfl, rfl⟩

/-- What stands in a list behind its head, has the head before it. -/
theorem split_cons {α : Type} {a e : α} {l l₁ l₂ : List α} (h : a :: l = l₁ ++ e :: l₂)
    (hne : a ≠ e) : ∃ m, l₁ = a :: m ∧ l = m ++ e :: l₂ := by
  cases l₁ with
  | nil => exact absurd (List.cons.inj h).1 hne
  | cons a' m =>
    obtain ⟨rfl, hl⟩ := List.cons.inj h
    exact ⟨m, rfl, hl⟩

/-- A single entry has nothing before or behind it. -/
theorem split_singleton {α : Type} {a e : α} {l₁ l₂ : List α} (h : [a] = l₁ ++ e :: l₂) :
    l₁ = [] ∧ a = e ∧ l₂ = [] := by
  rcases List.append_eq_singleton_iff.mp h.symm with ⟨rfl, hrest⟩ | ⟨-, hrest⟩
  · obtain ⟨rfl, rfl⟩ := List.cons.inj hrest
    exact ⟨rfl, rfl, rfl⟩
  · cases hrest

/-- **Every entry stands in a turn**: `m₁` is in front of it in its turn, `m₂` behind it. -/
theorem Turns.turn_of (h : Turns p key b n l) (hsplit : l = l₁ ++ e :: l₂) :
    ∃ b₀ n₀ l₀ m₁ m₂ r b₁ n₁, Turns p key b₀ n₀ l₀ ∧ Turn p key b₀ n₀ (m₁ ++ e :: m₂) b₁ n₁ ∧
      l₁ = l₀ ++ m₁ ∧ l₂ = m₂ ++ r := by
  induction h generalizing l₂ with
  | nil => cases List.nil_eq_append_iff.mp hsplit |>.2
  | @snoc b b' n n' l es hl hturn ih =>
    rcases split_append hsplit with ⟨r, hl', rfl⟩ | ⟨m, rfl, rfl⟩
    · obtain ⟨b₀, n₀, l₀, m₁, m₂, r', b₁, n₁, hturns, hturn', hl₁, rfl⟩ := ih hl'
      exact ⟨b₀, n₀, l₀, m₁, m₂, r' ++ es, b₁, n₁, hturns, hturn', hl₁, List.append_assoc m₂ r' es⟩
    · exact ⟨b, n, l, m, l₂, [], b', n', hl, hturn, rfl, (List.append_nil l₂).symm⟩

end

end SteamMin.Client
