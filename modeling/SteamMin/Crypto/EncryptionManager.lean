/-
  THE HANDSHAKE AND THE KEYS — `src/crypto/crypto.cpp`, `include/.../crypto/crypto.hpp`, `err.h`.

  The keys are made by the constructor and never change; that the session key has 32 bytes and the
  HMAC secret is its first half are fields of `EncryptionManager`.

  `Platform` collects what the repository does not decide: the two libraries, whether the compiler
  elides the copy of a returned local, and the path it puts for `__FILE__`.

  A request is checked in four steps, each of which throws with a text of its own: the body has to
  be readable, the protocol version and the universe have to be the expected ones, and sixteen
  bytes of challenge have to follow.  `challengeOf` is these steps up to the challenge; what comes
  behind it draws on the random pool and cannot be refused any more, except by the library.
-/
import SteamMin.Crypto.Helpers
import SteamMin.Messages.Message

namespace SteamMin

/-- What lies outside the repository. -/
structure Platform where
  cryptoPP : Crypto.CryptoPP
  protobuf : Messages.Protobuf
  /-- the local that `generate_encryption_response` returns is not copied -/
  elidesCopy : Bool
  /-- `__FILE__` in `crypto.cpp` -/
  cryptoFile : String

end SteamMin

namespace SteamMin.Crypto

open Messages

/-- The public key of the server, which is not inspected here. -/
def STEAM_PUBLIC_KEY_DER : Bytes :=
  [0x30, 0x81, 0x9D, 0x30, 0x0D, 0x06, 0x09, 0x2A, 0x86, 0x48, 0x86, 0xF7,
   0x0D, 0x01, 0x01, 0x01, 0x05, 0x00, 0x03, 0x81, 0x8B, 0x00, 0x30, 0x81,
   0x87, 0x02, 0x81, 0x81, 0x00, 0xDF, 0xEC, 0x1A, 0xD6, 0x2C, 0x10, 0x66,
   0x2C, 0x17, 0x35, 0x3A, 0x14, 0xB0, 0x7C, 0x59, 0x11, 0x7F, 0x9D, 0xD3,
   0xD8, 0x2B, 0x7A, 0xE3, 0xE0, 0x15, 0xCD, 0x19, 0x1E, 0x46, 0xE8, 0x7B,
   0x87, 0x74, 0xA2, 0x18, 0x46, 0x31, 0xA9, 0x03, 0x14, 0x79, 0x82, 0x8E,
   0xE9, 0x45, 0xA2, 0x49, 0x12, 0xA9, 0x23, 0x68, 0x73, 0x89, 0xCF, 0x69,
   0xA1, 0xB1, 0x61, 0x46, 0xBD, 0xC1, 0xBE, 0xBF, 0xD6, 0x01, 0x1B, 0xD8,
   0x81, 0xD4, 0xDC, 0x90, 0xFB, 0xFE, 0x4F, 0x52, 0x73, 0x66, 0xCB, 0x95,
   0x70, 0xD7, 0xC5, 0x8E, 0xBA, 0x1C, 0x7A, 0x33, 0x75, 0xA1, 0x62, 0x34,
   0x46, 0xBB, 0x60, 0xB7, 0x80, 0x68, 0xFA, 0x13, 0xA7, 0x7A, 0x8A, 0x37,
   0x4B, 0x9E, 0xC6, 0xF4, 0x5D, 0x5F, 0x3A, 0x99, 0xF9, 0x9E, 0xC4, 0x3A,
   0xE9, 0x63, 0xA2, 0xBB, 0x88, 0x19, 0x28, 0xE0, 0xE7, 0x14, 0xC0, 0x42,
   0x89, 0x02, 0x01, 0x11]

/-! ## Assertions -/

/-- The text of `runtime_err::throw_error`. -/
def errorText (expr msg file : String) (line : Nat) (func : String) : String :=
  "Runtime error | expr: (" ++ expr ++ ") | msg: " ++ msg ++ " | at " ++ file ++ ":" ++
    toString line ++ " | in " ++ func

/-- `RUNTIME_ASSERT` and `RUNTIME_ASSERTF`, at a place in `generate_encryption_response`. -/
def runtimeAssert (p : Platform) (cond : Bool) (expr msg : String) (line : Nat) :
    Except Fault Unit :=
  if !cond then runtimeError (errorText expr msg p.cryptoFile line "generate_encryption_response")
  else .ok ()

/-! ## `EncryptionManager` -/

/-- `EncryptionManager`: the session key, the secret made from it, and the random pool. -/
structure EncryptionManager where
  rng : RandomPool
  sessionKey : Bytes
  hmacSecret : Bytes
  sessionKey_length : sessionKey.length = 32
  hmacSecret_eq : hmacSecret = sessionKey.take 16

namespace EncryptionManager

/-- `EncryptionManager()`, with the random pool it starts with. -/
def new (rng : RandomPool) : EncryptionManager where
  rng := ⟨fun i => rng.tape (32 + i)⟩
  sessionKey := (List.range 32).map rng.tape
  hmacSecret := ((List.range 32).map rng.tape).take 16
  sessionKey_length := by rw [List.length_map, List.length_range]
  hmacSecret_eq := rfl

/-- A call that draws on the random pool; the keys stay. -/
def drawing {α : Type} (x : EStateM Fault RandomPool α) : EStateM Fault EncryptionManager α :=
  Calls.zoom rng (fun rng m => { m with rng }) x

variable (p : Platform)

/-- `process_incoming_encrypted_message` -/
def processIncomingEncryptedMessage (m : EncryptionManager) (frame : Bytes) : Except Fault Bytes :=
  Helpers.symmetricDecryptHmacIv p.cryptoPP frame m.sessionKey m.hmacSecret

/-- `process_outgoing_encrypted_message` -/
def processOutgoingEncryptedMessage (frame : Bytes) : EStateM Fault EncryptionManager Bytes := do
  let m ← get
  drawing (Helpers.symmetricEncryptHmacIv p.cryptoPP frame m.sessionKey m.hmacSecret)

/-- The checks on a request, and the challenge behind its body. -/
def challengeOf (packet : PacketMsg) : Except Fault Bytes := do
  let request : Msg MsgChannelEncryptRequest ← Msg.ofPacket (.raw packet)
  let payload := request.payload
  let challenge ← if payload.length < 8 then .error .undefined else .ok (payload.drop 8)
  runtimeAssert p (request.body.protocolVersion = 1)
    "request.Body.protocolVersion == 1"
    "Encryption handshake protocol version mismatch!" 30
  runtimeAssert p (request.body.euniverse = EUniverse.pub)
    "request.Body.universe == Steam::Internal::Enums::EUniverse::Public"
    ("Expected public universe, but got " ++ toString request.body.euniverse.toInt32) 32
  runtimeAssert p (challenge.length = 16)
    "challenge.size() == 16"
    ("Expected 16 byte handshake, but got " ++ toString (Int32.ofNat challenge.length) ++ " bytes")
    36
  pure challenge

/-- The returned message, moved or copied as the compiler likes. -/
def returned (response : Msg MsgChannelEncryptResponse) : Msg MsgChannelEncryptResponse :=
  if p.elidesCopy then response else response.copy

/-- `generate_encryption_response`: the key and the challenge under the server's key, a checksum,
    and a word of zeros. -/
def generateEncryptionResponse (packet : PacketMsg) :
    EStateM Fault EncryptionManager (Msg MsgChannelEncryptResponse) := do
  let challenge ← Calls.lift (challengeOf p packet)
  let handshake := (← get).sessionKey ++ challenge
  let encryptedKeyVector ←
    drawing (Helpers.rsaEncryptOaepSha1 p.cryptoPP STEAM_PUBLIC_KEY_DER handshake)
  let hashBytes := Helpers.crc32Hash p.cryptoPP encryptedKeyVector
  let response : Msg MsgChannelEncryptResponse := .new
  let response := response.writeBytes encryptedKeyVector
  let response := response.writeBytes (Helpers.crcToVector hashBytes)
  let response := response.writeBytes [0, 0, 0, 0]
  pure (returned p response)

/-! ## How they fail -/

/-- Sealing fails by undefined behaviour or not at all: nothing in it throws. -/
theorem failsOnly_processOutgoing (frame : Bytes) :
    Calls.FailsOnly (· = Fault.undefined) (processOutgoingEncryptedMessage p frame) := by
  refine Calls.failsOnly_bind Calls.failsOnly_get fun m => ?_
  exact Calls.failsOnly_zoom (Helpers.failsOnly_symmetricEncryptHmacIv _ _ _ _)

/-- A runtime assertion that failed threw. -/
theorem runtimeAssert_error {cond : Bool} {expr msg : String} {line : Nat} {f : Fault}
    (h : runtimeAssert p cond expr msg line = .error f) : ∃ e, f = .throws e := by
  rw [runtimeAssert] at h
  split at h
  · exact ⟨_, (Except.error.inj h).symm⟩
  · nomatch h

/-- A request that can be decoded has its eight body bytes in the payload. -/
theorem ofPacket_request {packet : PacketMsg} (hoffset : packet.bodyOffset = 20) :
    (∃ request : Msg MsgChannelEncryptRequest, Msg.ofPacket (.raw packet) = .ok request ∧
      8 ≤ request.payload.length) ∨
    (∃ e, (Msg.ofPacket (.raw packet) : Except Fault (Msg MsgChannelEncryptRequest))
      = .error (.throws e)) := by
  rw [Msg.ofPacket, hoffset]
  rcases MsgChannelEncryptRequest.deserialize_cases packet.payload 20 (by omega)
    with ⟨hlen, m, s, hm⟩ | ⟨-, what, s, hm⟩
  · left
    rw [hm]
    refine ⟨_, rfl, ?_⟩
    show 8 ≤ (if 20 < packet.payload.length then packet.payload.drop 20 else []).length
    rw [if_pos (by omega), List.length_drop]
    omega
  · right
    rw [hm]
    exact ⟨_, rfl⟩

/-- The challenge of a received packet is found or refused, never read from outside it. -/
theorem challengeOf_error {packet : PacketMsg} (hoffset : packet.bodyOffset = 20) {f : Fault}
    (h : challengeOf p packet = .error f) : ∃ e, f = .throws e := by
  rcases Calls.except_bind_eq_error h with h | ⟨request, hrequest, h⟩
  · rcases ofPacket_request hoffset with ⟨request, hok, -⟩ | ⟨e, herror⟩
    · nomatch hok.symm.trans h
    · exact ⟨e, Except.error.inj (h.symm.trans herror)⟩
  · have hlen : ¬ request.payload.length < 8 := by
      rcases ofPacket_request hoffset with ⟨request', hok, hlen⟩ | ⟨e, herror⟩
      · rw [Except.ok.inj (hrequest.symm.trans hok)]
        omega
      · nomatch herror.symm.trans hrequest
    dsimp only at h
    rw [if_neg hlen] at h
    -- behind the skip of eight bytes only the three assertions can fail
    obtain ⟨challenge, -, h⟩ := (Calls.except_bind_eq_error h).resolve_left nofun
    rcases Calls.except_bind_eq_error h with h | ⟨-, -, h⟩
    · exact runtimeAssert_error p h
    · rcases Calls.except_bind_eq_error h with h | ⟨-, -, h⟩
      · exact runtimeAssert_error p h
      · rcases Calls.except_bind_eq_error h with h | ⟨-, -, h⟩
        · exact runtimeAssert_error p h
        · nomatch h

/-- **Only exceptions leave the making of a response.** -/
theorem failsOnly_generateEncryptionResponse {packet : PacketMsg}
    (hoffset : packet.bodyOffset = 20) :
    Calls.FailsOnly (∃ e, · = Fault.throws e) (generateEncryptionResponse p packet) := by
  refine Calls.failsOnly_bind (Calls.failsOnly_lift fun f => challengeOf_error p hoffset)
    fun challenge => ?_
  refine Calls.failsOnly_bind Calls.failsOnly_get fun m => ?_
  refine Calls.failsOnly_bind
    (Calls.failsOnly_zoom (Helpers.failsOnly_rsaEncryptOaepSha1 _ _ _)) fun key => ?_
  exact Calls.failsOnly_pure _

/-- What is made is a ChannelEncryptResponse, copied or not. -/
theorem generateEncryptionResponse_msg {packet : PacketMsg} {m m' : EncryptionManager}
    {response : Msg MsgChannelEncryptResponse}
    (h : generateEncryptionResponse p packet m = .ok response m') :
    response.header.msg = EMsg.channelEncryptResponse := by
  obtain ⟨challenge, m₁, -, h⟩ := Calls.bind_eq_ok h
  obtain ⟨m₂, m₃, -, h⟩ := Calls.bind_eq_ok h
  obtain ⟨key, m₄, -, h⟩ := Calls.bind_eq_ok h
  cases h
  rw [returned]
  split
  · rfl
  · rfl

end EncryptionManager

end SteamMin.Crypto
