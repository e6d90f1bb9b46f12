/-
  THE ANSWER TO A ChannelEncryptRequest.

  `generate_encryption_response` finds the challenge with a skip of eight bytes into a payload that
  starts where the body starts.  The skip stays inside the payload because the body, eight bytes
  long, has been read from the same place (`payload_of_request`).

  `handleEncryptRequest_outcomes`: on a channel that is not secured the handler either hands one
  frame to the connection, exactly for the requests that `IsPublicRequest` describes, or emits one
  failed event.
-/
import SteamMin.Client.SecuredFrames

namespace SteamMin.Crypto

open Messages

/-! ## The request

  Where the eight bytes of the body are, and that the payload begins at the same place.  The checks
  of the manager are then conditions on the bytes behind the header. -/

/-- What has to stand behind the header: version 1, the public universe, and 16 bytes. -/
def IsPublicRequest (behind challenge : Bytes) : Prop :=
  behind = LittleEndian.bytes 4 1 ++ LittleEndian.bytes 4 EUniverse.pub.toNat ++ challenge ∧
    challenge.length = 16

section
variable {packet : PacketMsg} {request : Msg MsgChannelEncryptRequest}

/-- The body is the two words behind the header, and the payload starts with it. -/
theorem ofPacket_request_eq (hoffset : packet.bodyOffset = 20) (h : 28 ≤ packet.payload.length) :
    (Msg.ofPacket (.raw packet) : Except Fault (Msg MsgChannelEncryptRequest)) = .ok
      { header := packet.header
        body :=
          { protocolVersion := LittleEndian.word32 ((packet.payload.drop 20).take 4)
            euniverse := LittleEndian.word32 ((packet.payload.drop 24).take 4) }
        readPos := 0
        payload := packet.payload.drop 20 } := by
  rw [Msg.ofPacket, hoffset, MsgChannelEncryptRequest.deserialize_reading h]
  dsimp only
  rw [if_pos (by omega)]

/-- The skip of eight bytes never leaves the payload. -/
theorem payload_of_request (hoffset : packet.bodyOffset = 20)
    (h : Msg.ofPacket (.raw packet) = .ok request) : 8 ≤ request.payload.length := by
  rcases EncryptionManager.ofPacket_request hoffset with ⟨request', hok, hlen⟩ | ⟨e, herror⟩
  · rw [Except.ok.inj (h.symm.trans hok)]
    exact hlen
  · cases herror.symm.trans h

end

/-- A runtime assertion that returned held. -/
theorem runtimeAssert_eq_ok {p : Platform} {cond : Bool} {expr msg : String} {line : Nat} {u : Unit}
    (h : runtimeAssert p cond expr msg line = .ok u) : cond = true := by
  rw [runtimeAssert] at h
  cases cond with
  | false => cases h
  | true => rfl

/-- Two words and what follows them, put together again. -/
theorem words_append {behind : Bytes} (h : 8 ≤ behind.length) :
    LittleEndian.bytes 4 (LittleEndian.word32 (behind.take 4)).toNat ++
      LittleEndian.bytes 4 (LittleEndian.word32 ((behind.drop 4).take 4)).toNat ++ behind.drop 8
        = behind := by
  have hfirst : (behind.take 4).length = 4 := List.length_take_of_le (by omega)
  have hsecond : ((behind.drop 4).take 4).length = 4 :=
    List.length_take_of_le (by rw [List.length_drop]; omega)
  rw [LittleEndian.bytes_word32 hfirst, LittleEndian.bytes_word32 hsecond, List.append_assoc,
    show behind.drop 8 = (behind.drop 4).drop 4 by rw [List.drop_drop], List.take_append_drop,
    List.take_append_drop]

/-- **The challenge** is found exactly in the requests it should be found in. -/
theorem challengeOf_eq_ok_iff {p : Platform} {packet : PacketMsg} {challenge : Bytes}
    (hoffset : packet.bodyOffset = 20) :
    EncryptionManager.challengeOf p packet = .ok challenge
      ↔ IsPublicRequest (packet.payload.drop 20) challenge := by
  constructor
  · intro h
    obtain ⟨request, hrequest, h⟩ := Calls.except_bind_eq_ok h
    have hpayload := payload_of_request hoffset hrequest
    -- a body of eight bytes was read, so there are eight to skip
    have hlen : 28 ≤ packet.payload.length := by
      rcases MsgChannelEncryptRequest.deserialize_cases packet.payload 20 (by omega)
        with ⟨hlen, -⟩ | ⟨-, what, s, hshort⟩
      · exact hlen
      · rw [Msg.ofPacket, hoffset, hshort] at hrequest
        cases hrequest
    obtain rfl := Except.ok.inj ((ofPacket_request_eq hoffset hlen).symm.trans hrequest)
    dsimp only at h
    rw [if_neg (Nat.not_lt.mpr hpayload)] at h
    obtain ⟨challenge', hchallenge, h⟩ := Calls.except_bind_eq_ok h
    obtain rfl := Except.ok.inj hchallenge
    -- the three assertions, one after the other
    obtain ⟨_, hversion, h⟩ := Calls.except_bind_eq_ok h
    obtain ⟨_, huniverse, h⟩ := Calls.except_bind_eq_ok h
    obtain ⟨_, hsize, h⟩ := Calls.except_bind_eq_ok h
    obtain rfl := Except.ok.inj h
    have hversion := of_decide_eq_true (runtimeAssert_eq_ok hversion)
    have huniverse := of_decide_eq_true (runtimeAssert_eq_ok huniverse)
    refine ⟨?_, of_decide_eq_true (runtimeAssert_eq_ok hsize)⟩
    have hwords := words_append (show 8 ≤ (packet.payload.drop 20).length by
      rw [List.length_drop]; omega)
    rw [hversion, List.drop_drop, huniverse] at hwords
    exact hwords.symm
  · rintro ⟨hbehind, hsize⟩
    have hlen := congrArg List.length hbehind
    rw [List.length_drop, List.length_append, List.length_append, LittleEndian.length_bytes,
      LittleEndian.length_bytes] at hlen
    have hversion : LittleEndian.word32 ((packet.payload.drop 20).take 4) = 1 := by
      rw [hbehind]
      rfl
    have huniverse : LittleEndian.word32 ((packet.payload.drop 24).take 4) = EUniverse.pub := by
      rw [show packet.payload.drop 24 = (packet.payload.drop 20).drop 4 by rw [List.drop_drop],
        hbehind]
      rfl
    have hchallenge : (packet.payload.drop 20).drop 8 = challenge := by
      rw [hbehind]
      rfl
    have hskip : ¬ (packet.payload.drop 20).length < 8 := by
      rw [List.length_drop]
      omega
    rw [EncryptionManager.challengeOf, ofPacket_request_eq hoffset (by omega)]
    show (do
      let challenge ← if (packet.payload.drop 20).length < 8 then Except.error Fault.undefined
        else .ok ((packet.payload.drop 20).drop 8)
      runtimeAssert p _ _ _ _
      runtimeAssert p _ _ _ _
      runtimeAssert p _ _ _ _
      pure challenge : Except Fault Bytes) = _
    rw [if_neg hskip, hversion, huniverse, hchallenge]
    simp [runtimeAssert, hsize, bind, Except.bind, pure, Except.pure]

/-! ## The response

  `Answers` and `Declines` are stated for every `emit`, so that what they say of the client is the
  handler's own doing and not that of a listener. -/

/-- A ChannelEncryptResponse: its header, protocol version 1, key size 128, and the payload. -/
def responseFrame (payload : Bytes) : Bytes :=
  (MsgHdr.new.setEMsg EMsg.channelEncryptResponse).wire ++
    (LittleEndian.bytes 4 1 ++ LittleEndian.bytes 4 128 ++ payload)

/-- The payload of a response: the RSA block, its CRC in four bytes, and four zero bytes. -/
def responsePayload (p : Platform) (block : Bytes) : Bytes :=
  block ++ Helpers.crcToVector (Helpers.crc32Hash p.cryptoPP block) ++ [0, 0, 0, 0]

/-- With a challenge, and where RSA gives a block, the response is made; the keys stay. -/
theorem generateEncryptionResponse_of_challenge {p : Platform} {packet : PacketMsg}
    {m : EncryptionManager} {challenge block : Bytes} {rng : RandomPool}
    (hcopy : p.elidesCopy = true)
    (hchallenge : EncryptionManager.challengeOf p packet = .ok challenge)
    (hrsa : p.cryptoPP.rsaesOaepSha STEAM_PUBLIC_KEY_DER
      (m.sessionKey ++ challenge) m.rng = (.ok block, rng)) :
    ∃ response, EncryptionManager.generateEncryptionResponse p packet m
        = .ok response { m with rng } ∧
      response.serialize = .ok (responseFrame (responsePayload p block)) := by
  let response : Msg MsgChannelEncryptResponse :=
    ((Msg.new.writeBytes block).writeBytes
      (Helpers.crcToVector (Helpers.crc32Hash p.cryptoPP block))).writeBytes [0, 0, 0, 0]
  have hblock : EncryptionManager.drawing (Helpers.rsaEncryptOaepSha1 p.cryptoPP
      STEAM_PUBLIC_KEY_DER (m.sessionKey ++ challenge)) m = .ok block { m with rng } := by
    rw [EncryptionManager.drawing, Calls.zoom, Helpers.rsaEncryptOaepSha1, hrsa]
  refine ⟨response, ?_, ?_⟩
  · rw [EncryptionManager.generateEncryptionResponse, Calls.bind_ok (Calls.lift_ok hchallenge m),
      Calls.get_bind, Calls.bind_ok hblock]
    show EStateM.Result.ok (EncryptionManager.returned p response) { m with rng } = _
    rw [EncryptionManager.returned, if_pos hcopy]
  · exact Msg.serialize_eq response.body.appends_serialize

end SteamMin.Crypto

namespace SteamMin.Client

open Messages Crypto

variable {C E : Type} [IConnection C E] {p : Platform} {packet : PacketMsg} {c : CMClient C E}

/-- Whatever `emit` would do, the handler hands one frame to the connection and returns.  The
    random pool goes on; the flag, the keys and the rest of the client stay. -/
def Answers (p : Platform) (packet : PacketMsg) (c : CMClient C E) (frame : Bytes)
    (rng : RandomPool) : Prop :=
  ∀ emit : Event → Calling C E Unit, handleEncryptRequest emit p packet c = .ok () { c with
    crypto := { c.crypto with rng }
    log := c.log ++ [.handed frame frame false]
    connection := IConnection.asyncSend frame c.connection }

/-- The handler is one call of `emit`, with a failed event, and the flag and the keys are untouched
    until then. -/
def Declines (p : Platform) (packet : PacketMsg) (c : CMClient C E) (what : String) : Prop :=
  ∀ emit : Event → Calling C E Unit,
    handleEncryptRequest emit p packet c = emit (.channelSecured (.fail what)) c

/-- On a channel that is not secured a message goes out as it is. -/
theorem sendMsg_clear {c : CMClient C E} (message : Bytes) (hsecured : c.channelSecured = false) :
    sendMsg p (.ok message) c = .ok () { c with
      log := c.log ++ [.handed message message false]
      connection := IConnection.asyncSend message c.connection } := by
  have hout : outgoing p message c.channelSecured c = .ok message c := by
    rw [hsecured]
    rfl
  show sendMsgImpl p message c = _
  rw [sendMsgImpl_ok hout, hsecured]

/-- A challenge that passes the checks is answered. -/
theorem answers_of_challenge {challenge block : Bytes} {rng : RandomPool}
    (hsecured : c.channelSecured = false) (hcopy : p.elidesCopy = true)
    (hchallenge : EncryptionManager.challengeOf p packet = .ok challenge)
    (hrsa : p.cryptoPP.rsaesOaepSha STEAM_PUBLIC_KEY_DER (c.crypto.sessionKey ++ challenge)
      c.crypto.rng = (.ok block, rng)) :
    Answers p packet c (responseFrame (responsePayload p block)) rng := by
  intro emit
  obtain ⟨response, hgen, hserialize⟩ :=
    generateEncryptionResponse_of_challenge hcopy hchallenge hrsa
  have hcall : onCrypto (EncryptionManager.generateEncryptionResponse p packet) c
      = .ok response { c with crypto := { c.crypto with rng } } := by
    rw [onCrypto, Calls.zoom, hgen]
  refine catchStd_ok ((Calls.bind_ok hcall).trans ?_)
  rw [hserialize]
  exact sendMsg_clear _ hsecured

/-- One that does not is declined, with the text of the exception. -/
theorem declines_of_error {e : Exn}
    (h : EncryptionManager.challengeOf p packet = .error (.throws e)) :
    Declines p packet c (what e) := by
  intro emit
  have hgen : EncryptionManager.generateEncryptionResponse p packet c.crypto
      = .error (.throws e) c.crypto := by
    rw [EncryptionManager.generateEncryptionResponse]
    refine Calls.bind_error ?_
    rw [h]
    rfl
  have hcall : onCrypto (EncryptionManager.generateEncryptionResponse p packet) c
      = .error (.throws e) c := by
    rw [onCrypto, Calls.zoom, hgen]
  exact catchStd_throws (Calls.bind_error hcall)

/-- The two exclude each other: one of them would not come back from an `emit` that does not. -/
theorem not_answers_and_declines {frame : Bytes} {rng : RandomPool} {what : String}
    (hanswers : Answers p packet c frame rng) : ¬ Declines p packet c what := by
  intro hdeclines
  cases (hanswers fun _ => throw .undefined).symm.trans (hdeclines fun _ => throw .undefined)

/-- **The two outcomes of a request.**  Of a packet that was built from any bytes, the skip of eight
    bytes stays inside the payload, and the handler either answers or refuses, never both.  It
    answers exactly the requests of version 1, the public universe and a challenge of 16 bytes; RSA
    has then encrypted the session key and the challenge, and the payload of the frame is its block,
    the CRC of it and four zero bytes. -/
theorem handleEncryptRequest_outcomes {emsg : EMsg} {data : Bytes}
    (hpacket : PacketMsg.make emsg data = .ok packet) (hsecured : c.channelSecured = false)
    (hcopy : p.elidesCopy = true)
    (hrsa : ∀ challenge, IsPublicRequest (data.drop 20) challenge → ∃ block rng,
      p.cryptoPP.rsaesOaepSha STEAM_PUBLIC_KEY_DER (c.crypto.sessionKey ++ challenge) c.crypto.rng
        = (.ok block, rng)) :
    (∀ request : Msg MsgChannelEncryptRequest, Msg.ofPacket (.raw packet) = .ok request →
      8 ≤ request.payload.length) ∧
    Xor (∃ frame rng, Answers p packet c frame rng) (∃ what, Declines p packet c what) ∧
    ((∃ frame rng, Answers p packet c frame rng)
      ↔ ∃ challenge, IsPublicRequest (data.drop 20) challenge) ∧
    ∀ challenge, IsPublicRequest (data.drop 20) challenge → ∃ block rng,
      p.cryptoPP.rsaesOaepSha STEAM_PUBLIC_KEY_DER (c.crypto.sessionKey ++ challenge) c.crypto.rng
        = (.ok block, rng) ∧
      Answers p packet c (responseFrame (responsePayload p block)) rng := by
  obtain ⟨-, hpayload, hoffset, -⟩ := PacketMsg.make_eq_ok hpacket
  -- an acceptable request is answered; that no other one is, is seen from the checks
  have hanswered : ∀ challenge, IsPublicRequest (data.drop 20) challenge → ∃ block rng,
      p.cryptoPP.rsaesOaepSha STEAM_PUBLIC_KEY_DER (c.crypto.sessionKey ++ challenge) c.crypto.rng
        = (.ok block, rng) ∧
      Answers p packet c (responseFrame (responsePayload p block)) rng := by
    intro challenge hrequest
    obtain ⟨block, rng, hblock⟩ := hrsa challenge hrequest
    rw [← hpayload] at hrequest
    exact ⟨block, rng, hblock,
      answers_of_challenge hsecured hcopy ((challengeOf_eq_ok_iff hoffset).mpr hrequest) hblock⟩
  refine ⟨fun request => payload_of_request hoffset, ?_⟩
  cases hchallenge : EncryptionManager.challengeOf p packet with
  | ok challenge =>
    have hrequest := (challengeOf_eq_ok_iff hoffset).mp hchallenge
    rw [hpayload] at hrequest
    obtain ⟨block, rng, -, hanswers⟩ := hanswered challenge hrequest
    refine ⟨.inl ⟨⟨_, _, hanswers⟩, ?_⟩, ?_, hanswered⟩
    · rintro ⟨what, hdeclines⟩
      exact not_answers_and_declines hanswers hdeclines
    · exact ⟨fun _ => ⟨challenge, hrequest⟩, fun _ => ⟨_, _, hanswers⟩⟩
  | error fault =>
    obtain ⟨e, rfl⟩ := EncryptionManager.challengeOf_error p hoffset hchallenge
    have hdeclines : Declines p packet c (what e) := declines_of_error hchallenge
    -- the two outcomes leave different logs
    have hnone : ¬ ∃ frame rng, Answers p packet c frame rng := by
      rintro ⟨frame, rng, hanswers⟩
      exact not_answers_and_declines hanswers hdeclines
    refine ⟨.inr ⟨⟨_, hdeclines⟩, hnone⟩, ?_, hanswered⟩
    constructor
    · intro hanswers
      exact absurd hanswers hnone
    · rintro ⟨challenge, hrequest⟩
      obtain ⟨block, rng, -, hanswers⟩ := hanswered challenge hrequest
      exact ⟨_, _, hanswers⟩

/-- A request with a challenge of sixteen sevens. -/
def sevensRequest : Bytes :=
  rawMessage EMsg.channelEncryptRequest
    (LittleEndian.bytes 4 1 ++ LittleEndian.bytes 4 1 ++ List.replicate 16 7)

/-- RSA encrypts the session key and that challenge. -/
theorem rsa_sevens {challenge : Bytes} (h : IsPublicRequest (sevensRequest.drop 20) challenge) :
    ∃ block rng, samplePlatform.cryptoPP.rsaesOaepSha STEAM_PUBLIC_KEY_DER
      (System.onTcp.client.crypto.sessionKey ++ challenge) System.onTcp.client.crypto.rng
        = (.ok block, rng) := by
  obtain ⟨hbody, -⟩ := h
  obtain rfl : List.replicate 16 7 = challenge := List.append_cancel_left hbody
  have hdata : System.onTcp.client.crypto.sessionKey ++ List.replicate 16 7
      = sampleKey ++ List.replicate 16 7 := by
    decide +kernel
  exact ⟨_, _, rsaesOaepSha_sample _ hdata⟩

/-- A challenge of sixteen sevens, answered by the sample platform. -/
theorem handleEncryptRequest_outcomes_sevens :
    ∃ packet : PacketMsg, PacketMsg.make EMsg.channelEncryptRequest sevensRequest = .ok packet ∧
      ∃ frame rng, Answers samplePlatform packet System.onTcp.client frame rng := by
  refine ⟨_, rfl, ?_⟩
  have hpacket : PacketMsg.make EMsg.channelEncryptRequest sevensRequest = .ok _ := rfl
  have houtcomes := handleEncryptRequest_outcomes (c := System.onTcp.client) (p := samplePlatform)
    hpacket rfl rfl fun challenge => rsa_sevens
  exact houtcomes.2.2.1.mpr ⟨List.replicate 16 7, rfl, rfl⟩

end SteamMin.Client
