/-
  COPIED MESSAGES — the constructors of `clientmsg.hpp`, and the return of
  `generate_encryption_response`.

  `Msg(const Msg<TBody>& other, int payloadReserve = 0)` is meant for a reply to `other`: a fresh
  message, with the job id of `other` as its target.  With its default argument it is also the copy
  constructor of the class, so a copy is a fresh message too (`copy_sameAs_iff`), and with a copy
  constructor declared the class has no move constructor.

  `return response;` may copy or not, as the compiler likes.  What is then handed to the connection
  is the same only where no response is made (`copies_faithful_iff`); a copied response has lost the
  encrypted key (`responseMessage_of_challenge`).
-/
import SteamMin.Client.EncryptRequest

namespace SteamMin.Messages.Msg

variable {TBody : Type} [ISteamSerializableMessage TBody] {m m' : Msg TBody}

/-- What a message is made of, and what is sent for it. -/
structure SameAs (m m' : Msg TBody) : Prop where
  header : m.header = m'.header
  body : m.body = m'.body
  payload : m.payload = m'.payload
  serialize : m.serialize = m'.serialize

/-- As `Msg()` makes it. -/
structure IsFresh (m : Msg TBody) : Prop where
  header : m.header = (new : Msg TBody).header
  body : m.body = ISteamSerializableMessage.new
  payload : m.payload = []

/-- What is sent depends on nothing else. -/
theorem sameAs_of_members (hheader : m.header = m'.header) (hbody : m.body = m'.body)
    (hpayload : m.payload = m'.payload) : m.SameAs m' := by
  refine ⟨hheader, hbody, hpayload, ?_⟩
  rw [Msg.serialize, Msg.serialize, hheader, hbody, hpayload]

/-- The two job ids of a fresh header are the same. -/
theorem copy_header_of_fresh (h : m.header.sourceJobID = (new : Msg TBody).header.sourceJobID) :
    m.copy.header = (new : Msg TBody).header := by
  show { (new : Msg TBody).header with targetJobID := m.header.sourceJobID } = _
  rw [h]
  rfl

/-- **A copy is the message it was made of** only if that was fresh. -/
theorem copy_sameAs_iff : m.copy.SameAs m ↔ m.IsFresh := by
  constructor
  · rintro ⟨hheader, hbody, hpayload, -⟩
    have hsource : m.copy.header.sourceJobID = m.header.sourceJobID :=
      congrArg MsgHdr.sourceJobID hheader
    refine ⟨?_, hbody.symm, hpayload.symm⟩
    rw [← hheader]
    exact copy_header_of_fresh hsource.symm
  · rintro ⟨hheader, hbody, hpayload⟩
    refine sameAs_of_members ?_ hbody.symm hpayload.symm
    rw [hheader]
    exact copy_header_of_fresh (congrArg MsgHdr.sourceJobID hheader)

end SteamMin.Messages.Msg

namespace SteamMin

/-- The same platform, with what the compiler does with the returned local. -/
def Platform.eliding (p : Platform) (elidesCopy : Bool) : Platform := { p with elidesCopy }

end SteamMin

namespace SteamMin.Crypto

open Messages EncryptionManager

variable {p : Platform} {packet : PacketMsg} {m : EncryptionManager}

/-- The message of `handle_encrypt_request`, as it goes to `send_msg_impl`. -/
def EncryptionManager.responseMessage (p : Platform) (packet : PacketMsg) :
    EStateM Fault EncryptionManager Bytes := do
  let response ← generateEncryptionResponse p packet
  Calls.lift response.serialize

/-- A request that is answered: it is as it should be, and RSA gives a block. -/
def IsAnswered (p : Platform) (data : Bytes) (m : EncryptionManager) : Prop :=
  ∃ challenge block rng, IsPublicRequest (data.drop 20) challenge ∧
    p.cryptoPP.rsaesOaepSha STEAM_PUBLIC_KEY_DER (m.sessionKey ++ challenge) m.rng
      = (.ok block, rng)

/-- A response is made, and returned. -/
theorem generateEncryptionResponse_eq {challenge block : Bytes} {rng : RandomPool}
    (hchallenge : challengeOf p packet = .ok challenge)
    (hrsa : p.cryptoPP.rsaesOaepSha STEAM_PUBLIC_KEY_DER (m.sessionKey ++ challenge) m.rng
      = (.ok block, rng)) :
    generateEncryptionResponse p packet m = .ok (returned p (((Msg.new.writeBytes block).writeBytes
      (Helpers.crcToVector (Helpers.crc32Hash p.cryptoPP block))).writeBytes [0, 0, 0, 0]))
      { m with rng } := by
  have hblock : drawing (Helpers.rsaEncryptOaepSha1 p.cryptoPP STEAM_PUBLIC_KEY_DER
      (m.sessionKey ++ challenge)) m = .ok block { m with rng } := by
    rw [drawing, Calls.zoom, Helpers.rsaEncryptOaepSha1, hrsa]
  rw [generateEncryptionResponse, Calls.bind_ok (Calls.lift_ok hchallenge m), Calls.get_bind,
    Calls.bind_ok hblock]
  rfl

/-- **What is sent**: with the copy elided, the response; with the response copied, its header and
    body only. -/
theorem responseMessage_of_challenge {challenge block : Bytes} {rng : RandomPool}
    (hchallenge : challengeOf p packet = .ok challenge)
    (hrsa : p.cryptoPP.rsaesOaepSha STEAM_PUBLIC_KEY_DER (m.sessionKey ++ challenge) m.rng
      = (.ok block, rng)) :
    responseMessage p packet m
      = .ok (responseFrame (if p.elidesCopy then responsePayload p block else [])) { m with rng } := by
  rw [responseMessage, Calls.bind_ok (generateEncryptionResponse_eq hchallenge hrsa), returned]
  cases p.elidesCopy with
  | true => exact Calls.lift_ok (Msg.serialize_eq (MsgChannelEncryptResponse.appends_serialize _)) _
  | false => exact Calls.lift_ok (Msg.serialize_eq (MsgChannelEncryptResponse.appends_serialize _)) _

/-- The two differ in the payload. -/
theorem responseFrame_ne_nil (p : Platform) (block : Bytes) :
    responseFrame (responsePayload p block) ≠ responseFrame [] := by
  intro h
  have hlen := congrArg List.length h
  simp only [responseFrame, responsePayload, List.length_append, List.length_cons,
    List.length_nil] at hlen
  omega

/-- Without a response there is nothing to copy. -/
theorem responseMessage_eliding (hno : ∀ challenge, challengeOf p packet = .ok challenge →
      ∀ block rng, p.cryptoPP.rsaesOaepSha STEAM_PUBLIC_KEY_DER (m.sessionKey ++ challenge) m.rng
        ≠ (.ok block, rng)) (elides : Bool) :
    responseMessage (p.eliding elides) packet m = responseMessage p packet m := by
  have hchallengeOf : challengeOf (p.eliding elides) packet = challengeOf p packet := rfl
  -- up to the return both compilers do the same, and the return is not reached
  refine Calls.bind_congr_of_eq ?_
  rw [generateEncryptionResponse, generateEncryptionResponse, hchallengeOf]
  cases hchallenge : challengeOf p packet with
  | error f => rfl
  | ok challenge =>
    rw [Calls.bind_ok (Calls.lift_ok rfl m), Calls.bind_ok (Calls.lift_ok rfl m), Calls.get_bind,
      Calls.get_bind]
    cases hrsa : p.cryptoPP.rsaesOaepSha STEAM_PUBLIC_KEY_DER (m.sessionKey ++ challenge) m.rng with
    | mk result rng =>
      cases result with
      | ok block => exact absurd hrsa (hno challenge hchallenge block rng)
      | error what =>
        have herror : drawing (Helpers.rsaEncryptOaepSha1 p.cryptoPP STEAM_PUBLIC_KEY_DER
            (m.sessionKey ++ challenge)) m = .error (.throws (.cryptoPP what)) { m with rng } := by
          rw [drawing, Calls.zoom, Helpers.rsaEncryptOaepSha1, hrsa]
        have herror' : drawing (Helpers.rsaEncryptOaepSha1 (p.eliding elides).cryptoPP
            STEAM_PUBLIC_KEY_DER (m.sessionKey ++ challenge)) m
              = .error (.throws (.cryptoPP what)) { m with rng } := herror
        rw [Calls.bind_error herror, Calls.bind_error herror']

end SteamMin.Crypto

namespace SteamMin.Client

open Messages Crypto EncryptionManager

variable {C E : Type} [IConnection C E] {p p' : Platform} {packet : PacketMsg} {c : CMClient C E}

omit [IConnection C E] in
/-- A sequence of calls of the manager is a sequence of calls of the client. -/
theorem onCrypto_bind {α β : Type} (x : EStateM Fault EncryptionManager α)
    (f : α → EStateM Fault EncryptionManager β) :
    (onCrypto (x >>= f) : Calling C E β) = onCrypto x >>= fun a => onCrypto (f a) := by
  rw [onCrypto]
  refine Calls.zoom_bind ?_ ?_ x f
  · intro crypto c
    rfl
  · intro crypto crypto' c
    rfl

omit [IConnection C E] in
/-- A pure computation does not use the manager. -/
theorem onCrypto_lift {α : Type} (x : Except Fault α) :
    (onCrypto (Calls.lift x) : Calling C E α) = Calls.lift x := by
  rw [onCrypto]
  refine Calls.zoom_lift ?_ x
  intro c
  rfl

/-- The handler sends the message that is made, or reports why there is none. -/
theorem handleEncryptRequest_eq (emit : Event → Calling C E Unit) :
    handleEncryptRequest emit p packet = catchStd
      (do let message ← onCrypto (responseMessage p packet); sendMsgImpl p message)
      fun e => emit (.channelSecured (.fail (what e))) := by
  have hmessage : (onCrypto (responseMessage p packet) : Calling C E Bytes)
      = (do let response ← onCrypto (generateEncryptionResponse p packet)
            Calls.lift response.serialize) := by
    rw [responseMessage, onCrypto_bind]
    simp only [onCrypto_lift]
  rw [hmessage, bind_assoc]
  rfl

/-- With the same message the handler does the same. -/
theorem handleEncryptRequest_congr {emit : Event → Calling C E Unit}
    (hcrypto : p.cryptoPP = p'.cryptoPP)
    (h : responseMessage p packet c.crypto = responseMessage p' packet c.crypto) :
    handleEncryptRequest emit p packet c = handleEncryptRequest emit p' packet c := by
  have hcall : (onCrypto (responseMessage p packet) : Calling C E Bytes) c
      = onCrypto (responseMessage p' packet) c := by
    rw [onCrypto, onCrypto, Calls.zoom, Calls.zoom, h]
  have hsend : (sendMsgImpl p : Bytes → Calling C E Unit) = sendMsgImpl p' := by
    funext message
    rw [sendMsgImpl, sendMsgImpl, processOutgoingEncryptedMessage, processOutgoingEncryptedMessage,
      hcrypto]
  rw [handleEncryptRequest_eq, handleEncryptRequest_eq, hsend]
  exact Calls.tryCatch_congr_of_eq (Calls.bind_congr_of_eq hcall)

/-- On a channel that is not secured the message is the frame. -/
theorem answers_of_message {frame : Bytes} {rng : RandomPool} (hsecured : c.channelSecured = false)
    (h : responseMessage p packet c.crypto = .ok frame { c.crypto with rng }) :
    Answers p packet c frame rng := by
  intro emit
  have hcall : (onCrypto (responseMessage p packet) : Calling C E Bytes) c
      = .ok frame { c with crypto := { c.crypto with rng } } := by
    rw [onCrypto, Calls.zoom, h]
  rw [handleEncryptRequest_eq]
  exact catchStd_ok ((Calls.bind_ok hcall).trans (sendMsg_clear _ hsecured))

/-- Two answers to one request are the same frame. -/
theorem Answers.frame_eq {frame frame' : Bytes} {rng rng' : RandomPool}
    (h : Answers p packet c frame rng) (h' : Answers p' packet c frame' rng')
    (heq : ∀ emit : Event → Calling C E Unit,
      handleEncryptRequest emit p packet c = handleEncryptRequest emit p' packet c) :
    frame = frame' := by
  have hboth := ((h fun _ => pure ()).symm.trans (heq _)).trans (h' fun _ => pure ())
  injection hboth with _ hclient
  have hlog := List.append_cancel_left (congrArg CMClient.log hclient)
  injection hlog with hentry
  injection hentry

/-- **Which copies are faithful.**  A copy of a message has its header, body and payload, and is sent
    as the same bytes, exactly if the message is fresh.  In answer to a ChannelEncryptRequest the
    same is sent with and without the copy exactly if nothing is: the request is refused, or RSA
    fails; on a channel that is not secured that is also exactly when the handler does the same, and
    on any channel it then does. -/
theorem copies_faithful_iff {TBody : Type} [ISteamSerializableMessage TBody] (m : Msg TBody)
    {emsg : EMsg} {data : Bytes} (hpacket : PacketMsg.make emsg data = .ok packet)
    (c : CMClient C E) :
    (m.copy.SameAs m ↔ m.IsFresh) ∧
    (responseMessage (p.eliding true) packet c.crypto
        = responseMessage (p.eliding false) packet c.crypto ↔ ¬ IsAnswered p data c.crypto) ∧
    (c.channelSecured = false → ((∀ emit : Event → Calling C E Unit,
        handleEncryptRequest emit (p.eliding true) packet c
          = handleEncryptRequest emit (p.eliding false) packet c) ↔ ¬ IsAnswered p data c.crypto)) ∧
    (¬ IsAnswered p data c.crypto → ∀ emit : Event → Calling C E Unit,
      handleEncryptRequest emit (p.eliding true) packet c
        = handleEncryptRequest emit (p.eliding false) packet c) := by
  obtain ⟨-, hpayload, hoffset, -⟩ := PacketMsg.make_eq_ok hpacket
  -- with an answer the copy has an empty payload, and the moved message has not
  have hmade : IsAnswered p data c.crypto → ∃ block rng, ∀ elides,
      responseMessage (p.eliding elides) packet c.crypto
        = .ok (responseFrame (if elides then responsePayload p block else []))
          { c.crypto with rng } := by
    rintro ⟨challenge, block, rng, hrequest, hrsa⟩
    rw [← hpayload] at hrequest
    have hchallenge := (challengeOf_eq_ok_iff (p := p) hoffset).mpr hrequest
    exact ⟨block, rng, fun elides =>
      responseMessage_of_challenge (p := p.eliding elides) hchallenge hrsa⟩
  -- without one there is nothing to copy
  have hsame : ¬ IsAnswered p data c.crypto → responseMessage (p.eliding true) packet c.crypto
      = responseMessage (p.eliding false) packet c.crypto := by
    intro hno
    have hnone : ∀ challenge, challengeOf p packet = .ok challenge → ∀ block rng,
        p.cryptoPP.rsaesOaepSha STEAM_PUBLIC_KEY_DER (c.crypto.sessionKey ++ challenge) c.crypto.rng
          ≠ (.ok block, rng) := by
      intro challenge hchallenge block rng hrsa
      have hrequest := (challengeOf_eq_ok_iff hoffset).mp hchallenge
      rw [hpayload] at hrequest
      exact hno ⟨challenge, block, rng, hrequest, hrsa⟩
    rw [responseMessage_eliding hnone, responseMessage_eliding hnone]
  have hhandler : ¬ IsAnswered p data c.crypto → ∀ emit : Event → Calling C E Unit,
      handleEncryptRequest emit (p.eliding true) packet c
        = handleEncryptRequest emit (p.eliding false) packet c :=
    fun hno emit => handleEncryptRequest_congr rfl (hsame hno)
  refine ⟨Msg.copy_sameAs_iff, ⟨?_, hsame⟩, fun hsecured => ⟨?_, hhandler⟩, hhandler⟩
  · intro heq hanswered
    obtain ⟨block, rng, hmessage⟩ := hmade hanswered
    rw [hmessage true, hmessage false] at heq
    injection heq with hframe
    exact responseFrame_ne_nil p block hframe
  · intro heq hanswered
    obtain ⟨block, rng, hmessage⟩ := hmade hanswered
    exact responseFrame_ne_nil p block ((answers_of_message hsecured (hmessage true)).frame_eq
      (answers_of_message hsecured (hmessage false)) heq)

/-- A request of version 2. -/
def version2Request : Bytes :=
  rawMessage EMsg.channelEncryptRequest
    (LittleEndian.bytes 4 2 ++ LittleEndian.bytes 4 1 ++ List.replicate 16 7)

/-- It is refused, copy or not. -/
theorem copies_faithful_version2 : ∃ packet : PacketMsg,
    PacketMsg.make EMsg.channelEncryptRequest version2Request = .ok packet ∧
    ∀ emit : Event → Calling Net.Connection Net.Lookup Unit,
      handleEncryptRequest emit (plainPlatform.eliding true) packet System.onTcp.client
        = handleEncryptRequest emit (plainPlatform.eliding false) packet System.onTcp.client := by
  have hpacket : PacketMsg.make EMsg.channelEncryptRequest version2Request = .ok _ := rfl
  have hno : ¬ IsAnswered plainPlatform version2Request System.onTcp.client.crypto := by
    rintro ⟨challenge, block, rng, ⟨hbehind, -⟩, -⟩
    have hversion := congrArg List.head? hbehind
    exact absurd (Option.some.inj hversion) (by decide)
  have hfaithful := copies_faithful_iff (p := plainPlatform) (.new : Msg MsgChannelEncryptResponse)
    hpacket System.onTcp.client
  exact ⟨_, hpacket, hfaithful.2.2.2 hno⟩

/-- The request with the sevens: the RSA block is sent, or nothing but the header and the body. -/
theorem copy_loses_key :
    ¬ (Msg.new.writeBytes [1] : Msg MsgChannelEncryptResponse).copy.SameAs
      (Msg.new.writeBytes [1]) ∧
    ∃ packet : PacketMsg, PacketMsg.make EMsg.channelEncryptRequest sevensRequest = .ok packet ∧
      responseMessage (plainPlatform.eliding true) packet System.onTcp.client.crypto
        = .ok (responseFrame (responsePayload plainPlatform (List.replicate 128 1)))
          System.onTcp.client.crypto ∧
      responseMessage (plainPlatform.eliding false) packet System.onTcp.client.crypto
        = .ok (responseFrame []) System.onTcp.client.crypto ∧
      responseFrame (responsePayload plainPlatform (List.replicate 128 1)) ≠ responseFrame [] := by
  constructor
  · intro hsame
    nomatch hsame.payload
  · have hchallenge : ∀ elides, challengeOf (plainPlatform.eliding elides)
        ⟨EMsg.channelEncryptRequest, ⟨EMsg.channelEncryptRequest, -1, -1⟩, sevensRequest, 20⟩
          = .ok (List.replicate 16 7) :=
      fun _ => (challengeOf_eq_ok_iff rfl).mpr ⟨rfl, rfl⟩
    refine ⟨_, rfl, ?_, ?_, responseFrame_ne_nil _ _⟩
    · exact responseMessage_of_challenge (hchallenge true) rfl
    · exact responseMessage_of_challenge (hchallenge false) rfl

end SteamMin.Client
