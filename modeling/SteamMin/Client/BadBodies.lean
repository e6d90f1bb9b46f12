/-
  BODIES THAT CANNOT BE PARSED.

  The constructor of `MsgProto` does not look at what `ParseFromArray` returns, so a handler works on
  whatever was read before the error.  For a packet whose body is no encoding of the handler's
  message, `badBody_iff` says of each of the three handlers when that does no harm: of
  `handle_logon_response` never, of the other two only where something behind the parser stops them.

  `NoEffect` is stated for whatever stands in the place of `emit` and `consume_frame`: nothing is
  emitted and nothing is delivered if the handler does the same for all of them.

  Each of the three equivalences is about every refused body.  `handle_logon_response` always
  emits, with the defaults of what was not read; `handle_multi` delivers the frames that were
  read; `handle_prod_info_response` is stopped by an entry that cannot be used, and by nothing
  else.
-/
import SteamMin.Client.ProductInfo

namespace SteamMin.Client

open Messages Vdf

variable {C E : Type} {p : Platform} {packet : PacketClientMsgProtobuf} {c : CMClient C E}

/-- The handler returns or throws with the client as it was, whatever `emit` and `consume_frame` would
    have done. -/
def NoEffect (handler : (Event → Calling C E Unit) → (Bytes → Bool → Calling C E Unit) →
    Calling C E Unit) (c : CMClient C E) : Prop :=
  ∀ emit consumeFrame, handler emit consumeFrame c = .ok () c ∨
    ∃ e, handler emit consumeFrame c = .error (.throws e) c

/-- The bytes the body is parsed from. -/
def bodyBytes (packet : PacketClientMsgProtobuf) : Bytes := packet.payload.drop packet.bodyOffset

/-- A call that reaches `emit` has an effect. -/
theorem not_noEffect_of_emit {handler : (Event → Calling C E Unit) →
    (Bytes → Bool → Calling C E Unit) → Calling C E Unit} {event : Event}
    (h : ∀ emit consumeFrame, handler emit consumeFrame c = emit event c) :
    ¬ NoEffect handler c := by
  intro hnone
  -- an `emit` that does not come back would be noticed
  have hrun := h (fun _ => throw .undefined) (fun _ _ => pure ())
  rcases hnone (fun _ => throw .undefined) (fun _ _ => pure ()) with hok | ⟨e, hthrows⟩
  · cases hok.symm.trans hrun
  · cases hthrows.symm.trans hrun

/-! ## The logon response -/

/-- What `handle_logon_response` makes of a body, however much of it was read. -/
def logonEvent (packet : PacketClientMsgProtobuf) (body : CMsgClientLogonResponse) : Event :=
  .clientLogon
    (if body.getEresult.toUInt32 = EResult.ok then .ok
     else .fail "Client login failed; incorrect information?")
    (some body.getClientSuppliedSteamid) (some packet.header.proto.getClientSessionid)

/-- The handler emits the event of what was parsed, however far that went: the result of parsing
    is not looked at. -/
theorem handleLogonResponse_eq {ok : Bool} {half : CMsgClientLogonResponse}
    (h : p.protobuf.clientLogonResponse.parseFromArray (bodyBytes packet) = (ok, half))
    (emit : Event → Calling C E Unit) :
    handleLogonResponse emit p packet c = emit (logonEvent packet half) c := by
  have hbody : half = (p.protobuf.clientLogonResponse.parseFromArray (bodyBytes packet)).2 := by
    rw [h]
  rw [hbody, handleLogonResponse, logonEvent]
  simp only [decide_eq_true_eq]
  rfl

/-! ## The product info response -/

/-- The first entry that cannot be parsed is refused by an exception. -/
def FirstRefused {α β : Type} (parse : α → Except Fault β) (entries : List α) : Prop :=
  ∃ pre entry post e, entries = pre ++ entry :: post ∧ (∀ a ∈ pre, ∃ r, parse a = .ok r) ∧
    parse entry = .error (.throws e)

/-- The loop over the entries throws at the first one that is refused. -/
theorem firstRefused_iff {α β : Type} {parse : α → Except Fault β} {entries : List α} :
    FirstRefused parse entries ↔ ∃ e, entries.mapM parse = .error (.throws e) := by
  constructor
  · rintro ⟨pre, entry, post, e, heq, hpre, hentry⟩
    exact ⟨e, Calls.mapM_eq_error_iff.mpr ⟨pre, entry, post, heq, hpre, hentry⟩⟩
  · rintro ⟨e, he⟩
    obtain ⟨pre, entry, post, heq, hpre, hentry⟩ := Calls.mapM_eq_error_iff.mp he
    exact ⟨pre, entry, post, e, heq, hpre, hentry⟩

/-- Nothing is reported exactly when the loops end in an exception. -/
theorem noEffect_handleProdInfoResponse_iff :
    NoEffect (fun emit _ => handleProdInfoResponse emit p packet) c ↔
      ∃ e, parseEntries (responseBody p packet) = .error (.throws e) := by
  constructor
  · intro hnone
    cases hentries : parseEntries (responseBody p packet) with
    | ok entries =>
      exact absurd hnone
        (not_noEffect_of_emit fun emit _ => handleProdInfoResponse_ok hentries emit)
    | error fault =>
      have hrun := handleProdInfoResponse_error (c := c) hentries fun _ => pure ()
      rcases hnone (fun _ => pure ()) (fun _ _ => pure ()) with hok | ⟨e, hthrows⟩
      · cases hok.symm.trans hrun
      · cases hthrows.symm.trans hrun
        exact ⟨e, rfl⟩
  · rintro ⟨e, he⟩ emit consumeFrame
    exact .inr ⟨e, handleProdInfoResponse_error he emit⟩

/-- Apps come first, so a package counts only behind apps that are accepted. -/
theorem parseEntries_throws_iff {m : CMsgClientPICSProductInfoResponse} :
    (∃ e, parseEntries m = .error (.throws e)) ↔ FirstRefused parseApp m.apps ∨
      (∀ app ∈ m.apps, ∃ r, parseApp app = .ok r) ∧ FirstRefused parsePkg m.packages := by
  rw [firstRefused_iff, firstRefused_iff]
  constructor
  · rintro ⟨e, he⟩
    rcases parseEntries_eq_error_iff.mp he with happs | ⟨hall, hpackages⟩
    · exact .inl ⟨e, happs⟩
    · exact .inr ⟨hall, e, hpackages⟩
  · rintro (⟨e, happs⟩ | ⟨hall, e, hpackages⟩)
    · exact ⟨e, parseEntries_eq_error_iff.mpr (.inl happs)⟩
    · exact ⟨e, parseEntries_eq_error_iff.mpr (.inr ⟨hall, hpackages⟩)⟩

/-! ## Batches -/

/-- No sub-frame can be read from the body, not even after decompressing it. -/
def NothingInside (p : Platform) (body : CMsgMulti) : Prop :=
  if 0 < body.getSizeUnzipped then
    ∀ output, p.cryptoPP.gunzip body.getMessageBody = .ok output → NoSubFrame output
  else NoSubFrame body.getMessageBody

/-- A batch that was not parsed is unfolded as far as it was read. -/
theorem noEffect_handleMulti_iff :
    NoEffect (fun _ consumeFrame => handleMulti p consumeFrame packet) c ↔
      NothingInside p (multiBody p packet) := by
  -- the handler has no event of its own
  have hnone : NoEffect (fun _ consumeFrame => handleMulti p consumeFrame packet) c
      ↔ NothingDelivered p packet c := ⟨fun h => h fun _ => pure (), fun h _ => h⟩
  rw [hnone, NothingInside]
  by_cases hsize : 0 < (multiBody p packet).getSizeUnzipped
  · rw [if_pos hsize]
    cases hgunzip : p.cryptoPP.gunzip (multiBody p packet).getMessageBody with
    | error what =>
      constructor
      · rintro - output ⟨⟩
      · rintro -
        exact nothingDelivered_of_throws (multiPayload_badGzip hsize hgunzip)
    | ok output =>
      rw [nothingDelivered_iff (multiPayload_gunzip hsize hgunzip)]
      constructor
      · intro h output' houtput
        rw [← Except.ok.inj houtput]
        exact h
      · intro h
        exact h output rfl
  · rw [if_neg hsize]
    have hpayload : multiPayload p packet = .ok (multiBody p packet).getMessageBody := if_neg hsize
    exact nothingDelivered_iff hpayload

/-! ## The three handlers -/

/-- **A body that cannot be parsed is handled all the same**: a logon response always has an effect,
    a product info response unless an entry that was read is refused by its own parser, a batch
    unless nothing can be taken out of what was read. -/
theorem badBody_iff (p : Platform) (packet : PacketClientMsgProtobuf) (c : CMClient C E) :
    (∀ half, p.protobuf.clientLogonResponse.parseFromArray (bodyBytes packet) = (false, half) →
      ¬ NoEffect (fun emit _ => handleLogonResponse emit p packet) c) ∧
    (∀ half, p.protobuf.productInfoResponse.parseFromArray (bodyBytes packet) = (false, half) →
      (NoEffect (fun emit _ => handleProdInfoResponse emit p packet) c ↔
        FirstRefused parseApp half.apps ∨
          (∀ app ∈ half.apps, ∃ r, parseApp app = .ok r) ∧ FirstRefused parsePkg half.packages)) ∧
    ∀ half, p.protobuf.multi.parseFromArray (bodyBytes packet) = (false, half) →
      (NoEffect (fun _ consumeFrame => handleMulti p consumeFrame packet) c ↔
        NothingInside p half) := by
  refine ⟨?_, ?_, ?_⟩
  · intro half hparse
    exact not_noEffect_of_emit fun emit _ => handleLogonResponse_eq hparse emit
  · intro half hparse
    have hbody : responseBody p packet = half := congrArg Prod.snd hparse
    rw [noEffect_handleProdInfoResponse_iff, hbody, parseEntries_throws_iff]
  · intro half hparse
    have hbody : multiBody p packet = half := congrArg Prod.snd hparse
    rw [noEffect_handleMulti_iff, hbody]

/-- A logon response that is cut in its second field, the SteamID. -/
def cutLogon : PacketClientMsgProtobuf :=
  protoPacket EMsg.clientLogOnResponse [0x08, 0x01, 0xA1, 0x01, 0x44, 0x33, 0x22]

/-- It is reported as a login that succeeded. -/
theorem cutLogon_succeeds : ¬ ∀ (p : Platform) (packet : PacketClientMsgProtobuf)
    (c : CMClient Net.Connection Net.Lookup) (half : CMsgClientLogonResponse),
    p.protobuf.clientLogonResponse.parseFromArray (bodyBytes packet) = (false, half) →
      NoEffect (fun emit _ => handleLogonResponse emit p packet) c := by
  intro h
  have hparse : wirePlatform.protobuf.clientLogonResponse.parseFromArray (bodyBytes cutLogon)
      = (false, ⟨some 1, none⟩) := rfl
  have hevent : ∀ emit : Event → Calling Net.Connection Net.Lookup Unit,
      handleLogonResponse emit wirePlatform cutLogon System.onTcp.client
        = emit (.clientLogon .ok (some 0) (some 0)) System.onTcp.client :=
    handleLogonResponse_eq hparse
  exact not_noEffect_of_emit (fun emit _ => hevent emit)
    (h wirePlatform cutLogon System.onTcp.client _ hparse)

end SteamMin.Client
