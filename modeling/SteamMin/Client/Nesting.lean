/-
  NESTED BATCHES END.

  `consume_frame` finds the handler of a batch in the dispatch table, the handler calls
  `consume_frame` for each frame of the batch, and that frame may be a batch again.  Nothing counts
  how deep this goes.  As long as no batch is compressed, length is what ends it: a frame of a batch
  has lost the two words of the header and its own length (`SubFrame.shorter`).

  The model counts the depth in fuel, so that the fuel has to be shown to play no part:

  * `consumeFrame_congr` — with more fuel than the buffer has bytes, the fuel changes nothing;
  * `accounted_consumeFrame` — it is not what ends such a call; if the call does not return, it is
    an event of the user that does not (`StuckIn`);
  * `consumeFrame_terminates` — **the result** puts them together.
-/
import SteamMin.Client.ProductInfo

namespace SteamMin.Client

open Messages Crypto
open Relation (ReflTransGen)

/-! ## Batches that are not compressed

  Unzipping makes a payload longer, so that a batch may hold itself.  Without it the payload
  is a part of the packet, and protobuf returns no string that is longer than its input
  (`BodiesFit`). -/

section
variable (p : Platform)

/-- Of all the Multi packets in the buffer, at whatever level, none is compressed. -/
def Uncompressed (data : Bytes) : Prop :=
  ∀ f packet, ReflTransGen (SubFrame p) data f → isProtobufMsg (firstWord f) →
    PacketClientMsgProtobuf.make p.protobuf.header (firstWord f) f = .ok packet →
    getMsg packet.msgType = EMsg.multi → (multiBody p packet).getSizeUnzipped = 0

/-- A parsed `message_body` is no longer than the bytes it was parsed from. -/
def BodiesFit (protobuf : Protobuf) : Prop :=
  ∀ bytes, (protobuf.multi.parseFromArray bytes).2.getMessageBody.length ≤ bytes.length

end

section
variable {p : Platform} {data : Bytes}

/-- What is said of all levels is said of those inside one of them. -/
theorem Uncompressed.nested {f : Bytes} (h : Uncompressed p data)
    (hf : ReflTransGen (SubFrame p) data f) : Uncompressed p f :=
  fun g packet hg => h g packet (hf.trans hg)

/-- **Each level is shorter** than the one around it, by the header and the length of the frame. -/
theorem SubFrame.shorter (hbody : BodiesFit p.protobuf) (h : Uncompressed p data) {sub : Bytes}
    (hsub : SubFrame p data sub) : sub.length + 12 ≤ data.length := by
  obtain ⟨hproto, packet, payload, offset, offset', hpacket, hmulti, hpayload, -, hread⟩ := hsub
  rw [multiPayload_plain (h data packet .refl hproto hpacket hmulti)] at hpayload
  cases hpayload
  -- frame, body, message body, sub-frame: what is lost on the way is at the front of each
  obtain ⟨-, hdata⟩ := PacketClientMsgProtobuf.make_eq_ok hpacket
  obtain ⟨hoffset, hinside⟩ := PacketClientMsgProtobuf.bodyOffset_of_make hpacket
  obtain ⟨hnext, hend⟩ := readFrame_advances hread
  have hfits := hbody (packet.payload.drop packet.bodyOffset)
  rw [hdata, List.length_drop] at hfits
  rw [multiBody, hdata] at hend
  omega

/-- Of a frame that is no protobuf message nothing is to be said. -/
theorem uncompressed_of_not_proto (h : isProtobufMsg (firstWord data) = false) :
    Uncompressed p data := by
  intro g packet hg hproto
  rcases ReflTransGen.cases_head hg with rfl | ⟨sub, hsub, -⟩
  · cases h.symm.trans hproto
  · cases h.symm.trans hsub.1

/-- A batch of frames with nothing compressed in them. -/
theorem uncompressed_of_frames (frames : List Bytes) {packet : PacketClientMsgProtobuf}
    (hpacket : PacketClientMsgProtobuf.make p.protobuf.header (firstWord data) data = .ok packet)
    (hplain : (multiBody p packet).getSizeUnzipped = 0)
    (hbatch : (multiBody p packet).getMessageBody = batchOf frames)
    (hfits : ∀ sub ∈ frames, sub.length < 2 ^ 32) (hframes : ∀ sub ∈ frames, Uncompressed p sub) :
    Uncompressed p data := by
  intro g packet' hg hproto hpacket' hmulti
  rcases ReflTransGen.cases_head hg with rfl | ⟨sub, hsub, hg⟩
  · cases hpacket.symm.trans hpacket'
    exact hplain
  · obtain ⟨-, packet'', payload, offset, offset', hpacket'', -, hpayload, hoffset, hread⟩ := hsub
    cases hpacket.symm.trans hpacket''
    rw [multiPayload_plain hplain, hbatch] at hpayload
    cases hpayload
    have hmem := (batchSplit_batchOf hfits).mem hoffset hread
    exact hframes sub hmem g packet' hg hproto hpacket' hmulti

end

/-! ## One amount of fuel is as good as another

  Fuel is passed down, one unit less at each level.  Two amounts can only differ where one of them
  runs out, and with more units than the frame has bytes none does. -/

section
variable {C E : Type} {p : Platform} {emit : Event → Calling C E Unit} {data : Bytes}
  {consumeFrame₁ consumeFrame₂ : Bytes → Bool → Calling C E Unit}

/-- The loop only asks for the frames at its offsets. -/
theorem multiLoop_congr {payload : Bytes}
    (h : ∀ frame offset offset', LoopOffset payload offset →
      readFrame payload offset = some (frame, offset') →
      consumeFrame₁ frame false = consumeFrame₂ frame false)
    (fuel : Nat) : ∀ offset, LoopOffset payload offset →
      multiLoop consumeFrame₁ payload fuel offset
        = multiLoop consumeFrame₂ payload fuel offset := by
  induction fuel with
  | zero => exact fun offset _ => rfl
  | succ fuel ih =>
    intro offset hoffset
    rw [multiLoop, multiLoop]
    cases hread : readFrame payload offset with
    | none => rfl
    | some next =>
      dsimp only
      rw [h _ _ _ hoffset hread, ih next.2 (hoffset.next hread)]

/-- The handler of a batch depends on `consume_frame` only at the frames of its payload. -/
theorem handleMulti_congr {packet : PacketClientMsgProtobuf}
    (h : ∀ payload frame offset offset', multiPayload p packet = .ok payload →
      LoopOffset payload offset → readFrame payload offset = some (frame, offset') →
      consumeFrame₁ frame false = consumeFrame₂ frame false) :
    handleMulti p consumeFrame₁ packet = handleMulti p consumeFrame₂ packet := by
  rw [handleMulti_eq, handleMulti_eq]
  cases hpayload : multiPayload p packet with
  | error fault => rfl
  | ok payload =>
    exact multiLoop_congr
      (fun frame offset offset' => h payload frame offset offset' hpayload) (payload.length + 1) 0
      .start

variable [IConnection C E]

/-- Of the two tables only the handler of batches knows `consume_frame`. -/
theorem dispatchProto_congr {packet : PacketClientMsgProtobuf}
    (h : getMsg packet.msgType = EMsg.multi →
      handleMulti p consumeFrame₁ packet = handleMulti p consumeFrame₂ packet) :
    dispatchProto (gDispatch emit p consumeFrame₁) emit packet
      = dispatchProto (gDispatch emit p consumeFrame₂) emit packet := by
  by_cases hmulti : getMsg packet.msgType = EMsg.multi
  · rw [dispatchProto, dispatchProto, hmulti]
    exact congrArg (record (.dispatchedProto packet) >>= ·) (funext fun _ => h hmulti)
  · have hid : ¬ (getMsg packet.msgType).toNat = EMsg.multi.toNat :=
      fun heq => hmulti (UInt32.toNat_inj.mp heq)
    have hslot : slot (gDispatch emit p consumeFrame₁).proto (getMsg packet.msgType).toNat
        = slot (gDispatch emit p consumeFrame₂).proto (getMsg packet.msgType).toNat := by
      rw [slot, slot, gDispatch, gDispatch]
      dsimp only
      rw [if_neg hid, if_neg hid]
    simp only [dispatchProto, hslot]

/-- So does the dispatch of a frame, at the frames nested in it. -/
theorem dispatchFrame_congr
    (h : ∀ sub, SubFrame p data sub → consumeFrame₁ sub false = consumeFrame₂ sub false) :
    dispatchFrame (gDispatch emit p consumeFrame₁) emit p (firstWord data) data
      = dispatchFrame (gDispatch emit p consumeFrame₂) emit p (firstWord data) data := by
  rw [dispatchFrame, dispatchFrame]
  split
  · rfl
  · split
    · rename_i hproto
      cases hpacket : PacketClientMsgProtobuf.make p.protobuf.header (firstWord data) data with
      | error fault => rfl
      | ok packet =>
        show dispatchProto _ emit packet = dispatchProto _ emit packet
        refine dispatchProto_congr fun hmulti => handleMulti_congr ?_
        intro payload sub offset offset' hpayload hoffset hread
        exact h sub ⟨hproto, packet, payload, offset, offset', hpacket, hmulti, hpayload, hoffset,
          hread⟩
    · rfl

/-- One call of `consume_frame` asks for nothing but the frames of its batch. -/
theorem consumeFrame_congr_of_subs {fuel fuel' : Nat} {frame : Bytes} {encrypt : Bool}
    {c : CMClient C E}
    (h : ∀ data sub, c.received p frame encrypt = .ok data → SubFrame p data sub →
      consumeFrame emit p fuel sub false = consumeFrame emit p fuel' sub false) :
    consumeFrame emit p (fuel + 1) frame encrypt c
      = consumeFrame emit p (fuel' + 1) frame encrypt c := by
  by_cases hlen : frame.length < 4
  · rw [consumeFrame_short hlen, consumeFrame_short hlen]
  · cases hreceived : c.received p frame encrypt with
    | error fault => rw [consumeFrame_rejected hlen hreceived, consumeFrame_rejected hlen hreceived]
    | ok data =>
      by_cases hdata : data.length < 4
      · rw [consumeFrame_overrun hlen hreceived hdata, consumeFrame_overrun hlen hreceived hdata]
      · rw [consumeFrame_dispatched hlen hreceived (by omega),
          consumeFrame_dispatched hlen hreceived (by omega),
          dispatchFrame_congr fun sub => h data sub hreceived]

/-- **The fuel is never felt**: two amounts above the length of the buffer do the same.  By
    induction on one of them: each level takes a unit and is shorter than the one before. -/
theorem consumeFrame_congr (hbody : BodiesFit p.protobuf) (emit : Event → Calling C E Unit)
    (fuel : Nat) : ∀ fuel' frame encrypt c,
      (∀ data, c.received p frame encrypt = .ok data →
        Uncompressed p data ∧ data.length ≤ fuel ∧ data.length ≤ fuel') →
      consumeFrame emit p (fuel + 1) frame encrypt c
        = consumeFrame emit p (fuel' + 1) frame encrypt c := by
  induction fuel with
  | zero =>
    intro fuel' frame encrypt c h
    refine consumeFrame_congr_of_subs fun data sub hreceived hsub => ?_
    -- an empty buffer holds no batch
    obtain ⟨hplain, hempty, -⟩ := h data hreceived
    have hshorter := hsub.shorter hbody hplain
    omega
  | succ fuel ih =>
    intro fuel' frame encrypt c h
    refine consumeFrame_congr_of_subs fun data sub hreceived hsub => ?_
    obtain ⟨hplain, hfuel, hfuel'⟩ := h data hreceived
    have hshorter := hsub.shorter hbody hplain
    obtain ⟨fuel', rfl⟩ := Nat.exists_eq_add_one_of_ne_zero (show fuel' ≠ 0 by omega)
    funext c'
    refine ih fuel' sub false c' fun data' hdata' => ?_
    obtain rfl : sub = data' := Except.ok.inj hdata'
    refine ⟨hplain.nested (.single hsub), ?_, ?_⟩
    · omega
    · omega

end

/-! ## What ends a call

  A call of `consume_frame` also runs the user's listeners, and those may not return.  So the
  statement is about who is to blame: if the call does not return, then some `emit` within it has
  not. -/

section
variable {C E : Type}

/-- An emitted event has not returned, and left the client like this. -/
def StuckIn (emit : Event → Calling C E Unit) (c' : CMClient C E) : Prop :=
  ∃ event c, emit event c = .error .diverges c'

/-- If the call does not end, an event is why. -/
abbrev Accounted {α : Type} (emit : Event → Calling C E Unit) (x : Calling C E α) : Prop :=
  Calls.FailsIn Fault.diverges (StuckIn emit) x

variable {emit : Event → Calling C E Unit}

/-- Emitting is accounted for by definition: what does not return there is a listener. -/
theorem accounted_emit (event : Event) : Accounted emit (emit event) := by
  intro c c' h
  exact ⟨event, c, h⟩

/-- Returning never diverges. -/
theorem accounted_pure {α : Type} (a : α) : Accounted emit (pure a : Calling C E α) :=
  Calls.failsIn_of_never (Calls.failsOnly_pure a)

/-- Reading the state never diverges. -/
theorem accounted_get : Accounted emit (get : Calling C E (CMClient C E)) :=
  Calls.failsIn_of_never Calls.failsOnly_get

/-- Writing the state never diverges. -/
theorem accounted_modify (f : CMClient C E → CMClient C E) :
    Accounted emit (modify f : Calling C E Unit) :=
  Calls.failsIn_of_never Calls.failsOnly_modify

/-- A call of the encryption manager that does not diverge is accounted for. -/
theorem accounted_onCrypto {α : Type} {x : EStateM Fault EncryptionManager α}
    (h : Calls.FailsOnly (· ≠ Fault.diverges) x) : Accounted emit (onCrypto x) :=
  Calls.failsIn_of_never (Calls.failsOnly_zoom h)

/-- Catching changes nothing here: divergence is not an exception. -/
theorem accounted_catchStd {α : Type} {x : Calling C E α} {handler : Exn → Calling C E α}
    (hx : Accounted emit x) (hhandler : ∀ e, Accounted emit (handler e)) :
    Accounted emit (catchStd x handler) := by
  refine Calls.failsIn_tryCatch hx rfl fun fault hfault => ?_
  cases fault with
  | throws e => exact hhandler e
  | undefined => exact Calls.failsIn_of_never (Calls.failsOnly_throw hfault)
  | diverges => exact absurd rfl hfault

/-! ## The handlers that read no frames

  Each decodes its packet, by a number of steps that the packet bounds, and then sends or emits.
  -/

section
variable [IConnection C E] {p : Platform}

omit [IConnection C E] in
/-- Sealing an outgoing message does not diverge. -/
theorem accounted_outgoing (p : Platform) (message : Bytes) (secured : Bool) :
    Accounted emit (outgoing p message secured : Calling C E Bytes) := by
  unfold outgoing
  split
  · refine accounted_onCrypto ((EncryptionManager.failsOnly_processOutgoing p message).mono ?_)
    rintro fault rfl
    simp
  · exact accounted_pure _

/-- Sending does not diverge. -/
theorem accounted_sendMsgImpl (message : Bytes) :
    Accounted emit (sendMsgImpl p message : Calling C E Unit) := by
  refine Calls.failsIn_bind accounted_get fun c => ?_
  refine Calls.failsIn_bind (accounted_outgoing p message c.channelSecured) fun buffer => ?_
  exact Calls.failsIn_bind (accounted_modify _) fun _ => accounted_modify _

/-- A request comes out of a frame, so that it is answered or refused. -/
theorem accounted_handleEncryptRequest {packet : PacketMsg} (hoffset : packet.bodyOffset = 20) :
    Accounted emit (handleEncryptRequest emit p packet) := by
  refine accounted_catchStd ?_ fun e => accounted_emit _
  have hgenerate := EncryptionManager.failsOnly_generateEncryptionResponse p hoffset
  refine Calls.failsIn_bind (accounted_onCrypto (hgenerate.mono ?_)) fun response => ?_
  · rintro fault ⟨e, rfl⟩
    simp
  · refine Calls.failsIn_lift_bind ?_ fun buffer _ => accounted_sendMsgImpl buffer
    rw [Msg.serialize_eq response.body.appends_serialize]
    simp

/-- Decoding a result is a fixed number of reads. -/
theorem ofPacket_result_ne_diverges (packet : PacketMsg) :
    (Msg.ofPacket (.raw packet) : Except Fault (Msg MsgChannelEncryptResult))
      ≠ .error .diverges := by
  intro h
  have hends : Calls.FailsOnly (· ≠ Fault.diverges)
      (ISteamSerializableMessage.deserialize : Streaming MsgChannelEncryptResult) :=
    Calls.failsOnly_bind Stream.failsOnly_readInt32 fun _ => Calls.failsOnly_pure _
  rw [Msg.ofPacket] at h
  split at h
  · rename_i fault s herror
    exact hends _ _ _ herror (Except.error.inj h)
  · cases h

/-- The handler of the result only records and emits. -/
theorem accounted_handleEncryptResult (packet : PacketMsg) :
    Accounted emit (handleEncryptResult emit packet) := by
  refine Calls.failsIn_lift_bind (ofPacket_result_ne_diverges packet) fun res _ => ?_
  refine Calls.failsIn_bind ?_ fun _ => accounted_emit _
  refine Calls.failsIn_bind accounted_get fun c => ?_
  exact Calls.failsIn_bind (accounted_modify _) fun _ => accounted_modify _

end

/-- The handler of the logon answer only decodes and emits. -/
theorem accounted_handleLogonResponse (p : Platform) (packet : PacketClientMsgProtobuf) :
    Accounted emit (handleLogonResponse emit p packet) :=
  Calls.failsIn_lift_bind (by simp [MsgProto.ofPacket]) fun _ _ => accounted_emit _

/-- The text parser ends on every buffer, so an app entry is parsed or refused. -/
theorem parseApp_ne_diverges (app : ProductInfo) : parseApp app ≠ .error .diverges := by
  intro h
  rcases Calls.except_bind_eq_error h with htext | ⟨vdf, -, h⟩
  · rcases Vdf.parseText_spec app.getBuffer.dropLast with ⟨es, hok, -⟩ | ⟨hcut, -⟩ | ⟨what, hthrows⟩
    · cases hok.symm.trans htext
    · cases hcut.symm.trans htext
    · cases hthrows.symm.trans htext
  · rcases Calls.except_bind_eq_error h with hinfo | ⟨appinfo, -, h⟩
    · cases asObject_error hinfo
    · cases h

/-- The binary parser ends on every buffer, so a package entry is parsed or refused. -/
theorem parsePkg_ne_diverges (pkg : ProductInfo) : parsePkg pkg ≠ .error .diverges := by
  intro h
  by_cases hlen : pkg.getBuffer.length < 4
  · cases (parsePkg_short hlen).symm.trans h
  · obtain ⟨e, he⟩ := parsePkg_error (by omega) h
    cases he

/-- The loops over the entries end with their lists. -/
theorem parseEntries_ne_diverges (m : CMsgClientPICSProductInfoResponse) :
    parseEntries m ≠ .error .diverges := by
  intro h
  rcases parseEntries_eq_error_iff.mp h with happs | ⟨-, hpackages⟩
  · obtain ⟨pre, app, post, -, -, happ⟩ := Calls.mapM_eq_error_iff.mp happs
    exact parseApp_ne_diverges app happ
  · obtain ⟨pre, pkg, post, -, -, hpkg⟩ := Calls.mapM_eq_error_iff.mp hpackages
    exact parsePkg_ne_diverges pkg hpkg

/-- The handler of product information only decodes and emits. -/
theorem accounted_handleProdInfoResponse (p : Platform) (packet : PacketClientMsgProtobuf) :
    Accounted emit (handleProdInfoResponse emit p packet) := by
  rw [handleProdInfoResponse_eq]
  exact Calls.failsIn_lift_bind (parseEntries_ne_diverges _) fun entries _ => accounted_emit _

/-! ## The loop of a batch

  The offset grows with every frame, and the loop ends where it has passed the payload. -/

variable {p : Platform} {consumeFrame : Bytes → Bool → Calling C E Unit}

/-- Every turn moves the offset, which the payload bounds: the loop comes to its end. -/
theorem accounted_multiLoop {payload : Bytes}
    (hconsume : ∀ frame offset offset', LoopOffset payload offset →
      readFrame payload offset = some (frame, offset') → Accounted emit (consumeFrame frame false))
    (fuel : Nat) : ∀ offset, LoopOffset payload offset → payload.length < offset + fuel →
      Accounted emit (multiLoop consumeFrame payload fuel offset) := by
  induction fuel with
  | zero =>
    intro offset hoffset hfuel
    have hle := hoffset.le
    omega
  | succ fuel ih =>
    intro offset hoffset hfuel
    rw [multiLoop]
    cases hread : readFrame payload offset with
    | none => exact accounted_pure _
    | some next =>
      obtain ⟨hnext, -⟩ := readFrame_advances hread
      refine Calls.failsIn_bind (hconsume _ _ _ hoffset hread) fun _ => ?_
      exact ih next.2 (hoffset.next hread) (by omega)

/-- Unfolding a batch ends, zipped or not. -/
theorem multiPayload_ne_diverges (packet : PacketClientMsgProtobuf) :
    multiPayload p packet ≠ .error .diverges := by
  show (if 0 < (multiBody p packet).getSizeUnzipped then _ else .ok _ : Except Fault Bytes) ≠ _
  split
  · unfold gzipDecompress
    split
    · simp
    · simp [runtimeError]
  · simp

/-- A batch is accounted for when its frames are: the loop ends because the offset moves past a
    length word each round. -/
theorem accounted_handleMulti {packet : PacketClientMsgProtobuf}
    (hconsume : ∀ payload frame offset offset', multiPayload p packet = .ok payload →
      LoopOffset payload offset → readFrame payload offset = some (frame, offset') →
      Accounted emit (consumeFrame frame false)) :
    Accounted emit (handleMulti p consumeFrame packet) := by
  rw [handleMulti_eq]
  refine Calls.failsIn_lift_bind (multiPayload_ne_diverges packet) fun payload hpayload => ?_
  exact accounted_multiLoop
    (fun frame offset offset' => hconsume payload frame offset offset' hpayload) _ 0 .start (by omega)

/-! ## The dispatcher -/

/-- Looking up a handler is one access to the table. -/
theorem slot_ne_diverges {H : Type} (table : Nat → Option H) (id : Nat) :
    slot table id ≠ .error .diverges := by
  unfold slot
  split
  · simp
  · simp

section
variable [IConnection C E] {data : Bytes}

/-- The handlers in the table, but for batches, read no frames. -/
theorem accounted_dispatchProto {packet : PacketClientMsgProtobuf}
    (hmulti : getMsg packet.msgType = EMsg.multi →
      Accounted emit (handleMulti p consumeFrame packet)) :
    Accounted emit (dispatchProto (gDispatch emit p consumeFrame) emit packet) := by
  refine Calls.failsIn_bind (accounted_modify _) fun _ => ?_
  show Accounted emit (if (getMsg packet.msgType).toNat ≤ MAX_EMSG then _ else pure ())
  split
  · refine Calls.failsIn_lift_bind (slot_ne_diverges _ _) fun fn hfn => ?_
    rcases protoHandler_cases hfn with ⟨hbatch, rfl⟩ | rfl | ⟨-, rfl⟩ | rfl
    · exact hmulti hbatch
    · exact accounted_handleLogonResponse p packet
    · exact accounted_handleProdInfoResponse p packet
    · exact accounted_emit _
  · exact accounted_pure _

/-- The raw handlers are accounted for. -/
theorem accounted_dispatchMsg {packet : PacketMsg} (hoffset : packet.bodyOffset = 20) :
    Accounted emit (dispatchMsg (gDispatch emit p consumeFrame) emit packet) := by
  refine Calls.failsIn_bind (accounted_modify _) fun _ => ?_
  show Accounted emit (if packet.msgType.toNat ≤ MAX_EMSG then _ else pure ())
  split
  · refine Calls.failsIn_lift_bind (slot_ne_diverges _ _) fun fn hfn => ?_
    rcases msgHandler_cases hfn with rfl | rfl | rfl
    · exact accounted_handleEncryptRequest hoffset
    · exact accounted_handleEncryptResult packet
    · exact accounted_emit _
  · exact accounted_pure _

/-- A frame is accounted for when the frames nested in it are. -/
theorem accounted_dispatchFrame
    (hconsume : ∀ sub, SubFrame p data sub → Accounted emit (consumeFrame sub false)) :
    Accounted emit
      (dispatchFrame (gDispatch emit p consumeFrame) emit p (firstWord data) data) := by
  unfold dispatchFrame
  split
  · refine Calls.failsIn_lift_bind (PacketMsg.make_ne_diverges _ _) fun packet hpacket => ?_
    obtain ⟨-, -, hoffset, -⟩ := PacketMsg.make_eq_ok hpacket
    exact accounted_dispatchMsg hoffset
  · split
    · rename_i hproto
      refine Calls.failsIn_lift_bind (PacketClientMsgProtobuf.make_ne_diverges _ _ _)
        fun packet hpacket => ?_
      refine accounted_dispatchProto fun hmulti => accounted_handleMulti ?_
      intro payload sub offset offset' hpayload hoffset hread
      exact hconsume sub ⟨hproto, packet, payload, offset, offset', hpacket, hmulti, hpayload,
        hoffset, hread⟩
    · exact accounted_pure _

end

end

/-! ## `consume_frame` -/

section
variable {C E : Type} {p : Platform} {emit : Event → Calling C E Unit} {frame : Bytes}
  {encrypt : Bool} {c c' : CMClient C E}

/-- Opening the envelope ends. -/
theorem received_ne_diverges : c.received p frame encrypt ≠ .error .diverges := by
  unfold CMClient.received
  split
  · rw [EncryptionManager.processIncomingEncryptedMessage, Helpers.symmetricDecryptHmacIv]
    split
    · simp [runtimeError]
    · dsimp only
      split
      · simp
      · split
        · simp [runtimeError]
        · simp
  · simp

variable [IConnection C E]

/-- The step of the induction on nesting: with enough fuel for the frames inside, a frame that
    does not return is stuck in a listener. -/
theorem accounted_consumeFrame_of_subs {fuel : Nat}
    (h : ∀ data sub, c.received p frame encrypt = .ok data → SubFrame p data sub →
      Accounted emit (consumeFrame emit p fuel sub false))
    (hrun : consumeFrame emit p (fuel + 1) frame encrypt c = .error .diverges c') :
    StuckIn emit c' := by
  by_cases hlen : frame.length < 4
  · cases (consumeFrame_short hlen).symm.trans hrun
  · cases hreceived : c.received p frame encrypt with
    | error fault =>
      cases (consumeFrame_rejected hlen hreceived).symm.trans hrun
      exact absurd hreceived received_ne_diverges
    | ok data =>
      by_cases hdata : data.length < 4
      · cases (consumeFrame_overrun hlen hreceived hdata).symm.trans hrun
      · rw [consumeFrame_dispatched hlen hreceived (by omega)] at hrun
        have hframe := accounted_dispatchFrame fun sub => h data sub hreceived
        exact accounted_catchStd hframe (fun e => accounted_pure _) _ _ hrun

/-- **The fuel is not spent** by the nesting of batches. -/
theorem accounted_consumeFrame (hbody : BodiesFit p.protobuf) (fuel : Nat) :
    ∀ frame encrypt (c c' : CMClient C E),
      (∀ data, c.received p frame encrypt = .ok data → Uncompressed p data ∧ data.length ≤ fuel) →
      consumeFrame emit p (fuel + 1) frame encrypt c = .error .diverges c' →
      StuckIn emit c' := by
  induction fuel with
  | zero =>
    intro frame encrypt c c' h hrun
    refine accounted_consumeFrame_of_subs (fun data sub hreceived hsub => ?_) hrun
    obtain ⟨hplain, hempty⟩ := h data hreceived
    have hshorter := hsub.shorter hbody hplain
    omega
  | succ fuel ih =>
    intro frame encrypt c c' h hrun
    refine accounted_consumeFrame_of_subs (fun data sub hreceived hsub => ?_) hrun
    obtain ⟨hplain, hfuel⟩ := h data hreceived
    have hshorter := hsub.shorter hbody hplain
    intro d d' hsubrun
    refine ih sub false d d' (fun data' hdata' => ?_) hsubrun
    obtain rfl : sub = data' := Except.ok.inj hdata'
    exact ⟨hplain.nested (.single hsub), by omega⟩

/-- **Consuming a frame terminates** if no Multi packet in it is compressed.  The recursion cannot
    go down for ever: every frame that `handle_multi` passes on, at whatever level, is shorter than
    the one it was in, and nothing else is passed to `consume_frame`.  The loop cannot stay where it
    is: each frame moves the offset by four bytes at least, and never beyond the payload.  So there
    is one result, whatever the fuel, and it is not that something runs for ever, unless a callback
    of the user does. -/
theorem consumeFrame_terminates (hbody : BodiesFit p.protobuf) (emit : Event → Calling C E Unit)
    (frame : Bytes) (encrypt : Bool) (c : CMClient C E)
    (hplain : ∀ data, c.received p frame encrypt = .ok data → Uncompressed p data) :
    (∀ data, c.received p frame encrypt = .ok data →
      Acc (fun sub f => SubFrame p f sub) data ∧
      ∀ f sub, ReflTransGen (SubFrame p) data f → SubFrame p f sub → sub.length < f.length) ∧
    (∀ (f : Bytes) (consumeFrame₁ consumeFrame₂ : Bytes → Bool → Calling C E Unit),
      (∀ sub, SubFrame p f sub → consumeFrame₁ sub false = consumeFrame₂ sub false) →
      dispatchFrame (gDispatch emit p consumeFrame₁) emit p (firstWord f) f
        = dispatchFrame (gDispatch emit p consumeFrame₂) emit p (firstWord f) f) ∧
    (∀ payload offset sub offset', readFrame payload offset = some (sub, offset') →
      offset + 4 ≤ offset' ∧ offset' ≤ payload.length) ∧
    ∃ r, (∀ fuel, (∀ data, c.received p frame encrypt = .ok data → data.length ≤ fuel) →
        consumeFrame emit p (fuel + 1) frame encrypt c = r) ∧
      ∀ c', r = .error .diverges c' → StuckIn emit c' := by
  -- a frame inside has lost at least its length word and two words of header
  have hnested : ∀ data f sub, c.received p frame encrypt = .ok data →
      ReflTransGen (SubFrame p) data f → SubFrame p f sub → sub.length < f.length := by
    intro data f sub hreceived hf hsub
    have hshorter := hsub.shorter hbody ((hplain data hreceived).nested hf)
    omega
  refine ⟨?_, ?_, ?_, ?_⟩
  · intro data hreceived
    exact ⟨Runs.acc_of_decreasing List.length (hnested data · · hreceived),
      (hnested data · · hreceived)⟩
  · exact fun f consumeFrame₁ consumeFrame₂ h => dispatchFrame_congr h
  · intro payload offset sub offset' hread
    obtain ⟨hnext, hend⟩ := readFrame_advances hread
    omega
  · -- the result is the one with as much fuel as the buffer has bytes
    obtain ⟨enough, henough⟩ :
        ∃ n, ∀ data, c.received p frame encrypt = .ok data → data.length ≤ n := by
      cases hreceived : c.received p frame encrypt with
      | error fault => exact ⟨0, by simp⟩
      | ok data =>
        refine ⟨data.length, ?_⟩
        rintro data' hdata'
        cases hdata'
        exact Nat.le_refl _
    refine ⟨consumeFrame emit p (enough + 1) frame encrypt c, ?_, ?_⟩
    · intro fuel hfuel
      exact consumeFrame_congr hbody emit fuel enough frame encrypt c fun data hreceived =>
        ⟨hplain data hreceived, hfuel data hreceived, henough data hreceived⟩
    · intro c' hrun
      exact accounted_consumeFrame hbody enough frame encrypt c c' (fun data hreceived =>
        ⟨hplain data hreceived, henough data hreceived⟩) hrun

end

/-- A frame that is a batch. -/
def batchFrame (frames : List Bytes) : Bytes :=
  (protoPacket EMsg.multi (CMsgMulti.wire ⟨none, some (batchOf frames)⟩)).payload

/-- A batch of a batch and an empty frame. -/
def nestedBatch : Bytes := batchFrame [batchFrame [[1, 2, 3, 4]], []]

/-- A batch inside a batch, with a platform that reads the wire format. -/
theorem consumeFrame_terminates_nestedBatch :
    ∃ r, ∀ fuel, nestedBatch.length ≤ fuel →
      consumeFrame (emit wirePlatform 0) wirePlatform (fuel + 1) nestedBatch true
        System.onTcp.client = r := by
  -- from the inside out
  have hleaf : Uncompressed wirePlatform [1, 2, 3, 4] := uncompressed_of_not_proto (by decide)
  have hempty : Uncompressed wirePlatform [] := uncompressed_of_not_proto (by decide)
  have hinner : Uncompressed wirePlatform (batchFrame [[1, 2, 3, 4]]) :=
    uncompressed_of_frames [[1, 2, 3, 4]] rfl rfl rfl (by decide)
      (List.forall_mem_singleton.mpr hleaf)
  have hnested : Uncompressed wirePlatform nestedBatch :=
    uncompressed_of_frames [batchFrame [[1, 2, 3, 4]], []] rfl rfl rfl (by decide)
      (List.forall_mem_cons.mpr ⟨hinner, List.forall_mem_singleton.mpr hempty⟩)
  have hreceived : ∀ data, System.onTcp.client.received wirePlatform nestedBatch true = .ok data →
      Uncompressed wirePlatform data := by
    rintro data hdata
    cases hdata
    exact hnested
  have hbody : BodiesFit wirePlatform.protobuf := CMsgMulti.length_messageBody
  obtain ⟨-, -, -, r, hr, -⟩ := consumeFrame_terminates hbody (emit wirePlatform 0) nestedBatch true
    System.onTcp.client hreceived
  refine ⟨r, fun fuel hfuel => hr fuel ?_⟩
  rintro data hdata
  cases hdata
  exact hfuel

end SteamMin.Client
