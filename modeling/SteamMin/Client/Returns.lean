/-
  WHEN `consume_frame` RETURNS.

  The transport calls `consume_frame` from the completion handler of a read, and counts on it to
  come back.  There are three ways in which it does not.

  * It throws: the decryption is outside the `try` block (`consumeFrame_escapes_iff`).
  * It leaves an array: the plaintext has no first word, or a frame in it is a packet that makes its
    handler read too far (`Misread`).  A `catch` does not stop that.
  * It goes down for ever: a compressed batch can have itself in it, and nothing counts the depth.

  `consumeFrame_returns_iff` says that there is no fourth, and that each of these is seen in the
  frame and the keys alone.  What the frame makes the client do does not matter for it, nor do the
  listeners, as long as they come back themselves (`ListenersReturn`).

  In one direction a call that returned has consumed every frame of its batch
  (`consumeFrame_visits`), so nothing in it is bad; the induction is on the fuel.  In the other one
  the induction is on the depth of the batches: if the frames of a batch return from some fuel on,
  there is one amount that is enough for all of them (`settled_of_subs`).
-/
import Mathlib.Data.Set.Finite.Basic
import Mathlib.Order.Filter.AtTopBot.Basic
import Mathlib.Order.Filter.Finite
import SteamMin.Client.Overruns

namespace SteamMin.Client

open Messages Crypto
open Relation (ReflTransGen)

variable {C E : Type}

/-! ## What a call must do

  Two things end a call without a result: undefined behaviour, and batches without an end.
  `Consumable` says of a buffer that it holds neither; of the listeners no more is assumed than
  that they come back, by a return or by an exception. -/

/-- The listeners are code of the user.  Whatever is emitted while they satisfy `L`, the call comes
    back, and the listeners that are registered then satisfy it again.  A callback may throw: `emit`
    catches that. -/
def ListenersReturn (emit : Event → Calling C E Unit)
    (L : (EventType → Option (Listener E)) → Prop) : Prop :=
  ∀ event c, L c.listeners → ∃ c', emit event c = .ok () c' ∧ L c'.listeners

section
variable (p : Platform)

/-- The buffer is a protobuf packet whose handler leaves an array: its type is the one behind the
    last slot of the table, or one of its documents stops where the parser goes on. -/
def Misread (data : Bytes) : Prop :=
  ∃ packet, IsProto p data packet ∧
    ((getMsg packet.msgType).toNat = MAX_EMSG ∨
      getMsg packet.msgType = EMsg.clientPICSProductInfoResponse ∧ CutShort (responseBody p packet))

/-- The batches in the buffer come to an end, and none of the frames in it, at any depth, is
    misread. -/
structure Consumable (data : Bytes) : Prop where
  ends : Acc (fun sub f => SubFrame p f sub) data
  inside : ∀ f, ReflTransGen (SubFrame p) data f → ¬ Misread p f

end

section
variable {p : Platform} {data sub : Bytes}

/-- What is said of all levels is said of those inside one of them. -/
theorem Consumable.nested (h : Consumable p data) (hsub : SubFrame p data sub) :
    Consumable p sub where
  ends := h.ends.inv hsub
  inside f hf := h.inside f (hf.head hsub)

/-- A frame is nested in itself. -/
theorem Consumable.not_misread (h : Consumable p data) : ¬ Misread p data := h.inside data .refl

/-- A buffer is consumable if it is not misread and the frames in it are consumable. -/
theorem consumable_of_subs (hread : ¬ Misread p data)
    (hsubs : ∀ sub, SubFrame p data sub → Consumable p sub) : Consumable p data where
  ends := ⟨data, fun sub hsub => (hsubs sub hsub).ends⟩
  inside f hf := by
    rcases ReflTransGen.cases_head hf with rfl | ⟨sub, hsub, hf⟩
    · exact hread
    · exact (hsubs sub hsub).inside f hf

/-- No message of the handshake has the bit of the protobuf messages. -/
theorem not_isEncryptionMsg_of_isProtobufMsg {emsg : UInt32} (h : isProtobufMsg emsg = true) :
    isEncryptionMsg emsg = false := by
  by_contra hencryption
  simp only [Bool.not_eq_false, isEncryptionMsg, Bool.or_eq_true, decide_eq_true_eq] at hencryption
  rcases hencryption with (rfl | rfl) | rfl
  · exact absurd h (by decide)
  · exact absurd h (by decide)
  · exact absurd h (by decide)

/-- A buffer that has frames in it is the packet of a batch, and they are what its payload splits
    into. -/
theorem SubFrame.split (h : SubFrame p data sub) :
    ∃ packet payload frames rest, IsProto p data packet ∧ getMsg packet.msgType = EMsg.multi ∧
      multiPayload p packet = .ok payload ∧ BatchSplit payload frames rest ∧ sub ∈ frames := by
  obtain ⟨hmark, packet, payload, offset, offset', hmake, hmulti, hpayload, hoffset, hread⟩ := h
  obtain ⟨frames, rest, hsplit⟩ := exists_batchSplit payload
  exact ⟨packet, payload, frames, rest, ⟨not_isEncryptionMsg_of_isProtobufMsg hmark, hmark, hmake⟩,
    hmulti, hpayload, hsplit, hsplit.mem hoffset hread⟩

/-- A buffer is one packet, with one payload, so there are finitely many frames in it. -/
theorem finite_subFrames : {sub | SubFrame p data sub}.Finite := by
  rcases Set.eq_empty_or_nonempty {sub | SubFrame p data sub} with hnone | ⟨sub, hsub⟩
  · rw [hnone]
    exact Set.finite_empty
  · obtain ⟨packet, payload, frames, rest, hproto, -, hpayload, hsplit, -⟩ := SubFrame.split hsub
    refine (List.finite_toSet frames).subset fun sub' hsub' => ?_
    obtain ⟨packet', payload', frames', rest', hproto', -, hpayload', hsplit', hmem⟩ :=
      SubFrame.split hsub'
    obtain rfl : packet = packet' := Except.ok.inj (hproto.2.2.symm.trans hproto'.2.2)
    obtain rfl : payload = payload' := Except.ok.inj (hpayload.symm.trans hpayload')
    rw [(hsplit.unique hsplit').1] at hmem
    exact hmem

/-- In a buffer that is no protobuf packet, nothing is unpacked and nothing parsed. -/
theorem consumable_of_not_isProto (h : ∀ packet, ¬ IsProto p data packet) : Consumable p data := by
  refine consumable_of_subs ?_ fun sub hsub => ?_
  · rintro ⟨packet, hproto, -⟩
    exact h packet hproto
  · obtain ⟨packet, -, -, -, hproto, -⟩ := hsub.split
    exact absurd hproto (h packet)

/-- A packet has the two words of its header. -/
theorem consumable_of_short (h : data.length < 4) : Consumable p data := by
  refine consumable_of_not_isProto fun packet hproto => ?_
  obtain ⟨hoffset, hinside⟩ := PacketClientMsgProtobuf.bodyOffset_of_make hproto.2.2
  omega

end

/-! ## A call that has returned

  One direction: a call that returned has gone through the whole batch, and where a buffer is
  misread it would not have come back. -/

section
variable {p : Platform} {emit : Event → Calling C E Unit} {frame data : Bytes} {encrypt : Bool}
  {c c' : CMClient C E}

/-- A `try` block that has been left was not stopped by anything but an exception. -/
theorem catchStd_swallow_ok {x : Calling C E Unit}
    (h : catchStd x (fun _ => pure ()) c = .ok () c') :
    x c = .ok () c' ∨ ∃ e, x c = .error (.throws e) c' := by
  cases hx : x c with
  | ok u d =>
    cases (catchStd_ok hx).symm.trans h
    exact .inl rfl
  | error fault d =>
    cases fault with
    | throws e =>
      cases (catchStd_throws hx).symm.trans h
      exact .inr ⟨e, rfl⟩
    | undefined => cases (catchStd_undefined hx).symm.trans h
    | diverges => cases (catchStd_diverges hx).symm.trans h

variable [IConnection C E] {fuel : Nat}

/-- Its buffer had a first word, and the `try` block was left. -/
theorem consumeFrame_dispatched_ok (hlen : ¬ frame.length < 4)
    (hreceived : c.received p frame encrypt = .ok data)
    (h : consumeFrame emit p (fuel + 1) frame encrypt c = .ok () c') :
    4 ≤ data.length ∧ catchStd (dispatchFrame (gDispatch emit p (consumeFrame emit p fuel)) emit p
      (firstWord data) data) (fun _ => pure ()) (c.consuming frame encrypt) = .ok () c' := by
  by_cases hdata : data.length < 4
  · cases (consumeFrame_overrun hlen hreceived hdata).symm.trans h
  · rw [consumeFrame_dispatched hlen hreceived (by omega)] at h
    exact ⟨by omega, h⟩

/-- Each frame of its batch was consumed, by a call that returned. -/
theorem consumeFrame_visits (hlen : ¬ frame.length < 4)
    (hreceived : c.received p frame encrypt = .ok data)
    (h : consumeFrame emit p (fuel + 1) frame encrypt c = .ok () c') {sub : Bytes}
    (hsub : SubFrame p data sub) : ∃ d d', consumeFrame emit p fuel sub false d = .ok () d' := by
  obtain ⟨packet, payload, frames, rest, hproto, hmulti, hpayload, hsplit, hmem⟩ := hsub.split
  obtain ⟨-, hleft⟩ := consumeFrame_dispatched_ok hlen hreceived h
  have hid : (getMsg packet.msgType).toNat < MAX_EMSG := by
    rw [hmulti]
    decide
  have htable := gDispatch_proto p emit (consumeFrame emit p fuel) (getMsg packet.msgType)
  rw [if_pos hmulti] at htable
  -- the handler is one call for each frame
  have hrun : dispatchFrame (gDispatch emit p (consumeFrame emit p fuel)) emit p
      (firstWord data) data (c.consuming frame encrypt)
        = forM frames (fun f => consumeFrame emit p fuel f false)
            ((c.consuming frame encrypt).dispatchingProto packet) := by
    rw [dispatchFrame_of_proto hproto, dispatchProto_of_handler hid htable,
      handleMulti_eq_forM hpayload hsplit]
  rcases Calls.forM_cases (fun f => consumeFrame emit p fuel f false) frames
    ((c.consuming frame encrypt).dispatchingProto packet) with
    hall | ⟨pre, f, post, fault, -, hfault, hall⟩
  · exact Calls.forM_eq_ok frames _ _ hall sub hmem
  · -- a call that fails does not fail with an exception, and nothing else is caught
    rcases catchStd_swallow_ok hleft with hok | ⟨e, hthrows⟩
    · cases (hrun.symm.trans hok).symm.trans hall
    · obtain rfl : fault = .throws e := by
        cases (hrun.symm.trans hthrows).symm.trans hall
        rfl
      exact absurd hfault consumeFrame_clear_never_throws

/-- And its buffer was not misread, which would have been the end of the call. -/
theorem consumeFrame_not_misread (hlen : ¬ frame.length < 4)
    (hreceived : c.received p frame encrypt = .ok data)
    (h : consumeFrame emit p (fuel + 1) frame encrypt c = .ok () c') : ¬ Misread p data := by
  rintro ⟨packet, hproto, hover⟩
  obtain ⟨-, hleft⟩ := consumeFrame_dispatched_ok hlen hreceived h
  have hrun : dispatchFrame (gDispatch emit p (consumeFrame emit p fuel)) emit p
      (firstWord data) data (c.consuming frame encrypt)
        = .error .undefined ((c.consuming frame encrypt).dispatchingProto packet) := by
    have hoverruns : Overruns p [] (.dispatchedProto packet) := hover
    rw [dispatchFrame_of_proto hproto]
    exact dispatchProto_overrun hoverruns _
  cases (catchStd_undefined hrun).symm.trans hleft

/-- **What a call has consumed** was consumable. -/
theorem consumable_of_returned (fuel : Nat) :
    ∀ frame encrypt data (c c' : CMClient C E), ¬ frame.length < 4 →
      c.received p frame encrypt = .ok data →
      consumeFrame emit p fuel frame encrypt c = .ok () c' → Consumable p data := by
  induction fuel with
  | zero =>
    intro frame encrypt data c c' _ _ h
    cases h
  | succ fuel ih =>
    intro frame encrypt data c c' hlen hreceived h
    refine consumable_of_subs (consumeFrame_not_misread hlen hreceived h) fun sub hsub => ?_
    by_cases hshort : sub.length < 4
    · exact consumable_of_short hshort
    · obtain ⟨d, d', hvisit⟩ := consumeFrame_visits hlen hreceived h hsub
      exact ih sub false sub d d' hshort rfl hvisit

end

/-! ## A call that will return

  The other direction.  `Handles` is the triple for it: a result or an exception, and listeners
  that are still as they should be. -/

section
variable (L : (EventType → Option (Listener E)) → Prop)

/-- The call comes back, perhaps with an exception, and the listeners are still such that events
    do. -/
abbrev Handles {α : Type} (x : Calling C E α) : Prop :=
  Calls.Within (fun c => L c.listeners) (fun fault c => (∃ e, fault = .throws e) ∧ L c.listeners) x

end

section
variable {L : (EventType → Option (Listener E)) → Prop} {p : Platform}
  {emit : Event → Calling C E Unit}

/-- Events come back: that is what is asked of the listeners. -/
theorem handles_emit (hemit : ListenersReturn emit L) (event : Event) : Handles L (emit event) := by
  intro c hc
  obtain ⟨c', hrun, hc'⟩ := hemit event c hc
  rw [hrun]
  exact hc'

/-- Nothing changes of the listeners. -/
theorem handles_modify {f : CMClient C E → CMClient C E} (h : ∀ c, (f c).listeners = c.listeners) :
    Handles L (modify f : Calling C E Unit) :=
  Calls.within_modify fun c hc => (h c).symm ▸ hc

/-- Recording returns. -/
theorem handles_record (e : Entry) : Handles L (record e : Calling C E Unit) :=
  handles_modify fun _ => rfl

/-- A computation that can only throw, and what follows it. -/
theorem handles_lift_bind {α β : Type} {x : Except Fault α} {f : α → Calling C E β}
    (hx : ∀ fault, x = .error fault → ∃ e, fault = .throws e)
    (hf : ∀ a, x = .ok a → Handles L (f a)) : Handles L (Calls.lift x >>= f) :=
  Calls.within_lift_bind (fun fault hfault _ hc => ⟨hx fault hfault, hc⟩) hf

/-- Caught or not, the call comes back. -/
theorem handles_catchStd {α : Type} {x : Calling C E α} {handler : Exn → Calling C E α}
    (hx : Handles L x) (hhandler : ∀ e, Handles L (handler e)) :
    Handles L (catchStd x handler) := by
  refine Calls.within_tryCatch hx fun fault => ?_
  cases fault with
  | throws e => exact .inl ⟨fun _ hc => hc.2, hhandler e⟩
  | undefined => exact .inr rfl
  | diverges => exact .inr rfl

/-- The crypto state has no listeners. -/
theorem handles_onCrypto {α : Type} {x : EStateM Fault EncryptionManager α}
    (hx : Calls.FailsOnly (∃ e, · = Fault.throws e) x) :
    Handles L (onCrypto x : Calling C E α) := by
  intro c hc
  rw [onCrypto, Calls.zoom]
  cases hrun : x c.crypto with
  | ok a crypto => exact hc
  | error fault crypto => exact ⟨hx _ _ _ hrun, hc⟩

section
variable [IConnection C E]

/-- There is an envelope for the message, and it is handed to the connection. -/
theorem handles_sendMsg (hc : p.cryptoPP.Lawful) {serialized : Except Fault Bytes}
    (h : ∀ fault, serialized = .error fault → ∃ e, fault = .throws e) :
    Handles L (sendMsg p serialized : Calling C E Unit) := by
  refine handles_lift_bind h fun message _ c hlisteners => ?_
  rcases sendMsgImpl_journal (p := p) message c with ⟨buffer, c', hrun, -, hc'⟩ | ⟨c', -, hno, -⟩
  · obtain ⟨-, -, -, -, hsame⟩ := Journal.mk.inj hc'
    have hlisteners' : L c'.listeners := by
      rw [show c'.listeners = c.listeners from hsame]
      exact hlisteners
    rw [hrun]
    exact hlisteners'
  · exact absurd hno (not_noEnvelope hc c.crypto.sessionKey_length message)

/-! ## The handlers

  Each comes back if the events it emits do.  That of product information needs that no document is
  cut short, that of a batch that its frames are handled. -/

/-- The challenge is read where its header ends, inside the packet or not at all. -/
theorem handles_handleEncryptRequest (hc : p.cryptoPP.Lawful) (hemit : ListenersReturn emit L)
    {packet : PacketMsg} (hoffset : packet.bodyOffset = 20) :
    Handles L (handleEncryptRequest emit p packet) := by
  refine handles_catchStd ?_ fun e => handles_emit hemit _
  refine Calls.within_bind (handles_onCrypto ?_) fun response => ?_
  · exact EncryptionManager.failsOnly_generateEncryptionResponse p hoffset
  · refine handles_sendMsg hc fun fault hfault => ?_
    rw [Msg.serialize_eq response.body.appends_serialize] at hfault
    cases hfault

/-- So is the result. -/
theorem handles_handleEncryptResult (hemit : ListenersReturn emit L) {packet : PacketMsg}
    (hoffset : packet.bodyOffset = 20) : Handles L (handleEncryptResult emit packet) := by
  refine handles_lift_bind (fun fault => ofPacket_result_throws hoffset) fun res _ => ?_
  refine Calls.within_bind ?_ fun _ => handles_emit hemit _
  refine Calls.within_bind Calls.within_get fun c => ?_
  exact Calls.within_bind (handles_record _) fun _ => handles_modify fun _ => rfl

end

/-- The logon answer is parsed from its own bytes. -/
theorem handles_handleLogonResponse (hemit : ListenersReturn emit L)
    (packet : PacketClientMsgProtobuf) : Handles L (handleLogonResponse emit p packet) :=
  handles_lift_bind (by simp [MsgProto.ofPacket]) fun _ _ => handles_emit hemit _

/-- A document that is not cut short is parsed, or refused by an exception. -/
theorem handles_handleProdInfoResponse (hemit : ListenersReturn emit L)
    {packet : PacketClientMsgProtobuf} (hcut : ¬ CutShort (responseBody p packet)) :
    Handles L (handleProdInfoResponse emit p packet) := by
  rw [handleProdInfoResponse_eq]
  refine handles_lift_bind (fun fault hfault => ?_) fun entries _ => handles_emit hemit _
  cases fault with
  | throws e => exact ⟨e, rfl⟩
  | undefined => exact absurd (parseEntries_undefined_iff.mp hfault) hcut
  | diverges => exact absurd hfault (parseEntries_ne_diverges _)

variable {consumeFrame : Bytes → Bool → Calling C E Unit}

/-- The loop comes to the end of the payload. -/
theorem handles_multiLoop {payload : Bytes}
    (hconsume : ∀ frame offset offset', LoopOffset payload offset →
      readFrame payload offset = some (frame, offset') → Handles L (consumeFrame frame false))
    (fuel : Nat) : ∀ offset, LoopOffset payload offset → payload.length < offset + fuel →
      Handles L (multiLoop consumeFrame payload fuel offset) := by
  induction fuel with
  | zero =>
    intro offset hoffset hfuel
    have hle := hoffset.le
    omega
  | succ fuel ih =>
    intro offset hoffset hfuel
    rw [multiLoop]
    cases hread : readFrame payload offset with
    | none => exact Calls.within_pure _
    | some next =>
      obtain ⟨hnext, -⟩ := readFrame_advances hread
      refine Calls.within_bind (hconsume _ _ _ hoffset hread) fun _ => ?_
      exact ih next.2 (hoffset.next hread) (by omega)

/-- A batch is handled when its frames are. -/
theorem handles_handleMulti {packet : PacketClientMsgProtobuf}
    (hconsume : ∀ payload frame offset offset', multiPayload p packet = .ok payload →
      LoopOffset payload offset → readFrame payload offset = some (frame, offset') →
      Handles L (consumeFrame frame false)) : Handles L (handleMulti p consumeFrame packet) := by
  rw [handleMulti_eq]
  refine handles_lift_bind (fun fault => multiPayload_throws) fun payload hpayload => ?_
  exact handles_multiLoop
    (fun frame offset offset' => hconsume payload frame offset offset' hpayload) _ 0 .start
    (by omega)

/-! ## The dispatcher

  Looking up the handler is safe for all types but the one behind the last slot. -/

section
variable [IConnection C E]

/-- The raw packets have a handler for each type that gets there. -/
theorem handles_dispatchMsg (hc : p.cryptoPP.Lawful) (hemit : ListenersReturn emit L)
    {packet : PacketMsg} (htype : isEncryptionMsg packet.msgType)
    (hoffset : packet.bodyOffset = 20) :
    Handles L (dispatchMsg (gDispatch emit p consumeFrame) emit packet) := by
  refine Calls.within_bind (handles_record _) fun _ => ?_
  have hid : packet.msgType.toNat < MAX_EMSG := lt_of_isEncryptionMsg htype
  have hle : packet.msgType.toNat ≤ MAX_EMSG := by omega
  rw [if_pos hle]
  refine handles_lift_bind (fun fault hslot => ?_) fun fn hfn => ?_
  · rw [slot, if_pos hid] at hslot
    cases hslot
  · rcases msgHandler_cases hfn with rfl | rfl | rfl
    · exact handles_handleEncryptRequest hc hemit hoffset
    · exact handles_handleEncryptResult hemit hoffset
    · exact handles_emit hemit _

/-- The type of the packet is not the one without a slot, and no document stops it. -/
theorem handles_dispatchProto (hemit : ListenersReturn emit L) {packet : PacketClientMsgProtobuf}
    (hmax : (getMsg packet.msgType).toNat ≠ MAX_EMSG)
    (hdocuments : getMsg packet.msgType = EMsg.clientPICSProductInfoResponse →
      ¬ CutShort (responseBody p packet))
    (hmulti : getMsg packet.msgType = EMsg.multi → Handles L (handleMulti p consumeFrame packet)) :
    Handles L (dispatchProto (gDispatch emit p consumeFrame) emit packet) := by
  refine Calls.within_bind (handles_record _) fun _ => ?_
  show Handles L (if (getMsg packet.msgType).toNat ≤ MAX_EMSG then _ else pure ())
  split
  · have hid : (getMsg packet.msgType).toNat < MAX_EMSG := by omega
    refine handles_lift_bind (fun fault hslot => ?_) fun fn hfn => ?_
    · rw [slot, if_pos hid] at hslot
      cases hslot
    · rcases protoHandler_cases hfn with ⟨hbatch, rfl⟩ | rfl | ⟨hinfo, rfl⟩ | rfl
      · exact hmulti hbatch
      · exact handles_handleLogonResponse hemit packet
      · exact handles_handleProdInfoResponse hemit (hdocuments hinfo)
      · exact handles_emit hemit _
  · exact Calls.within_pure _

/-- A buffer that is not misread is dispatched, with the frames in it. -/
theorem handles_dispatchFrame (hc : p.cryptoPP.Lawful) (hemit : ListenersReturn emit L)
    {data : Bytes} (hread : ¬ Misread p data)
    (hconsume : ∀ sub, SubFrame p data sub → Handles L (consumeFrame sub false)) :
    Handles L (dispatchFrame (gDispatch emit p consumeFrame) emit p (firstWord data) data) := by
  unfold dispatchFrame
  split
  · rename_i hencryption
    refine handles_lift_bind (fun fault => PacketMsg.make_throws) fun packet hpacket => ?_
    obtain ⟨htype, -, hoffset, -⟩ := PacketMsg.make_eq_ok hpacket
    exact handles_dispatchMsg hc hemit (htype.symm ▸ hencryption) hoffset
  · split
    · rename_i hencryption hmark
      refine handles_lift_bind (fun fault => PacketClientMsgProtobuf.make_throws)
        fun packet hpacket => ?_
      have hproto : IsProto p data packet := ⟨Bool.eq_false_iff.mpr hencryption, hmark, hpacket⟩
      refine handles_dispatchProto hemit (fun hmax => hread ⟨packet, hproto, .inl hmax⟩)
        (fun hinfo hcut => hread ⟨packet, hproto, .inr ⟨hinfo, hcut⟩⟩) fun hmulti => ?_
      refine handles_handleMulti fun payload sub offset offset' hpayload hoffset hfound => ?_
      exact hconsume sub ⟨hmark, packet, payload, offset, offset', hpacket, hmulti, hpayload,
        hoffset, hfound⟩
    · exact Calls.within_pure _

end

end

/-! ## The frames of a batch

  The induction is on the depth to which frames are nested.  A buffer has finitely many of them,
  and takes one unit of fuel more than is enough for each. -/

section
variable [IConnection C E] {L : (EventType → Option (Listener E)) → Prop} {p : Platform}
  {emit : Event → Calling C E Unit} {frame data : Bytes} {encrypt : Bool} {c : CMClient C E}

/-- One call of `consume_frame` returns if those for the frames inside do: what is thrown meanwhile
    is caught. -/
theorem consumeFrame_returns_of_subs (hc : p.cryptoPP.Lawful) (hemit : ListenersReturn emit L)
    {fuel : Nat} (hlen : ¬ frame.length < 4) (hreceived : c.received p frame encrypt = .ok data)
    (hword : 4 ≤ data.length) (hread : ¬ Misread p data)
    (hsubs : ∀ sub, SubFrame p data sub → Handles L (consumeFrame emit p fuel sub false))
    (hL : L c.listeners) :
    ∃ c', consumeFrame emit p (fuel + 1) frame encrypt c = .ok () c' ∧ L c'.listeners := by
  have hdispatch := handles_dispatchFrame hc hemit hread hsubs (c.consuming frame encrypt) hL
  rw [consumeFrame_dispatched hlen hreceived hword]
  cases hrun : dispatchFrame (gDispatch emit p (consumeFrame emit p fuel)) emit p
    (firstWord data) data (c.consuming frame encrypt) with
  | ok u c' =>
    rw [hrun] at hdispatch
    exact ⟨c', catchStd_ok hrun, hdispatch⟩
  | error fault c' =>
    rw [hrun] at hdispatch
    obtain ⟨⟨e, rfl⟩, hL'⟩ := hdispatch
    exact ⟨c', catchStd_throws hrun, hL'⟩

variable (L p emit) in
/-- With `n` units of fuel the call for `frame`, of a batch, comes back; and more of them are not
    felt. -/
structure Settled (frame : Bytes) (n : Nat) : Prop where
  handles : Handles L (consumeFrame emit p n frame false)
  enough : ∀ m, n ≤ m → consumeFrame emit p m frame false = consumeFrame emit p n frame false

/-- One level of the batches: with one unit more than is enough for each frame in it. -/
theorem settled_of_subs (hc : p.cryptoPP.Lawful) (hemit : ListenersReturn emit L) {n : Nat}
    (hread : ¬ Misread p frame) (hsubs : ∀ sub, SubFrame p frame sub → Settled L p emit sub n) :
    Settled L p emit frame (n + 1) where
  handles c hL := by
    by_cases hlen : frame.length < 4
    · rw [consumeFrame_short hlen]
      exact hL
    · obtain ⟨c', hrun, hL'⟩ :
          ∃ c', consumeFrame emit p (n + 1) frame false c = .ok () c' ∧ L c'.listeners :=
        consumeFrame_returns_of_subs hc hemit hlen rfl (by omega) hread
          (fun sub hsub => (hsubs sub hsub).handles) hL
      rw [hrun]
      exact hL'
  enough m hm := by
    obtain ⟨m, rfl⟩ := Nat.exists_eq_add_one_of_ne_zero (show m ≠ 0 by omega)
    funext c
    refine consumeFrame_congr_of_subs fun data sub hreceived hsub => ?_
    obtain rfl : frame = data := Except.ok.inj hreceived
    exact (hsubs sub hsub).enough m (by omega)

/-- **A frame of a batch comes back** from some amount of fuel on, if it is consumable.  By
    induction on the depth: there are finitely many frames in it, so that one amount is enough for
    all. -/
theorem eventually_settled (hc : p.cryptoPP.Lawful) (hemit : ListenersReturn emit L)
    (h : Consumable p frame) : ∀ᶠ n in Filter.atTop, Settled L p emit frame n := by
  obtain ⟨hends, hinside⟩ := h
  induction hends with
  | intro frame hends ih =>
    have hsubs : ∀ᶠ n in Filter.atTop, ∀ sub, SubFrame p frame sub → Settled L p emit sub n := by
      refine (Filter.eventually_all_finite finite_subFrames).mpr fun sub hsub => ?_
      exact ih sub hsub fun f hf => hinside f (hf.head hsub)
    obtain ⟨n, hn⟩ := Filter.eventually_atTop.mp hsubs
    refine Filter.eventually_atTop.mpr ⟨n + 1, fun m hm => ?_⟩
    obtain ⟨m, rfl⟩ := Nat.exists_eq_add_one_of_ne_zero (show m ≠ 0 by omega)
    exact settled_of_subs hc hemit (hinside frame .refl) (hn m (by omega))

omit [IConnection C E] in
/-- The buffer of a frame that the transport delivers. -/
theorem received_eq_ok_iff : c.received p frame true = .ok data ↔
    if c.channelSecured then OpensTo p c.crypto frame data else data = frame := by
  rw [CMClient.received, Bool.true_and]
  by_cases hsecured : c.channelSecured = true
  · rw [if_pos hsecured, if_pos hsecured]
    exact opensTo_iff.symm
  · rw [if_neg hsecured, if_neg hsecured]
    constructor
    · intro h
      exact (Except.ok.inj h).symm
    · rintro rfl
      rfl

/-- **When `consume_frame` returns**: exactly if the frame is too short to be looked at, or opens
    under the keys of a secured channel to a buffer that has a first word, whose batches end, and in
    which nothing is misread; of a channel in the clear, the buffer is the frame.  Whatever the
    listeners do with the client meanwhile, as long as they return. -/
theorem consumeFrame_returns_iff (hc : p.cryptoPP.Lawful) (hemit : ListenersReturn emit L)
    (hL : L c.listeners) :
    (∃ c' n, ∀ fuel, n ≤ fuel → consumeFrame emit p fuel frame true c = .ok () c') ↔
      (4 ≤ frame.length → ∃ data,
        (if c.channelSecured then OpensTo p c.crypto frame data else data = frame) ∧
        4 ≤ data.length ∧ Consumable p data) := by
  constructor
  · rintro ⟨c', n, hreturns⟩ hlen
    have hrun := hreturns (n + 1) (Nat.le_succ n)
    have hnever : ∀ e c'', consumeFrame emit p (n + 1) frame true c ≠ .error (.throws e) c'' := by
      intro e c'' hthrows
      cases hrun.symm.trans hthrows
    obtain ⟨data, hdata⟩ : ∃ data, c.received p frame true = .ok data := by
      by_cases hsecured : c.channelSecured = true
      · obtain ⟨data, hopens⟩ := consumeFrame_escapes_iff.mp hnever hsecured hlen
        refine ⟨data, received_eq_ok_iff.mpr ?_⟩
        rw [if_pos hsecured]
        exact hopens
      · refine ⟨frame, received_eq_ok_iff.mpr ?_⟩
        rw [if_neg hsecured]
    obtain ⟨hword, -⟩ := consumeFrame_dispatched_ok (by omega) hdata hrun
    exact ⟨data, received_eq_ok_iff.mp hdata, hword,
      consumable_of_returned (n + 1) frame true data c c' (by omega) hdata hrun⟩
  · intro h
    by_cases hlen : frame.length < 4
    · refine ⟨c, 1, fun fuel hfuel => ?_⟩
      obtain ⟨fuel, rfl⟩ := Nat.exists_eq_add_one_of_ne_zero (show fuel ≠ 0 by omega)
      exact consumeFrame_short hlen
    · obtain ⟨data, hdata, hword, hconsumable⟩ := h (by omega)
      have hreceived := received_eq_ok_iff.mpr hdata
      -- enough for every frame of the batch, and one unit for the batch itself
      have hsubs : ∀ᶠ n in Filter.atTop, ∀ sub, SubFrame p data sub → Settled L p emit sub n :=
        (Filter.eventually_all_finite finite_subFrames).mpr fun sub hsub =>
          eventually_settled hc hemit (hconsumable.nested hsub)
      obtain ⟨n, hn⟩ := Filter.eventually_atTop.mp hsubs
      obtain ⟨c', hrun, -⟩ := consumeFrame_returns_of_subs hc hemit hlen hreceived hword
        hconsumable.not_misread (fun sub hsub => (hn n (Nat.le_refl n) sub hsub).handles) hL
      refine ⟨c', n + 1, fun fuel hfuel => ?_⟩
      obtain ⟨fuel, rfl⟩ := Nat.exists_eq_add_one_of_ne_zero (show fuel ≠ 0 by omega)
      rw [← hrun]
      refine consumeFrame_congr_of_subs fun data' sub hreceived' hsub => ?_
      obtain rfl : data = data' := Except.ok.inj (hreceived.symm.trans hreceived')
      exact (hn n (Nat.le_refl n) sub hsub).enough fuel (by omega)

end

/-! ## Listeners that throw

  The assumption on the listeners can be met by some that do nothing but throw. -/

/-- Whatever is emitted, its callback does nothing, or throws. -/
def Idle {E : Type} (listeners : EventType → Option (Listener E)) : Prop :=
  ∀ type callback, listeners type = some callback →
    ∀ log event, callback log event = .ret ∨ ∃ e, callback log event = .raise e

/-- Listeners that do nothing, or throw, come back. -/
theorem listenersReturn_idle [IConnection C E] (p : Platform) (fuel : Nat) :
    ListenersReturn (emit p (fuel + 1) : Event → Calling C E Unit) Idle := by
  intro event c hidle
  refine ⟨{ c with log := c.log ++ [.emitted event] }, ?_, hidle⟩
  unfold emit
  rw [record, Calls.modify_bind, Calls.get_bind]
  dsimp only
  cases hlistener : c.listeners event.type with
  | none => rfl
  | some callback =>
    dsimp only
    rcases hidle event.type callback hlistener (c.log ++ [.emitted event]) event with h | ⟨e, h⟩
    · rw [h]
      rfl
    · rw [h]
      rfl

/-- `sampleClient`, whose user throws at every event. -/
def loudClient (secured : Bool) : CMClient Net.Connection Net.Lookup :=
  { sampleClient with
    channelSecured := secured
    listeners := fun _ => some fun _ _ => .raise (.runtimeError "callback") }

/-- The client of the counterexample has such listeners. -/
theorem idle_loudClient (secured : Bool) : Idle (loudClient secured).listeners := by
  intro type callback hcallback log event
  cases hcallback
  exact .inr ⟨_, rfl⟩

/-- A message nobody handles, so that an event is emitted for it. -/
def unhandled : Bytes := (protoPacket EMsg.clientLogon []).payload

/-- It is consumed, although the callback throws.  The frame with the type behind the last slot is
    not, nor, on a secured channel, the envelope of nothing. -/
theorem consumeFrame_returns_loudClient :
    (∃ c' n, ∀ fuel, n ≤ fuel →
      consumeFrame (emit peerPlatform 1) peerPlatform fuel unhandled true (loudClient false)
        = .ok () c') ∧
    (¬ ∃ c' n, ∀ fuel, n ≤ fuel →
      consumeFrame (emit peerPlatform 1) peerPlatform fuel behindTable true (loudClient false)
        = .ok () c') ∧
    ¬ ∃ c' n, ∀ fuel, n ≤ fuel →
      consumeFrame (emit peerPlatform 1) peerPlatform fuel emptyFrame true (loudClient true)
        = .ok () c' := by
  have hidle := listenersReturn_idle (C := Net.Connection) (E := Net.Lookup) peerPlatform 0
  refine ⟨?_, ?_, ?_⟩
  · refine (consumeFrame_returns_iff lawful_sampleCryptoPP hidle (idle_loudClient false)).mpr ?_
    refine fun _ => ⟨unhandled, rfl, by decide, consumable_of_subs ?_ fun sub hsub => ?_⟩
    -- the packet has no handler, so nothing in it is misread
    · rintro ⟨packet, ⟨-, -, hmake⟩, hread⟩
      rw [(PacketClientMsgProtobuf.make_eq_ok hmake).1] at hread
      rcases hread with hmax | ⟨hinfo, -⟩
      · exact absurd hmax (by decide)
      · exact absurd hinfo (by decide)
    · obtain ⟨-, packet, payload, offset, offset', hmake, hmulti, -⟩ := hsub
      rw [(PacketClientMsgProtobuf.make_eq_ok hmake).1] at hmulti
      exact absurd hmulti (by decide)
  · rw [consumeFrame_returns_iff lawful_sampleCryptoPP hidle (idle_loudClient false)]
    intro h
    -- the slot behind the table is one of the misreadings
    obtain ⟨data, rfl, -, hconsumable⟩ := h (by decide)
    exact hconsumable.not_misread
      ⟨protoPacket (UInt32.ofNat MAX_EMSG) [], ⟨by decide, by decide, rfl⟩, .inl (by decide)⟩
  · rw [consumeFrame_returns_iff lawful_sampleCryptoPP hidle (idle_loudClient true)]
    intro h
    obtain ⟨data, hopens, hword, -⟩ := h (by decide)
    -- the envelope opens, to less than a word
    have hempty : EncryptionManager.processIncomingEncryptedMessage peerPlatform
        (loudClient true).crypto emptyFrame = .ok [] := by decide +kernel
    obtain rfl : data = [] := Except.ok.inj ((opensTo_iff.mp hopens).symm.trans hempty)
    exact absurd hword (by decide)

end SteamMin.Client
