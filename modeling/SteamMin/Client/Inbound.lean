/-
  WHAT COMES IN, AND IN WHICH ORDER.

  The transport delivers frames to the client, a frame may be a batch of frames, and each of those a
  batch again.  In between, callbacks send messages, end sessions and begin others.  None of this
  consumes a frame: only the transport and `handle_multi` call `consume_frame`, and nothing the
  client does makes its connection deliver one (`Remote`).

  So the frames consumed are, in their order, those the transport delivered, each with the frames of
  its batch right behind it, and those of the batches in it behind them (`unfolded`).

  * `consumeFrame_unfolds` — a frame that is consumed without a fault is consumed with all that is
    in it;
  * `frames_ingested_run`  — in every run of a client on a TCP connection, what is consumed is what
    the connection delivered, unfolded: nothing is lost, nothing comes twice or out of its order.
-/
import SteamMin.Client.Nesting
import SteamMin.Client.JournalRefinement
import SteamMin.Net.TcpFraming

namespace SteamMin.Client

open Messages Crypto
open Runs (EveryState)

/-! ## The frames consumed

  `Taken` is what the record says of a call of `consume_frame`.  The order of the record is the
  order of the calls, so a list is all there is to say. -/

/-- A call of `consume_frame`, and `channel_secured_` then. -/
structure Taken where
  frame : Bytes
  encrypt : Bool
  secured : Bool

/-- The frame that an entry says was taken. -/
def Entry.taken : Entry → List Taken
  | .consumed frame encrypt secured => [⟨frame, encrypt, secured⟩]
  | _ => []

/-- The frames of a record, in their order. -/
def taken (log : List Entry) : List Taken := log.flatMap Entry.taken

/-- Frames accumulate with the log. -/
theorem taken_append (l es : List Entry) : taken (l ++ es) = taken l ++ taken es :=
  List.flatMap_append

/-- Any other entry adds no frame. -/
theorem taken_snoc {e : Entry} (l : List Entry) (he : e.taken = []) : taken (l ++ [e]) = taken l := by
  rw [taken_append, taken, taken, List.flatMap_singleton, he, List.append_nil]

/-! ## What the client's calls leave alone

  No function of the client but `consume_frame` records a frame, and none makes its connection
  deliver one.  The second half is about the connection, so it is an assumption on what is seen of
  it (`Remote`), which TCP satisfies (`remote_inboundView`). -/

section
variable {C E D : Type} [IConnection C E]

/-- What no call of the client changes of its connection. -/
structure Remote (view : C → D) : Prop where
  networkConnect : ∀ (net : E) k, view (Calls.after (IConnection.networkConnect net k)) = view k
  networkClose : ∀ k, view (IConnection.networkClose k) = view k
  asyncSend : ∀ buffer k, view (IConnection.asyncSend buffer k) = view k
  setOnFrame : ∀ k, view (IConnection.setOnFrame k) = view k

end

section
variable {C E D : Type}

/-- The frames consumed so far, and what is seen of the connection. -/
def CMClient.inbound (view : C → D) (c : CMClient C E) : List Taken × D :=
  (taken c.log, view c.connection)

/-- The call consumes no frame. -/
abbrev Abstains (view : C → D) {α : Type} (x : Calling C E α) : Prop :=
  Calls.Keeps (CMClient.inbound view) x

variable {view : C → D}

/-- Recording anything but a frame takes none. -/
theorem abstains_record {e : Entry} (he : e.taken = []) :
    Abstains view (record e : Calling C E Unit) :=
  Calls.keeps_modify fun c => congrArg (·, view c.connection) (taken_snoc c.log he)

/-- Caught or not, no frame is taken. -/
theorem abstains_catchStd {α : Type} {x : Calling C E α} {handler : Exn → Calling C E α}
    (hx : Abstains view x) (hhandler : ∀ e, Abstains view (handler e)) :
    Abstains view (catchStd x handler) := by
  refine Calls.keeps_tryCatch hx fun fault => ?_
  cases fault with
  | throws e => exact hhandler e
  | undefined => exact Calls.keeps_throw _
  | diverges => exact Calls.keeps_throw _

/-- The same for a call whose exception is kept as a value. -/
theorem abstains_attempt {x : Calling C E Unit} (hx : Abstains view x) :
    Abstains view (attempt x) :=
  abstains_catchStd (Calls.keeps_bind hx fun _ => Calls.keeps_pure _) fun _ => Calls.keeps_pure _

/-- The encryption manager takes no frame. -/
theorem abstains_onCrypto {α : Type} (x : EStateM Fault EncryptionManager α) :
    Abstains view (onCrypto x : Calling C E α) := by
  apply Calls.keeps_zoom
  intro crypto c
  rfl

/-- Registering takes no frame. -/
theorem abstains_on (type : EventType) (callback : Listener E) :
    Abstains view (on type callback : Calling C E Unit) :=
  Calls.keeps_modify fun _ => rfl

variable [IConnection C E]

/-- Starting a session takes no frame: the socket has to be read first. -/
theorem abstains_startSession (hview : Remote (E := E) view) (net : E) :
    Abstains view (startSession net : Calling C E Unit) := by
  intro c
  have hcalled : taken (c.log ++ [.startCalled]) = taken c.log := taken_snoc c.log rfl
  have hconnect := hview.networkConnect net (IConnection.setOnFrame c.connection)
  rw [hview.setOnFrame] at hconnect
  rw [startSession, record, Calls.modify_bind, Calls.get_bind]
  dsimp only
  cases hnet : IConnection.networkConnect net (IConnection.setOnFrame c.connection) with
  | error e k =>
    rw [hnet] at hconnect
    exact Prod.ext hcalled hconnect
  | ok u k =>
    rw [hnet] at hconnect
    by_cases hstate : IConnection.state c.connection = .disconnected
    · rw [if_pos hstate]
      exact Prod.ext ((taken_snoc _ rfl).trans hcalled) hconnect
    · rw [if_neg hstate]
      exact Prod.ext hcalled hconnect

/-- Closing takes no frame. -/
theorem abstains_shutdown (hview : Remote (E := E) view) :
    Abstains view (shutdown : Calling C E Unit) := by
  refine Calls.keeps_bind (abstains_record rfl) fun _ => Calls.keeps_modify fun c => ?_
  split
  · exact congrArg (taken c.log, ·) (hview.networkClose c.connection)
  · rfl

variable {p : Platform}

/-- Sending takes no frame. -/
theorem abstains_sendMsg (hview : Remote (E := E) view) (serialized : Except Fault Bytes) :
    Abstains view (sendMsg p serialized : Calling C E Unit) := by
  refine Calls.keeps_bind (Calls.keeps_lift _) fun message => ?_
  refine Calls.keeps_bind Calls.keeps_get fun c => ?_
  have houtgoing : Abstains view (outgoing p message c.channelSecured : Calling C E Bytes) := by
    rw [outgoing]
    split
    · exact abstains_onCrypto _
    · exact Calls.keeps_pure _
  refine Calls.keeps_bind houtgoing fun buffer => ?_
  refine Calls.keeps_bind (abstains_record rfl) fun _ => Calls.keeps_modify fun c => ?_
  exact congrArg (taken c.log, ·) (hview.asyncSend buffer c.connection)

variable {emit : Event → Calling C E Unit}

/-- Executing a command takes no frame. -/
theorem abstains_execute (hview : Remote (E := E) view) (hemit : ∀ event, Abstains view (emit event))
    (command : Command) : Abstains view (execute p emit command) := by
  refine Calls.keeps_bind Calls.keeps_get fun c => ?_
  refine Calls.keeps_bind (abstains_record rfl) fun _ => ?_
  cases command with
  | anonymousLogin =>
    refine Calls.keeps_bind Calls.keeps_get fun c => ?_
    split
    · exact hemit _
    · exact abstains_sendMsg hview _
  | clientLogoff =>
    refine Calls.keeps_bind Calls.keeps_get fun c => ?_
    split
    · exact Calls.keeps_pure _
    · exact abstains_sendMsg hview _
  | getProductInfo id steamid clientSessionid appToken =>
    have hjobid : Abstains view (generateJobid : Calling C E UInt64) := by
      refine Calls.keeps_bind Calls.keeps_get fun c => ?_
      exact Calls.keeps_bind (Calls.keeps_modify fun _ => rfl) fun _ => Calls.keeps_pure _
    exact Calls.keeps_bind hjobid fun jobid => abstains_sendMsg hview _

/-- A listener takes no frame, by induction on what it does. -/
theorem abstains_runScript (hview : Remote (E := E) view)
    (hemit : ∀ event, Abstains view (emit event)) (script : Script E) :
    Abstains view (runScript p emit script) := by
  induction script with
  | ret => exact Calls.keeps_pure _
  | raise e => exact Calls.keeps_throw _
  | startSession net next ih =>
    exact Calls.keeps_bind (abstains_attempt (abstains_startSession hview net)) ih
  | shutdown next ih => exact Calls.keeps_bind (abstains_shutdown hview) fun _ => ih
  | isConnected next ih => exact Calls.keeps_bind Calls.keeps_get fun c => ih _
  | execute command next ih =>
    exact Calls.keeps_bind (abstains_attempt (abstains_execute hview hemit command)) ih
  | on type callback next _ ih => exact Calls.keeps_bind (abstains_on type callback) fun _ => ih

/-- **Callbacks consume no frame**, however deep they nest. -/
theorem abstains_emit (hview : Remote (E := E) view) (p : Platform) (fuel : Nat) :
    ∀ event, Abstains view (Client.emit p fuel event : Calling C E Unit) := by
  induction fuel with
  | zero =>
    intro event
    unfold Client.emit
    refine Calls.keeps_bind (abstains_record rfl) fun _ => ?_
    refine Calls.keeps_bind Calls.keeps_get fun c => ?_
    split
    · exact Calls.keeps_pure _
    · exact Calls.keeps_throw _
  | succ fuel ih =>
    intro event
    unfold Client.emit
    refine Calls.keeps_bind (abstains_record rfl) fun _ => ?_
    refine Calls.keeps_bind Calls.keeps_get fun c => ?_
    split
    · exact Calls.keeps_pure _
    · exact abstains_catchStd (abstains_runScript hview ih _) fun _ => Calls.keeps_pure _

/-! ## The handlers

  The same for what a packet brings about.  Only the handler of a batch is missing here: it is the
  one that consumes frames. -/

section
variable (hview : Remote (E := E) view) (hemit : ∀ event, Abstains view (emit event))
include hview hemit

/-- The handler of the challenge takes no further frame. -/
theorem abstains_handleEncryptRequest (packet : PacketMsg) :
    Abstains view (handleEncryptRequest emit p packet) := by
  refine abstains_catchStd ?_ fun e => hemit _
  exact Calls.keeps_bind (abstains_onCrypto _) fun response => abstains_sendMsg hview _

omit [IConnection C E] hview in
/-- Nor does that of the logon answer. -/
theorem abstains_handleLogonResponse (packet : PacketClientMsgProtobuf) :
    Abstains view (handleLogonResponse emit p packet) :=
  Calls.keeps_bind (Calls.keeps_lift _) fun _ => hemit _

omit [IConnection C E] hview in
/-- Nor does that of product information. -/
theorem abstains_handleProdInfoResponse (packet : PacketClientMsgProtobuf) :
    Abstains view (handleProdInfoResponse emit p packet) := by
  refine Calls.keeps_bind (Calls.keeps_lift _) fun msg => ?_
  refine Calls.keeps_bind (Calls.keeps_lift _) fun apps => ?_
  exact Calls.keeps_bind (Calls.keeps_lift _) fun packages => hemit _

omit hview in
/-- Nor does that of the result.  The batch is the one that does. -/
theorem abstains_handleEncryptResult (packet : PacketMsg) :
    Abstains view (handleEncryptResult emit packet) := by
  refine Calls.keeps_bind (Calls.keeps_lift _) fun res => ?_
  refine Calls.keeps_bind ?_ fun _ => hemit _
  refine Calls.keeps_bind Calls.keeps_get fun c => ?_
  exact Calls.keeps_bind (abstains_record rfl) fun _ => Calls.keeps_modify fun _ => rfl

/-- Raw packets bring no frames with them. -/
theorem abstains_dispatchMsg (consumeFrame : Bytes → Bool → Calling C E Unit) (packet : PacketMsg) :
    Abstains view (dispatchMsg (gDispatch emit p consumeFrame) emit packet) := by
  refine Calls.keeps_bind (abstains_record rfl) fun _ => ?_
  show Abstains view (if packet.msgType.toNat ≤ MAX_EMSG then _ else pure ())
  split
  · refine Calls.keeps_lift_bind fun fn hfn => ?_
    rcases msgHandler_cases hfn with rfl | rfl | rfl
    · exact abstains_handleEncryptRequest hview hemit packet
    · exact abstains_handleEncryptResult hemit packet
    · exact hemit _
  · exact Calls.keeps_pure _

omit hview in
/-- Nor do protobuf packets that are no batch. -/
theorem abstains_dispatchProto (consumeFrame : Bytes → Bool → Calling C E Unit)
    {packet : PacketClientMsgProtobuf} (hmulti : getMsg packet.msgType ≠ EMsg.multi) :
    Abstains view (dispatchProto (gDispatch emit p consumeFrame) emit packet) := by
  refine Calls.keeps_bind (abstains_record rfl) fun _ => ?_
  show Abstains view (if (getMsg packet.msgType).toNat ≤ MAX_EMSG then _ else pure ())
  split
  · refine Calls.keeps_lift_bind fun fn hfn => ?_
    rcases protoHandler_cases hfn with ⟨hbatch, rfl⟩ | rfl | ⟨-, rfl⟩ | rfl
    · exact absurd hbatch hmulti
    · exact abstains_handleLogonResponse hemit packet
    · exact abstains_handleProdInfoResponse hemit packet
    · exact hemit _
  · exact Calls.keeps_pure _

end

end

/-! ## The frames in a frame

  `framesFrom` cuts a payload as `handle_multi` does, and `unfolded` goes on with each of the
  frames.  Both are functions of bytes alone: what is inside a frame does not depend on the client
  that consumes it, since inside a batch nothing is decrypted. -/

/-- The frames of a batch, from `offset` on. -/
def framesFrom (payload : Bytes) : Nat → Nat → List Bytes
  | 0, _ => []
  | fuel + 1, offset =>
    match readFrame payload offset with
    | none => []
    | some (frame, offset) => frame :: framesFrom payload fuel offset

/-- Unfolding finds the frames that were put into the payload, up to a rest that holds none. -/
theorem framesFrom_eq {payload rest : Bytes} (hrest : NoSubFrame rest) (frames : List Bytes)
    (hfits : ∀ f ∈ frames, f.length < 2 ^ 32) :
    ∀ offset fuel, payload.drop offset = batchOf frames ++ rest →
      (payload.drop offset).length < fuel → framesFrom payload fuel offset = frames := by
  induction frames with
  | nil =>
    intro offset fuel hdrop hfuel
    obtain ⟨fuel, rfl⟩ := Nat.exists_eq_succ_of_ne_zero (Nat.ne_of_gt (Nat.zero_lt_of_lt hfuel))
    have hnone : NoSubFrame (payload.drop offset) := by
      rw [hdrop]
      exact hrest
    rw [framesFrom, readFrame_none hnone]
  | cons f fs ih =>
    intro offset fuel hdrop hfuel
    obtain ⟨fuel, rfl⟩ := Nat.exists_eq_succ_of_ne_zero (Nat.ne_of_gt (Nat.zero_lt_of_lt hfuel))
    obtain ⟨hf, hfits⟩ := List.forall_mem_cons.mp hfits
    rw [batchOf, List.append_assoc] at hdrop
    obtain ⟨hread, hnext⟩ := readFrame_some hf hdrop
    have hshorter : (payload.drop (offset + 4 + f.length)).length < fuel :=
      Nat.lt_of_lt_of_le (readFrame_shorter hread) (Nat.le_of_lt_succ hfuel)
    rw [framesFrom, hread]
    dsimp only
    rw [ih hfits _ fuel hnext hshorter]

section
variable (p : Platform)

/-- The frames of a Multi packet; no other packet has any. -/
def packetFrames (packet : PacketClientMsgProtobuf) : List Bytes :=
  if getMsg packet.msgType = EMsg.multi then
    match multiPayload p packet with
    | .ok payload => framesFrom payload (payload.length + 1) 0
    | .error _ => []
  else []

/-- The frames of a buffer that is a batch. -/
def subFrames (data : Bytes) : List Bytes :=
  if isEncryptionMsg (firstWord data) then []
  else if isProtobufMsg (firstWord data) then
    match PacketClientMsgProtobuf.make p.protobuf.header (firstWord data) data with
    | .ok packet => packetFrames p packet
    | .error _ => []
  else []

/-- A frame, with all that is in it right behind it. -/
def unfolded : Nat → Bytes → List Bytes
  | 0, _ => []
  | fuel + 1, frame =>
    if frame.length < 4 then [] else frame :: (subFrames p frame).flatMap (unfolded fuel)

/-- What is in the buffer of a frame, if there is one. -/
def contents (fuel : Nat) : Except Fault Bytes → List Bytes
  | .ok data => (subFrames p data).flatMap (unfolded p fuel)
  | .error _ => []

end

/-- The loop is one call for each of these frames. -/
theorem handleMulti_forM {C E : Type} {p : Platform} {packet : PacketClientMsgProtobuf}
    {payload : Bytes} (hpayload : multiPayload p packet = .ok payload)
    (consumeFrame : Bytes → Bool → Calling C E Unit) :
    handleMulti p consumeFrame packet
      = forM (framesFrom payload (payload.length + 1) 0) fun f => consumeFrame f false := by
  obtain ⟨frames, rest, hsplit⟩ := exists_batchSplit payload
  have hframes : framesFrom payload (payload.length + 1) 0 = frames :=
    framesFrom_eq hsplit.rest frames hsplit.fits 0 _ hsplit.eq (Nat.lt_succ_self _)
  rw [hframes]
  exact handleMulti_eq_forM hpayload hsplit consumeFrame

/-! ## Consuming a frame

  By induction on the fuel.  A call that has come back has gone through all of its batch, and so
  has each call for a frame in it. -/

section
variable {C E D : Type} {view : C → D} {c c' c'' : CMClient C E} {fs gs : List Bytes}

/-- From `c` to `c'` the frames `fs` were consumed, without an envelope around them. -/
def Takes (view : C → D) (fs : List Bytes) (c c' : CMClient C E) : Prop :=
  ∃ ts, c'.inbound view = (taken c.log ++ ts, view c.connection) ∧ ts.map Taken.frame = fs ∧
    ∀ t ∈ ts, t.encrypt = false

/-- A step that takes nothing. -/
theorem takes_nil (h : c'.inbound view = c.inbound view) : Takes view [] c c' := by
  refine ⟨[], ?_, rfl, ?_⟩
  · rw [h, List.append_nil]
    rfl
  · intro t ht
    cases ht

/-- Steps that take frames, one behind the other. -/
theorem Takes.trans (h : Takes view fs c c') (h' : Takes view gs c' c'') :
    Takes view (fs ++ gs) c c'' := by
  obtain ⟨ts, hin, rfl, hclear⟩ := h
  obtain ⟨us, hin', rfl, hclear'⟩ := h'
  obtain ⟨htaken, hview⟩ := Prod.mk.inj hin
  refine ⟨ts ++ us, ?_, List.map_append, ?_⟩
  · rw [hin', htaken, hview, List.append_assoc]
  · intro t ht
    rcases List.mem_append.mp ht with ht | ht
    · exact hclear t ht
    · exact hclear' t ht

/-- Calls that each consume a frame with what is in it, one after the other. -/
theorem takes_forM {f : Bytes → Calling C E PUnit} {g : Bytes → List Bytes}
    (hf : ∀ frame c c', f frame c = .ok ⟨⟩ c' → Takes view (g frame) c c') (frames : List Bytes) :
    ∀ c c', forM frames f c = .ok ⟨⟩ c' → Takes view (frames.flatMap g) c c' := by
  induction frames with
  | nil =>
    intro c c' h
    cases h
    exact takes_nil rfl
  | cons frame frames ih =>
    intro c c' h
    rw [List.forM_cons] at h
    obtain ⟨u, c₁, hfirst, hrest⟩ := Calls.bind_eq_ok h
    exact (hf frame c c₁ hfirst).trans (ih c₁ c' hrest)

variable [IConnection C E] {p : Platform} {emit : Event → Calling C E Unit} {fuel : Nat}

/-- The call returns, or throws an exception. -/
def Comes (r : EStateM.Result Fault (CMClient C E) Unit) : Prop :=
  ∀ fault c', r = .error fault c' → ∃ e, fault = .throws e

/-- A packet is handled with the frames in it. -/
theorem dispatchProto_takes (hemit : ∀ event, Abstains view (emit event))
    (hrest : ∀ f c c', consumeFrame emit p fuel f false c = .ok () c' →
      Takes view (unfolded p fuel f) c c') {packet : PacketClientMsgProtobuf}
    (hcomes : Comes (dispatchProto (gDispatch emit p (consumeFrame emit p fuel)) emit packet c)) :
    Takes view ((packetFrames p packet).flatMap (unfolded p fuel)) c
      (Calls.after (dispatchProto (gDispatch emit p (consumeFrame emit p fuel)) emit packet c)) := by
  by_cases hmulti : getMsg packet.msgType = EMsg.multi
  · have hdispatching : (c.dispatchingProto packet).inbound view = c.inbound view :=
      congrArg (·, view c.connection) (taken_snoc c.log rfl)
    have hproto := gDispatch_proto p emit (consumeFrame emit p fuel) (getMsg packet.msgType)
    have hid : (getMsg packet.msgType).toNat < MAX_EMSG := by
      rw [hmulti]
      decide
    rw [if_pos hmulti] at hproto
    rw [dispatchProto_of_handler hid hproto] at hcomes ⊢
    rw [packetFrames, if_pos hmulti]
    cases hpayload : multiPayload p packet with
    | error fault =>
      rw [handleMulti_eq, hpayload]
      exact takes_nil hdispatching
    | ok payload =>
      rw [handleMulti_forM hpayload] at hcomes ⊢
      dsimp only
      -- no frame of the batch throws, so all of them are consumed
      rcases Calls.forM_cases (fun f => consumeFrame emit p fuel f false)
        (framesFrom payload (payload.length + 1) 0) (c.dispatchingProto packet) with
        hall | ⟨pre, f, post, fault, -, hfault, hall⟩
      · have htakes := takes_forM hrest _ _ _ hall
        rw [hall]
        exact (takes_nil hdispatching).trans htakes
      · obtain ⟨e, rfl⟩ := hcomes _ _ hall
        exact absurd hfault consumeFrame_clear_never_throws
  · rw [packetFrames, if_neg hmulti]
    exact takes_nil (abstains_dispatchProto hemit _ hmulti c)

/-- A buffer is dispatched with the frames in it. -/
theorem dispatchFrame_takes (hview : Remote (E := E) view)
    (hemit : ∀ event, Abstains view (emit event))
    (hrest : ∀ f c c', consumeFrame emit p fuel f false c = .ok () c' →
      Takes view (unfolded p fuel f) c c') {data : Bytes}
    (hcomes : Comes (dispatchFrame (gDispatch emit p (consumeFrame emit p fuel)) emit p
      (firstWord data) data c)) :
    Takes view ((subFrames p data).flatMap (unfolded p fuel)) c
      (Calls.after (dispatchFrame (gDispatch emit p (consumeFrame emit p fuel)) emit p
        (firstWord data) data c)) := by
  rw [dispatchFrame] at hcomes ⊢
  rw [subFrames]
  -- only a protobuf packet can be a batch
  by_cases hencryption : isEncryptionMsg (firstWord data) = true
  · rw [if_pos hencryption, if_pos hencryption]
    have habstains := Calls.keeps_bind (Calls.keeps_lift (PacketMsg.make (firstWord data) data))
      (abstains_dispatchMsg (p := p) hview hemit (consumeFrame emit p fuel))
    exact takes_nil (habstains c)
  · rw [if_neg hencryption] at hcomes ⊢
    rw [if_neg hencryption]
    by_cases hmark : isProtobufMsg (firstWord data) = true
    · rw [if_pos hmark] at hcomes ⊢
      rw [if_pos hmark]
      cases hmake : PacketClientMsgProtobuf.make p.protobuf.header (firstWord data) data with
      | error fault => exact takes_nil rfl
      | ok packet =>
        rw [hmake] at hcomes
        exact dispatchProto_takes hemit hrest hcomes
    · rw [if_neg hmark, if_neg hmark]
      exact takes_nil rfl

/-- One call of `consume_frame`, if those for the frames inside take what they should. -/
theorem consumeFrame_of_rest (hview : Remote (E := E) view)
    (hemit : ∀ event, Abstains view (emit event))
    (hrest : ∀ f c c', consumeFrame emit p fuel f false c = .ok () c' →
      Takes view (unfolded p fuel f) c c') {frame : Bytes} {encrypt : Bool}
    (hlen : ¬ frame.length < 4) (hcomes : Comes (consumeFrame emit p (fuel + 1) frame encrypt c)) :
    Takes view (contents p fuel (c.received p frame encrypt)) (c.consuming frame encrypt)
      (Calls.after (consumeFrame emit p (fuel + 1) frame encrypt c)) := by
  cases hreceived : c.received p frame encrypt with
  | error fault =>
    rw [consumeFrame_rejected hlen hreceived]
    exact takes_nil rfl
  | ok data =>
    by_cases hdata : data.length < 4
    -- a word is not there to be read, so the call would not have come back
    · obtain ⟨e, he⟩ := hcomes _ _ (consumeFrame_overrun hlen hreceived hdata)
      cases he
    · have hdispatched : consumeFrame emit p (fuel + 1) frame encrypt c
          = catchStd (dispatchFrame (gDispatch emit p (consumeFrame emit p fuel)) emit p
              (firstWord data) data) (fun _ => pure ()) (c.consuming frame encrypt) :=
        consumeFrame_dispatched hlen hreceived (Nat.le_of_not_lt hdata)
      rw [hdispatched] at hcomes ⊢
      rw [after_swallow]
      refine dispatchFrame_takes hview hemit hrest fun fault c' hfault => ?_
      cases fault with
      | throws e => exact ⟨e, rfl⟩
      | undefined => exact hcomes _ _ (catchStd_undefined hfault)
      | diverges => exact hcomes _ _ (catchStd_diverges hfault)

/-- **A frame of a batch is consumed with all that is in it**, in its order, whatever the callbacks
    do meanwhile. -/
theorem consumeFrame_unfolds (hview : Remote (E := E) view)
    (hemit : ∀ event, Abstains view (emit event)) (fuel : Nat) :
    ∀ frame (c c' : CMClient C E), consumeFrame emit p fuel frame false c = .ok () c' →
      Takes view (unfolded p fuel frame) c c' := by
  induction fuel with
  | zero =>
    intro frame c c' h
    cases h
  | succ fuel ih =>
    intro frame c c' h
    rw [unfolded]
    by_cases hlen : frame.length < 4
    · rw [consumeFrame_short hlen] at h
      cases h
      rw [if_pos hlen]
      exact takes_nil rfl
    · have hcomes : Comes (consumeFrame emit p (fuel + 1) frame false c) := by
        intro fault c₁ hfault
        cases h.symm.trans hfault
      have hinside := consumeFrame_of_rest hview hemit ih hlen hcomes
      rw [h] at hinside
      rw [if_neg hlen]
      -- the frame itself, and then what is in it
      have hfront : Takes view [frame] c (c.consuming frame false) := by
        refine ⟨[⟨frame, false, c.channelSecured⟩], ?_, rfl, ?_⟩
        · exact congrArg (·, view c.connection) (taken_append c.log _)
        · intro t ht
          rw [List.mem_singleton.mp ht]
      exact hfront.trans hinside

end

/-! ## What a client on TCP takes in

  The connection counts what it has delivered, the client records what it has consumed.  Between
  two acts the one is the other, unfolded (`Ingested`); within an act they differ by the frame
  that is being consumed. -/

/-- The frames delivered, in front of what was consumed: each whole frame, and behind it what is in
    its buffer. -/
inductive Ingests (p : Platform) (key : Bytes) (fuel : Nat) : List Bytes → List Taken → Prop
  | nil : Ingests p key fuel [] []
  | short {fs : List Bytes} {ts : List Taken} {frame : Bytes} (h : Ingests p key fuel fs ts)
      (hlen : frame.length < 4) : Ingests p key fuel (fs ++ [frame]) ts
  | frame {fs : List Bytes} {ts inside : List Taken} {frame : Bytes} {secured : Bool}
      (h : Ingests p key fuel fs ts) (hlen : 4 ≤ frame.length)
      (hinside : inside.map Taken.frame
        = contents p fuel (receivedUnder p key secured frame true))
      (hclear : ∀ t ∈ inside, t.encrypt = false) :
      Ingests p key fuel (fs ++ [frame]) (ts ++ ⟨frame, true, secured⟩ :: inside)

/-- What is seen of the connection. -/
def inboundView (k : Net.Connection) : List Bytes × Bool := (k.delivered, k.inCallback)

/-- Closing changes no part of the connection that the argument looks at. -/
theorem inboundView_networkClose (k : Net.Connection) :
    inboundView (Net.networkClose k) = inboundView k := by
  by_cases hstate : k.state = .disconnected
  · rw [Net.networkClose_of_disconnected hstate]
    rfl
  · rw [Net.networkClose_of_ne hstate]
    rfl

/-- Closing, connecting and sending leave it: what is delivered comes from the read handlers
    alone. -/
theorem remote_inboundView : Remote (E := Net.Lookup) inboundView where
  networkConnect net k := by
    show inboundView (Calls.after (Net.networkConnect net k)) = inboundView k
    by_cases hstate : k.state = .disconnected
    · by_cases hfinds : net.Finds
      · rw [Net.networkConnect_finds hstate hfinds]
        rfl
      · obtain ⟨e, hrun⟩ := Net.networkConnect_fails hstate hfinds
        rw [hrun]
        rfl
    · rw [Net.networkConnect_busy hstate]
      rfl
  networkClose := inboundView_networkClose
  asyncSend buffer k := by
    show inboundView (Net.asyncSend buffer k) = inboundView k
    by_cases hqueue : k.writeQueue = []
    · rw [Net.asyncSend_of_nil buffer hqueue]
      rfl
    · rw [Net.asyncSend_of_ne buffer hqueue]
      rfl
  setOnFrame k := rfl

/-- Nothing was delivered, and no callback runs; or the body that was read was, and it does. -/
def Delivers (k k' : Net.Connection) : Prop :=
  inboundView k' = inboundView k ∨ inboundView k' = (k.delivered ++ [k'.bodyBuffer], true)

/-- A handler of the connection delivers one frame at most, the one it read. -/
theorem delivers_handler (op : Net.Op) (ec : Net.Outcome) (k : Net.Connection) :
    Delivers k (op.handler ec k) := by
  cases op with
  | connect =>
    cases ec with
    | success => exact .inl rfl
    | failure => exact .inl rfl
  | readHeader =>
    cases ec with
    | failure => exact .inl (inboundView_networkClose k)
    | success =>
      by_cases hmagic : Net.validateMagic k.headerBuffer = true
      · left
        rw [show Net.Op.readHeader.handler .success k = _ from Net.onReadHeader_of_magic hmagic]
        rfl
      · rw [Bool.not_eq_true] at hmagic
        left
        rw [show Net.Op.readHeader.handler .success k = _ from Net.onReadHeader_of_not_magic hmagic]
        exact inboundView_networkClose k
  | readBody len =>
    cases ec with
    | failure => exact .inl (inboundView_networkClose k)
    | success =>
      show Delivers k (if k.onFrame then _ else Net.afterFrame k)
      -- the one handler that calls `on_frame_`
      split
      · exact .inr rfl
      · exact .inl rfl
  | write buffer =>
    cases ec with
    | failure => exact .inl (inboundView_networkClose k)
    | success =>
      left
      cases htail : k.writeQueue.tail with
      | nil =>
        rw [show (Net.Op.write buffer).handler .success k = _ from Net.onWrite_success_of_nil htail]
        rfl
      | cons next rest =>
        rw [show (Net.Op.write buffer).handler .success k = _ from Net.onWrite_success_of_cons htail]
        rfl

/-- **A move of the transport** delivers at most one frame, and that one to the client. -/
theorem move_delivers {k k' : Net.Connection} {m : Net.Act} {f : Option Bytes}
    (hcallback : k.inCallback = false) (h : Transport.move k m = some (k', f)) :
    (f = none ∧ inboundView k' = inboundView k) ∨
    (∃ frame, f = some frame ∧ inboundView k' = (k.delivered ++ [frame], true)) := by
  -- a frame is handed over exactly when the step has entered the callback
  have hcalled (hstep : (Net.step k m).map
      (fun c => (c, if c.inCallback then some c.bodyBuffer else none)) = some (k', f))
      (hdelivers : Net.step k m = some k' → Delivers k k') :
      (f = none ∧ inboundView k' = inboundView k) ∨
      (∃ frame, f = some frame ∧ inboundView k' = (k.delivered ++ [frame], true)) := by
    obtain ⟨k'', hnet, heq⟩ := Option.map_eq_some_iff.mp hstep
    obtain ⟨rfl, rfl⟩ := Prod.mk.inj heq
    rcases hdelivers hnet with hsame | hmore
    · have hstill : k''.inCallback = false := (congrArg Prod.snd hsame).trans hcallback
      exact .inl ⟨if_neg (Bool.eq_false_iff.mp hstill), hsame⟩
    · exact .inr ⟨k''.bodyBuffer, if_pos (congrArg Prod.snd hmore), hmore⟩
  cases m with
  | transfer i data =>
    refine hcalled h fun hnet => .inl ?_
    obtain ⟨l₁, q, l₂, -, -, rfl⟩ := Net.step_transfer hnet
    simp [inboundView]
  | complete i ec =>
    refine hcalled h fun hnet => .inl ?_
    obtain ⟨l₁, q, l₂, -, -, rfl⟩ := Net.step_complete hnet
    rfl
  | run i =>
    refine hcalled h fun hnet => ?_
    obtain ⟨-, l₁, q, l₂, ec, -, -, -, rfl⟩ := Net.step_run hnet
    exact delivers_handler q.op ec { k with pending := l₁ ++ l₂ }
  | _ => cases h

/-- Between two acts of a client that goes on, what was delivered has been consumed, and no callback
    of the connection runs. -/
structure Ingested (p : Platform) (key : Bytes) (fuel : Nat) (c : CMClient Net.Connection Net.Lookup) :
    Prop where
  sessionKey : c.crypto.sessionKey = key
  callback : c.connection.inCallback = false
  ingests : Ingests p key fuel c.connection.delivered (taken c.log)

section
variable {p : Platform} {key : Bytes} {fuel : Nat}

/-- The session key is made with the manager; no step of the client changes it. -/
theorem sessionKey_run {E : Type} {j j' : Journal E}
    (h : Relation.ReflTransGen (Journal.Step p) j j') : j'.sessionKey = j.sessionKey := by
  induction h with
  | refl => rfl
  | tail _ hlast ih =>
    cases hlast with
    | turn => exact ih
    | on => exact ih

section
variable {c c' : CMClient Net.Connection Net.Lookup}

/-- Nothing is delivered, and nothing consumed. -/
theorem Ingested.same (h : Ingested p key fuel c) (hkey : c'.crypto.sessionKey = key)
    (hinbound : c'.inbound inboundView = c.inbound inboundView) : Ingested p key fuel c' := by
  obtain ⟨htaken, hview⟩ := Prod.mk.inj hinbound
  obtain ⟨hdelivered, hcallback⟩ := Prod.mk.inj hview
  refine ⟨hkey, hcallback.trans h.callback, ?_⟩
  rw [htaken, hdelivered]
  exact h.ingests

/-- A frame is delivered, and consumed. -/
theorem Ingested.consume (h : Ingested p key fuel c) {k : Net.Connection} {frame : Bytes}
    (hk : inboundView k = (c.connection.delivered ++ [frame], true))
    (hcomes : Comes (consumeFrame (emit p (fuel + 1)) p (fuel + 1) frame true
      { c with connection := k }))
    (hafter : Calls.after (consumeFrame (emit p (fuel + 1)) p (fuel + 1) frame true
      { c with connection := k }) = c') :
    Ingests p key fuel c'.connection.delivered (taken c'.log) := by
  subst hafter
  obtain ⟨hdelivered, -⟩ := Prod.mk.inj hk
  by_cases hlen : frame.length < 4
  · rw [consumeFrame_short hlen]
    show Ingests p key fuel k.delivered (taken c.log)
    rw [hdelivered]
    exact h.ingests.short hlen
  · have hemit := abstains_emit remote_inboundView p (fuel + 1)
    obtain ⟨inside, hinbound, hframes, hclear⟩ := consumeFrame_of_rest remote_inboundView hemit
      (consumeFrame_unfolds remote_inboundView hemit fuel) hlen hcomes
    obtain ⟨htaken, hview⟩ := Prod.mk.inj hinbound
    obtain ⟨hsame, -⟩ := Prod.mk.inj hview
    -- the delivered frame heads the block of what was found in it
    have hblock : taken (c.log ++ [.consumed frame true c.channelSecured]) ++ inside
        = taken c.log ++ ⟨frame, true, c.channelSecured⟩ :: inside := by
      rw [taken_append, List.append_assoc]
      rfl
    rw [htaken, hsame]
    show Ingests p key fuel k.delivered
      (taken (c.log ++ [.consumed frame true c.channelSecured]) ++ inside)
    rw [hdelivered, hblock]
    refine .frame h.ingests (Nat.le_of_not_lt hlen) ?_ hclear
    rw [hframes, received_eq, ← h.sessionKey]

end

/-- **Each act** of a client that goes on. -/
theorem ingested_step {s s' : System Net.Connection Net.Lookup} {a : Act Net.Lookup Net.Act}
    (h : s.stopped = none → Ingested p key fuel s.client)
    (hstep : step p (fuel + 1) s a = some s') (hrunning : s'.stopped = none) :
    Ingested p key fuel s'.client := by
  have hemit := abstains_emit remote_inboundView p (fuel + 1)
  have hkey := sessionKey_run (step_journal hstep)
  unfold step at hstep
  split at hstep
  · cases hstep
  · rename_i hstopped
    have hbefore := h (Option.not_isSome_iff_eq_none.mp hstopped)
    have hkey' : s'.client.crypto.sessionKey = key := hkey.trans hbefore.sessionKey
    cases a with
    | startSession net =>
      cases hstep
      rw [client_settle] at hkey' ⊢
      exact hbefore.same hkey' (abstains_startSession remote_inboundView net _)
    | shutdown =>
      cases hstep
      rw [client_settle] at hkey' ⊢
      exact hbefore.same hkey' (abstains_shutdown remote_inboundView _)
    | on type callback =>
      cases hstep
      rw [client_settle] at hkey' ⊢
      exact hbefore.same hkey' (abstains_on type callback _)
    | execute command =>
      cases hstep
      rw [client_settle] at hkey' ⊢
      exact hbefore.same hkey' (abstains_execute remote_inboundView hemit command _)
    | transport m =>
      dsimp only at hstep
      rcases hmove : Transport.move s.client.connection m with _ | ⟨k, f⟩
      · rw [hmove] at hstep
        cases hstep
      · rw [hmove] at hstep
        -- a move of the transport delivers nothing, or one frame
        rcases move_delivers hbefore.callback hmove with ⟨rfl, hk⟩ | ⟨frame, rfl, hk⟩
        · cases hstep
          exact hbefore.same hkey' (congrArg (taken s.client.log, ·) hk)
        · cases hstep
          cases hconsume : consumeFrame (emit p (fuel + 1)) p (fuel + 1) frame true
            { s.client with connection := k } with
          | ok u c =>
            have hcomes : Comes (consumeFrame (emit p (fuel + 1)) p (fuel + 1) frame true
                { s.client with connection := k }) := by
              intro fault c' hfault
              cases hconsume.symm.trans hfault
            have hingests := hbefore.consume hk hcomes (congrArg Calls.after hconsume)
            rw [onFrame_ok hconsume] at hkey' ⊢
            exact ⟨hkey', rfl, hingests⟩
          | error fault c =>
            cases fault with
            | throws e =>
              have hcomes : Comes (consumeFrame (emit p (fuel + 1)) p (fuel + 1) frame true
                  { s.client with connection := k }) := by
                intro fault c' hfault
                cases hconsume.symm.trans hfault
                exact ⟨e, rfl⟩
              have hingests := hbefore.consume hk hcomes (congrArg Calls.after hconsume)
              rw [onFrame_throws hconsume] at hkey' ⊢
              exact ⟨hkey', rfl, hingests⟩
            | undefined =>
              -- undefined behaviour stops the system, and it is still running
              rw [onFrame, attempt,
                Calls.bind_error (catchStd_undefined (Calls.bind_error hconsume))] at hrunning
              cases hrunning
            | diverges =>
              rw [onFrame, attempt,
                Calls.bind_error (catchStd_diverges (Calls.bind_error hconsume))] at hrunning
              cases hrunning

/-- **Nothing is lost on the way in**: in every state of every run of a new client on TCP, unless an
    act has ended in undefined behaviour, the frames consumed are those the connection delivered,
    each with the frames of its batch right behind it, at any depth, in their order and each once. -/
theorem frames_ingested_run (p : Platform) (fuel : Nat) (crypto : EncryptionManager)
    (acts : List (Act Net.Lookup Net.Act)) :
    EveryState (step p (fuel + 1))
      (fun s : System Net.Connection Net.Lookup => s.stopped = none →
        Ingests p crypto.sessionKey fuel s.client.connection.delivered (taken s.client.log))
      (System.initial .initial crypto) acts := by
  have hstart : Ingested p crypto.sessionKey fuel
      (System.initial (E := Net.Lookup) Net.Connection.initial crypto).client := ⟨rfl, rfl, .nil⟩
  have hruns : EveryState (step p (fuel + 1))
      (fun s : System Net.Connection Net.Lookup =>
        s.stopped = none → Ingested p crypto.sessionKey fuel s.client)
      (System.initial .initial crypto) acts :=
    Runs.everyState_of_invariant (fun s a s' hs hstep => ingested_step hs hstep)
      (fun _ => hstart) acts
  intro acts₁ acts₂ s hacts hrun hrunning
  exact (hruns acts₁ acts₂ s hacts hrun hrunning).ingests

end

end SteamMin.Client
