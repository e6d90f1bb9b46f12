/-
  EVERY CALL OF THE CLIENT IS A RUN OF THE CHANNEL.

  `CMClient.channel` forgets all of a client but the flag, the record and the connection.  Seen
  through it, every function of the client is a run of `Channel.Step`: `emit`, however deep the
  callbacks nest (`emits_emit`), `consume_frame`, however deep the batches nest
  (`consumeFrame_run`), and so each act of a system (`step_cases`).  It holds whether the call
  returns, throws, or ends in undefined behaviour, because what was recorded before is all that
  counts.

  The inductions are on fuel, the nesting of callbacks or of batches; a callback itself is an
  induction on its script.
-/
import SteamMin.Client.Channel
import SteamMin.Client.System

namespace SteamMin.Client

open Messages Crypto
open Relation (ReflTransGen)

variable {C E M : Type}

/-- What the outside can tell of a client. -/
def CMClient.channel (c : CMClient C E) : Channel C := ⟨c.channelSecured, c.log, c.connection⟩

section
variable [IConnection C E]

/-- The call is a run of the channel. -/
abbrev Follows (p : Platform) (Src : Bytes → Prop) {α : Type} (x : Calling C E α) : Prop :=
  Calls.Refines (Channel.Step p Src) CMClient.channel x

/-- An emitter records its event before it does anything else. -/
def Emits (p : Platform) (Src : Bytes → Prop) (emit : Event → Calling C E Unit) : Prop :=
  ∀ event c, ReflTransGen (Channel.Step p Src)
    ⟨c.channelSecured, c.log ++ [.emitted event], c.connection⟩
    (Calls.after (emit event c)).channel

end

variable {p : Platform} {Src : Bytes → Prop}

/-- An event other than the success of the handshake follows the channel with nothing else to
    show. -/
theorem Emits.follows [IConnection C E] {emit : Event → Calling C E Unit} (h : Emits p Src emit)
    {event : Event} (hevent : ¬ event.IsSecured) : Follows p Src (emit event) :=
  fun c => .head (.emitted event hevent) (h event c)

/-! ## Exceptions

  `try` blocks, as the proofs use them.  The model's `catchStd` lets undefined behaviour and
  divergence through, as no `catch` of the source could see them. -/

/-- Whatever was done before the exception was a run of the channel, and the handler goes on from
    there. -/
theorem follows_catchStd [IConnection C E] {α : Type} {x : Calling C E α}
    {handler : Exn → Calling C E α} (hx : Follows p Src x)
    (hhandler : ∀ e, Follows p Src (handler e)) : Follows p Src (catchStd x handler) := by
  refine Calls.refines_tryCatch hx fun fault => ?_
  cases fault with
  | throws e => exact hhandler e
  | undefined => exact Calls.refines_throw _
  | diverges => exact Calls.refines_throw _

section
variable {α : Type} {x : Calling C E α} {handler : Exn → Calling C E α} {c c' : CMClient C E}

/-- A call that returned is not caught. -/
theorem catchStd_ok {a : α} (h : x c = .ok a c') : catchStd x handler c = .ok a c' :=
  Calls.tryCatch_ok h

/-- Exceptions are caught in the state they were thrown in. -/
theorem catchStd_throws {e : Exn} (h : x c = .error (.throws e) c') :
    catchStd x handler c = handler e c' :=
  Calls.tryCatch_error h

/-- Undefined behaviour is not caught, nor does a call that never ends come back. -/
theorem catchStd_undefined (h : x c = .error .undefined c') :
    catchStd x handler c = .error .undefined c' :=
  Calls.tryCatch_error h

/-- A call that does not return is not caught. -/
theorem catchStd_diverges (h : x c = .error .diverges c') :
    catchStd x handler c = .error .diverges c' :=
  Calls.tryCatch_error h

end

/-- The same for a call whose exception is kept as a value. -/
theorem follows_attempt [IConnection C E] {x : Calling C E Unit} (hx : Follows p Src x) :
    Follows p Src (attempt x) :=
  follows_catchStd (Calls.refines_bind hx fun _ => Calls.refines_pure _)
    fun _ => Calls.refines_pure _

/-- Swallowing an exception changes no state. -/
theorem after_swallow (x : Calling C E Unit) (c : CMClient C E) :
    Calls.after (catchStd x (fun _ => pure ()) c) = Calls.after (x c) := by
  cases hx : x c with
  | ok u c' => rw [catchStd, Calls.tryCatch_ok hx]
  | error fault c' =>
    rw [catchStd, Calls.tryCatch_error hx]
    cases fault <;> rfl

/-! ## Sending

  All sending goes through `send_msg_impl`.  It is described once, by what it leaves behind when
  there is a buffer to hand on and when there is none. -/

section
variable [IConnection C E]

/-- The buffer that goes out is the message, or its envelope. -/
def outgoing (p : Platform) (message : Bytes) (secured : Bool) : Calling C E Bytes :=
  if secured then onCrypto (EncryptionManager.processOutgoingEncryptedMessage p message)
  else pure message

/-- One lemma for sending: the message, the buffer and the flag go into the log, the buffer into
    the connection. -/
theorem sendMsgImpl_ok {message buffer : Bytes} {c c' : CMClient C E}
    (h : outgoing p message c.channelSecured c = .ok buffer c') :
    sendMsgImpl p message c = .ok () { c' with
      log := c'.log ++ [.handed message buffer c.channelSecured]
      connection := IConnection.asyncSend buffer c'.connection } := by
  show (outgoing p message c.channelSecured >>= fun buffer => do
    record (.handed message buffer c.channelSecured)
    modify fun c => { c with connection := IConnection.asyncSend buffer c.connection }) c = _
  rw [Calls.bind_ok h]
  rfl

/-- A message that cannot be sealed is not sent, and nothing is recorded. -/
theorem sendMsgImpl_error {message : Bytes} {f : Fault} {c c' : CMClient C E}
    (h : outgoing p message c.channelSecured c = .error f c') :
    sendMsgImpl p message c = .error f c' := by
  show (outgoing p message c.channelSecured >>= fun buffer => do
    record (.handed message buffer c.channelSecured)
    modify fun c => { c with connection := IConnection.asyncSend buffer c.connection }) c = _
  rw [Calls.bind_error h]

/-- A message is handed to the connection, as it is or encrypted; or there is no envelope for it. -/
theorem sendMsgImpl_cases (message : Bytes) (c : CMClient C E) :
    (∃ buffer c', sendMsgImpl p message c = .ok () c' ∧
      (c.channelSecured = false → buffer = message) ∧
      c'.channel = ⟨c.channelSecured, c.log ++ [.handed message buffer c.channelSecured],
        IConnection.asyncSend buffer c.connection⟩) ∨
    (∃ c', sendMsgImpl p message c = .error .undefined c' ∧ c.channelSecured = true ∧
      c'.channel = c.channel) := by
  cases hsecured : c.channelSecured with
  | false =>
    have hout : outgoing p message c.channelSecured c = .ok message c := by
      rw [hsecured]
      rfl
    refine .inl ⟨message, _, sendMsgImpl_ok hout, fun _ => rfl, ?_⟩
    show Channel.mk c.channelSecured _ _ = _
    rw [hsecured]
  | true =>
    have hout : outgoing p message c.channelSecured c
        = onCrypto (EncryptionManager.processOutgoingEncryptedMessage p message) c := by
      rw [hsecured]
      rfl
    -- sealing returns, or is undefined behaviour: nothing else is among its failures
    cases hcrypto : EncryptionManager.processOutgoingEncryptedMessage p message c.crypto with
    | ok buffer crypto =>
      rw [onCrypto, Calls.zoom, hcrypto] at hout
      refine .inl ⟨buffer, _, sendMsgImpl_ok hout, (Bool.noConfusion ·), ?_⟩
      show Channel.mk c.channelSecured _ _ = _
      rw [hsecured]
    | error f crypto =>
      have hf := EncryptionManager.failsOnly_processOutgoing p message _ _ _ hcrypto
      subst hf
      rw [onCrypto, Calls.zoom, hcrypto] at hout
      exact .inr ⟨_, sendMsgImpl_error hout, rfl, rfl⟩

/-! ## The calls of the user

  `start_session`, `shutdown`, `on` and the three commands.  Those that ask for a secured channel
  are split by `channel_secured_` first, since that is what the source does first. -/

/-- The client behind the first line of `start_session`. -/
def CMClient.starting (c : CMClient C E) : CMClient C E := { c with log := c.log ++ [.startCalled] }

/-- `start_session` is one step of the channel, or two when the network throws. -/
theorem follows_startSession (net : E) : Follows p Src (startSession net : Calling C E Unit) := by
  intro c
  have hcalled : Channel.Step p Src c.channel ⟨c.channelSecured, c.starting.log,
      Calls.after (IConnection.networkConnect net (IConnection.setOnFrame c.connection))⟩ :=
    .startCalled net
  refine .head hcalled ?_
  rw [startSession, record, Calls.modify_bind, Calls.get_bind]
  dsimp only
  cases hnet : IConnection.networkConnect net (IConnection.setOnFrame c.connection) with
  | error e connection => exact .refl
  | ok u connection =>
    by_cases hstate : IConnection.state c.connection = .disconnected
    · rw [if_pos hstate]
      exact .single .started
    · rw [if_neg hstate]
      exact .refl

/-- `shutdown` is one step of the channel. -/
theorem follows_shutdown : Follows p Src (shutdown : Calling C E Unit) := by
  intro c
  have hcalled : Channel.Step p Src c.channel ⟨c.channelSecured, c.log ++ [.shutdownCalled],
      if IConnection.isConnected c.connection then IConnection.networkClose c.connection
      else c.connection⟩ := .shutdownCalled
  refine .trans (.single hcalled) ?_
  show ReflTransGen _ _ (CMClient.channel (if IConnection.isConnected c.connection then _ else _))
  split
  · exact .refl
  · exact .refl

/-- Registering is no step of the channel. -/
theorem follows_on (type : EventType) (callback : Listener E) :
    Follows p Src (on type callback : Calling C E Unit) :=
  Calls.refines_modify fun _ => .refl

/-- A command that has been recorded sends its message, or nothing. -/
theorem command_sendMsg {serialized : Except Fault Bytes} {command : Command} {b : Bool}
    {l : List Entry} {k : C} {c : CMClient C E}
    (hc : c.channel = ⟨b, l ++ [.executed command b], k⟩)
    (hproto : ∀ message, serialized = .ok message → isProtobufMsg (firstWord message) = true)
    (hplain : b = false → command.IsProductInfo)
    (hfail : b = false → ∀ f, serialized = .error f → ¬ SerializesRequests p.protobuf) :
    ReflTransGen (Channel.Step p Src) ⟨b, l, k⟩
      (Calls.after (sendMsg p serialized c)).channel := by
  obtain ⟨hsecured, hlog, hconnection⟩ := Channel.mk.inj hc
  cases hser : serialized with
  | error f =>
    show ReflTransGen _ _ c.channel
    rw [hc]
    exact .single (.refused fun hb _ => hfail hb f hser)
  | ok message =>
    show ReflTransGen _ _ (Calls.after (sendMsgImpl p message c)).channel
    rcases sendMsgImpl_cases message c with
      ⟨buffer, c', hrun, hbuffer, hc'⟩ | ⟨c', hrun, htrue, hc'⟩
    -- sent, sealed on a secured channel and as it is otherwise
    · rw [hrun]
      show ReflTransGen _ _ c'.channel
      rw [hc', hlog, hsecured, hconnection, List.append_assoc]
      rw [hsecured] at hbuffer
      exact .single (.commanded (hproto message hser) fun hb => ⟨hbuffer hb, hplain hb⟩)
    · rw [hrun]
      show ReflTransGen _ _ c'.channel
      rw [hc', hc]
      exact .single (.refused fun hb => nomatch hb.symm.trans (hsecured.symm.trans htrue))

/-- The request is serialized when such messages are. -/
theorem productInfoRequest_serialize (h : SerializesRequests p.protobuf) (id : UInt32)
    (steamid : UInt64) (clientSessionid : Int32) (appToken jobid : UInt64) :
    ∃ message, (productInfoRequest id steamid clientSessionid appToken jobid).serialize
      p.protobuf.header p.protobuf.productInfoRequest = .ok message := by
  let msg := productInfoRequest id steamid clientSessionid appToken jobid
  obtain ⟨protoData, hproto⟩ := Option.isSome_iff_exists.mp (h.header msg.header.proto rfl)
  obtain ⟨data, hdata⟩ := Option.isSome_iff_exists.mp (h.body msg.body (Nat.le_refl 1))
  exact ⟨_, MsgProto.serialize_eq hproto hdata⟩

variable {emit : Event → Calling C E Unit}

/-- Without a secured channel the logon is refused by an event. -/
theorem execAnonLogon_unsecured {c : CMClient C E} (h : c.channelSecured = false) :
    execAnonLogon p emit c
      = emit (.clientLogon (.fail "Channel not secured") none none) c := by
  show (if !c.channelSecured then _ else _ : Calling C E Unit) c = _
  rw [h]
  rfl

/-- With one it is sent. -/
theorem execAnonLogon_secured {c : CMClient C E} (h : c.channelSecured = true) :
    execAnonLogon p emit c
      = sendMsg p (anonLogonMessage.serialize p.protobuf.header p.protobuf.clientLogon) c := by
  show (if !c.channelSecured then _ else _ : Calling C E Unit) c = _
  rw [h]
  rfl

/-- Without a secured channel the logoff does nothing at all. -/
theorem execLogoff_unsecured {c : CMClient C E} (h : c.channelSecured = false) :
    execLogoff p c = .ok () c := by
  show (if !c.channelSecured then _ else _ : Calling C E Unit) c = _
  rw [h]
  rfl

/-- With one it is sent. -/
theorem execLogoff_secured {c : CMClient C E} (h : c.channelSecured = true) :
    execLogoff p c
      = sendMsg p (logoffMessage.serialize p.protobuf.header p.protobuf.clientLogon) c := by
  show (if !c.channelSecured then _ else _ : Calling C E Unit) c = _
  rw [h]
  rfl

/-- The client behind the first line of `execute`. -/
def CMClient.executing (c : CMClient C E) (command : Command) : CMClient C E :=
  { c with log := c.log ++ [.executed command c.channelSecured] }

/-- Every command is a run of the channel: a message through `send_msg`, a refusal, or nothing. -/
theorem follows_execute (hemit : Emits p Src emit) (command : Command) :
    Follows p Src (execute p emit command) := by
  have hlogin : ¬ Command.anonymousLogin.IsProductInfo := id
  have hlogoff : ¬ Command.clientLogoff.IsProductInfo := id
  intro c
  cases command with
  | anonymousLogin =>
    show ReflTransGen _ _ (Calls.after (execAnonLogon p emit (c.executing .anonymousLogin))).channel
    cases hsecured : (c.executing .anonymousLogin).channelSecured with
    | false =>
      rw [execAnonLogon_unsecured hsecured]
      exact .head (.refused fun _ h => absurd h hlogin)
        (hemit.follows id (c.executing .anonymousLogin))
    | true =>
      rw [execAnonLogon_secured hsecured]
      exact command_sendMsg rfl (fun message => MsgProto.isProtobufMsg_serialize)
        (fun hb => nomatch hb.symm.trans hsecured) (fun hb => nomatch hb.symm.trans hsecured)
  | clientLogoff =>
    show ReflTransGen _ _ (Calls.after (execLogoff p (c.executing .clientLogoff))).channel
    cases hsecured : (c.executing .clientLogoff).channelSecured with
    | false =>
      rw [execLogoff_unsecured hsecured]
      exact .single (.refused fun _ h => absurd h hlogoff)
    | true =>
      rw [execLogoff_secured hsecured]
      exact command_sendMsg rfl (fun message => MsgProto.isProtobufMsg_serialize)
        (fun hb => nomatch hb.symm.trans hsecured) (fun hb => nomatch hb.symm.trans hsecured)
  | getProductInfo id steamid clientSessionid appToken =>
    -- a product request is sent without a check, unless it cannot be serialized
    let command : Command := .getProductInfo id steamid clientSessionid appToken
    let counted : CMClient C E := { c.executing command with nextJobid := c.nextJobid + 1 }
    have hcounted : counted.channel
        = ⟨c.channelSecured, c.log ++ [.executed command _], c.connection⟩ := rfl
    refine command_sendMsg hcounted (fun message => MsgProto.isProtobufMsg_serialize)
      (fun _ => trivial) ?_
    intro _ f hf hser
    obtain ⟨message, hmessage⟩ :=
      productInfoRequest_serialize hser id steamid clientSessionid appToken c.nextJobid
    nomatch hmessage.symm.trans hf

/-! ## Callbacks and events

  `emit` and the scripts of listeners call each other.  The fuel of `emit` is the depth of that
  nesting, and the induction is on it; within one depth it is on the script. -/

/-- A listener is a run of the channel, by induction on what it does. -/
theorem follows_runScript (hemit : Emits p Src emit) (script : Script E) :
    Follows p Src (runScript p emit script) := by
  induction script with
  | ret => exact Calls.refines_pure _
  | raise e => exact Calls.refines_throw _
  | startSession net next ih =>
    exact Calls.refines_bind (follows_attempt (follows_startSession net)) ih
  | shutdown next ih => exact Calls.refines_bind follows_shutdown fun _ => ih
  | isConnected next ih => exact Calls.refines_get_bind fun c => ih _ c
  | execute command next ih =>
    exact Calls.refines_bind (follows_attempt (follows_execute hemit command)) ih
  | on type callback next _ ih => exact Calls.refines_bind (follows_on type callback) fun _ => ih

end

section
variable [IConnection C E] {fuel : Nat} {event : Event} {c : CMClient C E}

/-- The client behind the first line of `emit`. -/
def CMClient.emitting (c : CMClient C E) (event : Event) : CMClient C E :=
  { c with log := c.log ++ [.emitted event] }

/-- Without a listener an event is recorded and nothing else. -/
theorem emit_of_none (h : c.listeners event.type = none) :
    emit p fuel event c = .ok () (c.emitting event) := by
  rw [emit, record, Calls.modify_bind, Calls.get_bind]
  dsimp only
  rw [h]
  rfl

/-- Without fuel a listener is not entered. -/
theorem emit_zero_of_some {callback : Listener E} (h : c.listeners event.type = some callback) :
    emit p 0 event c = .error .diverges (c.emitting event) := by
  rw [emit, record, Calls.modify_bind, Calls.get_bind]
  dsimp only
  rw [h]
  rfl

/-- With fuel the listener runs, and what it throws is swallowed. -/
theorem emit_succ_of_some {callback : Listener E} (h : c.listeners event.type = some callback) :
    emit p (fuel + 1) event c
      = catchStd (runScript p (emit p fuel) (callback (c.emitting event).log event))
          (fun _ => pure ()) (c.emitting event) := by
  rw [emit, record, Calls.modify_bind, Calls.get_bind]
  dsimp only
  rw [h]
  rfl

/-- **Events**: whatever the callbacks do, and however deep they nest. -/
theorem emits_emit (p : Platform) (Src : Bytes → Prop) (fuel : Nat) :
    Emits p Src (emit p fuel : Event → Calling C E Unit) := by
  induction fuel with
  | zero =>
    intro event c
    cases hlistener : c.listeners event.type with
    | none =>
      rw [emit_of_none hlistener]
      exact .refl
    | some callback =>
      rw [emit_zero_of_some hlistener]
      exact .refl
  | succ fuel ih =>
    intro event c
    cases hlistener : c.listeners event.type with
    | none =>
      rw [emit_of_none hlistener]
      exact .refl
    | some callback =>
      rw [emit_succ_of_some hlistener, after_swallow]
      exact follows_runScript ih _ (c.emitting event)

end

/-! ## The handlers

  One lemma for each handler.  The two of the handshake are stated with what they record, as the
  order of these entries is what the theorems about the handshake need; of the others it is enough
  that they are runs. -/

section
variable [IConnection C E] {emit : Event → Calling C E Unit}

/-- The logon handler emits one event, whatever it decodes. -/
theorem follows_handleLogonResponse (hemit : Emits p Src emit) (packet : PacketClientMsgProtobuf) :
    Follows p Src (handleLogonResponse emit p packet) :=
  Calls.refines_bind (Calls.refines_lift _) fun _ => hemit.follows id

/-- The handler of product information emits one event, or an exception leaves it before. -/
theorem follows_handleProdInfoResponse (hemit : Emits p Src emit)
    (packet : PacketClientMsgProtobuf) : Follows p Src (handleProdInfoResponse emit p packet) := by
  refine Calls.refines_bind (Calls.refines_lift _) fun msg => ?_
  refine Calls.refines_bind (Calls.refines_lift _) fun apps => ?_
  exact Calls.refines_bind (Calls.refines_lift _) fun packages => hemit.follows id

/-- The verdict of the peer goes into the flag, then out as an event. -/
theorem handleEncryptResult_run (hemit : Emits p Src emit) {packet : PacketMsg}
    (htype : packet.msgType = EMsg.channelEncryptResult) (c : CMClient C E) :
    ∃ es b, Dispatched p c.channelSecured packet (.dispatchedMsg packet :: es) b ∧
      es.foldl Entry.send c.connection = c.connection ∧
      ReflTransGen (Channel.Step p Src) ⟨b, c.log ++ es, c.connection⟩
        (Calls.after (handleEncryptResult emit packet c)).channel := by
  cases hres : (Msg.ofPacket (.raw packet) : Except Fault (Msg MsgChannelEncryptResult)) with
  | error f =>
    -- a result that cannot be read throws, which the dispatcher swallows
    have hverdict : verdict packet = none := by
      rw [verdict, hres]
    refine ⟨[], _, .unreadable htype hverdict, rfl, ?_⟩
    rw [handleEncryptResult, hres, List.append_nil]
    exact .refl
  | ok res =>
    have hverdict : verdict packet = some (res.body.result = EResult.ok : Bool) := by
      rw [verdict, hres]
    have hdispatched : Dispatched p c.channelSecured packet
        [.dispatchedMsg packet,
          .securedSet (res.body.result = EResult.ok) c.channelSecured
            (IConnection.isConnected c.connection),
          .emitted (resultEvent (res.body.result = EResult.ok))] (res.body.result = EResult.ok) :=
      .result htype hverdict
    refine ⟨_, _, hdispatched, rfl, ?_⟩
    rw [handleEncryptResult, hres, List.append_cons]
    exact hemit _ { c with
      log := c.log ++ [.securedSet (res.body.result = EResult.ok) c.channelSecured
        (IConnection.isConnected c.connection)]
      channelSecured := res.body.result = EResult.ok }

/-- A request is answered, in the clear if the channel is. -/
theorem handleEncryptRequest_run (hemit : Emits p Src emit) {packet : PacketMsg}
    (hoffset : packet.bodyOffset = 20) (c : CMClient C E) :
    ∃ es, Answer p c.channelSecured packet es ∧
      ReflTransGen (Channel.Step p Src)
        ⟨c.channelSecured, c.log ++ es, es.foldl Entry.send c.connection⟩
        (Calls.after (handleEncryptRequest emit p packet c)).channel := by
  cases hgen : EncryptionManager.generateEncryptionResponse p packet c.crypto with
  | error f crypto =>
    -- a request that is declined is answered by an event
    obtain ⟨e, rfl⟩ :=
      EncryptionManager.failsOnly_generateEncryptionResponse p hoffset _ _ _ hgen
    have hcall : onCrypto (EncryptionManager.generateEncryptionResponse p packet) c
        = .error (.throws e) { c with crypto } := by
      rw [onCrypto, Calls.zoom, hgen]
    refine ⟨_, .failed hgen, ?_⟩
    rw [handleEncryptRequest, catchStd_throws (Calls.bind_error hcall)]
    exact hemit _ { c with crypto }
  | ok response crypto =>
    have hcall : onCrypto (EncryptionManager.generateEncryptionResponse p packet) c
        = .ok response { c with crypto } := by
      rw [onCrypto, Calls.zoom, hgen]
    obtain ⟨message, hmessage⟩ : ∃ message, response.serialize = .ok message :=
      ⟨_, Msg.serialize_eq response.body.appends_serialize⟩
    -- the response is a message of the handshake, sealed or not
    have hhandshake : IsHandshake message :=
      ⟨response, EncryptionManager.generateEncryptionResponse_msg p hgen, hmessage⟩
    have hsend : sendMsg p response.serialize { c with crypto }
        = sendMsgImpl p message { c with crypto } := by
      rw [hmessage]
      rfl
    rcases sendMsgImpl_cases message { c with crypto } with
      ⟨buffer, c', hrun, hplain, hc'⟩ | ⟨c', hrun, hsecured, hc'⟩
    · refine ⟨_, .handed hhandshake hplain, ?_⟩
      rw [handleEncryptRequest,
        catchStd_ok ((Calls.bind_ok hcall).trans (hsend.trans hrun))]
      show ReflTransGen _ _ c'.channel
      rw [hc']
      exact .refl
    · refine ⟨_, .stuck hsecured, ?_⟩
      rw [handleEncryptRequest,
        catchStd_undefined ((Calls.bind_ok hcall).trans (hsend.trans hrun))]
      show ReflTransGen _ _ c'.channel
      rw [hc', List.append_nil]
      exact .refl

variable {consumeFrame : Bytes → Bool → Calling C E Unit}

/-- The loop of a batch consumes the frames at its offsets. -/
theorem follows_multiLoop {payload : Bytes}
    (hconsume : ∀ frame offset offset', LoopOffset payload offset →
      readFrame payload offset = some (frame, offset') → Follows p Src (consumeFrame frame false))
    (fuel : Nat) : ∀ offset, LoopOffset payload offset →
      Follows p Src (multiLoop consumeFrame payload fuel offset) := by
  induction fuel with
  | zero => exact fun offset _ => Calls.refines_throw _
  | succ fuel ih =>
    intro offset hoffset
    rw [multiLoop]
    cases hread : readFrame payload offset with
    | none => exact Calls.refines_pure _
    | some next =>
      exact Calls.refines_bind (hconsume _ _ _ hoffset hread) fun _ =>
        ih next.2 (hoffset.next hread)

omit [IConnection C E] in
/-- The handler as payload and loop, which is how the proofs speak of it. -/
theorem handleMulti_eq (packet : PacketClientMsgProtobuf) :
    handleMulti p consumeFrame packet = (do
      let payload ← Calls.lift (multiPayload p packet)
      multiLoop consumeFrame payload (payload.length + 1) 0) := by
  rw [handleMulti, multiPayload, Calls.lift_bind, bind_assoc]
  refine congrArg (Calls.lift _ >>= ·) (funext fun multi => ?_)
  dsimp only
  by_cases hsize : 0 < multi.body.getSizeUnzipped
  · rw [if_pos hsize, if_pos hsize]
  · rw [if_neg hsize, if_neg hsize]
    rfl

/-- A batch is a run of the channel when its frames are, by induction on the loop. -/
theorem follows_handleMulti {packet : PacketClientMsgProtobuf}
    (hconsume : ∀ payload frame offset offset', multiPayload p packet = .ok payload →
      LoopOffset payload offset → readFrame payload offset = some (frame, offset') →
      Follows p Src (consumeFrame frame false)) :
    Follows p Src (handleMulti p consumeFrame packet) := by
  rw [handleMulti_eq]
  refine Calls.refines_lift_bind fun payload hpayload => ?_
  exact follows_multiLoop (fun frame offset offset' => hconsume payload frame offset offset' hpayload)
    _ 0 .start

/-! ## The dispatcher

  What can be in a slot is a finite list (`msgHandler_cases`, `protoHandler_cases`), so a dispatch
  is the record of the packet and then one of the handlers above, or the event of an unknown
  message. -/

/-- Recording is one step, where the channel has a step for it. -/
theorem follows_record (entry : Entry)
    (h : ∀ b l (k : C), Channel.Step p Src ⟨b, l, k⟩ ⟨b, l ++ [entry], k⟩) :
    Follows p Src (record entry : Calling C E Unit) :=
  Calls.refines_modify fun c => .single (h c.channelSecured c.log c.connection)

/-- A lookup that succeeded is the entry of the table. -/
theorem slot_eq_ok {H : Type} {table : Nat → Option H} {id : Nat} {fn : Option H}
    (h : slot table id = .ok fn) : table id = fn := by
  rw [slot] at h
  split at h
  · exact Except.ok.inj h
  · nomatch h

variable (p emit consumeFrame) in
/-- The handlers of raw packets, by message type. -/
theorem gDispatch_msg (msgType : EMsg) :
    (gDispatch emit p consumeFrame).msg msgType.toNat
      = if msgType = EMsg.channelEncryptRequest then some (handleEncryptRequest emit p)
        else if msgType = EMsg.channelEncryptResult then some (handleEncryptResult emit)
        else none := by
  simp only [gDispatch, UInt32.toNat_inj]

variable (p emit consumeFrame) in
/-- The handlers of protobuf packets, by message type. -/
theorem gDispatch_proto (id : EMsg) :
    (gDispatch emit p consumeFrame).proto id.toNat
      = if id = EMsg.multi then some (handleMulti p consumeFrame)
        else if id = EMsg.clientLogOnResponse then some (handleLogonResponse emit p)
        else if id = EMsg.clientPICSProductInfoResponse then some (handleProdInfoResponse emit p)
        else none := by
  simp only [gDispatch, UInt32.toNat_inj]

/-- What a raw packet can find in the table. -/
theorem msgHandler_cases {msgType : EMsg} {fn : Option (PacketMsg → Calling C E Unit)}
    (h : slot (gDispatch emit p consumeFrame).msg msgType.toNat = .ok fn) :
    fn = some (handleEncryptRequest emit p) ∨ fn = some (handleEncryptResult emit) ∨ fn = none := by
  have htable := (slot_eq_ok h).symm.trans (gDispatch_msg p emit consumeFrame msgType)
  split at htable
  · exact .inl htable
  · split at htable
    · exact .inr (.inl htable)
    · exact .inr (.inr htable)

/-- What a protobuf packet can find there; the handler of batches is found by batches only, and that of
    product infos by their responses. -/
theorem protoHandler_cases {id : EMsg} {fn : Option (PacketClientMsgProtobuf → Calling C E Unit)}
    (h : slot (gDispatch emit p consumeFrame).proto id.toNat = .ok fn) :
    (id = EMsg.multi ∧ fn = some (handleMulti p consumeFrame)) ∨
      fn = some (handleLogonResponse emit p) ∨
      (id = EMsg.clientPICSProductInfoResponse ∧ fn = some (handleProdInfoResponse emit p)) ∨
      fn = none := by
  have htable := (slot_eq_ok h).symm.trans (gDispatch_proto p emit consumeFrame id)
  split at htable
  · rename_i hmulti
    exact .inl ⟨hmulti, htable⟩
  · split at htable
    · exact .inr (.inl htable)
    · split at htable
      · rename_i hinfo
        exact .inr (.inr (.inl ⟨hinfo, htable⟩))
      · exact .inr (.inr (.inr htable))

/-- A packet that is made from a frame in the clear has a slot. -/
theorem lt_of_isEncryptionMsg {msgType : EMsg} (h : isEncryptionMsg msgType = true) :
    msgType.toNat < MAX_EMSG := by
  simp only [isEncryptionMsg, Bool.or_eq_true, decide_eq_true_eq] at h
  rcases h with (h | h) | h
  · rw [h]
    decide
  · rw [h]
    decide
  · rw [h]
    decide

/-- The frames that a packet brings are consumed as they should be. -/
def Unpacks (p : Platform) (Src : Bytes → Prop) (consumeFrame : Bytes → Bool → Calling C E Unit)
    (packet : PacketClientMsgProtobuf) : Prop :=
  ∀ payload frame offset offset', getMsg packet.msgType = EMsg.multi →
    multiPayload p packet = .ok payload → LoopOffset payload offset →
    readFrame payload offset = some (frame, offset') → Follows p Src (consumeFrame frame false)

/-- A protobuf packet is dispatched in one step of the channel, followed by what its
    handler does. -/
theorem follows_dispatchProto (hemit : Emits p Src emit) {packet : PacketClientMsgProtobuf}
    (hsrc : Src packet.payload) (hunpacks : Unpacks p Src consumeFrame packet) :
    Follows p Src (dispatchProto (gDispatch emit p consumeFrame) emit packet) := by
  refine Calls.refines_bind (follows_record _ fun _ _ _ => .dispatchedProto packet hsrc) fun _ => ?_
  show Follows p Src (if (getMsg packet.msgType).toNat ≤ MAX_EMSG then _ else pure ())
  split
  · refine Calls.refines_lift_bind fun fn hfn => ?_
    rcases protoHandler_cases hfn with ⟨hmulti, rfl⟩ | rfl | ⟨-, rfl⟩ | rfl
    · exact follows_handleMulti fun payload frame offset offset' =>
        hunpacks payload frame offset offset' hmulti
    · exact follows_handleLogonResponse hemit packet
    · exact follows_handleProdInfoResponse hemit packet
    · exact hemit.follows id
  · exact Calls.refines_pure _

/-- The client behind the first line of `dispatch_msg`. -/
def CMClient.dispatching (c : CMClient C E) (packet : PacketMsg) : CMClient C E :=
  { c with log := c.log ++ [.dispatchedMsg packet] }

/-- What runs behind the first line of `dispatch_msg`. -/
theorem dispatchMsg_eq {packet : PacketMsg} (c : CMClient C E) :
    dispatchMsg (gDispatch emit p consumeFrame) emit packet c
      = (if packet.msgType.toNat ≤ MAX_EMSG then do
           match ← Calls.lift (slot (gDispatch emit p consumeFrame).msg packet.msgType.toNat) with
           | some fn => fn packet
           | none => emit (.msgNotImplemented packet.msgType (.raw packet))
         else pure () : Calling C E Unit) (c.dispatching packet) := rfl

/-- A raw packet with an entry is handed to it. -/
theorem dispatchMsg_of_handler {packet : PacketMsg} {fn : PacketMsg → Calling C E Unit}
    (hid : packet.msgType.toNat < MAX_EMSG)
    (hfn : (gDispatch emit p consumeFrame).msg packet.msgType.toNat = some fn)
    (c : CMClient C E) :
    dispatchMsg (gDispatch emit p consumeFrame) emit packet c = fn packet (c.dispatching packet) := by
  have hle : packet.msgType.toNat ≤ MAX_EMSG := by omega
  rw [dispatchMsg_eq, if_pos hle, slot, if_pos hid, hfn]
  rfl

variable (consumeFrame) in
/-- A raw packet meets its handler: what is recorded at once, and that the rest is a run. -/
theorem dispatchMsg_run (hemit : Emits p Src emit) {packet : PacketMsg}
    (hoffset : packet.bodyOffset = 20) (c : CMClient C E) :
    ∃ es b, Dispatched p c.channelSecured packet es b ∧
      ReflTransGen (Channel.Step p Src) ⟨b, c.log ++ es, es.foldl Entry.send c.connection⟩
        (Calls.after (dispatchMsg (gDispatch emit p consumeFrame) emit packet c)).channel := by
  have hmsg := gDispatch_msg p emit consumeFrame packet.msgType
  by_cases hrequest : packet.msgType = EMsg.channelEncryptRequest
  · have hid : packet.msgType.toNat < MAX_EMSG := by
      rw [hrequest]
      decide
    rw [if_pos hrequest] at hmsg
    rw [dispatchMsg_of_handler hid hmsg]
    obtain ⟨es, hanswer, hrun⟩ := handleEncryptRequest_run hemit hoffset (c.dispatching packet)
    refine ⟨_, _, .request hrequest hanswer, ?_⟩
    rw [List.append_cons]
    exact hrun
  · rw [if_neg hrequest] at hmsg
    by_cases hresult : packet.msgType = EMsg.channelEncryptResult
    · have hid : packet.msgType.toNat < MAX_EMSG := by
        rw [hresult]
        decide
      rw [if_pos hresult] at hmsg
      rw [dispatchMsg_of_handler hid hmsg]
      obtain ⟨es, b, hdispatched, hsend, hrun⟩ :=
        handleEncryptResult_run hemit hresult (c.dispatching packet)
      refine ⟨_, _, hdispatched, ?_⟩
      rw [List.append_cons, List.foldl_cons]
      rw [show es.foldl Entry.send (Entry.send c.connection (.dispatchedMsg packet))
        = c.connection from hsend]
      exact hrun
    · rw [if_neg hresult] at hmsg
      refine ⟨_, _, .other hrequest hresult, ?_⟩
      rw [dispatchMsg_eq]
      -- no handler: an event, an access outside the table, or nothing
      refine (show Follows p Src (if packet.msgType.toNat ≤ MAX_EMSG then _ else pure ()) from ?_)
        (c.dispatching packet)
      split
      · refine Calls.refines_lift_bind fun fn hfn => ?_
        cases fn with
        | none => exact hemit.follows id
        | some fn =>
          rw [slot_eq_ok hfn] at hmsg
          exact absurd hmsg (Option.some_ne_none fn)
      · exact Calls.refines_pure _

/-! ## Frames

  `consume_frame` has four ways to go: the frame is too short, it does not open, it opens to less
  than a word, or it is dispatched.  Each is an equation here, and later modules use these and do
  not unfold the definition. -/

/-- A decoded frame is a run of the channel when those nested in it are. -/
theorem follows_dispatchFrame (hemit : Emits p Src emit) {data : Bytes} (hsrc : Src data)
    (hconsume : ∀ sub, SubFrame p data sub → Follows p Src (consumeFrame sub false)) :
    Follows p Src (dispatchFrame (gDispatch emit p consumeFrame) emit p (firstWord data) data) := by
  rw [dispatchFrame]
  split
  · refine Calls.refines_lift_bind fun packet hpacket c => ?_
    obtain ⟨-, hpayload, hoffset, -⟩ := PacketMsg.make_eq_ok hpacket
    obtain ⟨es, b, hdispatched, hrun⟩ := dispatchMsg_run consumeFrame hemit hoffset c
    exact .head (.dispatchedMsg (hpayload.symm ▸ hsrc) hdispatched) hrun
  · split
    · rename_i hproto
      refine Calls.refines_lift_bind fun packet hpacket => ?_
      obtain ⟨-, hpayload⟩ := PacketClientMsgProtobuf.make_eq_ok hpacket
      refine follows_dispatchProto hemit (hpayload.symm ▸ hsrc) ?_
      intro payload sub offset offset' hmulti hmultiPayload hoffset hread
      exact hconsume sub ⟨hproto, packet, payload, offset, offset', hpacket, hmulti, hmultiPayload,
        hoffset, hread⟩
    · exact Calls.refines_pure _

end

/-- The client behind the first line of `consume_frame`. -/
def CMClient.consuming (c : CMClient C E) (frame : Bytes) (encrypt : Bool) : CMClient C E :=
  { c with log := c.log ++ [.consumed frame encrypt c.channelSecured] }

/-- The buffer `data` of `consume_frame`: the frame, decrypted if it is and the channel is. -/
def CMClient.received (p : Platform) (c : CMClient C E) (frame : Bytes) (encrypt : Bool) :
    Except Fault Bytes :=
  if encrypt && c.channelSecured then
    EncryptionManager.processIncomingEncryptedMessage p c.crypto frame
  else .ok frame

section
variable [IConnection C E] {emit : Event → Calling C E Unit} {fuel : Nat} {frame data : Bytes}
  {encrypt : Bool} {c : CMClient C E}

/-- A frame without a whole type word is dropped in silence. -/
theorem consumeFrame_short (hlen : frame.length < 4) :
    consumeFrame emit p (fuel + 1) frame encrypt c = .ok () c := by
  rw [consumeFrame, if_pos hlen]
  rfl

/-- The body of `consume_frame` for every other frame, as one equation. -/
theorem consumeFrame_long (hlen : ¬ frame.length < 4) :
    consumeFrame emit p (fuel + 1) frame encrypt c = (do
      let data ← Calls.lift (c.received p frame encrypt)
      let emsg ← Calls.lift (readEmsg data)
      catchStd (dispatchFrame (gDispatch emit p (consumeFrame emit p fuel)) emit p emsg data)
        fun _ => pure () : Calling C E Unit) (c.consuming frame encrypt) := by
  rw [consumeFrame, if_neg hlen, CMClient.received, Calls.get_bind, record, Calls.modify_bind]
  split
  · rfl
  · rfl

/-- A frame that cannot be decrypted. -/
theorem consumeFrame_rejected {fault : Fault} (hlen : ¬ frame.length < 4)
    (hreceived : c.received p frame encrypt = .error fault) :
    consumeFrame emit p (fuel + 1) frame encrypt c = .error fault (c.consuming frame encrypt) := by
  rw [consumeFrame_long hlen, hreceived]
  rfl

/-- A buffer with less than a word is read past its end. -/
theorem consumeFrame_overrun (hlen : ¬ frame.length < 4)
    (hreceived : c.received p frame encrypt = .ok data) (hdata : data.length < 4) :
    consumeFrame emit p (fuel + 1) frame encrypt c
      = .error .undefined (c.consuming frame encrypt) := by
  have hemsg : readEmsg data = .error .undefined := if_neg (by omega)
  rw [consumeFrame_long hlen, hreceived]
  show (Calls.lift (readEmsg data) >>= fun _ => _ : Calling C E Unit) _ = _
  rw [hemsg]
  rfl

/-- Any other frame is dispatched, and what its handler throws is ignored. -/
theorem consumeFrame_dispatched (hlen : ¬ frame.length < 4)
    (hreceived : c.received p frame encrypt = .ok data) (hdata : 4 ≤ data.length) :
    consumeFrame emit p (fuel + 1) frame encrypt c
      = catchStd (dispatchFrame (gDispatch emit p (consumeFrame emit p fuel)) emit p
          (firstWord data) data) (fun _ => pure ()) (c.consuming frame encrypt) := by
  have hemsg : readEmsg data = .ok (firstWord data) := if_pos hdata
  rw [consumeFrame_long hlen, hreceived]
  show (Calls.lift (readEmsg data) >>= fun emsg =>
    catchStd (dispatchFrame (gDispatch emit p (consumeFrame emit p fuel)) emit p emsg data)
      fun _ => pure () : Calling C E Unit) _ = _
  rw [hemsg]
  rfl

/-- One call of `consume_frame`, whose batch is consumed by `hrest`. -/
theorem consumeFrame_step (hemit : Emits p Src emit)
    (hsrc : ∀ data, c.received p frame encrypt = .ok data → Src data)
    (hrest : ∀ data sub, c.received p frame encrypt = .ok data → SubFrame p data sub →
      Follows p Src (consumeFrame emit p fuel sub false)) :
    ReflTransGen (Channel.Step p Src) c.channel
      (Calls.after (consumeFrame emit p (fuel + 1) frame encrypt c)).channel := by
  by_cases hlen : frame.length < 4
  · rw [consumeFrame_short hlen]
    exact .refl
  · have hplain : (encrypt && c.channelSecured) = false → c.received p frame encrypt = .ok frame := by
      intro hclear
      rw [CMClient.received, hclear]
      rfl
    by_cases hraw : (encrypt && c.channelSecured) = false ∧ ∃ packet, IsRaw frame packet
    · -- a raw packet in the clear is dispatched in the same step
      obtain ⟨hclear, packet, hencryption, hpacket⟩ := hraw
      obtain ⟨-, hpayload, hoffset, -⟩ := PacketMsg.make_eq_ok hpacket
      rw [consumeFrame_dispatched hlen (hplain hclear) (by omega), after_swallow]
      obtain ⟨es, b, hdispatched, hrun⟩ := dispatchMsg_run (consumeFrame emit p fuel) hemit
        hoffset (c.consuming frame encrypt)
      have hpacketSrc : Src packet.payload := by
        rw [hpayload]
        exact hsrc frame (hplain hclear)
      refine .head (.rawFrame hpacketSrc hclear ⟨hencryption, hpacket⟩ hdispatched) ?_
      rw [dispatchFrame, if_pos hencryption, hpacket, List.append_cons]
      exact hrun
    · have hstep : Channel.Step p Src c.channel (c.consuming frame encrypt).channel :=
        .frame fun hclear packet hpacket => hraw ⟨hclear, packet, hpacket⟩
      refine .head hstep ?_
      cases hreceived : c.received p frame encrypt with
      | error fault =>
        rw [consumeFrame_rejected hlen hreceived]
        exact .refl
      | ok data =>
        by_cases hdata : data.length < 4
        · rw [consumeFrame_overrun hlen hreceived hdata]
          exact .refl
        · rw [consumeFrame_dispatched hlen hreceived (by omega), after_swallow]
          exact follows_dispatchFrame hemit (hsrc data hreceived)
            (fun sub => hrest data sub hreceived) (c.consuming frame encrypt)

/-- A frame of a batch, and the batches in it. -/
theorem follows_consumeFrame (hemit : Emits p Src emit) (hclosed : Closed p Src) (fuel : Nat) :
    ∀ frame, Src frame → Follows p Src (consumeFrame emit p fuel frame false : Calling C E Unit) := by
  induction fuel with
  | zero => exact fun frame _ => Calls.refines_throw _
  | succ fuel ih =>
    intro frame hframe c
    have hreceived : c.received p frame false = .ok frame := rfl
    refine consumeFrame_step hemit ?_ ?_
    · intro data hdata
      rw [← Except.ok.inj (hreceived.symm.trans hdata)]
      exact hframe
    · intro data sub hdata hsub
      obtain rfl : frame = data := Except.ok.inj (hreceived.symm.trans hdata)
      exact ih sub (hclosed frame sub hframe hsub)

/-- **Frames**: whatever `consume_frame` dispatches comes from the buffer it reads. -/
theorem consumeFrame_run (hemit : Emits p Src emit) (hclosed : Closed p Src) (fuel : Nat)
    (hsrc : ∀ data, c.received p frame encrypt = .ok data → Src data) :
    ReflTransGen (Channel.Step p Src) c.channel
      (Calls.after (consumeFrame emit p fuel frame encrypt c)).channel := by
  cases fuel with
  | zero => exact .refl
  | succ fuel =>
    refine consumeFrame_step hemit hsrc ?_
    intro data sub hdata hsub
    exact follows_consumeFrame hemit hclosed fuel sub (hclosed data sub (hsrc data hdata) hsub)

end

/-! ## Systems

  Between the calls of the client the transport moves, and the frame handler is called from there.
  `step_cases` says what an act can be, and `everyState_of_channel` turns a property that the
  steps of the channel keep into one of whole runs. -/

section
variable [Transport C E M] {fuel : Nat} {frame : Bytes} {c c' : CMClient C E}

/-- A call that returned gives no exception. -/
theorem attempt_ok {x : Calling C E Unit} (h : x c = .ok () c') : attempt x c = .ok none c' :=
  catchStd_ok (Calls.bind_ok h)

/-- The exception of a call, as a value. -/
theorem attempt_throws {x : Calling C E Unit} {e : Exn} (h : x c = .error (.throws e) c') :
    attempt x c = .ok (some e) c' :=
  catchStd_throws (Calls.bind_error h)

/-- The transport goes on behind a frame that was consumed. -/
theorem onFrame_ok (h : consumeFrame (emit p fuel) p fuel frame true c = .ok () c') :
    onFrame p fuel frame c
      = .ok () { c' with connection := Transport.frameReturned c'.connection } := by
  rw [onFrame, Calls.bind_ok (attempt_ok h)]
  rfl

/-- An exception goes through the transport. -/
theorem onFrame_throws {e : Exn}
    (h : consumeFrame (emit p fuel) p fuel frame true c = .error (.throws e) c') :
    onFrame p fuel frame c = .error (.throws e)
      { c' with connection := Transport.frameRaised c'.connection } := by
  rw [onFrame, Calls.bind_ok (attempt_throws h)]
  rfl

/-- Behind the handler of a frame the client is as `consume_frame` left it, and the transport has
    moved on at most. -/
theorem after_onFrame (p : Platform) (fuel : Nat) (frame : Bytes) (c : CMClient C E) :
    ∃ k, Calls.after (onFrame p fuel frame c) =
        { Calls.after (consumeFrame (emit p fuel) p fuel frame true c) with connection := k } ∧
      (k = Transport.frameReturned
          (Calls.after (consumeFrame (emit p fuel) p fuel frame true c)).connection ∨
       k = Transport.frameRaised
          (Calls.after (consumeFrame (emit p fuel) p fuel frame true c)).connection ∨
       k = (Calls.after (consumeFrame (emit p fuel) p fuel frame true c)).connection) := by
  cases h : consumeFrame (emit p fuel) p fuel frame true c with
  | ok u c' =>
    rw [onFrame_ok h]
    exact ⟨_, rfl, .inl rfl⟩
  | error fault c' =>
    cases fault with
    | throws e =>
      rw [onFrame_throws h]
      exact ⟨_, rfl, .inr (.inl rfl)⟩
    | undefined =>
      rw [onFrame, attempt, Calls.bind_error (catchStd_undefined (Calls.bind_error h))]
      exact ⟨_, rfl, .inr (.inr rfl)⟩
    | diverges =>
      rw [onFrame, attempt, Calls.bind_error (catchStd_diverges (Calls.bind_error h))]
      exact ⟨_, rfl, .inr (.inr rfl)⟩

/-- **Each act is a run of the channel**, between the moves of the transport: a call of the user; or
    a move that delivers nothing; or one that delivers a frame. -/
theorem step_cases {s s' : System C E} {a : Act E M} (h : step p fuel s a = some s') :
    ((∀ m, a ≠ .transport m) ∧
      ReflTransGen (Channel.Step p fun _ => True) s.client.channel s'.client.channel) ∨
    (∃ m k, a = .transport m ∧ Transport.move s.client.connection m = some (k, none) ∧
      s'.client = { s.client with connection := k }) ∨
    (∃ m k frame ch k', a = .transport m ∧
      Transport.move s.client.connection m = some (k, some frame) ∧
      ReflTransGen (Channel.Step p fun _ => True)
        ⟨s.client.channelSecured, s.client.log, k⟩ ch ∧
      (k' = Transport.frameReturned ch.connection ∨ k' = Transport.frameRaised ch.connection ∨
        k' = ch.connection) ∧
      s'.client.channel = { ch with connection := k' }) := by
  unfold step at h
  split at h
  · cases h
  · cases a with
    | startSession net =>
      cases h
      rw [client_settle]
      exact .inl ⟨fun m hm => (by cases hm), follows_startSession net _⟩
    | shutdown =>
      cases h
      rw [client_settle]
      exact .inl ⟨fun m hm => (by cases hm), follows_shutdown _⟩
    | on type callback =>
      cases h
      rw [client_settle]
      exact .inl ⟨fun m hm => (by cases hm), follows_on type callback _⟩
    | execute command =>
      cases h
      rw [client_settle]
      exact .inl ⟨fun m hm => (by cases hm), follows_execute (emits_emit p _ fuel) command _⟩
    | transport m =>
      right
      dsimp only at h
      rcases hmove : Transport.move s.client.connection m with _ | ⟨k, _ | frame⟩
      · rw [hmove] at h
        cases h
      · rw [hmove] at h
        cases h
        exact .inl ⟨m, k, rfl, hmove, rfl⟩
      · rw [hmove] at h
        cases h
        obtain ⟨k', hafter, hk'⟩ := after_onFrame p fuel frame { s.client with connection := k }
        have hrun : ReflTransGen (Channel.Step p fun _ => True)
            { s.client with connection := k : CMClient C E }.channel
            (Calls.after (consumeFrame (emit p fuel) p fuel frame true
              { s.client with connection := k })).channel :=
          consumeFrame_run (emits_emit p (fun _ => True) fuel) (fun _ _ _ _ => trivial) fuel
            fun _ _ => trivial
        refine .inr ⟨m, k, frame, _, k', rfl, hmove, hrun, hk', ?_⟩
        rw [client_settle, hafter]
        rfl

/-- What the steps of the channel keep, a run of them keeps. -/
theorem keeps_run {I : Channel C → Prop}
    (hkeep : ∀ ch ch', I ch → Channel.Step p Src ch ch' → I ch') {ch ch' : Channel C} (h₀ : I ch)
    (hrun : ReflTransGen (Channel.Step p Src) ch ch') : I ch' := by
  induction hrun with
  | refl => exact h₀
  | tail _ hlast ih => exact hkeep _ _ ih hlast

variable (p fuel) in
/-- **The invariant rule for systems**: what the steps of the channel keep, and what does not speak
    of the connection, holds in every state of every run. -/
theorem everyState_of_channel {I : Channel C → Prop}
    (hkeep : ∀ ch ch', I ch → Channel.Step p (fun _ => True) ch ch' → I ch')
    (hmove : ∀ ch k, I ch → I { ch with connection := k }) {s : System C E}
    (h₀ : I s.client.channel) (acts : List (Act E M)) :
    Runs.EveryState (step p fuel) (fun s => I s.client.channel) s acts := by
  refine Runs.everyState_of_invariant (P := fun s : System C E => I s.client.channel) ?_ h₀ acts
  intro s a s' hI hstep
  rcases step_cases hstep with ⟨-, hrun⟩ | ⟨m, k, -, -, hs'⟩ |
    ⟨m, k, frame, ch, k', -, -, hrun, -, hs'⟩
  · exact keeps_run hkeep hI hrun
  · rw [hs']
    exact hmove _ k hI
  · rw [hs']
    exact hmove _ k' (keeps_run hkeep (hmove _ k hI) hrun)

end

end SteamMin.Client
