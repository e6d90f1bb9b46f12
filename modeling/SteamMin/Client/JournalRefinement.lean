/-
  EVERY CALL OF THE CLIENT IS A SEQUENCE OF TURNS.

  `CMClient.journal` forgets all of a client but the session key, the flag, the counter, the record
  and the listeners.  Seen through it, every function of the client is a run of turns, whether it
  returns, throws, or ends in undefined behaviour.  The order of the proofs is that of the code: what
  is sent, the calls of the user, the handlers, the dispatcher, frames, callbacks and events, and the
  acts of a system; so the record of a client is made of turns (`turns_run`).

  The point of each proof is where a turn ends.  `Amid` is a client in the middle of one, with what
  would complete it.  A turn without an event is complete when its last entry is recorded; a turn that
  ends in an event is complete when `emit` has recorded it, before the callback runs.  What steps the
  callback then takes is left open (`Shows`): all turns, for any listeners (`shows_emit`).
-/
import SteamMin.Client.Journal

namespace SteamMin.Client

open Messages Crypto
open Relation (ReflTransGen)

variable {C E M : Type}

/-- What the journal shows of a client. -/
def CMClient.journal (c : CMClient C E) : Journal E :=
  ⟨c.crypto.sessionKey, c.channelSecured, c.nextJobid, c.log, c.listeners⟩

/-- The call is a sequence of steps. -/
abbrev Journals (Step : Journal E → Journal E → Prop) {α : Type} (x : Calling C E α) : Prop :=
  Calls.Refines Step CMClient.journal x

variable {p : Platform} {Step : Journal E → Journal E → Prop}

/-! ## Turns, from their first entry to their last

  A turn is recorded entry by entry, and in between no state of the client shows a whole one.
  `Amid p j c R` carries the journal `j` from before the turn through it: what has been recorded
  since, and what is still missing (`R`).  The rules below take one entry off `R` at a time, or end
  the turn. -/

/-- Neither an event nor a command: the user takes no part. -/
def Entry.Unasked : Entry → Prop
  | .emitted _ | .executed _ _ => False
  | _ => True

/-- A turn without an event is a step, and so is a turn with one, with all that the callback does. -/
structure Shows (p : Platform) (Step : Journal E → Journal E → Prop)
    (emit : Event → Calling C E Unit) : Prop where
  quiet : ∀ {j : Journal E} {es : List Entry} {b : Bool} {n : UInt64}, (∀ e ∈ es, e.Unasked) →
    Turn p j.sessionKey j.secured j.nextJobid es b n → Step j (j.add es b n)
  event : ∀ {j : Journal E} {c : CMClient C E} {front : List Entry} {event : Event},
    (∀ e ∈ front, e.Unasked) → c.journal = j.add front c.channelSecured c.nextJobid →
    Turn p j.sessionKey j.secured j.nextJobid (front ++ [.emitted event]) c.channelSecured
      c.nextJobid →
    ReflTransGen Step j (Calls.after (emit event c)).journal

/-- The client is in the middle of a turn that began at `j`; what `R` admits completes it. -/
def Amid (p : Platform) (j : Journal E) (c : CMClient C E) (R : List Entry → Bool → Prop) : Prop :=
  ∃ front, (∀ e ∈ front, e.Unasked) ∧ c.journal = j.add front c.channelSecured c.nextJobid ∧
    ∀ es b, R es b → Turn p j.sessionKey j.secured j.nextJobid (front ++ es) b c.nextJobid

section
variable {j : Journal E} {c c' : CMClient C E} {R : List Entry → Bool → Prop}

/-- One more entry of the turn. -/
theorem Amid.record (h : Amid p j c R) (c' : CMClient C E) {e : Entry}
    (hc' : c'.journal = c.journal.add [e] c'.channelSecured c'.nextJobid)
    (hjobid : c'.nextJobid = c.nextJobid) (he : e.Unasked) :
    Amid p j c' fun es b => R (e :: es) b := by
  obtain ⟨front, hquiet, hc, hturn⟩ := h
  refine ⟨front ++ [e], ?_, ?_, ?_⟩
  · intro e' he'
    rcases List.mem_append.mp he' with hfront | hlast
    · exact hquiet e' hfront
    · rw [List.mem_singleton.mp hlast]
      exact he
  · rw [hc', hc, Journal.add_add]
  · intro es b hes
    rw [hjobid, ← List.append_cons]
    exact hturn (e :: es) b hes

/-- Nothing changes that the journal shows. -/
theorem Amid.congr (h : Amid p j c R) (hc' : c'.journal = c.journal) : Amid p j c' R := by
  obtain ⟨front, hquiet, hc, hturn⟩ := h
  obtain ⟨-, hsecured, hjobid, -, -⟩ := Journal.mk.inj hc'
  refine ⟨front, hquiet, ?_, ?_⟩
  · rw [hc', hc, hsecured, hjobid]
  · rw [hjobid]
    exact hturn

/-- What is known to complete the turn is enough. -/
theorem Amid.mono {R' : List Entry → Bool → Prop} (h : Amid p j c R) (hR : ∀ es b, R' es b → R es b) :
    Amid p j c R' := by
  obtain ⟨front, hquiet, hc, hturn⟩ := h
  exact ⟨front, hquiet, hc, fun es b hes => hturn es b (hR es b hes)⟩

variable {emit : Event → Calling C E Unit}

/-- The turn is complete as it is. -/
theorem Amid.complete (h : Amid p j c R) (hshows : Shows p Step emit) (hR : R [] c.channelSecured) :
    Step j c.journal := by
  obtain ⟨front, hquiet, hc, hturn⟩ := h
  have hcomplete := hturn [] c.channelSecured hR
  rw [List.append_nil] at hcomplete
  rw [hc]
  exact hshows.quiet hquiet hcomplete

/-- It is complete with one more entry. -/
theorem Amid.ends {e : Entry} (h : Amid p j c R) (hshows : Shows p Step emit)
    (hc' : c'.journal = c.journal.add [e] c'.channelSecured c'.nextJobid)
    (hjobid : c'.nextJobid = c.nextJobid) (he : e.Unasked)
    (hR : R [e] c'.channelSecured) : Step j c'.journal :=
  (h.record c' hc' hjobid he).complete hshows hR

/-- It is complete with an event. -/
theorem Amid.emits {event : Event} (h : Amid p j c R) (hshows : Shows p Step emit)
    (hR : R [.emitted event] c.channelSecured) :
    ReflTransGen Step j (Calls.after (emit event c)).journal := by
  obtain ⟨front, hquiet, hc, hturn⟩ := h
  exact hshows.event hquiet hc (hturn _ _ hR)

end

/-! ## Exceptions

  An exception is not a step of its own.  What was recorded before it stays, so the steps that were
  taken stay as well. -/

/-- Caught or not, the journal goes on from where the exception left it. -/
theorem journals_catchStd {α : Type} {x : Calling C E α} {handler : Exn → Calling C E α}
    (hx : Journals Step x) (hhandler : ∀ e, Journals Step (handler e)) :
    Journals Step (catchStd x handler) := by
  refine Calls.refines_tryCatch hx fun fault => ?_
  cases fault with
  | throws e => exact hhandler e
  | undefined => exact Calls.refines_throw _
  | diverges => exact Calls.refines_throw _

/-- The same for a call whose exception is kept as a value. -/
theorem journals_attempt {x : Calling C E Unit} (hx : Journals Step x) : Journals Step (attempt x) :=
  journals_catchStd (Calls.refines_bind hx fun _ => Calls.refines_pure _)
    fun _ => Calls.refines_pure _

/-! ## The session key

  Turns speak of a session key that never changes.  What writes to the encryption manager only
  draws on its pool, and what is received depends on the key and the flag alone. -/

/-- Drawing on the pool changes no key. -/
theorem keeps_drawing {α : Type} (x : EStateM Fault RandomPool α) :
    Calls.Keeps EncryptionManager.sessionKey (EncryptionManager.drawing x) := by
  apply Calls.keeps_zoom
  intro rng m
  rfl

/-- Nor does the answer to the challenge, which sends the key. -/
theorem keeps_generateEncryptionResponse (p : Platform) (packet : PacketMsg) :
    Calls.Keeps EncryptionManager.sessionKey
      (EncryptionManager.generateEncryptionResponse p packet) := by
  refine Calls.keeps_bind (Calls.keeps_lift _) fun challenge => ?_
  refine Calls.keeps_bind Calls.keeps_get fun m => ?_
  exact Calls.keeps_bind (keeps_drawing _) fun key => Calls.keeps_pure _

/-- The HMAC secret is no second secret. -/
theorem processOutgoing_eq (p : Platform) (message : Bytes) (m : EncryptionManager) :
    EncryptionManager.processOutgoingEncryptedMessage p message m
      = EncryptionManager.drawing (Helpers.symmetricEncryptHmacIv p.cryptoPP message m.sessionKey
          (m.sessionKey.take 16)) m := by
  rw [← m.hmacSecret_eq]
  rfl

/-- What is received depends on the key and the flag alone. -/
theorem received_eq (p : Platform) (c : CMClient C E) (frame : Bytes) (encrypt : Bool) :
    c.received p frame encrypt
      = receivedUnder p c.crypto.sessionKey c.channelSecured frame encrypt := by
  rw [CMClient.received, receivedUnder, EncryptionManager.processIncomingEncryptedMessage,
    c.crypto.hmacSecret_eq]

/-! ## Sending

  `send_msg_impl` records one entry, or none where there is no envelope.  A command has recorded
  its own entry before; the two together are the turn, also when serializing has failed in
  between. -/

section
variable [IConnection C E]

/-- A message is handed on, as it is or in its envelope; or there is no envelope for it. -/
theorem sendMsgImpl_journal (message : Bytes) (c : CMClient C E) :
    (∃ buffer c', sendMsgImpl p message c = .ok () c' ∧
      Carries p c.crypto.sessionKey c.channelSecured message buffer ∧
      c'.journal = c.journal.add [.handed message buffer c.channelSecured] c.channelSecured
        c.nextJobid) ∨
    (∃ c', sendMsgImpl p message c = .error .undefined c' ∧
      NoEnvelope p c.crypto.sessionKey c.channelSecured message ∧ c'.journal = c.journal) := by
  -- the buffer is the message, or its envelope on a secured channel, if there is one
  cases hsecured : c.channelSecured with
  | false =>
    have hout : outgoing p message c.channelSecured c = .ok message c := by
      rw [hsecured]
      rfl
    refine .inl ⟨message, _, sendMsgImpl_ok hout, rfl, ?_⟩
    rw [CMClient.journal, hsecured]
    rfl
  | true =>
    have hout : outgoing p message c.channelSecured c
        = onCrypto (EncryptionManager.processOutgoingEncryptedMessage p message) c := by
      rw [hsecured]
      rfl
    have heq := processOutgoing_eq p message c.crypto
    rw [EncryptionManager.drawing, Calls.zoom] at heq
    cases hseal : Helpers.symmetricEncryptHmacIv p.cryptoPP message c.crypto.sessionKey
        (c.crypto.sessionKey.take 16) c.crypto.rng with
    | ok buffer pool =>
      rw [hseal] at heq
      rw [onCrypto, Calls.zoom, heq] at hout
      refine .inl ⟨buffer, _, sendMsgImpl_ok hout, ⟨_, _, hseal⟩, ?_⟩
      rw [CMClient.journal, hsecured]
      rfl
    | error fault pool =>
      obtain rfl := Helpers.failsOnly_symmetricEncryptHmacIv _ _ _ _ _ _ _ hseal
      rw [hseal] at heq
      rw [onCrypto, Calls.zoom, heq] at hout
      exact .inr ⟨_, sendMsgImpl_error hout, ⟨rfl, _, _, _, hseal⟩, rfl⟩

/-- A command that has been recorded sends its message, if it has one. -/
theorem sendMsg_journal {serialized : Except Fault Bytes} {command : Command} {c c₁ : CMClient C E}
    (hc₁ : c₁.journal = c.journal.add [.executed command c.channelSecured] c.channelSecured
      (command.draws c.nextJobid))
    (hsends : c.channelSecured = true ∨ command.IsProductInfo)
    (hmessage : command.message p c.nextJobid = serialized) :
    ∃ es, Turn p c.crypto.sessionKey c.channelSecured c.nextJobid
        (.executed command c.channelSecured :: es) c.channelSecured (command.draws c.nextJobid) ∧
      (Calls.after (sendMsg p serialized c₁)).journal
        = c.journal.add (.executed command c.channelSecured :: es) c.channelSecured
            (command.draws c.nextJobid) := by
  obtain ⟨hkey, hsecured, hjobid, -, -⟩ := Journal.mk.inj hc₁
  cases serialized with
  | error fault => exact ⟨[], .unserialized hsends hmessage, hc₁⟩
  | ok message =>
    have hsend : sendMsg p (.ok message) c₁ = sendMsgImpl p message c₁ := rfl
    rw [hsend]
    rcases sendMsgImpl_journal (p := p) message c₁ with
      ⟨buffer, c', hrun, hbuffer, hc'⟩ | ⟨c', hrun, hbuffer, hc'⟩
    · rw [hkey, hsecured] at hbuffer
      refine ⟨_, .sent hsends hmessage hbuffer, ?_⟩
      rw [hrun]
      show c'.journal = _
      rw [hc', hc₁, Journal.add_add, hsecured, hjobid]
      rfl
    · rw [hkey, hsecured] at hbuffer
      refine ⟨[], .unsealed hmessage hbuffer, ?_⟩
      rw [hrun]
      show c'.journal = _
      rw [hc', hc₁]

/-- **A command that sends** is one turn, whoever listens. -/
theorem execute_journal {command : Command} {c : CMClient C E} (emit : Event → Calling C E Unit)
    (hsends : c.channelSecured = true ∨ command.IsProductInfo) :
    ∃ es, Turn p c.crypto.sessionKey c.channelSecured c.nextJobid
        (.executed command c.channelSecured :: es) c.channelSecured (command.draws c.nextJobid) ∧
      (Calls.after (execute p emit command c)).journal
        = c.journal.add (.executed command c.channelSecured :: es) c.channelSecured
            (command.draws c.nextJobid) := by
  cases command with
  | anonymousLogin =>
    rcases hsends with hsecured | hproduct
    · have hsecured' : (c.executing .anonymousLogin).channelSecured = true := hsecured
      have hexec : execute p emit .anonymousLogin c
          = execAnonLogon p emit (c.executing .anonymousLogin) := rfl
      rw [hexec, execAnonLogon_secured hsecured']
      exact sendMsg_journal rfl (.inl hsecured) rfl
    · exact absurd hproduct id
  | clientLogoff =>
    rcases hsends with hsecured | hproduct
    · have hsecured' : (c.executing .clientLogoff).channelSecured = true := hsecured
      have hexec : execute p emit .clientLogoff c
          = execLogoff p (c.executing .clientLogoff) := rfl
      rw [hexec, execLogoff_secured hsecured']
      exact sendMsg_journal rfl (.inl hsecured) rfl
    · exact absurd hproduct id
  | getProductInfo id steamid clientSessionid appToken =>
    have hexec : execute p emit (.getProductInfo id steamid clientSessionid appToken) c
        = sendMsg p ((productInfoRequest id steamid clientSessionid appToken c.nextJobid).serialize
            p.protobuf.header p.protobuf.productInfoRequest)
          { c.executing (.getProductInfo id steamid clientSessionid appToken) with
            nextJobid := c.nextJobid + 1 } := rfl
    rw [hexec]
    exact sendMsg_journal rfl (.inr trivial) rfl

end

/-! ## Sessions -/

section
variable [IConnection C E] {emit : Event → Calling C E Unit}

/-- Starting a session is one turn; the entry of a session that begins stands behind that of the
    call. -/
theorem journals_startSession (hshows : Shows p Step emit) (net : E) :
    Journals Step (startSession net : Calling C E Unit) := by
  intro c
  have hcalled : Step c.journal c.starting.journal := by
    refine hshows.quiet ?_ .startCalled
    simp [Entry.Unasked]
  rw [startSession, record, Calls.modify_bind, Calls.get_bind]
  dsimp only
  cases hnet : IConnection.networkConnect net (IConnection.setOnFrame c.connection) with
  | error e connection => exact .single hcalled
  | ok u connection =>
    by_cases hstate : IConnection.state c.connection = .disconnected
    · rw [if_pos hstate]
      refine .single ?_
      have hstarted : Step c.journal
          (c.journal.add [.startCalled, .started c.channelSecured] c.channelSecured c.nextJobid) := by
        refine hshows.quiet ?_ .started
        simp [Entry.Unasked]
      have hboth := Journal.add_add c.journal [.startCalled] [.started c.channelSecured]
        c.channelSecured c.channelSecured c.nextJobid c.nextJobid
      rw [List.singleton_append] at hboth
      rw [← hboth] at hstarted
      exact hstarted
    · rw [if_neg hstate]
      exact .single hcalled

/-- Closing is one turn. -/
theorem journals_shutdown (hshows : Shows p Step emit) :
    Journals Step (shutdown : Calling C E Unit) := by
  intro c
  have hcalled : Step c.journal
      (c.journal.add [.shutdownCalled] c.channelSecured c.nextJobid) := by
    refine hshows.quiet ?_ .shutdownCalled
    simp [Entry.Unasked]
  refine .trans (.single hcalled) ?_
  show ReflTransGen _ _ (CMClient.journal (if IConnection.isConnected c.connection then _ else _))
  split
  · exact .refl
  · exact .refl

end

/-! ## The handlers

  A packet is the first entry of what a frame brings about, so the handlers run amid the turn of
  their frame.  A handler that emits ends the turn with its event; what the listeners do is behind
  it. -/

section
variable [IConnection C E] {emit : Event → Calling C E Unit} {j : Journal E}

/-- The client behind the first line of `dispatch_proto`. -/
def CMClient.dispatchingProto (c : CMClient C E) (packet : PacketClientMsgProtobuf) : CMClient C E :=
  { c with log := c.log ++ [.dispatchedProto packet] }

/-- The verdict of the peer goes into the flag, then out as an event. -/
theorem handleEncryptResult_journal (hshows : Shows p Step emit) {packet : PacketMsg}
    {c : CMClient C E} (htype : packet.msgType = EMsg.channelEncryptResult)
    (hamid : Amid p j c (RawReaction p c.crypto.sessionKey c.channelSecured packet)) :
    ReflTransGen Step j (Calls.after (handleEncryptResult emit packet c)).journal := by
  cases hres : (Msg.ofPacket (.raw packet) : Except Fault (Msg MsgChannelEncryptResult)) with
  | error f =>
    have hverdict : verdict packet = none := by
      rw [verdict, hres]
    rw [handleEncryptResult, hres]
    exact .single (hamid.complete hshows (.unreadable htype hverdict))
  | ok res =>
    have hverdict : verdict packet = some (res.body.result = EResult.ok : Bool) := by
      rw [verdict, hres]
    have hset := hamid.record { c with
      log := c.log ++ [.securedSet (res.body.result = EResult.ok) c.channelSecured
        (IConnection.isConnected c.connection)]
      channelSecured := res.body.result = EResult.ok } rfl rfl trivial
    rw [handleEncryptResult, hres]
    exact hset.emits hshows (.result htype hverdict)

/-- A request is answered, or refused. -/
theorem handleEncryptRequest_journal (hshows : Shows p Step emit) {packet : PacketMsg}
    {c : CMClient C E} (htype : packet.msgType = EMsg.channelEncryptRequest)
    (hoffset : packet.bodyOffset = 20)
    (hamid : Amid p j c (RawReaction p c.crypto.sessionKey c.channelSecured packet)) :
    ReflTransGen Step j (Calls.after (handleEncryptRequest emit p packet c)).journal := by
  have hkeeps := keeps_generateEncryptionResponse p packet c.crypto
  cases hgen : EncryptionManager.generateEncryptionResponse p packet c.crypto with
  | error f crypto =>
    obtain ⟨e, rfl⟩ :=
      EncryptionManager.failsOnly_generateEncryptionResponse p hoffset _ _ _ hgen
    have hcall : onCrypto (EncryptionManager.generateEncryptionResponse p packet) c
        = .error (.throws e) { c with crypto } := by
      rw [onCrypto, Calls.zoom, hgen]
    have hkey : crypto.sessionKey = c.crypto.sessionKey := by
      rw [hgen] at hkeeps
      exact hkeeps
    have hsame : ({ c with crypto } : CMClient C E).journal = c.journal := by
      rw [CMClient.journal, CMClient.journal, hkey]
    rw [handleEncryptRequest, catchStd_throws (Calls.bind_error hcall)]
    exact (hamid.congr hsame).emits hshows (.declined htype rfl hgen)
  | ok response crypto =>
    have hcall : onCrypto (EncryptionManager.generateEncryptionResponse p packet) c
        = .ok response { c with crypto } := by
      rw [onCrypto, Calls.zoom, hgen]
    have hkey : crypto.sessionKey = c.crypto.sessionKey := by
      rw [hgen] at hkeeps
      exact hkeeps
    have hsame : ({ c with crypto } : CMClient C E).journal = c.journal := by
      rw [CMClient.journal, CMClient.journal, hkey]
    obtain ⟨message, hmessage⟩ : ∃ message, response.serialize = .ok message :=
      ⟨_, Msg.serialize_eq response.body.appends_serialize⟩
    have hsend : sendMsg p response.serialize { c with crypto }
        = sendMsgImpl p message { c with crypto } := by
      rw [hmessage]
      rfl
    have hbehind := hamid.congr hsame
    rcases sendMsgImpl_journal (p := p) message { c with crypto } with
      ⟨buffer, c', hrun, hbuffer, hc'⟩ | ⟨c', hrun, hbuffer, hc'⟩
    · obtain ⟨-, hsecured', hjobid', -, -⟩ := Journal.mk.inj hc'
      rw [show ({ c with crypto } : CMClient C E).crypto.sessionKey = c.crypto.sessionKey
        from hkey] at hbuffer
      rw [handleEncryptRequest, catchStd_ok ((Calls.bind_ok hcall).trans (hsend.trans hrun))]
      show ReflTransGen Step j c'.journal
      have hc'' : c'.journal = ({ c with crypto } : CMClient C E).journal.add
          [.handed message buffer c.channelSecured] c'.channelSecured c'.nextJobid := by
        rw [hsecured', hjobid']
        exact hc'
      refine .single (hbehind.ends hshows hc'' hjobid' trivial ?_)
      rw [hsecured']
      exact .answered htype rfl hgen hmessage hbuffer
    · rw [show ({ c with crypto } : CMClient C E).crypto.sessionKey = c.crypto.sessionKey
        from hkey] at hbuffer
      obtain ⟨-, hsecured', -, -, -⟩ := Journal.mk.inj hc'
      rw [handleEncryptRequest,
        catchStd_undefined ((Calls.bind_ok hcall).trans (hsend.trans hrun))]
      show ReflTransGen Step j c'.journal
      refine .single ((hbehind.congr hc').complete hshows ?_)
      rw [hsecured']
      exact .unanswered htype rfl hgen hmessage hbuffer

variable {consumeFrame : Bytes → Bool → Calling C E Unit}

omit [IConnection C E] in
/-- The loop of a batch is one sequence of steps after the other. -/
theorem journals_multiLoop (payload : Bytes)
    (hconsume : ∀ frame, Journals Step (consumeFrame frame false)) (fuel : Nat) :
    ∀ offset, Journals Step (multiLoop consumeFrame payload fuel offset) := by
  induction fuel with
  | zero => exact fun offset => Calls.refines_throw _
  | succ fuel ih =>
    intro offset
    rw [multiLoop]
    cases readFrame payload offset with
    | none => exact Calls.refines_pure _
    | some next => exact Calls.refines_bind (hconsume _) fun _ => ih next.2

omit [IConnection C E] in
/-- A batch is the turns of its frames, one behind the other. -/
theorem journals_handleMulti (packet : PacketClientMsgProtobuf)
    (hconsume : ∀ frame, Journals Step (consumeFrame frame false)) :
    Journals Step (handleMulti p consumeFrame packet) := by
  rw [handleMulti_eq]
  exact Calls.refines_bind (Calls.refines_lift _) fun payload =>
    journals_multiLoop payload hconsume _ 0

/-! ## The dispatcher

  Which reactions a packet can have is seen from its type.  The cases here are those of the tables:
  no slot, no handler, or one of the handlers above. -/

/-- What runs behind the first line of `dispatch_proto`. -/
theorem dispatchProto_eq {packet : PacketClientMsgProtobuf} (c : CMClient C E) :
    dispatchProto (gDispatch emit p consumeFrame) emit packet c
      = (if (getMsg packet.msgType).toNat ≤ MAX_EMSG then do
           match ← Calls.lift (slot (gDispatch emit p consumeFrame).proto
               (getMsg packet.msgType).toNat) with
           | some fn => fn packet
           | none => emit (.msgNotImplemented (getMsg packet.msgType) (.proto packet))
         else pure () : Calling C E Unit) (c.dispatchingProto packet) := rfl

/-- A protobuf packet with an entry is handed to it. -/
theorem dispatchProto_of_handler {packet : PacketClientMsgProtobuf}
    {fn : PacketClientMsgProtobuf → Calling C E Unit}
    (hid : (getMsg packet.msgType).toNat < MAX_EMSG)
    (hfn : (gDispatch emit p consumeFrame).proto (getMsg packet.msgType).toNat = some fn)
    (c : CMClient C E) :
    dispatchProto (gDispatch emit p consumeFrame) emit packet c
      = fn packet (c.dispatchingProto packet) := by
  have hle : (getMsg packet.msgType).toNat ≤ MAX_EMSG := by omega
  rw [dispatchProto_eq, if_pos hle, slot, if_pos hid, hfn]
  rfl

/-- Without an entry the event of the unknown message is emitted. -/
theorem dispatchProto_of_none {packet : PacketClientMsgProtobuf}
    (hid : (getMsg packet.msgType).toNat < MAX_EMSG)
    (hfn : (gDispatch emit p consumeFrame).proto (getMsg packet.msgType).toNat = none)
    (c : CMClient C E) :
    dispatchProto (gDispatch emit p consumeFrame) emit packet c
      = emit (.msgNotImplemented (getMsg packet.msgType) (.proto packet))
          (c.dispatchingProto packet) := by
  have hle : (getMsg packet.msgType).toNat ≤ MAX_EMSG := by omega
  rw [dispatchProto_eq, if_pos hle, slot, if_pos hid, hfn]
  rfl

/-- A type with no slot, or with a slot behind the last one: nothing is recorded. -/
theorem after_dispatchProto_of_ge {packet : PacketClientMsgProtobuf}
    (hid : MAX_EMSG ≤ (getMsg packet.msgType).toNat) (c : CMClient C E) :
    Calls.after (dispatchProto (gDispatch emit p consumeFrame) emit packet c)
      = c.dispatchingProto packet := by
  rw [dispatchProto_eq]
  by_cases hle : (getMsg packet.msgType).toNat ≤ MAX_EMSG
  · have hslot : slot (gDispatch emit p consumeFrame).proto (getMsg packet.msgType).toNat
        = .error .undefined := if_neg (by omega)
    rw [if_pos hle, hslot]
    rfl
  · rw [if_neg hle]
    rfl

/-- A protobuf packet: its event completes the turn, and a batch has its turns behind it. -/
theorem dispatchProto_journal (hshows : Shows p Step emit)
    (hconsume : ∀ frame, Journals Step (consumeFrame frame false))
    {packet : PacketClientMsgProtobuf} {c : CMClient C E}
    (hamid : Amid p j c fun es b =>
      es = .dispatchedProto packet :: protoReaction p packet ∧ b = c.channelSecured) :
    ReflTransGen Step j
      (Calls.after (dispatchProto (gDispatch emit p consumeFrame) emit packet c)).journal := by
  have htable := gDispatch_proto p emit consumeFrame (getMsg packet.msgType)
  have hdispatched : Amid p j (c.dispatchingProto packet) fun es b =>
      es = protoReaction p packet ∧ b = c.channelSecured := by
    refine (hamid.record (c.dispatchingProto packet) rfl rfl trivial).mono ?_
    rintro es b ⟨rfl, rfl⟩
    exact ⟨rfl, rfl⟩
  unfold protoReaction at hdispatched
  dsimp only at hdispatched
  -- by the slot: behind the table, a batch, the two handlers, or none
  by_cases hid : MAX_EMSG ≤ (getMsg packet.msgType).toNat
  · rw [if_pos (by simp [hid])] at hdispatched
    rw [after_dispatchProto_of_ge hid]
    exact .single (hdispatched.complete hshows ⟨rfl, rfl⟩)
  · have hlt : (getMsg packet.msgType).toNat < MAX_EMSG := by omega
    by_cases hmulti : getMsg packet.msgType = EMsg.multi
    · rw [if_pos hmulti] at htable
      rw [if_pos (by simp [hmulti])] at hdispatched
      rw [dispatchProto_of_handler hlt htable]
      exact .head (hdispatched.complete hshows ⟨rfl, rfl⟩)
        (journals_handleMulti packet hconsume (c.dispatchingProto packet))
    · rw [if_neg hmulti] at htable
      rw [if_neg (by simp [hid, hmulti])] at hdispatched
      by_cases hlogon : getMsg packet.msgType = EMsg.clientLogOnResponse
      · rw [if_pos hlogon] at htable hdispatched
        rw [dispatchProto_of_handler hlt htable, handleLogonResponse_eq Prod.mk.eta.symm]
        exact hdispatched.emits hshows ⟨rfl, rfl⟩
      · rw [if_neg hlogon] at htable hdispatched
        by_cases hinfo : getMsg packet.msgType = EMsg.clientPICSProductInfoResponse
        · rw [if_pos hinfo] at htable hdispatched
          rw [dispatchProto_of_handler hlt htable]
          cases hentries : parseEntries (responseBody p packet) with
          | error fault =>
            rw [hentries] at hdispatched
            rw [handleProdInfoResponse_error hentries]
            exact .single (hdispatched.complete hshows ⟨rfl, rfl⟩)
          | ok entries =>
            rw [hentries] at hdispatched
            rw [handleProdInfoResponse_ok hentries]
            exact hdispatched.emits hshows ⟨rfl, rfl⟩
        · rw [if_neg hinfo] at htable hdispatched
          rw [dispatchProto_of_none hlt htable]
          exact hdispatched.emits hshows ⟨rfl, rfl⟩

/-- A raw packet: the same, and the flag may be another one behind it. -/
theorem dispatchMsg_journal (hshows : Shows p Step emit) {packet : PacketMsg} {c : CMClient C E}
    (htype : isEncryptionMsg packet.msgType) (hoffset : packet.bodyOffset = 20)
    (hamid : Amid p j c fun es b => ∃ es', es = .dispatchedMsg packet :: es' ∧
      RawReaction p c.crypto.sessionKey c.channelSecured packet es' b) :
    ReflTransGen Step j
      (Calls.after (dispatchMsg (gDispatch emit p consumeFrame) emit packet c)).journal := by
  have htable := gDispatch_msg p emit consumeFrame packet.msgType
  have hdispatched : Amid p j (c.dispatching packet)
      (RawReaction p c.crypto.sessionKey c.channelSecured packet) :=
    (hamid.record (c.dispatching packet) rfl rfl trivial).mono
      fun es b hes => ⟨es, rfl, hes⟩
  have hid : packet.msgType.toNat < MAX_EMSG := lt_of_isEncryptionMsg htype
  by_cases hrequest : packet.msgType = EMsg.channelEncryptRequest
  · rw [if_pos hrequest] at htable
    rw [dispatchMsg_of_handler hid htable]
    exact handleEncryptRequest_journal hshows hrequest hoffset hdispatched
  · rw [if_neg hrequest] at htable
    by_cases hresult : packet.msgType = EMsg.channelEncryptResult
    · rw [if_pos hresult] at htable
      rw [dispatchMsg_of_handler hid htable]
      exact handleEncryptResult_journal hshows hresult hdispatched
    · rw [if_neg hresult] at htable
      -- the client's own message coming back has no handler
      have hresponse : packet.msgType = EMsg.channelEncryptResponse := by
        simpa [isEncryptionMsg, hrequest, hresult] using htype
      have hle : packet.msgType.toNat ≤ MAX_EMSG := by omega
      rw [dispatchMsg_eq, if_pos hle, slot, if_pos hid, htable]
      exact hdispatched.emits hshows (.unhandled hresponse)

/-! ## Frames

  A decoded buffer is a raw packet, a protobuf packet or neither, and no two of these at once
  (`IsRaw`, `IsProto`). -/

/-- Bytes that are no packet are not dispatched. -/
theorem after_dispatchFrame_ignored {data : Bytes} (hraw : ∀ packet, ¬ IsRaw data packet)
    (hproto : ∀ packet, ¬ IsProto p data packet) (c : CMClient C E) :
    Calls.after (dispatchFrame (gDispatch emit p consumeFrame) emit p (firstWord data) data c)
      = c := by
  rw [dispatchFrame]
  by_cases hencryption : isEncryptionMsg (firstWord data) = true
  · rw [if_pos hencryption]
    cases hmake : PacketMsg.make (firstWord data) data with
    | ok packet => exact absurd ⟨hencryption, hmake⟩ (hraw packet)
    | error fault => rfl
  · rw [if_neg hencryption]
    by_cases hmark : isProtobufMsg (firstWord data) = true
    · rw [if_pos hmark]
      cases hmake : PacketClientMsgProtobuf.make p.protobuf.header (firstWord data) data with
      | ok packet => exact absurd ⟨Bool.eq_false_iff.mpr hencryption, hmark, hmake⟩ (hproto packet)
      | error fault => rfl
    · rw [if_neg hmark]
      rfl

/-- A frame that is a raw packet is dispatched as one. -/
theorem dispatchFrame_of_raw {data : Bytes} {packet : PacketMsg} (h : IsRaw data packet)
    (c : CMClient C E) :
    dispatchFrame (gDispatch emit p consumeFrame) emit p (firstWord data) data c
      = dispatchMsg (gDispatch emit p consumeFrame) emit packet c := by
  rw [dispatchFrame, if_pos h.1, h.2]
  rfl

/-- A frame that is a protobuf packet is dispatched as one. -/
theorem dispatchFrame_of_proto {data : Bytes} {packet : PacketClientMsgProtobuf}
    (h : IsProto p data packet) (c : CMClient C E) :
    dispatchFrame (gDispatch emit p consumeFrame) emit p (firstWord data) data c
      = dispatchProto (gDispatch emit p consumeFrame) emit packet c := by
  obtain ⟨hencryption, hmark, hmake⟩ := h
  rw [dispatchFrame, if_neg (by rw [hencryption]; exact Bool.false_ne_true), if_pos hmark, hmake]
  rfl

/-- The turn of a frame is what its kind makes of it; a batch goes on with the turns of its
    frames. -/
theorem dispatchFrame_journal (hshows : Shows p Step emit)
    (hconsume : ∀ frame, Journals Step (consumeFrame frame false)) {data : Bytes} {c : CMClient C E}
    (hamid : Amid p j c (FrameReaction p c.crypto.sessionKey c.channelSecured (.ok data))) :
    ReflTransGen Step j (Calls.after (dispatchFrame (gDispatch emit p consumeFrame) emit p
      (firstWord data) data c)).journal := by
  by_cases hraw : ∃ packet, IsRaw data packet
  · obtain ⟨packet, hpacket⟩ := hraw
    obtain ⟨htype, -, hoffset, -⟩ := PacketMsg.make_eq_ok hpacket.2
    rw [dispatchFrame_of_raw hpacket]
    refine dispatchMsg_journal hshows (htype.symm ▸ hpacket.1) hoffset (hamid.mono ?_)
    rintro es b ⟨es', rfl, hreaction⟩
    exact .raw hpacket hreaction
  · by_cases hproto : ∃ packet, IsProto p data packet
    · obtain ⟨packet, hpacket⟩ := hproto
      rw [dispatchFrame_of_proto hpacket]
      refine dispatchProto_journal hshows hconsume (hamid.mono ?_)
      rintro es b ⟨rfl, rfl⟩
      exact .proto hpacket
    · have hnone := not_exists.mp hraw
      have hnone' := not_exists.mp hproto
      rw [after_dispatchFrame_ignored hnone hnone']
      exact .single (hamid.complete hshows (.ignored hnone hnone'))

end

/-! ## `consume_frame`

  By induction on the fuel, which is the depth of the batches.  The turn of a batch is complete
  before its first frame is looked at, so the frames of a batch have turns of their own. -/

section
variable [IConnection C E] {emit : Event → Calling C E Unit} {fuel : Nat} {frame : Bytes}
  {encrypt : Bool} {c : CMClient C E}

/-- One call of `consume_frame`, if those for the frames of a batch are sequences of steps. -/
theorem consumeFrame_journal (hshows : Shows p Step emit)
    (hrest : ∀ frame, Journals Step (consumeFrame emit p fuel frame false)) :
    ReflTransGen Step c.journal
      (Calls.after (consumeFrame emit p (fuel + 1) frame encrypt c)).journal := by
  by_cases hlen : frame.length < 4
  · rw [consumeFrame_short hlen]
    exact .refl
  · have hamid : Amid p c.journal (c.consuming frame encrypt)
        (FrameReaction p c.crypto.sessionKey c.channelSecured (c.received p frame encrypt)) := by
      refine ⟨[.consumed frame encrypt c.channelSecured], ?_, rfl, ?_⟩
      · simp [Entry.Unasked]
      · intro es b hreaction
        rw [received_eq] at hreaction
        exact .frame hreaction
    cases hreceived : c.received p frame encrypt with
    | error fault =>
      rw [hreceived] at hamid
      rw [consumeFrame_rejected hlen hreceived]
      exact .single (hamid.complete hshows .rejected)
    | ok data =>
      rw [hreceived] at hamid
      by_cases hdata : data.length < 4
      · rw [consumeFrame_overrun hlen hreceived hdata]
        -- data of less than a word is no packet of either kind
        refine .single (hamid.complete hshows (.ignored ?_ ?_))
        · intro packet hpacket
          have hlong := (PacketMsg.make_eq_ok hpacket.2).2.2.2
          omega
        · intro packet hpacket
          have hoffset := PacketClientMsgProtobuf.bodyOffset_of_make hpacket.2.2
          omega
      · rw [consumeFrame_dispatched hlen hreceived (by omega), after_swallow]
        exact dispatchFrame_journal hshows hrest hamid

/-- **Frames**: in batches of any depth. -/
theorem journals_consumeFrame (hshows : Shows p Step emit) (fuel : Nat) :
    ∀ frame encrypt, Journals Step (consumeFrame emit p fuel frame encrypt) := by
  induction fuel with
  | zero => exact fun frame encrypt => Calls.refines_throw _
  | succ fuel ih => exact fun frame encrypt c => consumeFrame_journal hshows fun frame => ih frame false

end

/-! ## Callbacks and events

  Two inductions, one in the other: on the fuel of `emit`, and for each amount of it on the script
  of the listener.  An event is recorded before its listener runs, so all that the listener does is
  behind the turn that has ended. -/

section
variable [IConnection C E] {emit : Event → Calling C E Unit}

/-- An emitter records its event before anything else, and goes on with turns. -/
def EmitsTurns (p : Platform) (emit : Event → Calling C E Unit) : Prop :=
  ∀ event c, ReflTransGen (Journal.Step p) (c.emitting event).journal
    (Calls.after (emit event c)).journal

omit [IConnection C E] in
/-- Emitting turns shows events as the frames need it. -/
theorem EmitsTurns.shows (h : EmitsTurns p emit) : Shows p (Journal.Step p) emit where
  quiet _ hturn := .turn hturn
  event := by
    intro j c front event _ hc hturn
    have hemitting : (c.emitting event).journal
        = j.add (front ++ [.emitted event]) c.channelSecured c.nextJobid := by
      rw [← Journal.add_add, ← hc]
      rfl
    have hrun := h event c
    rw [hemitting] at hrun
    exact .head (.turn hturn) hrun

omit [IConnection C E] in
/-- Registering is a turn of its own. -/
theorem journals_on (type : EventType) (callback : Listener E) :
    Journals (Journal.Step p) (on type callback : Calling C E Unit) :=
  Calls.refines_modify fun _ => .single (.on _)

/-- Every command is one turn, and what the listeners do if it is refused by an event. -/
theorem journals_execute (hemit : EmitsTurns p emit) (command : Command) :
    Journals (Journal.Step p) (execute p emit command) := by
  intro c
  by_cases hsends : c.channelSecured = true ∨ command.IsProductInfo
  · obtain ⟨es, hturn, hrun⟩ := execute_journal (p := p) emit hsends
    rw [hrun]
    exact .single (.turn hturn)
  · obtain ⟨hsecured, hcommand⟩ := not_or.mp hsends
    have hunsecured : c.channelSecured = false := Bool.eq_false_iff.mpr hsecured
    -- the refusal is recorded, and the event of a logon goes on with its listeners
    have hrefused : Turn p c.crypto.sessionKey c.channelSecured c.nextJobid
        (.executed command c.channelSecured :: command.refusal) c.channelSecured c.nextJobid := by
      rw [hunsecured]
      exact .refused hcommand
    cases command with
    | anonymousLogin =>
      have hexec : execute p emit .anonymousLogin c
          = execAnonLogon p emit (c.executing .anonymousLogin) := rfl
      have hstill : (c.executing .anonymousLogin).channelSecured = false := hunsecured
      rw [hexec, execAnonLogon_unsecured hstill]
      refine .head (.turn hrefused) ?_
      have hbehind : c.journal.add (.executed .anonymousLogin c.channelSecured ::
          Command.refusal .anonymousLogin) c.channelSecured c.nextJobid
          = ((c.executing .anonymousLogin).emitting
              (.clientLogon (.fail "Channel not secured") none none)).journal :=
        (Journal.add_add c.journal [_] [_] c.channelSecured _ c.nextJobid _).symm
      rw [hbehind]
      exact hemit _ (c.executing .anonymousLogin)
    | clientLogoff =>
      have hexec : execute p emit .clientLogoff c = execLogoff p (c.executing .clientLogoff) := rfl
      have hstill : (c.executing .clientLogoff).channelSecured = false := hunsecured
      rw [hexec, execLogoff_unsecured hstill]
      exact .single (.turn hrefused)
    | getProductInfo id steamid clientSessionid appToken => exact absurd trivial hcommand

/-- A listener is a sequence of turns, by induction on what it does. -/
theorem journals_runScript (hemit : EmitsTurns p emit) (script : Script E) :
    Journals (Journal.Step p) (runScript p emit script) := by
  induction script with
  | ret => exact Calls.refines_pure _
  | raise e => exact Calls.refines_throw _
  | startSession net next ih =>
    exact Calls.refines_bind (journals_attempt (journals_startSession hemit.shows net)) ih
  | shutdown next ih =>
    exact Calls.refines_bind (journals_shutdown hemit.shows) fun _ => ih
  | isConnected next ih => exact Calls.refines_get_bind fun c => ih _ c
  | execute command next ih =>
    exact Calls.refines_bind (journals_attempt (journals_execute hemit command)) ih
  | on type callback next _ ih => exact Calls.refines_bind (journals_on type callback) fun _ => ih

end

section
variable [IConnection C E]

/-- **Events**: the callback, and all that it calls, come in turns behind the event. -/
theorem emitsTurns_emit (p : Platform) (fuel : Nat) :
    EmitsTurns p (emit p fuel : Event → Calling C E Unit) := by
  induction fuel with
  | zero =>
    intro event c
    cases hlistener : c.listeners event.type with
    | none =>
      rw [emit_of_none hlistener]
      exact .refl
    | some callback =>
      rw [emit_zero_of_some hlistener]
      exact .refl
  | succ fuel ih =>
    intro event c
    cases hlistener : c.listeners event.type with
    | none =>
      rw [emit_of_none hlistener]
      exact .refl
    | some callback =>
      rw [emit_succ_of_some hlistener, after_swallow]
      exact journals_runScript ih _ (c.emitting event)

/-- The emitter of the client, with any fuel. -/
theorem shows_emit (p : Platform) (fuel : Nat) :
    Shows p (Journal.Step p) (emit p fuel : Event → Calling C E Unit) :=
  (emitsTurns_emit p fuel).shows

end

/-! ## Systems

  An act of a system is a call of the user, or a move of the transport that may deliver a frame.
  Either is a sequence of turns, and the first state has none. -/

/-- The user neither registers a listener nor executes a command. -/
def Act.Idle : Act E M → Prop
  | .on _ _ | .execute _ => False
  | _ => True

section
variable [Transport C E M] {fuel : Nat}

/-- **Acts**: the moves of the transport add nothing, unless they deliver a frame. -/
theorem step_idle (hshows : Shows p Step (emit p fuel : Event → Calling C E Unit))
    {s s' : System C E} {a : Act E M} (h : step p fuel s a = some s') (ha : a.Idle) :
    ReflTransGen Step s.client.journal s'.client.journal := by
  unfold step at h
  split at h
  · cases h
  · cases a with
    | startSession net =>
      cases h
      rw [client_settle]
      exact journals_startSession hshows net _
    | shutdown =>
      cases h
      rw [client_settle]
      exact journals_shutdown hshows _
    | on type callback => exact absurd ha id
    | execute command => exact absurd ha id
    | transport m =>
      dsimp only at h
      rcases hmove : Transport.move s.client.connection m with _ | ⟨k, _ | frame⟩
      · rw [hmove] at h
        cases h
      · rw [hmove] at h
        cases h
        exact .refl
      · rw [hmove] at h
        cases h
        -- what the transport does behind the callback is not in the journal
        obtain ⟨k', hafter, -⟩ := after_onFrame p fuel frame { s.client with connection := k }
        rw [client_settle, hafter]
        exact journals_consumeFrame hshows fuel frame true { s.client with connection := k }

/-- **Each act adds turns**, or a listener. -/
theorem step_journal {s s' : System C E} {a : Act E M} (h : step p fuel s a = some s') :
    ReflTransGen (Journal.Step p) s.client.journal s'.client.journal := by
  cases a with
  | startSession net => exact step_idle (shows_emit p fuel) h trivial
  | shutdown => exact step_idle (shows_emit p fuel) h trivial
  | transport m => exact step_idle (shows_emit p fuel) h trivial
  | on type callback =>
    unfold step at h
    split at h
    · cases h
    · cases h
      rw [client_settle]
      exact journals_on type callback _
  | execute command =>
    unfold step at h
    split at h
    · cases h
    · cases h
      rw [client_settle]
      exact journals_execute (emitsTurns_emit p fuel) command _

/-- A record of turns goes on as one, under the same key. -/
theorem Turns.run {key : Bytes} {j j' : Journal E} (h : Turns p key j.secured j.nextJobid j.log)
    (hkey : j.sessionKey = key) (hrun : ReflTransGen (Journal.Step p) j j') :
    Turns p key j'.secured j'.nextJobid j'.log ∧ j'.sessionKey = key := by
  induction hrun with
  | refl => exact ⟨h, hkey⟩
  | tail _ hlast ih =>
    obtain ⟨hturns, hkey'⟩ := ih
    cases hlast with
    | turn hturn =>
      rw [hkey'] at hturn
      exact ⟨hturns.snoc hturn, hkey'⟩
    | on listeners => exact ⟨hturns, hkey'⟩

/-- The client's record is made of turns, which account for its flag and its counter. -/
structure InTurns (p : Platform) (key : Bytes) (c : CMClient C E) : Prop where
  sessionKey : c.crypto.sessionKey = key
  turns : Turns p key c.channelSecured c.nextJobid c.log

/-- **The record is made of turns** in every state of every run of a new client, and the session key
    is the one it was made with. -/
theorem turns_run (p : Platform) (fuel : Nat) (connection : C) (crypto : EncryptionManager)
    (acts : List (Act E M)) :
    Runs.EveryState (step p fuel) (fun s => InTurns p crypto.sessionKey s.client)
      (System.initial connection crypto) acts := by
  refine Runs.everyState_of_invariant (P := fun s : System C E =>
    InTurns p crypto.sessionKey s.client) ?_ ⟨rfl, .nil⟩ acts
  intro s a s' hs hstep
  obtain ⟨hturns, hkey⟩ := Turns.run (j := s.client.journal) hs.turns hs.sessionKey
    (step_journal hstep)
  exact ⟨hkey, hturns⟩

end

end SteamMin.Client
