/-
  WHEN A CLIENT ENDS IN UNDEFINED BEHAVIOUR.

  The peer decides what a client reads, and a client reads past the end of an array in three places:
  in a frame that is decrypted to less than a word, in the slot behind the dispatch tables, and in the
  documents of a product info response, in a text that stops inside an entry or a package with less
  than its four bytes.

  `overrun_iff_run` says that these are all: in a run, with whatever frames, commands and callbacks,
  undefined behaviour comes exactly with an entry of the record that `Overruns`, and nothing is
  recorded behind it.  The peer reaches it with one frame of a header (`overrun_behindTable`).

  The invariant is a record without such an entry.  Each function of the client keeps it, or ends in
  undefined behaviour directly behind the one entry that breaks it (`Safe`).
-/
import SteamMin.Client.GetInfo
import SteamMin.Client.SecuredFrames
import SteamMin.Client.Nesting

namespace SteamMin.Client

open Messages Crypto
open Runs (EveryState)

variable {C E M : Type}

/-! ## Entries that are read too far

  The three places where a read leaves its buffer, each told by the entry that is recorded right
  before: the frame, the packet with the last message type, the packet with a document that is cut
  short. -/

/-- Of the documents of a response, the first that cannot be parsed is one its parser leaves. -/
def CutShort (m : CMsgClientPICSProductInfoResponse) : Prop :=
  (∃ pre app post, m.apps = pre ++ app :: post ∧ (∀ a ∈ pre, ∃ r, parseApp a = .ok r) ∧
    Vdf.CutText app.getBuffer.dropLast) ∨
  (∀ app ∈ m.apps, ∃ r, parseApp app = .ok r) ∧
    ∃ pre pkg post, m.packages = pre ++ pkg :: post ∧ (∀ a ∈ pre, ∃ r, parsePkg a = .ok r) ∧
      pkg.getBuffer.length < 4

/-- What was recorded of a frame or a packet that is read past an end. -/
def Overruns (p : Platform) (key : Bytes) : Entry → Prop
  | .consumed frame encrypt secured =>
    ∃ data, receivedUnder p key secured frame encrypt = .ok data ∧ data.length < 4
  | .dispatchedProto packet =>
    (getMsg packet.msgType).toNat = MAX_EMSG ∨
      getMsg packet.msgType = EMsg.clientPICSProductInfoResponse ∧ CutShort (responseBody p packet)
  | _ => False

/-- The text parser runs out of an app's buffer exactly when its text is cut inside an entry. -/
theorem parseApp_undefined_iff {app : ProductInfo} :
    parseApp app = .error .undefined ↔ Vdf.CutText app.getBuffer.dropLast := by
  constructor
  · intro h
    rcases Calls.except_bind_eq_error h with htext | ⟨vdf, -, h⟩
    · rcases Vdf.parseText_spec app.getBuffer.dropLast with ⟨es, hok, -⟩ | ⟨-, hcut⟩ | ⟨what, hthrows⟩
      · cases hok.symm.trans htext
      · exact hcut
      · cases hthrows.symm.trans htext
    · rcases Calls.except_bind_eq_error h with hinfo | ⟨appinfo, -, h⟩
      · cases asObject_error hinfo
      · cases h
  · intro hcut
    rw [parseApp, Vdf.parseText_cut hcut]
    rfl

/-- A package's buffer is overrun exactly when the four bytes to skip are not there. -/
theorem parsePkg_undefined_iff {pkg : ProductInfo} :
    parsePkg pkg = .error .undefined ↔ pkg.getBuffer.length < 4 := by
  constructor
  · intro h
    by_contra hlen
    obtain ⟨e, he⟩ := parsePkg_error (by omega) h
    cases he
  · exact parsePkg_short

/-- The two loops leave an array exactly there. -/
theorem parseEntries_undefined_iff {m : CMsgClientPICSProductInfoResponse} :
    parseEntries m = .error .undefined ↔ CutShort m := by
  rw [parseEntries_eq_error_iff, Calls.mapM_eq_error_iff, Calls.mapM_eq_error_iff, CutShort]
  simp only [parseApp_undefined_iff, parsePkg_undefined_iff]

/-! ## The record of a client that is safe

  `Safe` is an invariant with two ways out.  A call that returns or throws leaves a record without
  such an entry; one that ends in undefined behaviour leaves the entry as the last one. -/

section
variable (p : Platform) (key : Bytes)

/-- Nothing in the record is read too far. -/
def CMClient.Clean (c : CMClient C E) : Prop :=
  c.crypto.sessionKey = key ∧ ∀ e ∈ c.log, ¬ Overruns p key e

/-- How a call may leave a client when it fails: undefined behaviour has its entry, the last. -/
def CMClient.Ends (fault : Fault) (c : CMClient C E) : Prop :=
  if fault = .undefined then
    ∃ l e, c.log = l ++ [e] ∧ (∀ e' ∈ l, ¬ Overruns p key e') ∧ Overruns p key e
  else c.Clean p key

/-- The call keeps the record clean, or ends in undefined behaviour behind the entry that breaks it. -/
abbrev Safe {α : Type} (x : Calling C E α) : Prop :=
  Calls.Within (CMClient.Clean p key) (CMClient.Ends p key) x

end

section
variable {p : Platform} {key : Bytes} {c c' : CMClient C E}

/-- An exception leaves a clean record. -/
theorem CMClient.Clean.ends {fault : Fault} (h : c.Clean p key) (hfault : fault ≠ .undefined) :
    c.Ends p key fault := by
  rw [CMClient.Ends, if_neg hfault]
  exact h

/-- One more entry. -/
theorem CMClient.Clean.snoc {e : Entry} (h : c.Clean p key) (he : ¬ Overruns p key e)
    (hkey : c'.crypto.sessionKey = c.crypto.sessionKey) (hlog : c'.log = c.log ++ [e]) :
    c'.Clean p key := by
  refine ⟨hkey.trans h.1, fun e' he' => ?_⟩
  rw [hlog] at he'
  rcases List.mem_append.mp he' with hold | hnew
  · exact h.2 e' hold
  · rw [List.mem_singleton.mp hnew]
    exact he

/-- The entry that breaks it. -/
theorem CMClient.Clean.overrun {e : Entry} (h : c.Clean p key) (he : Overruns p key e)
    (hlog : c'.log = c.log ++ [e]) : c'.Ends p key .undefined := by
  rw [CMClient.Ends, if_pos rfl]
  exact ⟨c.log, e, hlog, h.2, he⟩

/-- Recording anything that is no overrun is safe. -/
theorem safe_record {e : Entry} (he : ¬ Overruns p key e) :
    Safe p key (record e : Calling C E Unit) :=
  Calls.within_modify fun _ hc => hc.snoc he rfl rfl

/-- Nothing changes of the keys and the record. -/
theorem safe_modify {f : CMClient C E → CMClient C E}
    (hkey : ∀ c, (f c).crypto.sessionKey = c.crypto.sessionKey) (hlog : ∀ c, (f c).log = c.log) :
    Safe p key (modify f : Calling C E Unit) := by
  refine Calls.within_modify fun c hc => ⟨(hkey c).trans hc.1, ?_⟩
  rw [hlog c]
  exact hc.2

/-- Throwing is safe. -/
theorem safe_throw {α : Type} {fault : Fault} (h : fault ≠ .undefined) :
    Safe p key (throw fault : Calling C E α) :=
  Calls.within_throw fun _ hc => hc.ends h

/-- A computation that can only throw, and what follows it. -/
theorem safe_lift_bind {α β : Type} {x : Except Fault α} {f : α → Calling C E β}
    (hx : ∀ fault, x = .error fault → ∃ e, fault = .throws e)
    (hf : ∀ a, x = .ok a → Safe p key (f a)) : Safe p key (Calls.lift x >>= f) := by
  refine Calls.within_lift_bind (fun fault hfault c hc => ?_) hf
  obtain ⟨e, rfl⟩ := hx fault hfault
  exact hc.ends (by simp)

/-- An exception is caught where the record is clean; undefined behaviour is not caught. -/
theorem safe_catchStd {α : Type} {x : Calling C E α} {handler : Exn → Calling C E α}
    (hx : Safe p key x) (hhandler : ∀ e, Safe p key (handler e)) :
    Safe p key (catchStd x handler) := by
  refine Calls.within_tryCatch hx fun fault => ?_
  cases fault with
  | throws e =>
    refine .inl ⟨fun c hc => ?_, hhandler e⟩
    rw [CMClient.Ends, if_neg (by simp)] at hc
    exact hc
  | undefined => exact .inr rfl
  | diverges => exact .inr rfl

/-- The same for a call whose exception is kept as a value. -/
theorem safe_attempt {x : Calling C E Unit} (hx : Safe p key x) : Safe p key (attempt x) :=
  safe_catchStd (Calls.within_bind hx fun _ => Calls.within_pure _) fun _ => Calls.within_pure _

/-- Registering is safe. -/
theorem safe_on (type : EventType) (callback : Listener E) :
    Safe p key (on type callback : Calling C E Unit) :=
  safe_modify (fun _ => rfl) fun _ => rfl

end

/-! ## The calls of the user

  None of them reads anything that the peer has sent. -/

section
variable [IConnection C E] {p : Platform} {key : Bytes}

/-- Starting a session is safe, whatever the network does. -/
theorem safe_startSession (net : E) : Safe p key (startSession net : Calling C E Unit) := by
  intro c hc
  have hcalled : c.starting.Clean p key := hc.snoc id rfl rfl
  rw [startSession, record, Calls.modify_bind, Calls.get_bind]
  dsimp only
  cases IConnection.networkConnect net (IConnection.setOnFrame c.connection) with
  | error e k =>
    have hfailed : CMClient.Clean p key { c.starting with connection := k } := hcalled
    exact hfailed.ends (by simp)
  | ok u k =>
    by_cases hstate : IConnection.state c.connection = .disconnected
    · rw [if_pos hstate]
      exact CMClient.Clean.snoc (e := .started c.channelSecured) hcalled id rfl rfl
    · rw [if_neg hstate]
      exact hcalled

/-- Closing is safe. -/
theorem safe_shutdown : Safe p key (shutdown : Calling C E Unit) := by
  refine Calls.within_bind (safe_record id) fun _ => safe_modify (fun c => ?_) fun c => ?_
  · split <;> rfl
  · split <;> rfl

/-- A message is handed on: there is an envelope for it. -/
theorem safe_sendMsgImpl (hc : p.cryptoPP.Lawful) (message : Bytes) :
    Safe p key (sendMsgImpl p message : Calling C E Unit) := by
  intro c hclean
  rcases sendMsgImpl_journal (p := p) message c with
    ⟨buffer, c', hrun, -, hc'⟩ | ⟨c', -, hno, -⟩
  · obtain ⟨hkey, -, -, hlog, -⟩ := Journal.mk.inj hc'
    rw [hrun]
    exact hclean.snoc (e := .handed message buffer c.channelSecured) id hkey hlog
  · exact absurd hno (not_noEnvelope hc c.crypto.sessionKey_length message)

/-- Sending is safe when serializing the message throws at worst. -/
theorem safe_sendMsg (hc : p.cryptoPP.Lawful) {serialized : Except Fault Bytes}
    (h : ∀ fault, serialized = .error fault → ∃ e, fault = .throws e) :
    Safe p key (sendMsg p serialized : Calling C E Unit) :=
  safe_lift_bind h fun buffer _ => safe_sendMsgImpl hc buffer

variable {emit : Event → Calling C E Unit}

/-- Every command is safe. -/
theorem safe_execute (hc : p.cryptoPP.Lawful) (hemit : ∀ event, Safe p key (emit event))
    (command : Command) : Safe p key (execute p emit command) := by
  refine Calls.within_bind Calls.within_get fun c => Calls.within_bind (safe_record id) fun _ => ?_
  cases command with
  | anonymousLogin =>
    refine Calls.within_bind Calls.within_get fun c => ?_
    split
    · exact hemit _
    · exact safe_sendMsg hc fun fault => MsgProto.serialize_throws
  | clientLogoff =>
    refine Calls.within_bind Calls.within_get fun c => ?_
    split
    · exact Calls.within_pure _
    · exact safe_sendMsg hc fun fault => MsgProto.serialize_throws
  | getProductInfo id steamid clientSessionid appToken =>
    have hjobid : Safe p key (generateJobid : Calling C E UInt64) := by
      refine Calls.within_bind Calls.within_get fun c => ?_
      exact Calls.within_bind (safe_modify (fun _ => rfl) fun _ => rfl) fun _ => Calls.within_pure _
    refine Calls.within_bind hjobid fun jobid => ?_
    exact safe_sendMsg hc fun fault => MsgProto.serialize_throws

/-- A listener is safe, by induction on what it does. -/
theorem safe_runScript (hc : p.cryptoPP.Lawful) (hemit : ∀ event, Safe p key (emit event))
    (script : Script E) : Safe p key (runScript p emit script) := by
  induction script with
  | ret => exact Calls.within_pure _
  | raise e => exact safe_throw (by simp)
  | startSession net next ih =>
    exact Calls.within_bind (safe_attempt (safe_startSession net)) ih
  | shutdown next ih => exact Calls.within_bind safe_shutdown fun _ => ih
  | isConnected next ih => exact Calls.within_bind Calls.within_get fun c => ih _
  | execute command next ih =>
    exact Calls.within_bind (safe_attempt (safe_execute hc hemit command)) ih
  | on type callback next _ ih => exact Calls.within_bind (safe_on type callback) fun _ => ih

/-- **Callbacks** are safe, however deep they nest. -/
theorem safe_emit (hc : p.cryptoPP.Lawful) (fuel : Nat) :
    ∀ event, Safe p key (Client.emit p fuel event : Calling C E Unit) := by
  induction fuel with
  | zero =>
    -- callbacks that call each other without end do not end in undefined behaviour here
    intro event
    unfold Client.emit
    refine Calls.within_bind (safe_record id) fun _ => Calls.within_bind Calls.within_get fun c => ?_
    split
    · exact Calls.within_pure _
    · exact safe_throw (by simp)
  | succ fuel ih =>
    intro event
    unfold Client.emit
    refine Calls.within_bind (safe_record id) fun _ => Calls.within_bind Calls.within_get fun c => ?_
    split
    · exact Calls.within_pure _
    · exact safe_catchStd (safe_runScript hc ih _) fun _ => Calls.within_pure _

/-! ## The handlers

  What the handlers of the handshake and of the logon read is checked by the stream or by
  protobuf.  The documents of a response are not, and the handler of product information is safe
  only because `Overruns` names them. -/

/-- The verdict is found behind the header, or an exception says that it is not there. -/
theorem ofPacket_result_throws {packet : PacketMsg} (hoffset : packet.bodyOffset = 20)
    {fault : Fault} (h : (Msg.ofPacket (.raw packet) : Except Fault (Msg MsgChannelEncryptResult))
      = .error fault) : ∃ e, fault = .throws e := by
  rw [Msg.ofPacket, hoffset] at h
  split at h
  · rename_i fault' s herror
    cases h
    rcases Calls.bind_eq_error herror with hread | ⟨result, s', -, hpure⟩
    · exact Stream.readInt32_only_throws (by omega) hread
    · cases hpure
  · cases h

/-- The handler of the result reads at the place a raw packet names, inside its payload or
    throws. -/
theorem safe_handleEncryptResult (hemit : ∀ event, Safe p key (emit event)) {packet : PacketMsg}
    (hoffset : packet.bodyOffset = 20) : Safe p key (handleEncryptResult emit packet) := by
  refine safe_lift_bind (fun fault => ofPacket_result_throws hoffset) fun res _ => ?_
  refine Calls.within_bind ?_ fun _ => hemit _
  refine Calls.within_bind Calls.within_get fun c => Calls.within_bind (safe_record id) fun _ => ?_
  exact safe_modify (fun _ => rfl) fun _ => rfl

/-- A request is answered or refused; what is drawn for the answer leaves the key alone. -/
theorem safe_handleEncryptRequest (hc : p.cryptoPP.Lawful)
    (hemit : ∀ event, Safe p key (emit event)) {packet : PacketMsg}
    (hoffset : packet.bodyOffset = 20) : Safe p key (handleEncryptRequest emit p packet) := by
  refine safe_catchStd ?_ fun e => hemit _
  refine Calls.within_bind ?_ fun response => ?_
  · intro c hclean
    have hkeeps := keeps_generateEncryptionResponse p packet c.crypto
    rw [onCrypto, Calls.zoom]
    cases hgen : EncryptionManager.generateEncryptionResponse p packet c.crypto with
    | ok response crypto =>
      rw [hgen] at hkeeps
      exact ⟨hkeeps.trans hclean.1, hclean.2⟩
    | error fault crypto =>
      rw [hgen] at hkeeps
      obtain ⟨e, rfl⟩ :=
        EncryptionManager.failsOnly_generateEncryptionResponse p hoffset _ _ _ hgen
      have hclean' : CMClient.Clean p key { c with crypto } := ⟨hkeeps.trans hclean.1, hclean.2⟩
      exact hclean'.ends (by simp)
  · refine safe_sendMsg hc fun fault hfault => ?_
    rw [Msg.serialize_eq response.body.appends_serialize] at hfault
    cases hfault

variable {consumeFrame : Bytes → Bool → Calling C E Unit}

omit [IConnection C E] in
/-- The documents are parsed, or one of them is refused by an exception. -/
theorem safe_handleProdInfoResponse (hemit : ∀ event, Safe p key (emit event))
    {packet : PacketClientMsgProtobuf} (hcut : ¬ CutShort (responseBody p packet)) :
    Safe p key (handleProdInfoResponse emit p packet) := by
  rw [handleProdInfoResponse_eq]
  refine safe_lift_bind (fun fault hfault => ?_) fun entries _ => hemit _
  cases fault with
  | throws e => exact ⟨e, rfl⟩
  | undefined => exact absurd (parseEntries_undefined_iff.mp hfault) hcut
  | diverges => exact absurd hfault (parseEntries_ne_diverges _)

omit [IConnection C E] in
/-- The loop over a batch is safe when its frames are. -/
theorem safe_multiLoop (hconsume : ∀ frame, Safe p key (consumeFrame frame false)) (payload : Bytes)
    (fuel : Nat) : ∀ offset, Safe p key (multiLoop consumeFrame payload fuel offset) := by
  induction fuel with
  | zero => exact fun offset => safe_throw (by simp)
  | succ fuel ih =>
    intro offset
    rw [multiLoop]
    cases readFrame payload offset with
    | none => exact Calls.within_pure _
    | some next => exact Calls.within_bind (hconsume _) fun _ => ih next.2

omit [IConnection C E] in
/-- A batch that is not unfolded is refused by an exception. -/
theorem multiPayload_throws {packet : PacketClientMsgProtobuf} {fault : Fault}
    (h : multiPayload p packet = .error fault) : ∃ e, fault = .throws e := by
  have hrun : (if 0 < (multiBody p packet).getSizeUnzipped then
      gzipDecompress p (multiBody p packet).getMessageBody
        (multiBody p packet).getSizeUnzipped.toNat
    else .ok (multiBody p packet).getMessageBody) = .error fault := h
  split at hrun
  · rw [gzipDecompress] at hrun
    split at hrun
    · cases hrun
    · cases hrun
      exact ⟨_, rfl⟩
  · cases hrun

omit [IConnection C E] in
/-- So the handler of a batch is safe when the frames in it are. -/
theorem safe_handleMulti (hconsume : ∀ frame, Safe p key (consumeFrame frame false))
    (packet : PacketClientMsgProtobuf) : Safe p key (handleMulti p consumeFrame packet) := by
  rw [handleMulti_eq]
  exact safe_lift_bind (fun fault => multiPayload_throws) fun payload _ =>
    safe_multiLoop hconsume payload _ 0

/-! ## The dispatcher

  Both dispatchers admit the index `MAX_EMSG`.  A raw packet cannot have it, as only three types
  are decoded as raw packets; a protobuf packet can. -/

/-- A raw packet comes out of a frame: its type has a slot. -/
theorem safe_dispatchMsg (hc : p.cryptoPP.Lawful) (hemit : ∀ event, Safe p key (emit event))
    {packet : PacketMsg} (htype : isEncryptionMsg packet.msgType) (hoffset : packet.bodyOffset = 20) :
    Safe p key (dispatchMsg (gDispatch emit p consumeFrame) emit packet) := by
  have hid : packet.msgType.toNat < MAX_EMSG := lt_of_isEncryptionMsg htype
  have hle : packet.msgType.toNat ≤ MAX_EMSG := by omega
  have htable := gDispatch_msg p emit consumeFrame packet.msgType
  refine Calls.within_bind (safe_record id) fun _ => ?_
  rw [if_pos hle, slot, if_pos hid, htable]
  split
  · exact safe_handleEncryptRequest hc hemit hoffset
  · split
    · exact safe_handleEncryptResult hemit hoffset
    · exact hemit _

/-- A packet that overruns ends the call, with its own entry the last. -/
theorem dispatchProto_overrun {packet : PacketClientMsgProtobuf}
    (h : Overruns p key (.dispatchedProto packet)) (c : CMClient C E) :
    dispatchProto (gDispatch emit p consumeFrame) emit packet c
      = .error .undefined (c.dispatchingProto packet) := by
  rcases h with hid | ⟨hinfo, hcut⟩
  -- the guard lets `MAX_EMSG` through, for which the table has no slot
  · have hslot : slot (gDispatch emit p consumeFrame).proto (getMsg packet.msgType).toNat
        = .error .undefined := if_neg (by omega)
    have hle : (getMsg packet.msgType).toNat ≤ MAX_EMSG := by omega
    rw [dispatchProto_eq, if_pos hle, hslot]
    rfl
  -- the table has one, and its handler reads past the end of a document
  · have htable := gDispatch_proto p emit consumeFrame (getMsg packet.msgType)
    have hid : (getMsg packet.msgType).toNat < MAX_EMSG := by
      rw [hinfo]
      decide
    rw [if_neg (by rw [hinfo]; decide), if_neg (by rw [hinfo]; decide), if_pos hinfo] at htable
    rw [dispatchProto_of_handler hid htable]
    exact handleProdInfoResponse_error (parseEntries_undefined_iff.mpr hcut) emit

/-- Any other packet is handled, refused by an exception, or has no handler. -/
theorem safe_dispatchProto (hemit : ∀ event, Safe p key (emit event))
    (hconsume : ∀ frame, Safe p key (consumeFrame frame false)) (packet : PacketClientMsgProtobuf) :
    Safe p key (dispatchProto (gDispatch emit p consumeFrame) emit packet) := by
  intro c hclean
  -- the entry stands before its handler runs, so it is the last one if the handler does not return
  by_cases hover : Overruns p key (.dispatchedProto packet)
  · rw [dispatchProto_overrun hover]
    exact hclean.overrun hover rfl
  · have hdispatching : (c.dispatchingProto packet).Clean p key := hclean.snoc hover rfl rfl
    obtain ⟨hmax, hdocuments⟩ := not_or.mp hover
    have htable := gDispatch_proto p emit consumeFrame (getMsg packet.msgType)
    by_cases hle : (getMsg packet.msgType).toNat ≤ MAX_EMSG
    · have hid : (getMsg packet.msgType).toNat < MAX_EMSG := by omega
      by_cases hmulti : getMsg packet.msgType = EMsg.multi
      · rw [if_pos hmulti] at htable
        rw [dispatchProto_of_handler hid htable]
        exact safe_handleMulti hconsume packet _ hdispatching
      · rw [if_neg hmulti] at htable
        by_cases hlogon : getMsg packet.msgType = EMsg.clientLogOnResponse
        · rw [if_pos hlogon] at htable
          rw [dispatchProto_of_handler hid htable, handleLogonResponse_eq Prod.mk.eta.symm]
          exact hemit _ _ hdispatching
        · rw [if_neg hlogon] at htable
          by_cases hinfo : getMsg packet.msgType = EMsg.clientPICSProductInfoResponse
          · rw [if_pos hinfo] at htable
            rw [dispatchProto_of_handler hid htable]
            exact safe_handleProdInfoResponse hemit (fun hcut => hdocuments ⟨hinfo, hcut⟩) _
              hdispatching
          · rw [if_neg hinfo] at htable
            rw [dispatchProto_of_none hid htable]
            exact hemit _ _ hdispatching
    · rw [dispatchProto_eq, if_neg hle]
      exact hdispatching

/-! ## Frames

  The first word of what was decrypted is read before the `try` block, and the length that was
  checked was that of the frame. -/

/-- The dispatch of a decoded frame is safe, but for the word behind the table, which has its
    entry. -/
theorem safe_dispatchFrame (hc : p.cryptoPP.Lawful) (hemit : ∀ event, Safe p key (emit event))
    (hconsume : ∀ frame, Safe p key (consumeFrame frame false)) (data : Bytes) :
    Safe p key (dispatchFrame (gDispatch emit p consumeFrame) emit p (firstWord data) data) := by
  rw [dispatchFrame]
  split
  · rename_i hencryption
    refine safe_lift_bind (fun fault => PacketMsg.make_throws) fun packet hpacket => ?_
    obtain ⟨htype, -, hoffset, -⟩ := PacketMsg.make_eq_ok hpacket
    exact safe_dispatchMsg hc hemit (htype.symm ▸ hencryption) hoffset
  · split
    · refine safe_lift_bind (fun fault => PacketClientMsgProtobuf.make_throws) fun packet _ => ?_
      exact safe_dispatchProto hemit hconsume packet
    · exact Calls.within_pure _

/-- **Frames** are safe, or have less than a word in them; so are the frames of their batches. -/
theorem safe_consumeFrame (hc : p.cryptoPP.Lawful) (hemit : ∀ event, Safe p key (emit event))
    (fuel : Nat) :
    ∀ frame encrypt, Safe p key (Client.consumeFrame emit p fuel frame encrypt) := by
  induction fuel with
  | zero => exact fun frame encrypt => safe_throw (by simp)
  | succ fuel ih =>
    intro frame encrypt c hclean
    by_cases hlen : frame.length < 4
    · rw [consumeFrame_short hlen]
      exact hclean
    · have hreceived := received_eq p c frame encrypt
      rw [hclean.1] at hreceived
      cases hdata : c.received p frame encrypt with
      | error fault =>
        -- a frame that cannot be decrypted has no plaintext that could be too short
        have hconsuming : (c.consuming frame encrypt).Clean p key := by
          refine hclean.snoc ?_ rfl rfl
          rintro ⟨data, hok, -⟩
          cases hok.symm.trans (hreceived.symm.trans hdata)
        obtain ⟨e, rfl⟩ : ∃ e, fault = .throws e := by
          rw [CMClient.received] at hdata
          split at hdata
          · exact processIncoming_throws hdata
          · cases hdata
        rw [consumeFrame_rejected hlen hdata]
        exact hconsuming.ends (by simp)
      | ok data =>
        -- the length was checked of the frame, not of its plaintext
        by_cases hword : data.length < 4
        · have hover : Overruns p key (.consumed frame encrypt c.channelSecured) :=
            ⟨data, hreceived.symm.trans hdata, hword⟩
          rw [consumeFrame_overrun hlen hdata hword]
          exact hclean.overrun hover rfl
        · have hconsuming : (c.consuming frame encrypt).Clean p key := by
            refine hclean.snoc ?_ rfl rfl
            rintro ⟨data', hok, hshort⟩
            rw [Except.ok.inj (hok.symm.trans (hreceived.symm.trans hdata))] at hshort
            exact hword hshort
          rw [consumeFrame_dispatched hlen hdata (by omega)]
          exact safe_catchStd (safe_dispatchFrame hc hemit (fun frame => ih frame false) data)
            (fun _ => Calls.within_pure _) _ hconsuming

end

/-! ## Whole runs

  Undefined behaviour stops the system, so its entry is the last of the record; and while the
  system is not stopped there is none. -/

section
variable [Transport C E M] {p : Platform} {key : Bytes} {fuel : Nat}

/-- The callback of the connection is safe on every frame. -/
theorem safe_onFrame (hc : p.cryptoPP.Lawful) (frame : Bytes) :
    Safe p key (onFrame p fuel frame : Calling C E Unit) := by
  have hframe : Safe p key (Client.consumeFrame (emit p fuel) p fuel frame true : Calling C E Unit) :=
    safe_consumeFrame hc (safe_emit hc fuel) fuel frame true
  refine Calls.within_bind (safe_attempt hframe) fun thrown => ?_
  cases thrown with
  | none => exact safe_modify (fun _ => rfl) fun _ => rfl
  | some e =>
    exact Calls.within_bind (safe_modify (fun _ => rfl) fun _ => rfl) fun _ => safe_throw (by simp)

/-- A system with a clean record, or one that undefined behaviour has stopped. -/
def System.Accounted (p : Platform) (key : Bytes) (s : System C E) : Prop :=
  if s.stopped = some .undefined then s.client.Ends p key .undefined else s.client.Clean p key

/-- An act that keeps the record clean, or says where it does not. -/
theorem accounted_settle {x : Calling C E Unit} (hx : Safe p key x) {c : CMClient C E}
    (hclean : c.Clean p key) : (settle (x c)).Accounted p key := by
  have hends := hx c hclean
  cases hrun : x c with
  | ok u c' =>
    rw [hrun] at hends
    exact hends
  | error fault c' =>
    rw [hrun] at hends
    cases fault with
    | undefined => exact hends
    | throws e => exact hends
    | diverges => exact hends

/-- **Step lemma.** -/
theorem step_accounted (hc : p.cryptoPP.Lawful) {s s' : System C E} {a : Act E M}
    (hs : s.Accounted p key) (h : step p fuel s a = some s') : s'.Accounted p key := by
  unfold step at h
  split at h
  · cases h
  · rename_i hrunning
    -- only a client that has not been stopped acts, and its record is clean
    have hstopped : s.stopped = none := by simpa using hrunning
    have hclean : s.client.Clean p key := by
      rw [System.Accounted, hstopped, if_neg (by simp)] at hs
      exact hs
    cases a with
    | startSession net =>
      cases h
      exact accounted_settle (safe_startSession net) hclean
    | shutdown =>
      cases h
      exact accounted_settle safe_shutdown hclean
    | on type callback =>
      cases h
      exact accounted_settle (safe_on type callback) hclean
    | execute command =>
      cases h
      exact accounted_settle (safe_execute hc (safe_emit hc fuel) command) hclean
    | transport m =>
      dsimp only at h
      rcases hmove : Transport.move s.client.connection m with _ | ⟨k, _ | frame⟩
      · rw [hmove] at h
        cases h
      · rw [hmove] at h
        cases h
        rw [System.Accounted, hstopped, if_neg (by simp)]
        exact hclean
      · rw [hmove] at h
        cases h
        exact accounted_settle (safe_onFrame hc frame) hclean

/-- What that says of the record. -/
theorem System.Accounted.overrun_iff {s : System C E} (h : s.Accounted p key) :
    (s.stopped = some .undefined ↔ ∃ e ∈ s.client.log, Overruns p key e) ∧
      ∀ l e l', s.client.log = l ++ e :: l' → Overruns p key e → l' = [] := by
  rw [System.Accounted] at h
  split at h
  · rename_i hstopped
    rw [CMClient.Ends, if_pos rfl] at h
    obtain ⟨front, last, hlog, hclean, hover⟩ := h
    rw [hlog]
    refine ⟨⟨fun _ => ⟨last, by simp, hover⟩, fun _ => hstopped⟩, ?_⟩
    intro l e l' hsplit he
    -- an entry of the front does not overrun
    rcases split_append hsplit with ⟨r, hfront, -⟩ | ⟨m, hlast, -⟩
    · exact absurd he (hclean e (by rw [hfront]; simp))
    · exact (split_singleton hlast).2.2
  · rename_i hstopped
    refine ⟨⟨fun h' => absurd h' hstopped, ?_⟩, ?_⟩
    · rintro ⟨e, he, hover⟩
      exact absurd hover (h.2 e he)
    · intro l e l' hsplit hover
      exact absurd hover (h.2 e (by rw [hsplit]; simp))

/-- **When undefined behaviour comes**: in every state of every run of a new client, it has stopped the
    client exactly if something in the record overruns; and nothing was recorded behind it. -/
theorem overrun_iff_run (hc : p.cryptoPP.Lawful) (fuel : Nat) (connection : C)
    (crypto : EncryptionManager) (acts : List (Act E M)) :
    EveryState (step p fuel) (fun s =>
      (s.stopped = some .undefined ↔ ∃ e ∈ s.client.log, Overruns p crypto.sessionKey e) ∧
      ∀ l e l', s.client.log = l ++ e :: l' → Overruns p crypto.sessionKey e → l' = [])
      (System.initial connection crypto) acts := by
  have hinitial : (System.initial (E := E) connection crypto : System C E).Accounted p
      crypto.sessionKey := by
    rw [System.Accounted, if_neg (by simp [System.initial])]
    exact ⟨rfl, fun _ h => absurd h List.not_mem_nil⟩
  have hruns : EveryState (step p fuel) (fun s : System C E => s.Accounted p crypto.sessionKey)
      (System.initial connection crypto) acts :=
    Runs.everyState_of_invariant (fun s a s' hs h => step_accounted hc hs h) hinitial acts
  intro acts₁ acts₂ s hacts hrun
  exact (hruns acts₁ acts₂ s hacts hrun).overrun_iff

end

/-- `samplePlatform`, for a peer that sends protobuf messages. -/
def peerPlatform : Platform := { samplePlatform with protobuf := .wireFormat }

/-- A frame whose type is the one behind the last slot, with nothing in it. -/
def behindTable : Bytes :=
  LittleEndian.bytes 4 (2 ^ 31 + MAX_EMSG) ++ LittleEndian.bytes 4 0

/-- It is sent to a client that has just been connected. -/
theorem overrun_behindTable :
    ∃ s, Runs.run (step peerPlatform 8) System.onTcp (connecting ++ deliverFrame 0 behindTable)
        = some s ∧ s.stopped = some .undefined ∧
      ∃ e ∈ s.client.log, Overruns peerPlatform (EncryptionManager.new
        ⟨fun i => UInt8.ofNat i⟩).sessionKey e := by
  have hruns : (Runs.run (step peerPlatform 8) System.onTcp
      (connecting ++ deliverFrame 0 behindTable)).any
        (fun s => decide (s.stopped = some .undefined)) = true := by
    decide +kernel
  obtain ⟨s, hrun, hstopped⟩ := (Option.any_eq_true _ _).mp hruns
  have hundefined : s.stopped = some .undefined := of_decide_eq_true hstopped
  have hiff := overrun_iff_run (p := peerPlatform) lawful_sampleCryptoPP 8 Net.Connection.initial
    (.new ⟨fun i => UInt8.ofNat i⟩) (connecting ++ deliverFrame 0 behindTable)
  exact ⟨s, hrun, hundefined, (hiff _ [] s (List.append_nil _).symm hrun).1.mp hundefined⟩

end SteamMin.Client
