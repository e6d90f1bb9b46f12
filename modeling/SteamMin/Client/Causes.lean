/-
  WHAT THE JOURNAL SAYS.

  The record of every run is made of turns (`turns_run`), and a turn is a chain of causes.  Read
  backwards: nothing is dispatched, emitted or sent of the client's own accord, and the entry right
  before says what it was made from (`Turns.behind`).  So it is with the events
  (`events_caused_run`) and with the messages, which the peer can open (`messages_prompted_run`,
  `buffers_open_run`).  Read forwards: each frame is dispatched at once, as what it decodes to under
  the session key (`packets_dispatched_run`).

  Two things follow that no single call can show.  The job ids are the numbers of the requests, so no
  two requests are the same (`requests_numbered_run`, `SteamMin.Client.Requests`).  And nothing in a
  dispatch depends on what came before but the flag: a frame that is delivered again is dispatched
  again, in another session too (`frames_replayed_run`).
-/
import Mathlib.Data.List.Chain
import SteamMin.Client.JournalRefinement

namespace SteamMin.Client

open Messages Crypto
open Runs (EveryState)

variable {p : Platform} {key : Bytes}

/-! ## What stands behind what

  A turn is a chain: its first entry opens it, and each of the others stands right behind what has
  caused it. -/

section
variable (p key)

/-- The entry right before an event. -/
inductive Causes : Entry → Event → Prop
  /-- the peer's verdict has gone into the flag -/
  | verdict {success b connected : Bool} :
      Causes (.securedSet success b connected) (resultEvent success)
  /-- a request cannot be answered -/
  | declined {packet : PacketMsg} {crypto crypto' : EncryptionManager} {e : Exn}
      (htype : packet.msgType = EMsg.channelEncryptRequest) (hkey : crypto.sessionKey = key)
      (hfailed : EncryptionManager.generateEncryptionResponse p packet crypto
        = .error (.throws e) crypto') :
      Causes (.dispatchedMsg packet) (.channelSecured (.fail (what e)))
  /-- a login on an unsecured channel -/
  | notSecured : Causes (.executed .anonymousLogin false)
      (.clientLogon (.fail "Channel not secured") none none)
  /-- the peer's answer to a login -/
  | logon {packet : PacketClientMsgProtobuf}
      (htype : getMsg packet.msgType = EMsg.clientLogOnResponse) :
      Causes (.dispatchedProto packet) (logonEvent packet
        (p.protobuf.clientLogonResponse.parseFromArray (bodyBytes packet)).2)
  /-- product information, all of whose entries can be used -/
  | productInfo {packet : PacketClientMsgProtobuf} {apps : List ProductAppInfo}
      {packages : List ProductPackageInfo}
      (htype : getMsg packet.msgType = EMsg.clientPICSProductInfoResponse)
      (hentries : parseEntries (responseBody p packet) = .ok (apps, packages)) :
      Causes (.dispatchedProto packet) (.productInfoResult apps packages)
  /-- a raw packet without a handler -/
  | unhandledMsg {packet : PacketMsg} (htype : packet.msgType = EMsg.channelEncryptResponse) :
      Causes (.dispatchedMsg packet) (.msgNotImplemented packet.msgType (.raw packet))
  /-- a protobuf packet without a handler -/
  | unhandledProto {packet : PacketClientMsgProtobuf}
      (hid : (getMsg packet.msgType).toNat < MAX_EMSG)
      (htype : getMsg packet.msgType ∉
        [EMsg.multi, EMsg.clientLogOnResponse, EMsg.clientPICSProductInfoResponse]) :
      Causes (.dispatchedProto packet) (.msgNotImplemented (getMsg packet.msgType) (.proto packet))

/-- The entry right before a message; `jobid` is the next job id there. -/
inductive Prompts (jobid : UInt64) : Entry → Bytes → Prop
  /-- the command whose message it is -/
  | command {command : Command} {b : Bool} {message : Bytes}
      (hsends : b = true ∨ command.IsProductInfo) (hmessage : command.message p jobid = .ok message) :
      Prompts jobid (.executed command b) message
  /-- the request it answers -/
  | request {packet : PacketMsg} {crypto crypto' : EncryptionManager}
      {response : Msg MsgChannelEncryptResponse} {message : Bytes}
      (htype : packet.msgType = EMsg.channelEncryptRequest) (hkey : crypto.sessionKey = key)
      (hresponse : EncryptionManager.generateEncryptionResponse p packet crypto
        = .ok response crypto')
      (hmessage : response.serialize = .ok message) :
      Prompts jobid (.dispatchedMsg packet) message

/-- The entry right before another that does not open a turn. -/
inductive Behind (jobid : UInt64) : Entry → Entry → Prop
  | started {b : Bool} : Behind jobid .startCalled (.started b)
  | dispatchedMsg {frame data : Bytes} {encrypt b : Bool} {packet : PacketMsg}
      (hreceived : receivedUnder p key b frame encrypt = .ok data) (hraw : IsRaw data packet) :
      Behind jobid (.consumed frame encrypt b) (.dispatchedMsg packet)
  | dispatchedProto {frame data : Bytes} {encrypt b : Bool} {packet : PacketClientMsgProtobuf}
      (hreceived : receivedUnder p key b frame encrypt = .ok data) (hproto : IsProto p data packet) :
      Behind jobid (.consumed frame encrypt b) (.dispatchedProto packet)
  | securedSet {packet : PacketMsg} {success b connected : Bool}
      (htype : packet.msgType = EMsg.channelEncryptResult)
      (hverdict : verdict packet = some success) :
      Behind jobid (.dispatchedMsg packet) (.securedSet success b connected)
  | emitted {cause : Entry} {event : Event} (hcause : Causes p key cause event) :
      Behind jobid cause (.emitted event)
  | handed {cause : Entry} {message buffer : Bytes} {b : Bool}
      (hprompts : Prompts p key jobid cause message) (hcarries : Carries p key b message buffer) :
      Behind jobid cause (.handed message buffer b)

/-- A protobuf packet brings about its event, or nothing. -/
theorem protoReaction_cases (packet : PacketClientMsgProtobuf) :
    protoReaction p packet = [] ∨ ∃ event, protoReaction p packet = [.emitted event] ∧
      Causes p key (.dispatchedProto packet) event := by
  unfold protoReaction
  dsimp only
  by_cases hnone : (MAX_EMSG ≤ (getMsg packet.msgType).toNat || getMsg packet.msgType = EMsg.multi)
      = true
  · exact .inl (if_pos hnone)
  · rw [if_neg hnone]
    simp only [Bool.or_eq_true, decide_eq_true_eq, not_or, Nat.not_le] at hnone
    obtain ⟨hid, hmulti⟩ := hnone
    by_cases hlogon : getMsg packet.msgType = EMsg.clientLogOnResponse
    · rw [if_pos hlogon]
      exact .inr ⟨_, rfl, .logon hlogon⟩
    · rw [if_neg hlogon]
      by_cases hinfo : getMsg packet.msgType = EMsg.clientPICSProductInfoResponse
      · rw [if_pos hinfo]
        cases hentries : parseEntries (responseBody p packet) with
        | error fault => exact .inl rfl
        | ok entries => exact .inr ⟨_, rfl, .productInfo hinfo hentries⟩
      · rw [if_neg hinfo]
        refine .inr ⟨_, rfl, .unhandledProto hid ?_⟩
        simp [hmulti, hlogon, hinfo]

end

/-- The entries at the front of the turns. -/
def Entry.Opens : Entry → Prop
  | .startCalled | .shutdownCalled | .executed _ _ | .consumed _ _ _ => True
  | _ => False

/-- Only commands draw job ids. -/
theorem Behind.of_not_opens {jobid : UInt64} {cause e : Entry} (h : Behind p key jobid cause e)
    (hcause : ¬ cause.Opens) (jobid' : UInt64) : Behind p key jobid' cause e := by
  cases h with
  | started => exact .started
  | dispatchedMsg hreceived hraw => exact .dispatchedMsg hreceived hraw
  | dispatchedProto hreceived hproto => exact .dispatchedProto hreceived hproto
  | securedSet htype hverdict => exact .securedSet htype hverdict
  | emitted hcause => exact .emitted hcause
  | handed hprompts hcarries =>
    cases hprompts with
    | command hsends hmessage => exact absurd trivial hcause
    | request htype hkey hresponse hmessage =>
      exact .handed (.request htype hkey hresponse hmessage) hcarries

/-- Only the first entry opens the turn, and each of the others stands behind its cause. -/
structure Chained (p : Platform) (key : Bytes) (jobid : UInt64) (head : Entry)
    (rest : List Entry) : Prop where
  notOpens : ∀ e ∈ rest, ¬ e.Opens
  chain : (head :: rest).IsChain (Behind p key jobid)

section
variable {b b' : Bool} {n n' : UInt64} {es m₁ m₂ : List Entry} {head e : Entry}

/-- A turn that shows nothing more. -/
theorem Chained.nil : Chained p key n head [] :=
  ⟨fun _ h => absurd h List.not_mem_nil, .singleton head⟩

/-- One more entry, with its cause in front of it. -/
theorem Chained.cons (hopens : ¬ e.Opens) (hbehind : Behind p key n head e)
    (h : Chained p key n e es) : Chained p key n head (e :: es) := by
  constructor
  · intro e' he'
    rcases List.mem_cons.mp he' with rfl | he'
    · exact hopens
    · exact h.notOpens e' he'
  · exact .cons_cons hbehind h.chain

/-- A single entry. -/
theorem Chained.one (hopens : ¬ e.Opens) (hbehind : Behind p key n head e) :
    Chained p key n head [e] := .cons hopens hbehind .nil

/-- An entry of a chain stands behind its cause; a cause that opens the turn is its front. -/
theorem Chained.behind (h : Chained p key n head es) (hsplit : head :: es = m₁ ++ e :: m₂)
    (hopens : ¬ e.Opens) (hhead : head.Opens) :
    ∃ m cause, m₁ = m ++ [cause] ∧ Behind p key n cause e ∧ (cause.Opens → m = []) := by
  rcases List.eq_nil_or_concat m₁ with rfl | ⟨m, cause, rfl⟩
  · obtain ⟨rfl, -⟩ := List.cons.inj hsplit
    exact absurd hhead hopens
  · rw [List.concat_eq_append] at hsplit ⊢
    have hchain := h.chain
    rw [hsplit, List.append_assoc] at hchain
    refine ⟨m, cause, rfl, (List.isChain_append_cons_cons.mp hchain).2.1, ?_⟩
    intro hcause
    cases m with
    | nil => rfl
    | cons head' m =>
      -- the cause stands behind the front of the turn
      have hes : es = m ++ [cause] ++ e :: m₂ := (List.cons.inj hsplit).2
      refine absurd hcause (h.notOpens cause ?_)
      rw [hes]
      simp

/-- What a raw packet causes stands behind it. -/
theorem RawReaction.chained {packet : PacketMsg} (h : RawReaction p key b packet es b') :
    Chained p key n (.dispatchedMsg packet) es := by
  cases h with
  | answered htype hkey hresponse hmessage hbuffer =>
    exact .one id (.handed (.request htype hkey hresponse hmessage) hbuffer)
  | unanswered htype hkey hresponse hmessage hbuffer => exact .nil
  | declined htype hkey hfailed => exact .one id (.emitted (.declined htype hkey hfailed))
  | result htype hverdict =>
    exact .cons id (.securedSet htype hverdict) (.one id (.emitted .verdict))
  | unreadable htype hverdict => exact .nil
  | unhandled htype => exact .one id (.emitted (.unhandledMsg htype))

/-- What a frame causes stands behind it. -/
theorem FrameReaction.chained {frame : Bytes} {encrypt : Bool}
    (h : FrameReaction p key b (receivedUnder p key b frame encrypt) es b') :
    Chained p key n (.consumed frame encrypt b) es := by
  generalize hreceived : receivedUnder p key b frame encrypt = received at h
  cases h with
  | rejected => exact .nil
  | raw hraw hreaction => exact .cons id (.dispatchedMsg hreceived hraw) hreaction.chained
  | @proto data packet hproto =>
    refine .cons id (.dispatchedProto hreceived hproto) ?_
    rcases protoReaction_cases p key packet with hnone | ⟨event, hevent, hcause⟩
    · rw [hnone]
      exact .nil
    · rw [hevent]
      exact .one id (.emitted hcause)
  | ignored hraw hproto => exact .nil

/-- **A turn is a chain of causes.** -/
theorem Turn.chained (h : Turn p key b n es b' n') :
    ∃ head rest, es = head :: rest ∧ head.Opens ∧ Chained p key n head rest := by
  cases h with
  | startCalled => exact ⟨_, [], rfl, trivial, .nil⟩
  | started => exact ⟨_, _, rfl, trivial, .one id .started⟩
  | shutdownCalled => exact ⟨_, [], rfl, trivial, .nil⟩
  | sent hsends hmessage hbuffer =>
    exact ⟨_, _, rfl, trivial, .one id (.handed (.command hsends hmessage) hbuffer)⟩
  | unserialized hsends hmessage => exact ⟨_, [], rfl, trivial, .nil⟩
  | unsealed hmessage hbuffer => exact ⟨_, [], rfl, trivial, .nil⟩
  | @refused n command hcommand =>
    refine ⟨_, _, rfl, trivial, ?_⟩
    cases command with
    | anonymousLogin => exact .one id (.emitted .notSecured)
    | clientLogoff => exact .nil
    | getProductInfo id steamid clientSessionid appToken => exact absurd trivial hcommand
  | frame hreaction => exact ⟨_, _, rfl, trivial, hreaction.chained⟩

/-- What opens a turn is its front. -/
theorem Turn.front (h : Turn p key b n (m₁ ++ e :: m₂) b' n') (hopens : e.Opens) : m₁ = [] := by
  obtain ⟨head, rest, hes, -, hchained⟩ := h.chained
  cases m₁ with
  | nil => rfl
  | cons head' m =>
    refine absurd hopens (hchained.notOpens e ?_)
    rw [← (List.cons.inj hes).2]
    simp

/-- A turn with a frame in it is the turn of that frame. -/
theorem Turn.frame_of {frame : Bytes} {encrypt b₁ : Bool}
    (h : Turn p key b n (m₁ ++ .consumed frame encrypt b₁ :: m₂) b' n') :
    FrameReaction p key b₁ (receivedUnder p key b₁ frame encrypt) m₂ b' := by
  obtain rfl := h.front trivial
  cases h with
  | frame hreaction => exact hreaction

/-- A turn with a command in it is the turn of that command: if it is not refused its message goes
    out, or there is none. -/
theorem Turn.command_of {command : Command} {b₁ : Bool}
    (h : Turn p key b n (m₁ ++ .executed command b₁ :: m₂) b' n')
    (hsends : b₁ = true ∨ command.IsProductInfo) :
    m₁ = [] ∧ ((∃ message buffer, m₂ = [.handed message buffer b₁] ∧
        command.message p n = .ok message ∧ Carries p key b₁ message buffer) ∨
      (m₂ = [] ∧ ((∃ fault, command.message p n = .error fault) ∨
        ∃ message, NoEnvelope p key b₁ message))) := by
  obtain rfl := h.front trivial
  refine ⟨rfl, ?_⟩
  cases h with
  | sent hsends' hmessage hbuffer => exact .inl ⟨_, _, rfl, hmessage, hbuffer⟩
  | unserialized hsends' hmessage => exact .inr ⟨rfl, .inl ⟨_, hmessage⟩⟩
  | unsealed hmessage hbuffer => exact .inr ⟨rfl, .inr ⟨_, hbuffer⟩⟩
  | refused hcommand =>
    rcases hsends with hsecured | hproduct
    · cases hsecured
    · exact absurd hproduct hcommand

end

/-! ## Job ids

  The counter goes up with the requests for product information, so it can be read off the record
  as well. -/

/-- `GetProductInfo` was executed. -/
def Entry.requests : Entry → Nat
  | .executed (.getProductInfo _ _ _ _) _ => 1
  | _ => 0

/-- How often product information was requested. -/
def requestCount (log : List Entry) : Nat := (log.map Entry.requests).sum

/-- Requests add up. -/
theorem requestCount_append (l es : List Entry) :
    requestCount (l ++ es) = requestCount l + requestCount es := by
  rw [requestCount, List.map_append, List.sum_append]
  rfl

/-- Entry by entry. -/
theorem requestCount_cons (e : Entry) (es : List Entry) :
    requestCount (e :: es) = e.requests + requestCount es := by
  rw [requestCount, List.map_cons, List.sum_cons]
  rfl

/-- What a frame brings about at once is no request of the user. -/
theorem FrameReaction.requestCount {b b' : Bool} {received : Except Fault Bytes} {es : List Entry}
    (h : FrameReaction p key b received es b') : requestCount es = 0 := by
  cases h with
  | rejected => rfl
  | raw hraw hreaction => cases hreaction <;> rfl
  | @proto data packet hproto =>
    rcases protoReaction_cases p key packet with hnone | ⟨event, hevent, -⟩
    · rw [hnone]
      rfl
    · rw [hevent]
      rfl
  | ignored hraw hproto => rfl

/-- A command counts as it draws on the counter. -/
theorem Command.draws_eq (command : Command) (b : Bool) (n : UInt64) :
    command.draws n = n + UInt64.ofNat (Entry.executed command b).requests := by
  cases command with
  | anonymousLogin => exact (UInt64.add_zero n).symm
  | clientLogoff => exact (UInt64.add_zero n).symm
  | getProductInfo id steamid clientSessionid appToken => rfl

/-- **Step lemma**: the counter goes up with each request, and with nothing else. -/
theorem Turn.counts {b b' : Bool} {n n' : UInt64} {es : List Entry}
    (h : Turn p key b n es b' n') : n' = n + UInt64.ofNat (requestCount es) := by
  have hnone : n = n + UInt64.ofNat 0 := (UInt64.add_zero n).symm
  cases h with
  | startCalled => exact hnone
  | started => exact hnone
  | shutdownCalled => exact hnone
  | sent hsends hmessage hbuffer => exact Command.draws_eq _ b n
  | unserialized hsends hmessage => exact Command.draws_eq _ b n
  | unsealed hmessage hbuffer => exact Command.draws_eq _ b n
  | @refused n command hcommand =>
    cases command with
    | anonymousLogin => exact hnone
    | clientLogoff => exact hnone
    | getProductInfo id steamid clientSessionid appToken => exact absurd trivial hcommand
  | frame hreaction =>
    rw [requestCount_cons, hreaction.requestCount]
    exact hnone

/-- So the next job id is the number of requests. -/
theorem Turns.nextJobid {b : Bool} {n : UInt64} {log : List Entry} (h : Turns p key b n log) :
    n = UInt64.ofNat (requestCount log) := by
  induction h with
  | nil => rfl
  | snoc hturns hturn ih =>
    rw [hturn.counts, ih, requestCount_append, UInt64.ofNat_add]

/-- **In a record of turns, nothing happens of its own accord**: what does not open a turn stands
    right behind its cause, and the next job id there is the number of requests so far. -/
theorem Turns.behind {b : Bool} {n : UInt64} {log l r : List Entry} {e : Entry}
    (h : Turns p key b n log) (hsplit : log = l ++ e :: r) (hopens : ¬ e.Opens) :
    ∃ l' cause, l = l' ++ [cause] ∧ Behind p key (UInt64.ofNat (requestCount l')) cause e := by
  obtain ⟨b₀, n₀, l₀, m₁, m₂, r', b₁, n₁, hturns, hturn, rfl, -⟩ := h.turn_of hsplit
  obtain ⟨head, rest, hes, hhead, hchained⟩ := hturn.chained
  obtain ⟨m, cause, rfl, hbehind, hfront⟩ := hchained.behind hes.symm hopens hhead
  refine ⟨l₀ ++ m, cause, (List.append_assoc l₀ m [cause]).symm, ?_⟩
  by_cases hcause : cause.Opens
  · rw [hfront hcause, List.append_nil, ← hturns.nextJobid]
    exact hbehind
  · exact hbehind.of_not_opens hcause _

/-! ## Events and messages

  The chains, read for one entry at a time: what stands before an event, before a message, and
  behind a command. -/

section
variable {C E M : Type} [Transport C E M]

/-- **Every event has its cause right before it**, in every state of every run of a new client: an
    event of the handshake the peer's verdict or the request that could not be answered, a logon event
    the packet it was read from or the login that was refused, product information its packet, and
    any other event a packet without a handler. -/
theorem events_caused_run (p : Platform) (fuel : Nat) (connection : C) (crypto : EncryptionManager)
    (acts : List (Act E M)) :
    EveryState (step p fuel) (fun s => ∀ l event r, s.client.log = l ++ .emitted event :: r →
      ∃ l' cause, l = l' ++ [cause] ∧ Causes p crypto.sessionKey cause event)
      (System.initial connection crypto) acts := by
  intro acts₁ acts₂ s hacts hrun l event r hsplit
  have hturns := (turns_run p fuel connection crypto acts acts₁ acts₂ s hacts hrun).turns
  obtain ⟨l', cause, hl, hbehind⟩ := hturns.behind hsplit id
  cases hbehind with
  | emitted hcause => exact ⟨l', cause, hl, hcause⟩

/-- In a record of turns, a message stands behind what prompted it. -/
theorem Turns.prompted {b b₁ : Bool} {n : UInt64} {log l r : List Entry} {message buffer : Bytes}
    (h : Turns p key b n log) (hsplit : log = l ++ .handed message buffer b₁ :: r) :
    ∃ l' cause, l = l' ++ [cause] ∧
      Prompts p key (UInt64.ofNat (requestCount l')) cause message ∧
      Carries p key b₁ message buffer := by
  obtain ⟨l', cause, hl, hbehind⟩ := h.behind hsplit id
  cases hbehind with
  | handed hprompts hcarries => exact ⟨l', cause, hl, hprompts, hcarries⟩

/-- **Nothing is sent unprompted**: in every state of every run, what was handed to the connection is
    the message of the command right before it, whose job id is the number of earlier requests, or
    the answer to the ChannelEncryptRequest right before it; and it goes out in its envelope exactly
    if the channel is secured. -/
theorem messages_prompted_run (p : Platform) (fuel : Nat) (connection : C)
    (crypto : EncryptionManager) (acts : List (Act E M)) :
    EveryState (step p fuel) (fun s => ∀ l message buffer b r,
      s.client.log = l ++ .handed message buffer b :: r →
      ∃ l' cause, l = l' ++ [cause] ∧
        Prompts p crypto.sessionKey (UInt64.ofNat (requestCount l')) cause message ∧
        Carries p crypto.sessionKey b message buffer) (System.initial connection crypto) acts := by
  intro acts₁ acts₂ s hacts hrun l message buffer b r hsplit
  exact (turns_run p fuel connection crypto acts acts₁ acts₂ s hacts hrun).turns.prompted hsplit

/-- In a record of turns, a command that is not refused has its message right behind it, if there is
    one and an envelope for it. -/
theorem Turns.sent {b b₁ : Bool} {n : UInt64} {log l r : List Entry} {command : Command}
    (h : Turns p key b n log) (hsplit : log = l ++ .executed command b₁ :: r)
    (hsends : b₁ = true ∨ command.IsProductInfo) :
    (∃ message buffer r', r = .handed message buffer b₁ :: r' ∧
      command.message p (UInt64.ofNat (requestCount l)) = .ok message ∧
      Carries p key b₁ message buffer) ∨
    (∃ fault, command.message p (UInt64.ofNat (requestCount l)) = .error fault) ∨
    ∃ message, NoEnvelope p key b₁ message := by
  obtain ⟨b₀, n₀, l₀, m₁, m₂, r', b₂, n₂, hturns, hturn, rfl, rfl⟩ := h.turn_of hsplit
  obtain ⟨rfl, hcases⟩ := hturn.command_of hsends
  rw [List.append_nil, ← hturns.nextJobid]
  rcases hcases with ⟨message, buffer, rfl, hmessage, hbuffer⟩ | ⟨-, hnone⟩
  · exact .inl ⟨message, buffer, r', rfl, hmessage, hbuffer⟩
  · exact .inr hnone

/-- An envelope opens to its message and to nothing else. -/
theorem Carries.opens (hc : p.cryptoPP.Lawful) (hkey : key.length = 32) {message buffer : Bytes}
    (h : Carries p key true message buffer) (text : Bytes) :
    Helpers.symmetricDecryptHmacIv p.cryptoPP buffer key (key.take 16) = .ok text
      ↔ text = message := by
  obtain ⟨pool, pool', hseal⟩ := h
  rw [Helpers.symmetricEncryptHmacIv_eq hc hkey] at hseal
  obtain rfl := (EStateM.Result.ok.inj hseal).1
  have hrandom : ((List.range Helpers.IV_RAND_LENGTH).map pool.tape).length = 3 := by
    rw [List.length_map, List.length_range]
    rfl
  rw [Helpers.symmetricDecryptHmacIv_envelope hc hkey hrandom message]
  exact ⟨fun h => (Except.ok.inj h).symm, fun h => congrArg Except.ok h.symm⟩

/-- **What the peer can open**: in every state of every run, what was handed on in a secured channel
    opens under the session key the client was made with, to the message and to nothing else; what
    was handed on before is the message itself. -/
theorem buffers_open_run (hc : p.cryptoPP.Lawful)
    (fuel : Nat) (connection : C) (crypto : EncryptionManager) (acts : List (Act E M)) :
    EveryState (step p fuel) (fun s => ∀ message buffer b, .handed message buffer b ∈ s.client.log →
      (b = true → ∀ text, EncryptionManager.processIncomingEncryptedMessage p crypto buffer = .ok text
        ↔ text = message) ∧
      (b = false → buffer = message)) (System.initial connection crypto) acts := by
  intro acts₁ acts₂ s hacts hrun message buffer b hmem
  obtain ⟨l, r, hsplit⟩ := List.append_of_mem hmem
  have hturns := (turns_run p fuel connection crypto acts acts₁ acts₂ s hacts hrun).turns
  obtain ⟨l', cause, -, -, hcarries⟩ := hturns.prompted hsplit
  constructor
  · rintro rfl text
    rw [EncryptionManager.processIncomingEncryptedMessage, crypto.hmacSecret_eq]
    exact hcarries.opens hc crypto.sessionKey_length text
  · rintro rfl
    exact hcarries

end

/-- A message that was handed on, and whether the channel was secured. -/
def Entry.spoken : Entry → List (Bytes × Bool)
  | .handed message _ secured => [(message, secured)]
  | _ => []

/-- The messages of a record. -/
def spoken (es : List Entry) : List (Bytes × Bool) := es.flatMap Entry.spoken

/-- The answer to the handshake goes out in the clear, the login behind it in an envelope. -/
theorem buffers_open_login :
    ∃ s, Runs.run (step samplePlatform 8) System.onTcp
        (connecting ++ handshake ++ [.execute .anonymousLogin]) = some s ∧
      (spoken s.client.log).map Prod.snd = [false, true] ∧
      ∀ message buffer b, .handed message buffer b ∈ s.client.log →
        (b = true → ∀ text, EncryptionManager.processIncomingEncryptedMessage samplePlatform
          (.new ⟨fun i => UInt8.ofNat i⟩) buffer = .ok text ↔ text = message) ∧
        (b = false → buffer = message) := by
  have hrun : (Runs.run (step samplePlatform 8) System.onTcp
      (connecting ++ handshake ++ [.execute .anonymousLogin])).any
        (fun s => decide ((spoken s.client.log).map Prod.snd = [false, true])) = true := by
    decide +kernel
  obtain ⟨s, hrun, hspoken⟩ := (Option.any_eq_true _ _).mp hrun
  have hopens := buffers_open_run (p := samplePlatform) lawful_sampleCryptoPP 8
    Net.Connection.initial (.new ⟨fun i => UInt8.ofNat i⟩)
    (connecting ++ handshake ++ [.execute .anonymousLogin])
  exact ⟨s, hrun, of_decide_eq_true hspoken, hopens _ [] s (List.append_nil _).symm hrun⟩

/-! ## Packets

  The same for frames, in both directions: what stands behind a frame is its packet, and what
  stands before a packet is its frame. -/

/-- Each frame is dispatched at once, as what it decodes to, and nothing else is dispatched: a packet
    that was stands right behind a frame, and that frame decodes to it. -/
structure DispatchesFrames (p : Platform) (key : Bytes) (log : List Entry) : Prop where
  raw : ∀ l frame encrypt b r, log = l ++ .consumed frame encrypt b :: r → ∀ packet,
    (∃ es b' r', r = .dispatchedMsg packet :: es ++ r' ∧ RawReaction p key b packet es b') ↔
      ∃ data, receivedUnder p key b frame encrypt = .ok data ∧ IsRaw data packet
  proto : ∀ l frame encrypt b r, log = l ++ .consumed frame encrypt b :: r → ∀ packet,
    (∃ r', r = .dispatchedProto packet :: protoReaction p packet ++ r') ↔
      ∃ data, receivedUnder p key b frame encrypt = .ok data ∧ IsProto p data packet
  rawOnly : ∀ l packet r, log = l ++ .dispatchedMsg packet :: r →
    ∃ l' frame encrypt b data, l = l' ++ [.consumed frame encrypt b] ∧
      receivedUnder p key b frame encrypt = .ok data ∧ IsRaw data packet
  protoOnly : ∀ l packet r, log = l ++ .dispatchedProto packet :: r →
    ∃ l' frame encrypt b data, l = l' ++ [.consumed frame encrypt b] ∧
      receivedUnder p key b frame encrypt = .ok data ∧ IsProto p data packet

section
variable {b : Bool} {n : UInt64} {log l r : List Entry}

/-- What a frame brings about stands right behind it. -/
theorem Turns.reacted {frame : Bytes} {encrypt b₁ : Bool} (h : Turns p key b n log)
    (hsplit : log = l ++ .consumed frame encrypt b₁ :: r) :
    ∃ es b' r', r = es ++ r' ∧ FrameReaction p key b₁ (receivedUnder p key b₁ frame encrypt) es b' := by
  obtain ⟨b₀, n₀, l₀, m₁, m₂, r', b₂, n₂, -, hturn, -, rfl⟩ := h.turn_of hsplit
  exact ⟨m₂, b₂, r', rfl, hturn.frame_of⟩

/-- A packet that was dispatched was read from the frame right before it. -/
theorem Turns.dispatchedMsg {packet : PacketMsg} (h : Turns p key b n log)
    (hsplit : log = l ++ .dispatchedMsg packet :: r) :
    ∃ l' frame encrypt b₁ data, l = l' ++ [.consumed frame encrypt b₁] ∧
      receivedUnder p key b₁ frame encrypt = .ok data ∧ IsRaw data packet := by
  obtain ⟨l', cause, hl, hbehind⟩ := h.behind hsplit id
  cases hbehind with
  | dispatchedMsg hreceived hraw => exact ⟨l', _, _, _, _, hl, hreceived, hraw⟩

/-- Every dispatched packet stands directly behind the frame it was decoded from. -/
theorem Turns.dispatchedProto {packet : PacketClientMsgProtobuf} (h : Turns p key b n log)
    (hsplit : log = l ++ .dispatchedProto packet :: r) :
    ∃ l' frame encrypt b₁ data, l = l' ++ [.consumed frame encrypt b₁] ∧
      receivedUnder p key b₁ frame encrypt = .ok data ∧ IsProto p data packet := by
  obtain ⟨l', cause, hl, hbehind⟩ := h.behind hsplit id
  cases hbehind with
  | dispatchedProto hreceived hproto => exact ⟨l', _, _, _, _, hl, hreceived, hproto⟩

/-- The entry before a place is one. -/
theorem snoc_inj {l l' : List Entry} {e e' : Entry} (h : l ++ [e] = l' ++ [e']) : e = e' :=
  List.singleton_inj.mp (List.append_inj' h rfl).2

/-- So the packets of a log are those of its frames, and the frames have theirs. -/
theorem Turns.dispatchesFrames (h : Turns p key b n log) : DispatchesFrames p key log := by
  constructor
  · intro l frame encrypt b₁ r hsplit packet
    constructor
    · rintro ⟨es, b', r', rfl, -⟩
      rw [List.cons_append, List.append_cons] at hsplit
      obtain ⟨l', frame', encrypt', b₂, data, hl, hreceived, hraw⟩ := h.dispatchedMsg hsplit
      cases snoc_inj hl
      exact ⟨data, hreceived, hraw⟩
    · rintro ⟨data, hreceived, hraw⟩
      obtain ⟨es, b', r', rfl, hreaction⟩ := h.reacted hsplit
      rw [hreceived] at hreaction
      cases hreaction with
      | raw hraw' hreaction =>
        -- a frame decodes to one packet
        obtain rfl := Except.ok.inj (hraw.2.symm.trans hraw'.2)
        exact ⟨_, b', r', rfl, hreaction⟩
      | proto hproto => cases hraw.1.symm.trans hproto.1
      | ignored hnone hproto => exact absurd hraw (hnone packet)
  · intro l frame encrypt b₁ r hsplit packet
    constructor
    · rintro ⟨r', rfl⟩
      rw [List.cons_append, List.append_cons] at hsplit
      obtain ⟨l', frame', encrypt', b₂, data, hl, hreceived, hproto⟩ := h.dispatchedProto hsplit
      cases snoc_inj hl
      exact ⟨data, hreceived, hproto⟩
    · rintro ⟨data, hreceived, hproto⟩
      obtain ⟨es, b', r', rfl, hreaction⟩ := h.reacted hsplit
      rw [hreceived] at hreaction
      cases hreaction with
      | raw hraw hreaction => cases hraw.1.symm.trans hproto.1
      | proto hproto' =>
        obtain rfl := Except.ok.inj (hproto.2.2.symm.trans hproto'.2.2)
        exact ⟨r', rfl⟩
      | ignored hraw hnone => exact absurd hproto (hnone packet)
  · exact fun l packet r hsplit => h.dispatchedMsg hsplit
  · exact fun l packet r hsplit => h.dispatchedProto hsplit

end

section
variable {C E M : Type} [Transport C E M]

/-- **Each frame is dispatched at once, and nothing else is dispatched**, in every state of every
    run: what stands behind a frame is the packet it decodes to, in the clear or under the session
    key the client was made with, and what that packet brings about. -/
theorem packets_dispatched_run (p : Platform) (fuel : Nat) (connection : C)
    (crypto : EncryptionManager) (acts : List (Act E M)) :
    EveryState (step p fuel) (fun s => DispatchesFrames p crypto.sessionKey s.client.log)
      (System.initial connection crypto) acts := by
  intro acts₁ acts₂ s hacts hrun
  exact (turns_run p fuel connection crypto acts acts₁ acts₂ s hacts hrun).turns.dispatchesFrames

/-- **Frames can be replayed**: in every state of every run, whatever a frame was dispatched as once,
    the same frame is dispatched as at every other place where it comes with the channel as it was,
    in the same session or in another.  A protobuf packet brings about the same both times; of a raw
    one that is so but for what is drawn for the answer to a request. -/
theorem frames_replayed_run (p : Platform) (fuel : Nat) (connection : C)
    (crypto : EncryptionManager) (acts : List (Act E M)) :
    EveryState (step p fuel) (fun s => ∀ l₁ l₂ r₁ r₂ frame encrypt b,
      s.client.log = l₂ ++ .consumed frame encrypt b :: r₂ →
      (∀ packet, s.client.log = l₁ ++ .consumed frame encrypt b :: .dispatchedProto packet :: r₁ →
        ∃ r', r₂ = .dispatchedProto packet :: protoReaction p packet ++ r') ∧
      ∀ packet, s.client.log = l₁ ++ .consumed frame encrypt b :: .dispatchedMsg packet :: r₁ →
        ∃ es b' r', r₂ = .dispatchedMsg packet :: es ++ r' ∧
          RawReaction p crypto.sessionKey b packet es b')
      (System.initial connection crypto) acts := by
  intro acts₁ acts₂ s hacts hrun l₁ l₂ r₁ r₂ frame encrypt b hsecond
  have hturns := (turns_run p fuel connection crypto acts acts₁ acts₂ s hacts hrun).turns
  constructor
  -- the packet stands behind its frame, so the frame decodes to it, here and there
  · intro packet hfirst
    rw [List.append_cons] at hfirst
    obtain ⟨l', frame', encrypt', b', data, hl, hreceived, hproto⟩ := hturns.dispatchedProto hfirst
    cases snoc_inj hl
    exact (hturns.dispatchesFrames.proto l₂ frame encrypt b r₂ hsecond packet).mpr
      ⟨data, hreceived, hproto⟩
  · intro packet hfirst
    rw [List.append_cons] at hfirst
    obtain ⟨l', frame', encrypt', b', data, hl, hreceived, hraw⟩ := hturns.dispatchedMsg hfirst
    cases snoc_inj hl
    exact (hturns.dispatchesFrames.raw l₂ frame encrypt b r₂ hsecond packet).mpr
      ⟨data, hreceived, hraw⟩

end

end SteamMin.Client
