/-
  THE REQUESTS FOR PRODUCT INFORMATION, numbered.

  `generate_jobid` hands out a counter, and only `exec_get_product_info` asks it for a number.  What
  this means for the peer shows over a whole run: the request that was made after `n` others says so
  in its header (`Asks`), whatever was sent, received or thrown in between, so until the counter has
  gone round no two requests are the same (`requests_numbered_run`).

  A reader of a request is the code itself, `MsgProto<TBody>(PacketClientMsgProtobuf(message))`.

  The counter is one for the process and starts at 0; a run here is that of one client, so a
  request of a second client in the same process would find the counter further on.  Nothing but
  the distance between two numbers is used: they are different as long as fewer than 2^64 requests
  lie between.
-/
import SteamMin.Client.Causes
import SteamMin.Messages.WireReadBack

namespace SteamMin.Client

open Messages
open Runs (EveryState)

/-! ## Requests, read -/

/-- The message says who asks for which app, and the number of the request. -/
def Asks (p : Platform) (message : Bytes) (id : UInt32) (steamid : UInt64) (clientSessionid : Int32)
    (appToken jobid : UInt64) : Prop :=
  ∃ m, MsgProto.ofFrame p.protobuf.header p.protobuf.productInfoRequest message = .ok m ∧
    m.header.msg = EMsg.clientPICSProductInfoRequest ∧
    m.header.proto = { CMsgProtoBufHeader.new with
      steamid := some steamid, clientSessionid := some clientSessionid, jobidSource := some jobid } ∧
    m.body = ⟨[{ appid := some id, accessToken := some appToken }]⟩

section
variable {p : Platform} {id id' : UInt32} {steamid steamid' : UInt64}
  {clientSessionid clientSessionid' : Int32} {appToken appToken' jobid jobid' : UInt64}
  {message : Bytes}

/-- A message has one number. -/
theorem Asks.jobid_eq (h : Asks p message id steamid clientSessionid appToken jobid)
    (h' : Asks p message id' steamid' clientSessionid' appToken' jobid') : jobid = jobid' := by
  obtain ⟨m, hm, -, hproto, -⟩ := h
  obtain ⟨m', hm', -, hproto', -⟩ := h'
  obtain rfl := Except.ok.inj (hm.symm.trans hm')
  have hsource := congrArg CMsgProtoBufHeader.jobidSource (hproto.symm.trans hproto')
  exact Option.some.inj hsource

/-- A request that was built is read back as a request with its number. -/
theorem asks_of_message
    (hheader : ∀ m : CMsgProtoBufHeader, m.otherFields = [] → p.protobuf.header.ReadsBack m ∧
      ∀ data, p.protobuf.header.serializeToString m = some data → data.length < 2 ^ 31)
    (hbody : ∀ app, p.protobuf.productInfoRequest.ReadsBack ⟨[app]⟩)
    (h : Command.message p jobid (.getProductInfo id steamid clientSessionid appToken)
      = .ok message) : Asks p message id steamid clientSessionid appToken jobid := by
  obtain ⟨protoData, data, hproto, hdata, rfl⟩ := MsgProto.serialize_eq_ok h
  obtain ⟨hback, hlength⟩ := hheader
    (productInfoRequest id steamid clientSessionid appToken jobid).header.proto rfl
  have hpayload : (productInfoRequest id steamid clientSessionid appToken jobid).payload = [] := rfl
  rw [hpayload, List.append_nil]
  refine ⟨_, MsgProto.ofFrame_wire data ?_ (hlength protoData hproto) (hback protoData hproto),
    rfl, rfl, ?_⟩
  · show EMsg.clientPICSProductInfoRequest.toNat < 2 ^ 31
    decide
  · exact congrArg Prod.snd (hbody _ data hdata)

end

/-! ## Requests, counted -/

/-- Behind a request there is one more. -/
theorem requestCount_lt {l₁ l₂ r₁ r₂ : List Entry} {e₁ e₂ : Entry} {b : Bool} {id : UInt32}
    {steamid : UInt64} {clientSessionid : Int32} {appToken : UInt64}
    (h₁ : e₁ = .executed (.getProductInfo id steamid clientSessionid appToken) b)
    (hsplit : l₁ ++ e₁ :: r₁ = l₂ ++ e₂ :: r₂) (hlt : l₁.length < l₂.length) :
    requestCount l₁ < requestCount l₂ := by
  rcases List.append_eq_append_iff.mp hsplit with ⟨m, rfl, hm⟩ | ⟨m, rfl, -⟩
  · cases m with
    | nil =>
      rw [List.append_nil] at hlt
      exact absurd hlt (Nat.lt_irrefl _)
    | cons e m =>
      obtain ⟨rfl, -⟩ := List.cons.inj hm
      rw [requestCount_append, requestCount_cons, h₁]
      show requestCount l₁ < requestCount l₁ + (1 + requestCount m)
      omega
  · rw [List.length_append] at hlt
    omega

/-- Two places of requests have two numbers, until the counter has gone round. -/
theorem jobid_ne {l₁ l₂ : List Entry} {n : Nat} (hlt : requestCount l₁ < requestCount l₂)
    (hn : requestCount l₂ < n) (hbound : n ≤ 2 ^ 64) :
    UInt64.ofNat (requestCount l₁) ≠ UInt64.ofNat (requestCount l₂) := by
  intro heq
  have hnat := congrArg UInt64.toNat heq
  rw [UInt64.toNat_ofNat_of_lt' (show requestCount l₁ < 2 ^ 64 by omega),
    UInt64.toNat_ofNat_of_lt' (show requestCount l₂ < 2 ^ 64 by omega)] at hnat
  omega

/-- The request at this place of the record, and the message that was handed on for it. -/
structure RequestAt (log l : List Entry) (id : UInt32) (steamid : UInt64) (clientSessionid : Int32)
    (appToken : UInt64) (message : Bytes) : Prop where
  split : ∃ b buffer b' r, log = l ++ .executed (.getProductInfo id steamid clientSessionid appToken) b
    :: .handed message buffer b' :: r

/-- A request of the log is counted. -/
theorem RequestAt.lt {log l : List Entry} {id : UInt32} {steamid : UInt64} {clientSessionid : Int32}
    {appToken : UInt64} {message : Bytes}
    (h : RequestAt log l id steamid clientSessionid appToken message) :
    requestCount l < requestCount log := by
  obtain ⟨b, buffer, b', r, rfl⟩ := h.split
  rw [requestCount_append, requestCount_cons]
  show requestCount l < requestCount l + (1 + _)
  omega

/-! ## Runs -/

/-- The requests say their numbers, and differ until the counter has gone round. -/
structure Numbered (p : Platform) (log : List Entry) : Prop where
  asks : ∀ l id steamid clientSessionid appToken message,
    RequestAt log l id steamid clientSessionid appToken message →
    Asks p message id steamid clientSessionid appToken (UInt64.ofNat (requestCount l))
  differ : requestCount log ≤ 2 ^ 64 → ∀ l₁ l₂ id₁ id₂ steamid₁ steamid₂ clientSessionid₁
    clientSessionid₂ appToken₁ appToken₂ message₁ message₂, l₁.length < l₂.length →
    RequestAt log l₁ id₁ steamid₁ clientSessionid₁ appToken₁ message₁ →
    RequestAt log l₂ id₂ steamid₂ clientSessionid₂ appToken₂ message₂ → message₁ ≠ message₂

/-- **The requests are numbered** in every state of every run of a new client, if the peer can parse
    what protobuf serializes: the message handed on for a request says which app it asks for, who
    asks, and as its job id how many requests there were before; and no two messages are the same. -/
theorem requests_numbered_run {C E M : Type} [Transport C E M] {p : Platform}
    (hheader : ∀ m : CMsgProtoBufHeader, m.otherFields = [] → p.protobuf.header.ReadsBack m ∧
      ∀ data, p.protobuf.header.serializeToString m = some data → data.length < 2 ^ 31)
    (hbody : ∀ app, p.protobuf.productInfoRequest.ReadsBack ⟨[app]⟩) (fuel : Nat) (connection : C)
    (crypto : Crypto.EncryptionManager) (acts : List (Act E M)) :
    EveryState (step p fuel) (fun s => Numbered p s.client.log)
      (System.initial connection crypto) acts := by
  intro acts₁ acts₂ s hacts hrun
  have hturns := (turns_run p fuel connection crypto acts acts₁ acts₂ s hacts hrun).turns
  have hasks : ∀ l id steamid clientSessionid appToken message,
      RequestAt s.client.log l id steamid clientSessionid appToken message →
      Asks p message id steamid clientSessionid appToken (UInt64.ofNat (requestCount l)) := by
    rintro l id steamid clientSessionid appToken message ⟨b, buffer, b', r, hsplit⟩
    rw [List.append_cons] at hsplit
    -- a request stands behind its command, so it was built from it
    obtain ⟨l', cause, hl, hprompts, -⟩ := hturns.prompted hsplit
    obtain ⟨rfl, hcause⟩ := List.append_inj' hl rfl
    obtain rfl := List.singleton_inj.mp hcause
    cases hprompts with
    | command hsends hmessage => exact asks_of_message hheader hbody hmessage
  refine ⟨hasks, ?_⟩
  intro hbound l₁ l₂ id₁ id₂ steamid₁ steamid₂ sessionid₁ sessionid₂ token₁ token₂ message₁ message₂
    hlt h₁ h₂ heq
  have hasks₁ := hasks l₁ id₁ steamid₁ sessionid₁ token₁ message₁ h₁
  have hasks₂ := hasks l₂ id₂ steamid₂ sessionid₂ token₂ message₂ h₂
  rw [← heq] at hasks₂
  obtain ⟨b₁, buffer₁, b₁', r₁, hsplit₁⟩ := h₁.split
  obtain ⟨b₂, buffer₂, b₂', r₂, hsplit₂⟩ := h₂.split
  -- the later request has the larger count, and the counter has not gone round
  have hcount := requestCount_lt rfl (hsplit₁.symm.trans hsplit₂) hlt
  exact jobid_ne hcount h₂.lt hbound (hasks₁.jobid_eq hasks₂)

/-- The handshake of a client that is still writing: the first header is read in front of the write,
    the rest behind it. -/
def lateHandshake : List (Act Net.Lookup Net.Act) :=
  deliver 0 (LittleEndian.bytes 4 44 ++ Net.MAGIC) ++
  deliver 1 (rawMessage EMsg.channelEncryptRequest
    (LittleEndian.bytes 4 1 ++ LittleEndian.bytes 4 1 ++ List.replicate 16 7)) ++
  deliverFrame 1 (rawMessage EMsg.channelEncryptResult (LittleEndian.bytes 4 1))

/-- Two requests of a new client, one before and one after the channel is secured. -/
def twoRequests : List (Act Net.Lookup Net.Act) :=
  connecting ++ .execute (.getProductInfo 440 1 2 3) :: lateHandshake ++
    [.execute (.getProductInfo 440 1 2 3)]

/-- Two requests, the second one on a secured channel, through to the reached state. -/
theorem requests_numbered_twice :
    ∃ s, Runs.run (step wirePlatform 8) System.onTcp twoRequests = some s ∧
      (spoken s.client.log).map Prod.snd = [false, false, true] ∧
      requestCount s.client.log = 2 ∧ Numbered wirePlatform s.client.log := by
  have hrun : (Runs.run (step wirePlatform 8) System.onTcp twoRequests).any
      (fun s => decide ((spoken s.client.log).map Prod.snd = [false, false, true] ∧
        requestCount s.client.log = 2)) = true := by
    decide +kernel
  obtain ⟨s, hrun, hsent⟩ := (Option.any_eq_true _ _).mp hrun
  obtain ⟨hspoken, hcount⟩ := of_decide_eq_true hsent
  have hnumbered : EveryState (step wirePlatform 8) (fun s => Numbered wirePlatform s.client.log)
      System.onTcp twoRequests := by
    refine requests_numbered_run ?_ ?_ 8 Net.Connection.initial (.new ⟨fun i => UInt8.ofNat i⟩) _
    · intro m hm
      refine ⟨m.readsBack_wire hm, ?_⟩
      intro data hdata
      have hlength := m.length_wire hm
      obtain rfl := Option.some.inj hdata
      omega
    · exact fun app => CMsgClientPICSProductInfoRequest.readsBack_wire ⟨[app]⟩
  exact ⟨s, hrun, hspoken, hcount, hnumbered _ [] s (List.append_nil _).symm hrun⟩

end SteamMin.Client
