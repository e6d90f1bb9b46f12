/-
  WHERE THE RANDOM BYTES GO.

  A client has one random pool.  It gives the session key when the client is made, three bytes to each
  envelope, and whatever RSA asks for.  Envelopes are written from many places: commands, answers to
  the peer, and callbacks inside both.  All of them draw from the same pool, which only moves forward.

  So each envelope has a stretch of the pool to itself: no two overlap, none overlaps the session key,
  and they come in the order in which the messages were handed on (`randomness_fresh_run`).

  The client is seen as its keys, its pool and its record (`Sealing`).  Seen so, every function of it
  is a run of three kinds of steps: something is recorded, bytes are drawn for something else, or an
  envelope is written and recorded.
-/
import SteamMin.Client.JournalRefinement

namespace SteamMin.Crypto.RandomPool

/-! ## The pool

  A pool is the tape of all the bytes it will ever give out; drawing moves its start. -/

/-- The pool behind its first `n` bytes. -/
def skip (pool : RandomPool) (n : Nat) : RandomPool := ⟨fun i => pool.tape (n + i)⟩

/-- The `n` bytes from `pos` on. -/
def stretch (pool : RandomPool) (pos n : Nat) : Bytes :=
  (List.range n).map fun i => pool.tape (pos + i)

/-- Taking nothing leaves the pool. -/
theorem skip_zero (pool : RandomPool) : pool.skip 0 = pool := by
  simp only [skip, Nat.zero_add]

/-- Taking twice is taking the sum. -/
theorem skip_skip (pool : RandomPool) (m n : Nat) : (pool.skip m).skip n = pool.skip (m + n) := by
  simp only [skip, Nat.add_assoc]

/-- Positions behind what was taken are positions of the pool itself. -/
theorem stretch_skip (pool : RandomPool) (m pos n : Nat) :
    (pool.skip m).stretch pos n = pool.stretch (m + pos) n := by
  simp only [stretch, skip, Nat.add_assoc]

end SteamMin.Crypto.RandomPool

namespace SteamMin.Client

open Messages Crypto
open Runs (EveryState)
open Relation (ReflTransGen)

/-- RSA takes the next bytes of the pool, as many as it needs. -/
def DrawsForward (c : CryptoPP) : Prop :=
  ∀ key data pool, ∃ n, (c.rsaesOaepSha key data pool).2 = pool.skip n

/-! ## Keys, pool and record

  Of a client only its crypto state and its record matter here.  What happens to them comes down to
  three steps: something else is recorded, bytes are drawn, or a message is sealed with the next
  three and recorded. -/

/-- What the envelopes of a client depend on: its key with the pool, and its log. -/
structure Sealing where
  crypto : EncryptionManager
  log : List Entry

/-- A message and the envelope it was handed on in. -/
def Entry.envelope : Entry → List (Bytes × Bytes)
  | .handed message buffer true => [(message, buffer)]
  | _ => []

/-- The envelopes of a record, in their order. -/
def envelopes (log : List Entry) : List (Bytes × Bytes) := log.flatMap Entry.envelope

/-- An entry adds its envelope, if it is one. -/
theorem envelopes_snoc (l : List Entry) (e : Entry) :
    envelopes (l ++ [e]) = envelopes l ++ e.envelope := by
  rw [envelopes, List.flatMap_append, List.flatMap_singleton, envelopes]

/-- Bytes are drawn; the keys stay. -/
def Draws (m m' : EncryptionManager) : Prop := ∃ n, m' = { m with rng := m.rng.skip n }

/-- What a client can do with its pool and its record. -/
inductive Sealing.Step (p : Platform) : Sealing → Sealing → Prop
  | recorded {m : EncryptionManager} {l : List Entry} {e : Entry} (he : e.envelope = []) :
      Step p ⟨m, l⟩ ⟨m, l ++ [e]⟩
  | drawn {m m' : EncryptionManager} {l : List Entry} (hm' : Draws m m') : Step p ⟨m, l⟩ ⟨m', l⟩
  /-- three bytes go into an envelope, which is handed on -/
  | wrapped {m : EncryptionManager} {l : List Entry} {message buffer : Bytes}
      (hbuffer : buffer = Helpers.envelope p.cryptoPP m.sessionKey (m.sessionKey.take 16) message
        (m.rng.stretch 0 3)) :
      Step p ⟨m, l⟩ ⟨{ m with rng := m.rng.skip 3 }, l ++ [.handed message buffer true]⟩

section
variable {C E : Type}

/-- The part of the client that the argument is about. -/
def CMClient.sealing (c : CMClient C E) : Sealing := ⟨c.crypto, c.log⟩

/-- The call is a run of these steps. -/
abbrev Wraps (p : Platform) {α : Type} (x : Calling C E α) : Prop :=
  Calls.Refines (Sealing.Step p) CMClient.sealing x

variable {p : Platform}

/-- Recording anything but an envelope seals nothing. -/
theorem wraps_record {e : Entry} (he : e.envelope = []) :
    Wraps p (record e : Calling C E Unit) :=
  Calls.refines_modify fun _ => .single (.recorded he)

/-- Reading the state seals nothing. -/
theorem wraps_get : Wraps p (get : Calling C E (CMClient C E)) :=
  Calls.refines_of_view_eq fun _ => rfl

/-- Caught or not, what was drawn is drawn. -/
theorem wraps_catchStd {α : Type} {x : Calling C E α} {handler : Exn → Calling C E α}
    (hx : Wraps p x) (hhandler : ∀ e, Wraps p (handler e)) : Wraps p (catchStd x handler) := by
  refine Calls.refines_tryCatch hx fun fault => ?_
  cases fault with
  | throws e => exact hhandler e
  | undefined => exact Calls.refines_throw _
  | diverges => exact Calls.refines_throw _

/-- The same for a call whose exception is kept as a value. -/
theorem wraps_attempt {x : Calling C E Unit} (hx : Wraps p x) : Wraps p (attempt x) :=
  wraps_catchStd (Calls.refines_bind hx fun _ => Calls.refines_pure _) fun _ => Calls.refines_pure _

/-- What only draws bytes is a run of steps. -/
theorem wraps_onCrypto {α : Type} {x : EStateM Fault EncryptionManager α}
    (hx : Calls.Refines Draws id x) : Wraps p (onCrypto x : Calling C E α) := by
  intro c
  have hafter : (Calls.after (onCrypto x c)).sealing = ⟨Calls.after (x c.crypto), c.log⟩ := by
    rw [onCrypto, Calls.zoom]
    cases x c.crypto <;> rfl
  rw [hafter]
  have hlift : ∀ m m', Draws m m' → Sealing.Step p ⟨m, c.log⟩ ⟨m', c.log⟩ := fun _ _ => .drawn
  exact ReflTransGen.lift (Sealing.mk · c.log) hlift _ _ (hx c.crypto)

/-- RSA draws what it needs. -/
theorem draws_rsa (hrsa : DrawsForward p.cryptoPP) (key data : Bytes) :
    Calls.Refines Draws id
      (EncryptionManager.drawing (Helpers.rsaEncryptOaepSha1 p.cryptoPP key data)) := by
  intro m
  obtain ⟨n, hpool⟩ := hrsa key data m.rng
  refine .single ⟨n, ?_⟩
  rw [EncryptionManager.drawing, Calls.zoom, Helpers.rsaEncryptOaepSha1]
  rcases hrun : p.cryptoPP.rsaesOaepSha key data m.rng with ⟨r, pool⟩
  rw [hrun] at hpool
  obtain rfl : pool = m.rng.skip n := hpool
  cases r <;> rfl

/-- The answer to a request draws what RSA takes, and nothing else: the session key is as old as
    the client. -/
theorem draws_generateEncryptionResponse (hrsa : DrawsForward p.cryptoPP) (packet : PacketMsg) :
    Calls.Refines Draws id (EncryptionManager.generateEncryptionResponse p packet) := by
  refine Calls.refines_bind (Calls.refines_lift _) fun challenge => ?_
  refine Calls.refines_get_bind fun m => ?_
  exact Calls.refines_bind (draws_rsa hrsa _ _) (fun _ => Calls.refines_pure _) m

/-- An envelope takes the next three bytes. -/
theorem processOutgoing_wraps (hc : p.cryptoPP.Lawful) (message : Bytes) (m : EncryptionManager) :
    EncryptionManager.processOutgoingEncryptedMessage p message m
      = .ok (Helpers.envelope p.cryptoPP m.sessionKey (m.sessionKey.take 16) message
          (m.rng.stretch 0 3)) { m with rng := m.rng.skip 3 } := by
  rw [processOutgoing_eq, EncryptionManager.drawing, Calls.zoom,
    Helpers.symmetricEncryptHmacIv_eq hc m.sessionKey_length message m.rng]
  simp only [RandomPool.stretch, RandomPool.skip, Nat.zero_add]
  rfl

/-! ## The calls of the client

  Each of them is a run of these steps, whatever the listeners do. -/

/-- Registering a listener seals nothing. -/
theorem wraps_on (type : EventType) (callback : Listener E) :
    Wraps p (on type callback : Calling C E Unit) :=
  Calls.refines_of_view_eq fun _ => rfl

variable [IConnection C E]

/-- Starting a session seals nothing, whatever the network does. -/
theorem wraps_startSession (net : E) : Wraps p (startSession net : Calling C E Unit) := by
  intro c
  have hcalled : Sealing.Step p c.sealing ⟨c.crypto, c.log ++ [.startCalled]⟩ := .recorded rfl
  refine .head hcalled ?_
  rw [startSession, record, Calls.modify_bind, Calls.get_bind]
  dsimp only
  cases IConnection.networkConnect net (IConnection.setOnFrame c.connection) with
  | error e k => exact .refl
  | ok u k =>
    by_cases hstate : IConnection.state c.connection = .disconnected
    · rw [if_pos hstate]
      exact .single (.recorded rfl)
    · rw [if_neg hstate]
      exact .refl

/-- Closing seals nothing. -/
theorem wraps_shutdown : Wraps p (shutdown : Calling C E Unit) := by
  refine Calls.refines_bind (wraps_record rfl) fun _ => Calls.refines_of_view_eq fun c => ?_
  show CMClient.sealing (if IConnection.isConnected c.connection then _ else _) = _
  split <;> rfl

/-- **One message**: in the clear it goes as it is, otherwise in an envelope of its own. -/
theorem wraps_sendMsgImpl (hc : p.cryptoPP.Lawful) (message : Bytes) :
    Wraps p (sendMsgImpl p message : Calling C E Unit) := by
  intro c
  cases hsecured : c.channelSecured with
  | false =>
    have hout : outgoing p message c.channelSecured c = .ok message c := by
      rw [hsecured]
      rfl
    rw [sendMsgImpl_ok hout, hsecured]
    exact .single (.recorded rfl)
  | true =>
    have hout : outgoing p message c.channelSecured c
        = .ok (Helpers.envelope p.cryptoPP c.crypto.sessionKey (c.crypto.sessionKey.take 16) message
            (c.crypto.rng.stretch 0 3))
          { c with crypto := { c.crypto with rng := c.crypto.rng.skip 3 } } := by
      rw [outgoing, if_pos hsecured, onCrypto, Calls.zoom, processOutgoing_wraps hc]
    rw [sendMsgImpl_ok hout, hsecured]
    exact .single (.wrapped rfl)

/-- Sending seals at most one message, with a vector drawn for it. -/
theorem wraps_sendMsg (hc : p.cryptoPP.Lawful) (serialized : Except Fault Bytes) :
    Wraps p (sendMsg p serialized : Calling C E Unit) :=
  Calls.refines_bind (Calls.refines_lift _) fun _ => wraps_sendMsgImpl hc _

variable {emit : Event → Calling C E Unit}

/-- A command sends at most one message. -/
theorem wraps_execute (hc : p.cryptoPP.Lawful) (hemit : ∀ event, Wraps p (emit event))
    (command : Command) : Wraps p (execute p emit command) := by
  refine Calls.refines_bind wraps_get fun c => Calls.refines_bind (wraps_record rfl) fun _ => ?_
  cases command with
  | anonymousLogin =>
    refine Calls.refines_bind wraps_get fun c => ?_
    split
    · exact hemit _
    · exact wraps_sendMsg hc _
  | clientLogoff =>
    refine Calls.refines_bind wraps_get fun c => ?_
    split
    · exact Calls.refines_pure _
    · exact wraps_sendMsg hc _
  | getProductInfo id steamid clientSessionid appToken =>
    have hjobid : Wraps p (generateJobid : Calling C E UInt64) :=
      Calls.refines_of_view_eq fun _ => rfl
    exact Calls.refines_bind hjobid fun jobid => wraps_sendMsg hc _

/-- A listener runs commands one behind the other. -/
theorem wraps_runScript (hc : p.cryptoPP.Lawful) (hemit : ∀ event, Wraps p (emit event))
    (script : Script E) : Wraps p (runScript p emit script) := by
  induction script with
  | ret => exact Calls.refines_pure _
  | raise e => exact Calls.refines_throw _
  | startSession net next ih =>
    exact Calls.refines_bind (wraps_attempt (wraps_startSession net)) ih
  | shutdown next ih => exact Calls.refines_bind wraps_shutdown fun _ => ih
  | isConnected next ih => exact Calls.refines_bind wraps_get fun c => ih _
  | execute command next ih =>
    exact Calls.refines_bind (wraps_attempt (wraps_execute hc hemit command)) ih
  | on type callback next _ ih => exact Calls.refines_bind (wraps_on type callback) fun _ => ih

/-- **Callbacks** do nothing else either, however deep they nest. -/
theorem wraps_emit (hc : p.cryptoPP.Lawful) (fuel : Nat) :
    ∀ event, Wraps p (Client.emit p fuel event : Calling C E Unit) := by
  induction fuel with
  | zero =>
    intro event
    unfold Client.emit
    refine Calls.refines_bind (wraps_record rfl) fun _ => Calls.refines_bind wraps_get fun c => ?_
    split
    · exact Calls.refines_pure _
    · exact Calls.refines_throw _
  | succ fuel ih =>
    intro event
    unfold Client.emit
    refine Calls.refines_bind (wraps_record rfl) fun _ => Calls.refines_bind wraps_get fun c => ?_
    split
    · exact Calls.refines_pure _
    · exact wraps_catchStd (wraps_runScript hc ih _) fun _ => Calls.refines_pure _

/-! ## Frames

  The handlers, the dispatcher and `consume_frame` likewise.  Only the answer to the challenge
  draws anything besides the envelopes. -/

section
variable (hc : p.cryptoPP.Lawful) (hrsa : DrawsForward p.cryptoPP)
variable (hemit : ∀ event, Wraps p (emit event))
variable {consumeFrame : Bytes → Bool → Calling C E Unit}

include hc hrsa hemit in
/-- The answer to a request is one message, behind the bytes that RSA has drawn for it. -/
theorem wraps_handleEncryptRequest (packet : PacketMsg) :
    Wraps p (handleEncryptRequest emit p packet) := by
  refine wraps_catchStd ?_ fun e => hemit _
  exact Calls.refines_bind (wraps_onCrypto (draws_generateEncryptionResponse hrsa packet))
    fun response => wraps_sendMsg hc _

omit [IConnection C E] in
include hemit in
/-- The logon handler seals what its listeners send, and nothing itself. -/
theorem wraps_handleLogonResponse (packet : PacketClientMsgProtobuf) :
    Wraps p (handleLogonResponse emit p packet) :=
  Calls.refines_bind (Calls.refines_lift _) fun _ => hemit _

omit [IConnection C E] in
include hemit in
/-- The handler of product information seals what its listeners send. -/
theorem wraps_handleProdInfoResponse (packet : PacketClientMsgProtobuf) :
    Wraps p (handleProdInfoResponse emit p packet) := by
  refine Calls.refines_bind (Calls.refines_lift _) fun msg => ?_
  refine Calls.refines_bind (Calls.refines_lift _) fun apps => ?_
  exact Calls.refines_bind (Calls.refines_lift _) fun packages => hemit _

include hemit in
/-- The handler of the result sets the flag and emits. -/
theorem wraps_handleEncryptResult (packet : PacketMsg) :
    Wraps p (handleEncryptResult emit packet) := by
  refine Calls.refines_bind (Calls.refines_lift _) fun res => ?_
  refine Calls.refines_bind (Calls.refines_bind wraps_get fun c => ?_) fun _ => hemit _
  exact Calls.refines_bind (wraps_record rfl) fun _ => Calls.refines_of_view_eq fun _ => rfl

omit [IConnection C E] in
/-- The frames of a batch, one after the other. -/
theorem wraps_multiLoop (hconsume : ∀ frame, Wraps p (consumeFrame frame false)) (payload : Bytes)
    (fuel : Nat) : ∀ offset, Wraps p (multiLoop consumeFrame payload fuel offset) := by
  induction fuel with
  | zero => exact fun offset => Calls.refines_throw _
  | succ fuel ih =>
    intro offset
    rw [multiLoop]
    cases readFrame payload offset with
    | none => exact Calls.refines_pure _
    | some next => exact Calls.refines_bind (hconsume _) fun _ => ih next.2

include hc hrsa hemit in
/-- Raw handlers, through the table. -/
theorem wraps_dispatchMsg (packet : PacketMsg) :
    Wraps p (dispatchMsg (gDispatch emit p consumeFrame) emit packet) := by
  refine Calls.refines_bind (wraps_record rfl) fun _ => ?_
  show Wraps p (if packet.msgType.toNat ≤ MAX_EMSG then _ else pure ())
  split
  · refine Calls.refines_lift_bind fun fn hfn => ?_
    rcases msgHandler_cases hfn with rfl | rfl | rfl
    · exact wraps_handleEncryptRequest hc hrsa hemit packet
    · exact wraps_handleEncryptResult hemit packet
    · exact hemit _
  · exact Calls.refines_pure _

include hemit in
/-- Protobuf handlers, through the table; a batch goes back to `consume_frame`. -/
theorem wraps_dispatchProto (hconsume : ∀ frame, Wraps p (consumeFrame frame false))
    (packet : PacketClientMsgProtobuf) :
    Wraps p (dispatchProto (gDispatch emit p consumeFrame) emit packet) := by
  refine Calls.refines_bind (wraps_record rfl) fun _ => ?_
  show Wraps p (if (getMsg packet.msgType).toNat ≤ MAX_EMSG then _ else pure ())
  split
  · refine Calls.refines_lift_bind fun fn hfn => ?_
    rcases protoHandler_cases hfn with ⟨-, rfl⟩ | rfl | ⟨-, rfl⟩ | rfl
    · show Wraps p (handleMulti p consumeFrame packet)
      rw [handleMulti_eq]
      exact Calls.refines_bind (Calls.refines_lift _) fun payload =>
        wraps_multiLoop hconsume payload _ 0
    · exact wraps_handleLogonResponse hemit packet
    · exact wraps_handleProdInfoResponse hemit packet
    · exact hemit _
  · exact Calls.refines_pure _

include hc hrsa hemit in
/-- **Frames**, and the frames in them. -/
theorem wraps_consumeFrame (fuel : Nat) :
    ∀ frame encrypt, Wraps p (Client.consumeFrame emit p fuel frame encrypt) := by
  induction fuel with
  | zero => exact fun frame encrypt => Calls.refines_throw _
  | succ fuel ih =>
    intro frame encrypt
    unfold Client.consumeFrame
    split
    · exact Calls.refines_pure _
    · refine Calls.refines_bind wraps_get fun c => Calls.refines_bind (wraps_record rfl) fun _ => ?_
      have hdata : ∀ x : Except Fault Bytes, Wraps p (Calls.lift x : Calling C E Bytes) :=
        fun x => Calls.refines_lift x
      refine Calls.refines_bind (by split; exacts [hdata _, Calls.refines_pure _]) fun data => ?_
      refine Calls.refines_bind (Calls.refines_lift _) fun emsg => ?_
      refine wraps_catchStd ?_ fun _ => Calls.refines_pure _
      rw [dispatchFrame]
      split
      · exact Calls.refines_bind (Calls.refines_lift _) fun raw =>
          wraps_dispatchMsg hc hrsa hemit raw
      · split
        · exact Calls.refines_bind (Calls.refines_lift _) fun proto =>
            wraps_dispatchProto hemit (fun frame => ih frame false) proto
        · exact Calls.refines_pure _

end

end

/-! ## Whole runs

  The invariant puts the envelopes so far at places of the pool, one behind the other, and the
  pool behind them all. -/

/-- Each envelope was made with three bytes of the pool; their places are behind `start`, in order,
    and do not overlap. -/
structure MadeAt (c : CryptoPP) (key : Bytes) (pool : RandomPool) (start : Nat)
    (made : List (Bytes × Bytes)) (places : List Nat) : Prop where
  contents : List.Forall₂ (fun e place =>
    e.2 = Helpers.envelope c key (key.take 16) e.1 (pool.stretch place 3)) made places
  apart : places.Pairwise fun a b => a + 3 ≤ b
  behind : ∀ place ∈ places, start ≤ place

/-- So it is for the envelopes so far, and the pool stands behind all of them. -/
structure Fresh (c : CryptoPP) (key : Bytes) (pool : RandomPool) (start : Nat) (s : Sealing) :
    Prop where
  sessionKey : s.crypto.sessionKey = key
  places : ∃ n places, start ≤ n ∧ s.crypto.rng = pool.skip n ∧
    MadeAt c key pool start (envelopes s.log) places ∧ ∀ place ∈ places, place + 3 ≤ n

section
variable {p : Platform} {key : Bytes} {pool : RandomPool} {start : Nat} {s s' : Sealing}

/-- **Step lemma**: what is drawn is not drawn again. -/
theorem Fresh.step (h : Fresh p.cryptoPP key pool start s) (hstep : Sealing.Step p s s') :
    Fresh p.cryptoPP key pool start s' := by
  obtain ⟨hkey, n, places, hstart, hrng, hmade, hbelow⟩ := h
  cases hstep with
  | recorded he =>
    refine ⟨hkey, n, places, hstart, hrng, ?_, hbelow⟩
    rw [envelopes_snoc, he, List.append_nil]
    exact hmade
  | drawn hm' =>
    -- the pool moves on, further behind the places there are
    obtain ⟨k, rfl⟩ := hm'
    refine ⟨hkey, n + k, places, by omega, ?_, hmade, ?_⟩
    · rw [← RandomPool.skip_skip, ← hrng]
    · intro place hplace
      have hle := hbelow place hplace
      omega
  | @wrapped m l message buffer hbuffer =>
    -- the new place is where the pool stands
    refine ⟨hkey, n + 3, places ++ [n], by omega, ?_, ⟨?_, ?_, ?_⟩, ?_⟩
    · rw [← RandomPool.skip_skip, ← hrng]
    · rw [envelopes_snoc]
      refine List.rel_append hmade.contents (.cons ?_ .nil)
      rw [hbuffer, hrng, RandomPool.stretch_skip]
      rw [show m.sessionKey = key from hkey, Nat.add_zero]
    · rw [List.pairwise_append]
      refine ⟨hmade.apart, List.pairwise_singleton _ _, fun a ha b hb => ?_⟩
      rw [List.mem_singleton.mp hb]
      exact hbelow a ha
    · intro place hplace
      rcases List.mem_append.mp hplace with hold | hnew
      · exact hmade.behind place hold
      · rw [List.mem_singleton.mp hnew]
        exact hstart
    · intro place hplace
      rcases List.mem_append.mp hplace with hold | hnew
      · have hle := hbelow place hold
        omega
      · rw [List.mem_singleton.mp hnew]

/-- The run lemma: whatever steps were taken, every envelope so far used a stretch of the pool of
    its own, behind the ones before it. -/
theorem Fresh.run (h : Fresh p.cryptoPP key pool start s)
    (hrun : ReflTransGen (Sealing.Step p) s s') : Fresh p.cryptoPP key pool start s' := by
  induction hrun with
  | refl => exact h
  | tail _ hlast ih => exact ih.step hlast

end

section
variable {C E M : Type} [Transport C E M] {p : Platform} {fuel : Nat}

/-- The moves of the transport draw nothing. -/
theorem step_sealing (hc : p.cryptoPP.Lawful) (hrsa : DrawsForward p.cryptoPP) {s s' : System C E}
    {a : Act E M} (h : step p fuel s a = some s') :
    ReflTransGen (Sealing.Step p) s.client.sealing s'.client.sealing := by
  unfold step at h
  split at h
  · cases h
  · cases a with
    | startSession net =>
      cases h
      rw [client_settle]
      exact wraps_startSession net _
    | shutdown =>
      cases h
      rw [client_settle]
      exact wraps_shutdown _
    | on type callback =>
      cases h
      rw [client_settle]
      exact wraps_on type callback _
    | execute command =>
      cases h
      rw [client_settle]
      exact wraps_execute hc (wraps_emit hc fuel) command _
    | transport m =>
      dsimp only at h
      rcases hmove : Transport.move s.client.connection m with _ | ⟨k, _ | frame⟩
      · rw [hmove] at h
        cases h
      · rw [hmove] at h
        cases h
        exact .refl
      · rw [hmove] at h
        cases h
        -- behind the frame the transport is told what was thrown, which is not the client's
        obtain ⟨k', hafter, -⟩ := after_onFrame p fuel frame { s.client with connection := k }
        rw [client_settle, hafter]
        exact wraps_consumeFrame hc hrsa (wraps_emit hc fuel) fuel frame true
          { s.client with connection := k }

/-- **No random byte is used twice**: in every state of every run of a new client, each envelope that
    was handed on was made with three bytes of the random pool that lie behind the 32 bytes of the
    session key, and behind those of every envelope before it. -/
theorem randomness_fresh_run (hc : p.cryptoPP.Lawful) (hrsa : DrawsForward p.cryptoPP) (fuel : Nat)
    (connection : C) (pool : RandomPool) (acts : List (Act E M)) :
    EveryState (step p fuel) (fun s => ∃ places,
      MadeAt p.cryptoPP (pool.stretch 0 32) pool 32 (envelopes s.client.log) places)
      (System.initial connection (.new pool)) acts := by
  -- the constructor has drawn the session key
  have hrng : ∀ m : EncryptionManager, m = .new pool → m.rng = pool.skip 32 := by
    rintro m rfl
    rfl
  have hkey : (EncryptionManager.new pool).sessionKey = pool.stretch 0 32 := by
    simp only [EncryptionManager.new, RandomPool.stretch, Nat.zero_add]
  have hstart : Fresh p.cryptoPP (pool.stretch 0 32) pool 32
      (System.initial (E := E) connection (.new pool)).client.sealing :=
    ⟨hkey, 32, [], Nat.le_refl 32, hrng _ rfl, ⟨.nil, .nil, fun _ h => absurd h List.not_mem_nil⟩,
      fun _ h => absurd h List.not_mem_nil⟩
  have hkeep : ∀ (s : System C E) (a : Act E M) (s' : System C E),
      Fresh p.cryptoPP (pool.stretch 0 32) pool 32 s.client.sealing → step p fuel s a = some s' →
      Fresh p.cryptoPP (pool.stretch 0 32) pool 32 s'.client.sealing :=
    fun s a s' hs hstep => hs.run (step_sealing hc hrsa hstep)
  have hruns : EveryState (step p fuel)
      (fun s : System C E => Fresh p.cryptoPP (pool.stretch 0 32) pool 32 s.client.sealing)
      (System.initial connection (.new pool)) acts :=
    Runs.everyState_of_invariant hkeep hstart acts
  intro acts₁ acts₂ s hacts hrun
  obtain ⟨n, places, -, -, hmade, -⟩ := (hruns acts₁ acts₂ s hacts hrun).places
  exact ⟨places, hmade⟩

end

/-- The sample library draws from the front of its pool. -/
theorem drawsForward_sample : DrawsForward sampleCryptoPP := by
  intro key data pool
  unfold sampleCryptoPP
  dsimp only [CryptoPP.ofCipher]
  split
  · exact ⟨20, rfl⟩
  · exact ⟨0, pool.skip_zero.symm⟩

/-- Two logins on a secured channel: two envelopes. -/
theorem randomness_fresh_logins :
    ∃ s places, Runs.run (step samplePlatform 8) System.onTcp
        (connecting ++ handshake ++ [.execute .anonymousLogin, .execute .anonymousLogin]) = some s ∧
      (envelopes s.client.log).length = 2 ∧
      MadeAt sampleCryptoPP (RandomPool.stretch ⟨fun i => UInt8.ofNat i⟩ 0 32)
        ⟨fun i => UInt8.ofNat i⟩ 32 (envelopes s.client.log) places := by
  have hrun : (Runs.run (step samplePlatform 8) System.onTcp (connecting ++ handshake ++
      [.execute .anonymousLogin, .execute .anonymousLogin])).any
        (fun s => decide ((envelopes s.client.log).length = 2)) = true := by
    decide +kernel
  obtain ⟨s, hrun, hlen⟩ := (Option.any_eq_true _ _).mp hrun
  have hfresh := randomness_fresh_run (p := samplePlatform) lawful_sampleCryptoPP drawsForward_sample
    8 Net.Connection.initial ⟨fun i => UInt8.ofNat i⟩ (connecting ++ handshake ++
      [.execute .anonymousLogin, .execute .anonymousLogin])
  obtain ⟨places, hmade⟩ := hfresh _ [] s (List.append_nil _).symm hrun
  exact ⟨s, places, hrun, of_decide_eq_true hlen, hmade⟩

end SteamMin.Client
