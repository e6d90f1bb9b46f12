/-
  WHAT THE PEER HEARS.

  A message goes a long way: it is serialized, sealed if the channel is secured, handed to the
  connection, queued, framed, and written in pieces.  The peer goes it backwards: it cuts the bytes it
  receives into frames and opens each frame, with the session key if the channel was secured.

  `peer_hears_run` is about the whole way.  While the connection stays CONNECTED, the frames the peer
  can cut are as many of the messages the client sent, the first ones, in their order; each opens to
  its message and to nothing else; and the rest are only late, for when no write is outstanding the
  peer has them all.
-/
import SteamMin.Client.Causes
import SteamMin.Client.Outbound

namespace SteamMin.Client

open Messages Crypto
open Runs (EveryState)

/-! ## Messages and frames -/

/-- The peer gets the message out of the body of a frame, and no other. -/
def Hears (p : Platform) (key body : Bytes) (message : Bytes × Bool) : Prop :=
  if message.2 then
    ∀ text, Helpers.symmetricDecryptHmacIv p.cryptoPP body key (key.take 16) = .ok text
      ↔ text = message.1
  else body = message.1

section
variable {p : Platform} {key : Bytes}

/-- What carries a message is heard as it. -/
theorem Carries.hears (hc : p.cryptoPP.Lawful) (hkey : key.length = 32) {message buffer : Bytes}
    {b : Bool} (h : Carries p key b message buffer) : Hears p key buffer (message, b) := by
  cases b with
  | true => exact h.opens hc hkey
  | false => exact h

/-- If each buffer carries its message, they are heard one for one. -/
theorem forall₂_hears {es : List Entry} (h : ∀ message buffer b, .handed message buffer b ∈ es →
    Hears p key buffer (message, b)) :
    List.Forall₂ (Hears p key) (es.flatMap Entry.handedOn) (spoken es) := by
  induction es with
  | nil => exact .nil
  | cons e es ih =>
    have hrest := ih fun message buffer b hmem => h message buffer b (List.mem_cons_of_mem e hmem)
    cases e with
    | handed message buffer b => exact .cons (h message buffer b List.mem_cons_self) hrest
    | _ => exact hrest

/-- The first of the buffers are heard as the first of the messages. -/
theorem hears_of_prefix {buffers bodies : List Bytes} {messages : List (Bytes × Bool)}
    (h : List.Forall₂ (Hears p key) buffers messages) (hbodies : bodies <+: buffers) :
    ∃ first, first <+: messages ∧ List.Forall₂ (Hears p key) bodies first := by
  refine ⟨messages.take bodies.length, List.take_prefix _ _, ?_⟩
  have htake := List.forall₂_take bodies.length h
  rwa [← List.prefix_iff_eq_take.mp hbodies] at htake

end

/-! ## Whole runs -/

/-- **What the peer hears**: of a client whose connection stays CONNECTED, with nothing to write at
    first and no buffer of 4 GiB, the frames of what the socket has accepted since are heard as the
    first messages the client has sent since, in their order; and as all of them, with nothing left
    over, when no write is outstanding. -/
theorem peer_hears_run {p : Platform} (hc : p.cryptoPP.Lawful) {fuel : Nat}
    {connection : Net.Connection} {crypto : EncryptionManager}
    {acts₀ acts : List (Act Net.Lookup Net.Act)} {s s' : System Net.Connection Net.Lookup}
    (hrun₀ : Runs.run (step p fuel) (System.initial connection crypto) acts₀ = some s)
    (hqueue : s.client.connection.writeQueue = []) (hwrites : s.client.connection.writes = [])
    (hconnected : EveryState (step p fuel)
      (fun s'' : System Net.Connection Net.Lookup => s''.client.connection.state = .connected) s acts)
    (hrun : Runs.run (step p fuel) s acts = some s')
    (hsize : ∀ buffer ∈ s'.client.log.flatMap Entry.handedOn, buffer.length < 2 ^ 32) :
    ∃ es accepted, s'.client.log = s.client.log ++ es ∧
      s'.client.connection.sent = s.client.connection.sent ++ accepted ∧
      ∀ bodies rest, Framing.Decomposes Net.wire accepted bodies rest →
        ∃ first, first <+: spoken es ∧
          List.Forall₂ (Hears p crypto.sessionKey) bodies first ∧
          (s'.client.connection.writes = [] → first = spoken es ∧ rest = []) := by
  have hstart : OnItsWay s.client.log s.client.connection.sent s.client.channel :=
    OnItsWay.starts hqueue hwrites
  obtain ⟨es, accepted, hlog, hsent, hprefix, hall⟩ :=
    (onItsWay_acts hstart hconnected hrun).written (hconnected.last hrun)
  refine ⟨es, accepted, hlog, hsent, fun bodies rest hcut => ?_⟩
  -- the accepted bytes are the start of the stream of all buffers, so they cut into the first of them
  have hstream : Framing.Decomposes Net.wire (writtenFor es) (es.flatMap Entry.handedOn) [] := by
    refine Net.decomposes_stream fun buffer hmem => hsize buffer ?_
    rw [hlog, List.flatMap_append]
    exact List.mem_append_right _ hmem
  have hbodies : bodies <+: es.flatMap Entry.handedOn := hcut.isPrefix hstream hprefix
  -- and each buffer carries its message
  have hruns : Runs.run (step p fuel) (System.initial connection crypto) (acts₀ ++ acts) = some s' :=
    Runs.run_append_of hrun₀ hrun
  have hturns := (turns_run p fuel connection crypto (acts₀ ++ acts) (acts₀ ++ acts) [] s'
    (List.append_nil _).symm hruns).turns
  have hhears : List.Forall₂ (Hears p crypto.sessionKey) (es.flatMap Entry.handedOn) (spoken es) := by
    refine forall₂_hears fun message buffer b hmem => ?_
    obtain ⟨l, r, hsplit⟩ := List.append_of_mem hmem
    have hentry : s'.client.log = (s.client.log ++ l) ++ .handed message buffer b :: r := by
      rw [hlog, hsplit, List.append_assoc]
    obtain ⟨-, -, -, -, hcarries⟩ := hturns.prompted hentry
    exact hcarries.hears hc crypto.sessionKey_length
  obtain ⟨first, hfirst, hheard⟩ := hears_of_prefix hhears hbodies
  refine ⟨first, hfirst, hheard, fun hidle => ?_⟩
  -- no write is outstanding: the bytes are the whole stream, and it is cut in one way only
  rw [hall hidle] at hcut
  obtain ⟨rfl, rfl⟩ := hstream.unique hcut
  refine ⟨hfirst.eq_of_length ?_, rfl⟩
  rw [← hheard.length_eq, hhears.length_eq]

/-- The handshake is answered in the clear, and the login behind it goes out in an envelope. -/
theorem peer_hears_loggingIn :
    ∃ s s' es accepted, Runs.run (step samplePlatform 8) System.onTcp connecting = some s ∧
      Runs.run (step samplePlatform 8) s loggingIn = some s' ∧
      s'.client.log = s.client.log ++ es ∧
      s'.client.connection.sent = s.client.connection.sent ++ accepted ∧
      ∀ bodies rest, Framing.Decomposes Net.wire accepted bodies rest →
        ∃ first, first <+: spoken es ∧ List.Forall₂ (Hears samplePlatform
          (EncryptionManager.new ⟨fun i => UInt8.ofNat i⟩).sessionKey) bodies first := by
  have hruns : (Runs.run (step samplePlatform 8) System.onTcp connecting).any (fun s =>
      decide (s.client.connection.writeQueue = []) && decide (s.client.connection.writes = []) &&
      decide (EveryState (step samplePlatform 8)
        (fun s : System Net.Connection Net.Lookup => s.client.connection.state = .connected) s
        loggingIn) &&
      (Runs.run (step samplePlatform 8) s loggingIn).any fun s' =>
        decide (∀ buffer ∈ s'.client.log.flatMap Entry.handedOn, buffer.length < 2 ^ 32)) = true := by
    decide +kernel
  obtain ⟨s, hrun₀, hs⟩ := (Option.any_eq_true _ _).mp hruns
  simp only [Bool.and_eq_true, decide_eq_true_eq] at hs
  obtain ⟨⟨⟨hqueue, hwrites⟩, hstates⟩, hend⟩ := hs
  obtain ⟨s', hrun, hsize⟩ := (Option.any_eq_true _ _).mp hend
  have hconnecting : Runs.run (step samplePlatform 8)
      (System.initial .initial (.new ⟨fun i => UInt8.ofNat i⟩)) connecting = some s := hrun₀
  obtain ⟨es, accepted, hlog, hsent, hheard⟩ := peer_hears_run (p := samplePlatform)
    lawful_sampleCryptoPP hconnecting hqueue hwrites hstates hrun (of_decide_eq_true hsize)
  refine ⟨s, s', es, accepted, hrun₀, hrun, hlog, hsent, fun bodies rest hcut => ?_⟩
  obtain ⟨first, hfirst, hhears, -⟩ := hheard bodies rest hcut
  exact ⟨first, hfirst, hhears⟩

end SteamMin.Client
