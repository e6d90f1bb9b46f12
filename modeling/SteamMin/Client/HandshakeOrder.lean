/-
  THE ORDER OF THE HANDSHAKE.

  The peer asks with a ChannelEncryptRequest, the client answers with a ChannelEncryptResponse, the
  peer accepts with a ChannelEncryptResult: a `ChannelSecuredEvent` is "emitted when the channel
  encryption handshake completes".  The two handlers share nothing but `channel_secured_`, so
  `handle_encrypt_result` cannot tell whether there was a request at all: it obeys every
  ChannelEncryptResult, whoever sent it and whenever.

  `Solicited` is what it would have to know.  The calls of `set_channel_secured` and the packets of
  type ChannelEncryptResult are the same places of the record (`voids_iff`), one entry apart, so the
  order of the handshake is kept by the client exactly if it is kept by the peer.

  A result is in order if the client has answered a request, and since then no session has begun
  and no verdict has come; how often the peer asked does not matter.  The run at the end is that of
  a peer that begins with its verdict.
-/
import SteamMin.Client.Record

namespace SteamMin.Client

open Messages Crypto
open Runs (EveryState)

/-! ## What the code promises -/

/-- A call of `set_channel_secured`. -/
def Entry.SetsFlag : Entry → Prop
  | .securedSet _ _ _ => True
  | _ => False

/-- In the session so far a ChannelEncryptRequest was answered with a ChannelEncryptResponse, and
    nothing has made that void since. -/
def Solicited (Voids : Entry → Prop) (log : List Entry) : Prop :=
  ∃ l request message buffer b m,
    log = l ++ .dispatchedMsg request :: .handed message buffer b :: m ∧
    request.msgType = EMsg.channelEncryptRequest ∧ IsHandshake message ∧
    ∀ e ∈ m, ¬ e.Begins ∧ ¬ Voids e

/-- The client keeps the order of the handshake. -/
structure HandshakeOrder (log : List Entry) : Prop where
  /-- the channel becomes secured once for an answer at most -/
  secures : ∀ l connected r, log = l ++ .securedSet true false connected :: r →
    Solicited Entry.SetsFlag l
  /-- success is announced behind an answer only -/
  announces : ∀ l event r, log = l ++ .emitted event :: r → event.IsSecured →
    Solicited (fun _ => False) l

/-! ## What the peer does -/

/-- A ChannelEncryptResult that can be decoded, whatever it says. -/
def Entry.IsVerdict : Entry → Prop
  | .dispatchedMsg packet =>
    packet.msgType = EMsg.channelEncryptResult ∧ (verdict packet).isSome = true
  | _ => False

/-- A ChannelEncryptResult that accepts. -/
def Accepts (packet : PacketMsg) : Prop :=
  packet.msgType = EMsg.channelEncryptResult ∧ verdict packet = some true

/-- The peer keeps the order of the handshake: it accepts in sessions with an answer only, and
    unless it has accepted before, it has said nothing else to that answer. -/
structure PeerInOrder (log : List Entry) : Prop where
  answered : ∀ l packet r, log = l ++ .dispatchedMsg packet :: r → Accepts packet →
    Solicited (fun _ => False) l
  first : ∀ l packet r, log = l ++ .dispatchedMsg packet :: r → Accepts packet →
    lastVerdict l = false → Solicited Entry.IsVerdict l

/-! ## Solicited -/

section
variable {Voids Voids' : Entry → Prop} {l : List Entry} {e : Entry}

/-- An entry that begins no session and voids no answer changes nothing. -/
theorem Solicited.snoc (h : Solicited Voids l) (hbegins : ¬ e.Begins) (hvoids : ¬ Voids e) :
    Solicited Voids (l ++ [e]) := by
  obtain ⟨l₀, request, message, buffer, b, m, rfl, hrequest, hmessage, hm⟩ := h
  refine ⟨l₀, request, message, buffer, b, m ++ [e], ?_, hrequest, hmessage, ?_⟩
  · rw [List.append_assoc, List.cons_append, List.cons_append]
  · intro e' he'
    rcases List.mem_append.mp he' with he' | he'
    · exact hm e' he'
    · obtain rfl := List.mem_singleton.mp he'
      exact ⟨hbegins, hvoids⟩

/-- The last entry is no answer, so the answer stands before it. -/
theorem Solicited.of_snoc (h : Solicited Voids (l ++ [e]))
    (hanswer : ∀ message buffer b, e ≠ .handed message buffer b) : Solicited Voids l := by
  obtain ⟨l₀, request, message, buffer, b, m, heq, hrequest, hmessage, hm⟩ := h
  rcases List.eq_nil_or_concat m with rfl | ⟨m', e', rfl⟩
  · rw [List.append_cons l₀] at heq
    obtain ⟨-, hlast⟩ := List.append_inj' heq rfl
    exact absurd (List.cons.inj hlast).1 (hanswer message buffer b)
  · rw [List.concat_eq_append, ← List.cons_append, ← List.cons_append, ← List.append_assoc] at heq
    obtain ⟨hl, -⟩ := List.append_inj' heq rfl
    refine ⟨l₀, request, message, buffer, b, m', hl, hrequest, hmessage, ?_⟩
    intro e'' he''
    apply hm e''
    rw [List.concat_eq_append]
    exact List.mem_append_left _ he''

end

/-! ## The two handlers in the record -/

variable {p : Platform} {C : Type} {ch : Channel C}

/-- Between an answer and the next packet there is a call of `set_channel_secured` just if there is
    a ChannelEncryptResult. -/
theorem Tracked.voids_iff (h : Tracked p ch) {l m r : List Entry} {message buffer : Bytes} {b : Bool}
    {packet : PacketMsg}
    (hlog : ch.log = l ++ .handed message buffer b :: m ++ .dispatchedMsg packet :: r) :
    (∃ e ∈ m, e.SetsFlag) ↔ ∃ e ∈ m, e.IsVerdict := by
  constructor
  · rintro ⟨e, he, hsets⟩
    obtain ⟨m₁, m₂, rfl⟩ := List.append_of_mem he
    cases e with
    | securedSet success b' connected =>
      -- the packet stands right before the call, and the answer is no packet
      have hsplit : ch.log = (l ++ .handed message buffer b :: m₁) ++
          .securedSet success b' connected :: (m₂ ++ .dispatchedMsg packet :: r) := by
        rw [hlog]
        simp only [List.append_assoc, List.cons_append]
      obtain ⟨l', packet', heq, htype, hverdict, -⟩ := h.fits hsplit
      rcases List.eq_nil_or_concat m₁ with rfl | ⟨m', e', rfl⟩
      · obtain ⟨-, hlast⟩ := List.append_inj' heq rfl
        cases (List.cons.inj hlast).1
      · rw [List.concat_eq_append, ← List.cons_append, ← List.append_assoc] at heq
        obtain ⟨-, hlast⟩ := List.append_inj' heq rfl
        obtain rfl := (List.cons.inj hlast).1
        refine ⟨.dispatchedMsg packet', ?_, htype, ?_⟩
        · rw [List.concat_eq_append, List.append_assoc]
          exact List.mem_append_right m' List.mem_cons_self
        · rw [hverdict]
          rfl
    | _ => exact hsets.elim
  · rintro ⟨e, he, hverdict⟩
    obtain ⟨m₁, m₂, rfl⟩ := List.append_of_mem he
    cases e with
    | dispatchedMsg packet' =>
      obtain ⟨htype, hsome⟩ := hverdict
      obtain ⟨success, hsuccess⟩ := Option.isSome_iff_exists.mp hsome
      have hsplit : ch.log = (l ++ .handed message buffer b :: m₁) ++
          .dispatchedMsg packet' :: (m₂ ++ .dispatchedMsg packet :: r) := by
        rw [hlog]
        simp only [List.append_assoc, List.cons_append]
      obtain ⟨connected, rest, hr⟩ := h.written hsplit htype hsuccess
      -- the call stands right behind the packet, and the next packet is no call
      cases m₂ with
      | nil => cases (List.cons.inj hr).1
      | cons e' m' =>
        obtain rfl := (List.cons.inj hr).1
        exact ⟨_, List.mem_append_right m₁ (List.mem_cons_of_mem _ List.mem_cons_self), trivial⟩
    | _ => exact hverdict.elim

/-- On a tracked log the flag was set exactly where a result had a verdict. -/
theorem Tracked.solicited_iff (h : Tracked p ch) {l r : List Entry} {packet : PacketMsg}
    (hlog : ch.log = l ++ .dispatchedMsg packet :: r) :
    Solicited Entry.SetsFlag l ↔ Solicited Entry.IsVerdict l := by
  -- behind the answer the flag was set exactly if a result had a verdict
  have hiff : ∀ {l₀ m : List Entry} {request : PacketMsg} {message buffer : Bytes} {b : Bool},
      l = l₀ ++ .dispatchedMsg request :: .handed message buffer b :: m →
      ((∃ e ∈ m, e.SetsFlag) ↔ ∃ e ∈ m, e.IsVerdict) := by
    intro l₀ m request message buffer b hl
    rw [List.append_cons] at hl
    rw [hl] at hlog
    exact h.voids_iff hlog
  constructor
  · rintro ⟨l₀, request, message, buffer, b, m, hl, hrequest, hmessage, hm⟩
    refine ⟨l₀, request, message, buffer, b, m, hl, hrequest, hmessage, ?_⟩
    intro e he
    refine ⟨(hm e he).1, ?_⟩
    intro hverdict
    obtain ⟨e', he', hsets⟩ := (hiff hl).mpr ⟨e, he, hverdict⟩
    exact (hm e' he').2 hsets
  · rintro ⟨l₀, request, message, buffer, b, m, hl, hrequest, hmessage, hm⟩
    refine ⟨l₀, request, message, buffer, b, m, hl, hrequest, hmessage, ?_⟩
    intro e he
    refine ⟨(hm e he).1, ?_⟩
    intro hsets
    obtain ⟨e', he', hverdict⟩ := (hiff hl).mp ⟨e, he, hsets⟩
    exact (hm e' he').2 hverdict

/-- The client keeps the order if the peer does, and only then. -/
theorem Tracked.handshakeOrder_iff (h : Tracked p ch) :
    HandshakeOrder ch.log ↔ PeerInOrder ch.log := by
  constructor
  -- each result that is accepted sets the flag and announces it, right behind the packet
  · intro hclient
    refine ⟨?_, ?_⟩
    · intro l packet r hlog haccepts
      obtain ⟨connected, rest, rfl⟩ := h.written hlog haccepts.1 haccepts.2
      rw [List.append_cons, List.append_cons] at hlog
      have hsolicited := hclient.announces _ _ _ hlog rfl
      have hbefore := hsolicited.of_snoc fun _ _ _ h => by cases h
      exact hbefore.of_snoc fun _ _ _ h => by cases h
    · intro l packet r hlog haccepts hlast
      obtain ⟨connected, rest, rfl⟩ := h.written hlog haccepts.1 haccepts.2
      have hlog' := hlog
      rw [List.append_cons, hlast] at hlog'
      have hsolicited := hclient.secures _ _ _ hlog'
      exact (h.solicited_iff hlog).mp (hsolicited.of_snoc fun _ _ _ h => by cases h)
  -- each announcement stands right behind a result that was accepted
  · intro hpeer
    refine ⟨?_, ?_⟩
    · intro l connected r hlog
      obtain ⟨l', packet, rfl, htype, hverdict, hlast⟩ := h.fits hlog
      rw [← List.append_cons] at hlog
      have hsolicited := hpeer.first l' packet _ hlog ⟨htype, hverdict⟩ hlast.symm
      exact ((h.solicited_iff hlog).mpr hsolicited).snoc id id
    · intro l event r hlog hevent
      obtain ⟨l', b, connected, rfl⟩ := h.fits hlog hevent
      rw [← List.append_cons] at hlog
      obtain ⟨l'', packet, rfl, htype, hverdict, -⟩ := h.fits hlog
      rw [← List.append_cons] at hlog
      have hsolicited := hpeer.answered l'' packet _ hlog ⟨htype, hverdict⟩
      exact (hsolicited.snoc id id).snoc id id

/-! ## Runs -/

section
variable {E M : Type} [Transport C E M]

/-- **The order of the handshake**: in a run of a new client, on whatever transport and with whatever
    callbacks, the channel is secured and announced in the order of the handshake exactly if the
    peer sends its ChannelEncryptResults in that order. -/
theorem handshakeOrder_run_iff (p : Platform) (fuel : Nat) (connection : C)
    (crypto : EncryptionManager) (acts : List (Act E M)) :
    EveryState (step p fuel) (fun s => HandshakeOrder s.client.log)
        (System.initial connection crypto) acts
      ↔ EveryState (step p fuel) (fun s => PeerInOrder s.client.log)
        (System.initial connection crypto) acts := by
  apply Runs.EveryState.congr
  intro l₁ l₂ s heq hreach
  exact (tracked_run p fuel connection crypto acts l₁ l₂ s heq hreach).handshakeOrder_iff

end

/-- The connection is made, and the first thing the peer says is that it accepts. -/
def unsolicitedResult : List (Act Net.Lookup Net.Act) :=
  connecting ++ deliverFrame 0 (rawMessage EMsg.channelEncryptResult (LittleEndian.bytes 4 1))

/-- Success is announced at the end of a record without a buffer. -/
def securedUnasked (log : List Entry) : Bool :=
  (match log.getLast? with
    | some (.emitted (.channelSecured result)) => result.success
    | _ => false) &&
  log.all fun e => match e with
    | .handed _ _ _ => false
    | _ => true

/-- Secured without a challenge is out of order. -/
theorem not_order_of_securedUnasked {log : List Entry} (h : securedUnasked log = true) :
    ¬ HandshakeOrder log := by
  intro horder
  obtain ⟨hlast, hall⟩ := Bool.and_eq_true_iff.mp h
  split at hlast
  · rename_i result hemitted
    obtain ⟨l, rfl⟩ := List.getLast?_eq_some_iff.mp hemitted
    obtain ⟨l₀, request, message, buffer, b, m, rfl, -⟩ := horder.announces l _ [] rfl hlast
    have hanswer := List.all_eq_true.mp hall (.handed message buffer b) (by simp)
    cases hanswer
  · cases hlast

/-- A result as the first frame of a session secures the channel. -/
theorem handshakeOrder_unsolicitedResult : ¬ ∀ acts, EveryState (step plainPlatform 8)
    (fun s => HandshakeOrder s.client.log) System.onTcp acts := by
  intro h
  have hend : (Runs.run (step plainPlatform 8) System.onTcp unsolicitedResult).any
      (fun s => securedUnasked s.client.log) = true := by decide +kernel
  obtain ⟨s, hrun, hunasked⟩ := (Option.any_eq_true _ _).mp hend
  exact not_order_of_securedUnasked hunasked ((h unsolicitedResult).last hrun)

end SteamMin.Client
