/-
  A FRAME IN A SECURED CHANNEL.

  `consume_frame` does three things to a frame before any handler sees it: it looks at its length,
  decrypts it if the channel is secured, and reads the first word of what it got.  Only what comes
  then is in the `try` block.

  * `authenticated_run` — what is dispatched is the plaintext or comes out of it, through batches in
    batches; a frame that is rejected does nothing.  The batches are consumed with decryption
    switched off, so this is an induction over them (`consumeFrame_run`).
  * `consumeFrame_escapes_iff` — the decryption is outside the `try` block, so its exceptions leave
    `consume_frame`, and no others do.  Exceptions are not all that keeps it from returning: see
    `consumeFrame_returns_iff` in `SteamMin.Client.Returns`.
  * `wholeWord_iff` — the length that was looked at is not the length of the plaintext.
-/
import SteamMin.Client.Record

namespace SteamMin.Client

open Messages Crypto
open Relation (ReflTransGen)
open Runs (EveryStep)

variable {C E M : Type} {p : Platform}

/-! ## Where the dispatched packets come from

  `Src` is closed under unpacking batches: what satisfies it satisfies it with all frames inside.
  For one frame that was opened, it is to be nested in its plaintext. -/

/-- A dispatched packet satisfies `Src`. -/
def Entry.From (Src : Bytes → Prop) : Entry → Prop
  | .dispatchedMsg packet => Src packet.payload
  | .dispatchedProto packet => Src packet.payload
  | _ => True

section
variable {Src : Bytes → Prop}

/-- An answer dispatches nothing. -/
theorem Answer.comesFrom {b : Bool} {packet : PacketMsg} {es : List Entry}
    (h : Answer p b packet es) : ∀ e ∈ es, e.From Src := by
  intro e he
  cases h with
  | handed hmessage hplain =>
    obtain rfl := List.mem_singleton.mp he
    trivial
  | failed hfailed =>
    obtain rfl := List.mem_singleton.mp he
    trivial
  | stuck hsecured => cases he

/-- A dispatched packet comes from the source the step speaks of. -/
theorem Dispatched.comesFrom {b b' : Bool} {packet : PacketMsg} {es : List Entry}
    (h : Dispatched p b packet es b') (hsrc : Src packet.payload) : ∀ e ∈ es, e.From Src := by
  intro e he
  cases h with
  | request htype hanswer =>
    rcases List.mem_cons.mp he with rfl | he
    · exact hsrc
    · exact hanswer.comesFrom e he
  | result htype hverdict =>
    simp only [List.mem_cons, List.not_mem_nil, or_false] at he
    rcases he with rfl | rfl | rfl
    · exact hsrc
    · trivial
    · trivial
  | unreadable htype hverdict =>
    obtain rfl := List.mem_singleton.mp he
    exact hsrc
  | other hrequest hresult =>
    obtain rfl := List.mem_singleton.mp he
    exact hsrc

/-- `log'` goes on from `log`, and what is dispatched there satisfies `Src`. -/
def GoesOn (Src : Bytes → Prop) (log log' : List Entry) : Prop :=
  ∃ es, log' = log ++ es ∧ ∀ e ∈ es, e.From Src

/-- The log goes on with entries that come from there. -/
theorem GoesOn.append {log log' es : List Entry} (h : GoesOn Src log log')
    (hes : ∀ e ∈ es, e.From Src) : GoesOn Src log (log' ++ es) := by
  obtain ⟨es', rfl, hes'⟩ := h
  refine ⟨es' ++ es, List.append_assoc _ _ _, ?_⟩
  intro e he
  rcases List.mem_append.mp he with he | he
  · exact hes' e he
  · exact hes e he

/-- An entry that dispatches nothing. -/
theorem GoesOn.snoc {log log' : List Entry} {e : Entry} (h : GoesOn Src log log')
    (he : e.From Src) : GoesOn Src log (log' ++ [e]) := by
  apply h.append
  intro e' he'
  obtain rfl := List.mem_singleton.mp he'
  exact he

/-- The step lemma: whatever the client does, its log goes on so. -/
theorem goesOn_step [IConnection C E] {log : List Entry} (ch ch' : Channel C)
    (h : GoesOn Src log ch.log) (hstep : Channel.Step p Src ch ch') : GoesOn Src log ch'.log := by
  -- only the steps of a frame add entries that have to come from somewhere
  cases hstep with
  | startCalled net => exact h.snoc trivial
  | started => exact h.snoc trivial
  | shutdownCalled => exact h.snoc trivial
  | emitted event hevent => exact h.snoc trivial
  | commanded hproto hplain =>
    apply h.append
    intro e he
    rcases List.mem_cons.mp he with rfl | he
    · trivial
    · obtain rfl := List.mem_singleton.mp he
      trivial
  | refused hrefused => exact h.snoc trivial
  | rawFrame hsrc hplain hraw hdispatched =>
    apply h.append
    intro e he
    rcases List.mem_cons.mp he with rfl | he
    · trivial
    · exact hdispatched.comesFrom hsrc e he
  | frame hother => exact h.snoc trivial
  | dispatchedMsg hsrc hdispatched => exact h.append (hdispatched.comesFrom hsrc)
  | dispatchedProto packet hsrc => exact h.snoc hsrc

end

/-! ## Only authenticated bytes are dispatched -/

section
variable [Transport C E M]

/-- A frame delivered to a secured channel: if it is rejected, the client is as before but for the
    call itself, which the transport sees throw; if it is accepted, only its plaintext and the
    frames in it, at any depth, are dispatched. -/
def Authenticated (p : Platform) (s : System C E) (a : Act E M) (s' : System C E) : Prop :=
  ∀ m connection frame, a = .transport m →
    Transport.move s.client.connection m = some (connection, some frame) →
    s.client.channelSecured = true → 4 ≤ frame.length →
    (∀ fault, EncryptionManager.processIncomingEncryptedMessage p s.client.crypto frame
        = .error fault →
      s' = ⟨{ s.client with
        connection := Transport.frameRaised connection
        log := s.client.log ++ [.consumed frame true true] }, none⟩) ∧
    (∀ data, EncryptionManager.processIncomingEncryptedMessage p s.client.crypto frame = .ok data →
      GoesOn (ReflTransGen (SubFrame p) data) s.client.log s'.client.log)

/-- Decryption only throws. -/
theorem processIncoming_throws {m : EncryptionManager} {frame : Bytes} {fault : Fault}
    (h : EncryptionManager.processIncomingEncryptedMessage p m frame = .error fault) :
    ∃ e, fault = .throws e := by
  rw [EncryptionManager.processIncomingEncryptedMessage, Helpers.symmetricDecryptHmacIv] at h
  split at h
  · exact ⟨_, (Except.error.inj h).symm⟩
  · dsimp only at h
    split at h
    · exact ⟨_, (Except.error.inj h).symm⟩
    · split at h
      · exact ⟨_, (Except.error.inj h).symm⟩
      · cases h

/-- **Nothing unauthenticated is dispatched**: every frame that the transport delivers in a run is
    handled like that.  What counts is the channel as the transport delivers the frame: a batch that
    comes in the clear, and secures the channel with one of its own frames, is outside this, and the
    frames behind that one are dispatched without an envelope. -/
theorem authenticated_run (p : Platform) (fuel : Nat) (s : System C E) (acts : List (Act E M)) :
    EveryStep (step p (fuel + 1)) (Authenticated p) s acts := by
  intro l₁ a l₂ s₁ s₂ _ _ hstep m connection frame ha hmove hsecured hlen
  subst ha
  unfold step at hstep
  split at hstep
  · cases hstep
  · dsimp only at hstep
    rw [hmove] at hstep
    dsimp only at hstep
    let c : CMClient C E := { s₁.client with connection }
    have hreceived : c.received p frame true
        = EncryptionManager.processIncomingEncryptedMessage p s₁.client.crypto frame := by
      rw [CMClient.received, show c.channelSecured = true from hsecured]
      rfl
    constructor
    -- an envelope that is refused throws before anything else is done
    · intro fault hfault
      obtain ⟨e, rfl⟩ := processIncoming_throws hfault
      have hthrows : consumeFrame (emit p (fuel + 1)) p (fuel + 1) frame true c
          = .error (.throws e) (c.consuming frame true) :=
        consumeFrame_rejected (by omega) (hreceived.trans hfault)
      have hconsuming : c.consuming frame true
          = { c with log := c.log ++ [.consumed frame true true] } :=
        congrArg (fun b => { c with log := c.log ++ [Entry.consumed frame true b] }) hsecured
      rw [onFrame_throws hthrows, hconsuming] at hstep
      exact (Option.some.inj hstep).symm
    -- one that opens: what the client does from there comes from its text, and the batches in it
    · intro data hdata
      have hsrc : ∀ data', c.received p frame true = .ok data' →
          ReflTransGen (SubFrame p) data data' := by
        intro data' hdata'
        obtain rfl := Except.ok.inj (hdata.symm.trans (hreceived.symm.trans hdata'))
        exact .refl
      have hclosed : Closed p (ReflTransGen (SubFrame p) data) :=
        fun sub sub' hsub hsub' => hsub.tail hsub'
      have hrun := consumeFrame_run (emits_emit p (ReflTransGen (SubFrame p) data) (fuel + 1))
        hclosed (fuel + 1) hsrc
      have hstart : GoesOn (ReflTransGen (SubFrame p) data) s₁.client.log c.channel.log :=
        ⟨[], (List.append_nil _).symm, fun _ h => absurd h List.not_mem_nil⟩
      have hgoesOn := keeps_run goesOn_step hstart hrun
      obtain ⟨k, hafter, -⟩ := after_onFrame p (fuel + 1) frame c
      rw [← Option.some.inj hstep, client_settle, hafter]
      exact hgoesOn

end

/-! ## What leaves consume_frame

  Everything behind the decryption is in the `try` block, and the decryption throws for every
  frame that it does not open. -/

/-- The frame opens to `data` under the keys: it has an IV, what is behind the IV is a ciphertext of
    `data`, and the IV is valid for it. -/
def OpensTo (p : Platform) (m : EncryptionManager) (frame data : Bytes) : Prop :=
  let iv := Helpers.arraySink Helpers.IV_LENGTH
    (p.cryptoPP.ecbDecrypt m.sessionKey (frame.take Helpers.IV_LENGTH))
  Helpers.IV_LENGTH ≤ frame.length ∧
    p.cryptoPP.cbcDecrypt m.sessionKey iv (frame.drop Helpers.IV_LENGTH) = .ok data ∧
    Helpers.validateIv p.cryptoPP data iv m.hmacSecret = true

/-- That is when the decryption returns, and what it returns. -/
theorem opensTo_iff {m : EncryptionManager} {frame data : Bytes} : OpensTo p m frame data ↔
    EncryptionManager.processIncomingEncryptedMessage p m frame = .ok data := by
  rw [OpensTo, EncryptionManager.processIncomingEncryptedMessage, Helpers.symmetricDecryptHmacIv]
  -- the length first, then the padding, then the hash
  by_cases hlen : frame.length < Helpers.IV_LENGTH
  · rw [if_pos hlen]
    refine iff_of_false (fun h => absurd hlen (Nat.not_lt.mpr h.1)) ?_
    intro h
    cases h
  · rw [if_neg hlen]
    dsimp only
    generalize Helpers.arraySink Helpers.IV_LENGTH
      (p.cryptoPP.ecbDecrypt m.sessionKey (frame.take Helpers.IV_LENGTH)) = iv
    constructor
    · rintro ⟨-, hcbc, hvalid⟩
      rw [hcbc]
      dsimp only
      rw [hvalid]
      rfl
    · intro h
      refine ⟨by omega, ?_⟩
      split at h
      · cases h
      · rename_i plaintext hcbc
        split at h
        · cases h
        · rename_i hvalid
          rw [Bool.not_eq_true, Bool.not_eq_false'] at hvalid
          cases h
          exact ⟨hcbc, hvalid⟩

section
variable [IConnection C E] {emit : Event → Calling C E Unit} {fuel : Nat} {c : CMClient C E}
  {frame : Bytes}

omit [IConnection C E] in
/-- A call in a `try` block whose handler does nothing throws nothing. -/
theorem swallow_never_throws {x : Calling C E Unit} {c' : CMClient C E} {e : Exn} :
    catchStd x (fun _ => pure ()) c ≠ .error (.throws e) c' := by
  intro h
  cases hx : x c with
  | ok u c'' => cases (catchStd_ok hx).symm.trans h
  | error fault c'' =>
    cases fault with
    | throws e' => cases (catchStd_throws hx).symm.trans h
    | undefined => cases (catchStd_undefined hx).symm.trans h
    | diverges => cases (catchStd_diverges hx).symm.trans h

/-- Of a buffer that was received, nothing is thrown. -/
theorem consumeFrame_never_throws {encrypt : Bool} {data : Bytes} {c' : CMClient C E} {e : Exn}
    (hlen : ¬ frame.length < 4) (hreceived : c.received p frame encrypt = .ok data) :
    consumeFrame emit p (fuel + 1) frame encrypt c ≠ .error (.throws e) c' := by
  intro h
  by_cases hdata : data.length < 4
  · cases (consumeFrame_overrun hlen hreceived hdata).symm.trans h
  · rw [consumeFrame_dispatched hlen hreceived (by omega)] at h
    exact swallow_never_throws h

/-- **What leaves `consume_frame`**: no exception does, whatever the handlers and the callbacks
    throw, except those of the decryption of a frame that does not open. -/
theorem consumeFrame_escapes_iff :
    (∀ e c', consumeFrame emit p (fuel + 1) frame true c ≠ .error (.throws e) c') ↔
      (c.channelSecured = true → 4 ≤ frame.length → ∃ data, OpensTo p c.crypto frame data) := by
  constructor
  · intro hnever hsecured hlen
    have hreceived : c.received p frame true
        = EncryptionManager.processIncomingEncryptedMessage p c.crypto frame := by
      rw [CMClient.received, hsecured]
      rfl
    cases hincoming : EncryptionManager.processIncomingEncryptedMessage p c.crypto frame with
    | ok data => exact ⟨data, opensTo_iff.mpr hincoming⟩
    | error fault =>
      -- the envelope is opened outside the `try` block
      obtain ⟨e, rfl⟩ := processIncoming_throws hincoming
      exact absurd (consumeFrame_rejected (by omega) (hreceived.trans hincoming))
        (hnever e _)
  · intro hopens e c'
    by_cases hlen : frame.length < 4
    · rw [consumeFrame_short hlen]
      exact fun h => by cases h
    · obtain ⟨data, hdata⟩ : ∃ data, c.received p frame true = .ok data := by
        rw [CMClient.received]
        by_cases hsecured : c.channelSecured = true
        · obtain ⟨data, hdata⟩ := hopens hsecured (by omega)
          rw [hsecured]
          exact ⟨data, opensTo_iff.mp hdata⟩
        · rw [Bool.not_eq_true] at hsecured
          rw [hsecured]
          exact ⟨frame, rfl⟩
      exact consumeFrame_never_throws hlen hdata

end

/-- An exception has left a call. -/
def hasThrown {σ α : Type} : EStateM.Result Fault σ α → Bool
  | .error (.throws _) _ => true
  | _ => false

/-- Four bytes are no encrypted frame. -/
theorem consumeFrame_escapes_garbage : ¬ ∀ acts s,
    Runs.run (step samplePlatform 8) System.onTcp acts = some s →
    ∀ frame e c', consumeFrame (emit samplePlatform 8) samplePlatform 8 frame true s.client
      ≠ .error (.throws e) c' := by
  intro h
  have hthrown : (Runs.run (step samplePlatform 8) System.onTcp (connecting ++ handshake)).any
      (fun s => hasThrown (consumeFrame (emit samplePlatform 8) samplePlatform 8 [1, 2, 3, 4] true
        s.client)) = true := by decide +kernel
  obtain ⟨s, hrun, hthrown⟩ := (Option.any_eq_true _ _).mp hthrown
  unfold hasThrown at hthrown
  split at hthrown
  · rename_i e c' heq
    exact h _ s hrun _ e c' heq
  · cases hthrown

/-! ## The first word

  `frame.size() < 4` is asked of the frame, and `data[0]` to `data[3]` are read of what it was
  decrypted to. -/

section
variable {c : CMClient C E} {frame : Bytes} {encrypt : Bool}

/-- Whenever `consume_frame` comes to read the first word of `data`, `data` has one. -/
def WholeWord (p : Platform) (c : CMClient C E) (frame : Bytes) (encrypt : Bool) : Prop :=
  4 ≤ frame.length → ∀ data, c.received p frame encrypt = .ok data → 4 ≤ data.length

/-- **The first word** is there, except in a secured channel, where the frame may be the envelope
    of less than a word. -/
theorem wholeWord_iff (hc : p.cryptoPP.Lawful) :
    WholeWord p c frame encrypt ↔
      ¬ (encrypt = true ∧ c.channelSecured = true ∧ ∃ text random,
        text.length < 4 ∧ random.length = 3 ∧
        Helpers.encryptWith p.cryptoPP c.crypto.sessionKey c.crypto.hmacSecret text random
          = .ok frame) := by
  have hkey := c.crypto.sessionKey_length
  constructor
  · rintro hwhole ⟨rfl, hsecured, text, random, hshort, hrandom, hframe⟩
    rw [Helpers.encryptWith_eq hc hkey hrandom] at hframe
    obtain rfl := Except.ok.inj hframe
    have hreceived : c.received p (Helpers.envelope p.cryptoPP c.crypto.sessionKey
        c.crypto.hmacSecret text random) true = .ok text := by
      rw [CMClient.received, hsecured]
      exact Helpers.symmetricDecryptHmacIv_envelope hc hkey hrandom text
    -- the envelope itself is long enough
    have hlen : 4 ≤ (Helpers.envelope p.cryptoPP c.crypto.sessionKey c.crypto.hmacSecret text
        random).length := by
      rw [Helpers.length_envelope hc hkey hrandom, Helpers.calculateMaxEncryptedLength]
      exact Nat.le_add_right_of_le (by decide)
    exact absurd (hwhole hlen text hreceived) (Nat.not_le_of_lt hshort)
  · intro hnone hlen data hdata
    by_contra hshort
    by_cases hencrypted : (encrypt && c.channelSecured) = true
    · rw [CMClient.received, if_pos hencrypted] at hdata
      obtain ⟨rfl, hsecured⟩ := Bool.and_eq_true_iff.mp hencrypted
      obtain ⟨hrandom, hframe⟩ := Helpers.eq_envelope_of_decrypt hc hkey hdata
      refine hnone ⟨rfl, hsecured, data, _, by omega, hrandom, ?_⟩
      rw [Helpers.encryptWith_eq hc hkey hrandom, ← hframe]
    · rw [CMClient.received, if_neg hencrypted] at hdata
      obtain rfl := Except.ok.inj hdata
      exact hshort hlen

end

/-- A client with the sample key, its channel secured. -/
def sampleClient : CMClient Net.Connection Net.Lookup :=
  { CMClient.new .initial (.new ⟨UInt8.ofNat⟩) with channelSecured := true }

/-- The envelope of the empty message has no whole word. -/
theorem wholeWord_iff_emptyFrame : ¬ WholeWord samplePlatform sampleClient emptyFrame true :=
  (not_congr (wholeWord_iff lawful_sampleCryptoPP)).mpr
    (not_not_intro ⟨rfl, rfl, [], [1, 2, 3], by decide, rfl, by decide +kernel⟩)

/-- The peer has accepted, and sends an envelope with nothing in it. -/
theorem wholeWord_emptyFrame : ¬ ∀ acts s,
    Runs.run (step samplePlatform 8) System.onTcp acts = some s →
    ∀ frame encrypt, WholeWord samplePlatform s.client frame encrypt := by
  intro h
  have hempty : (Runs.run (step samplePlatform 8) System.onTcp (connecting ++ handshake)).any
      (fun s => s.client.received samplePlatform emptyFrame true = .ok []) = true := by
    decide +kernel
  obtain ⟨s, hrun, hreceived⟩ := (Option.any_eq_true _ _).mp hempty
  have hwhole := h _ s hrun emptyFrame true (by decide) [] (of_decide_eq_true hreceived)
  exact absurd hwhole (by decide)

end SteamMin.Client
