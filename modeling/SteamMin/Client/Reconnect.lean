/-
  THE NEXT SESSION: is it like the first one of a fresh client?

  The peer of a new session starts in plaintext: its ChannelEncryptRequest must be read as it is, and
  be answered as it is.  Both hang on `channel_secured_`, and the only write to that flag is in
  `handle_encrypt_result`; neither `start_session` nor `shutdown` nor a lost connection resets it.
  So the flag is at any time what the last ChannelEncryptResult of the whole life of the client has
  said (`lastVerdict`), in whichever session it came.

  The record is in order (`tracked_run`): the entries of a session show the flag as it was, and what
  stands behind a raw packet in the clear is its dispatch.
-/
import SteamMin.Client.Record

namespace SteamMin.Client

open Messages Crypto
open Runs (EveryState)

/-! ## What the code promises -/

/-- The frame is a ChannelEncryptRequest in plaintext, and decodes to the packet. -/
def IsRequest (frame : Bytes) (packet : PacketMsg) : Prop :=
  IsRaw frame packet ∧ packet.msgType = EMsg.channelEncryptRequest

/-- The transport delivers a ChannelEncryptRequest. -/
def Entry.BringsRequest : Entry → Prop
  | .consumed frame true _ => ∃ packet, IsRequest frame packet
  | _ => False

/-- In a session that has recorded `m` so far, the request is still to come. -/
def Awaiting (m : List Entry) : Prop := ∀ e ∈ m, ¬ e.Begins ∧ ¬ e.BringsRequest

/-- The request, as it was delivered, meets its handler, and the response goes out in the clear;
    or there is no response, and the user is told why. -/
def AnsweredInClear (p : Platform) (packet : PacketMsg) (r : List Entry) : Prop :=
  (∃ message rest, IsHandshake message ∧
    r = .dispatchedMsg packet :: .handed message message false :: rest) ∨
  (∃ crypto crypto' e rest,
    EncryptionManager.generateEncryptionResponse p packet crypto = .error (.throws e) crypto' ∧
    r = .dispatchedMsg packet :: .emitted (.channelSecured (.fail (what e))) :: rest)

/-- Every session of the record is like the first one of a fresh client. -/
structure FreshHandshake (p : Platform) (log : List Entry) : Prop where
  started : ∀ l₁ b l₂, log = l₁ ++ .started b :: l₂ → b = false
  requested : ∀ l₁ b m frame secured packet r,
    log = l₁ ++ .started b :: m ++ .consumed frame true secured :: r → Awaiting m →
    IsRequest frame packet → secured = false ∧ AnsweredInClear p packet r

/-- When a session begins, and when its first request arrives, the last ChannelEncryptResult
    handled so far was none that accepts. -/
structure NoVerdictLeft (log : List Entry) : Prop where
  started : ∀ l₁ b l₂, log = l₁ ++ .started b :: l₂ → lastVerdict l₁ = false
  requested : ∀ l₁ b m frame secured packet r,
    log = l₁ ++ .started b :: m ++ .consumed frame true secured :: r → Awaiting m →
    IsRequest frame packet → lastVerdict (l₁ ++ .started b :: m) = false

/-! ## The handshakes of a tracked record -/

variable {p : Platform}

/-- On a channel that is not secured a request is dispatched, and answered in the clear. -/
theorem answeredInClear {b' : Bool} {packet : PacketMsg} {es rest : List Entry}
    (h : Dispatched p false packet (.dispatchedMsg packet :: es) b')
    (htype : packet.msgType = EMsg.channelEncryptRequest) :
    AnsweredInClear p packet (.dispatchedMsg packet :: es ++ rest) := by
  cases h with
  | request _ hanswer =>
    cases hanswer with
    | @handed message buffer hmessage hplain =>
      rw [hplain rfl]
      exact .inl ⟨message, rest, hmessage, rfl⟩
    | @failed crypto crypto' e hfailed => exact .inr ⟨crypto, crypto', e, rest, hfailed, rfl⟩
    | stuck hsecured => cases hsecured
  | result hresult _ => cases htype.symm.trans hresult
  | unreadable hresult _ => cases htype.symm.trans hresult
  | other hrequest _ => exact absurd htype hrequest

/-- On a tracked log a session begins in the clear exactly when no verdict is left from the one
    before. -/
theorem freshHandshake_iff {C : Type} {ch : Channel C} (h : Tracked p ch) :
    FreshHandshake p ch.log ↔ NoVerdictLeft ch.log := by
  constructor
  · intro hfresh
    refine ⟨?_, ?_⟩
    · intro l₁ b l₂ heq
      have hb : b = lastVerdict l₁ := h.fits heq
      rw [← hb]
      exact hfresh.started l₁ b l₂ heq
    · intro l₁ b m frame secured packet r heq hawaiting hrequest
      obtain ⟨hsecured, -⟩ := h.fits heq
      rw [← hsecured]
      exact (hfresh.requested l₁ b m frame secured packet r heq hawaiting hrequest).1
  · intro hnone
    refine ⟨?_, ?_⟩
    · intro l₁ b l₂ heq
      have hb : b = lastVerdict l₁ := h.fits heq
      rw [hb]
      exact hnone.started l₁ b l₂ heq
    · intro l₁ b m frame secured packet r heq hawaiting hrequest
      have hnotYet := hnone.requested l₁ b m frame secured packet r heq hawaiting hrequest
      obtain ⟨hsecured, hnext⟩ := h.fits heq
      rw [hnotYet] at hsecured
      subst hsecured
      -- the frame was not decrypted, so it is dispatched as it is
      obtain ⟨rest, rfl⟩ := hnext rfl packet hrequest.1
      rw [List.append_cons] at heq
      obtain ⟨es, b', rest', hdispatched, rfl⟩ := h.fits heq
      have hlast : lastVerdict (l₁ ++ .started b :: m ++ [.consumed frame true false]) = false := by
        rw [lastVerdict_append, hnotYet]
        rfl
      rw [hlast] at hdispatched
      exact ⟨rfl, answeredInClear hdispatched hrequest.2⟩

/-! ## Runs -/

section
variable {C E M : Type} [Transport C E M]

/-- **Reconnecting**: in a run of a new client, on whatever transport and with whatever callbacks,
    every session is like the first one of a fresh client exactly when none of them meets the
    accepting verdict of a peer, its own or an earlier one, before its first request is there. -/
theorem freshHandshake_run_iff (p : Platform) (fuel : Nat) (connection : C)
    (crypto : EncryptionManager) (acts : List (Act E M)) :
    EveryState (step p fuel) (fun s => FreshHandshake p s.client.log)
        (System.initial connection crypto) acts
      ↔ EveryState (step p fuel) (fun s => NoVerdictLeft s.client.log)
        (System.initial connection crypto) acts := by
  apply Runs.EveryState.congr
  intro l₁ l₂ s heq hreach
  exact freshHandshake_iff (tracked_run p fuel connection crypto acts l₁ l₂ s heq hreach)

end

/-- A session with a full handshake is shut down, and the next one begins. -/
def secondSession : List (Act Net.Lookup Net.Act) :=
  connecting ++ handshake ++ [.shutdown, .startSession .found]

/-- The last thing recorded is that a session has begun on a secured channel. -/
def beginsSecured (log : List Entry) : Bool :=
  match log.getLast? with
  | some (.started secured) => secured
  | _ => false

/-- A session that begins secured is not fresh. -/
theorem not_fresh_of_beginsSecured {log : List Entry} (h : beginsSecured log = true) :
    ¬ FreshHandshake p log := by
  intro hfresh
  unfold beginsSecured at h
  split at h
  · rename_i secured hlast
    obtain ⟨l₁, hsplit⟩ := List.getLast?_eq_some_iff.mp hlast
    have hfalse : secured = false := hfresh.started l₁ secured [] hsplit
    nomatch h.symm.trans hfalse
  · nomatch h

/-- The second session of a client begins with the flag of the first. -/
theorem freshHandshake_secondSession : ¬ ∀ acts, EveryState (step plainPlatform 8)
    (fun s => FreshHandshake plainPlatform s.client.log) System.onTcp acts := by
  intro h
  have hend : (Runs.run (step plainPlatform 8) System.onTcp secondSession).any
      (fun s => beginsSecured s.client.log) = true := by decide +kernel
  obtain ⟨s, hrun, hsecured⟩ := (Option.any_eq_true _ _).mp hend
  exact not_fresh_of_beginsSecured hsecured ((h secondSession).last hrun)

end SteamMin.Client
