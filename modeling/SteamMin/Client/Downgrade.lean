/-
  BACK TO PLAINTEXT.

  The handshake handlers stay registered when the handshake is over, so the peer can speak again:
  `handle_encrypt_result` writes to `channel_secured_` whatever the last ChannelEncryptResult says,
  also that the peer refuses, on its own or as one frame of a batch.  Then the client sends and
  accepts plaintext again, in a live session.

  Nothing else does that.  From an entry that shows a secured channel to one that shows an unsecured
  channel, a refusal is in between (`SecuredUntilRefused`), however many frames, batches, commands,
  callbacks, closed connections and sessions there are.

  The argument is about the record alone.  The flag is the last verdict in it (`Tracked.secured`),
  so a flag that is set at one entry and not at a later one has a verdict in between, and only a
  result that is no `OK` has that verdict.
-/
import SteamMin.Client.Record

namespace SteamMin.Client

open Messages Crypto
open Runs (EveryState)

/-! ## What the record shows -/

/-- `channel_secured_` behind an entry that shows it. -/
def Entry.flag : Entry → Option Bool
  | .started secured => some secured
  | .consumed _ _ secured => some secured
  | .executed _ secured => some secured
  | .handed _ _ secured => some secured
  | .securedSet val _ _ => some val
  | _ => none

/-- A ChannelEncryptResult that can be decoded and does not accept. -/
def Refuses (packet : PacketMsg) : Prop :=
  packet.msgType = EMsg.channelEncryptResult ∧ verdict packet = some false

/-- The server refuses the channel. -/
def Entry.IsRefusal : Entry → Prop
  | .dispatchedMsg packet => Refuses packet
  | _ => False

/-- Once the channel is secured it stays so, until the peer refuses: then at once it is not. -/
structure SecuredUntilRefused (secured : Bool) (log : List Entry) : Prop where
  lasts : ∀ l e m e' r, log = l ++ e :: m ++ e' :: r → e.flag = some true → e'.flag = some false →
    ∃ refusal ∈ m, refusal.IsRefusal
  now : ∀ l e m, log = l ++ e :: m → e.flag = some true → secured = false →
    ∃ refusal ∈ m, refusal.IsRefusal
  refused : ∀ l packet r, log = l ++ .dispatchedMsg packet :: r → Refuses packet →
    ∃ b connected r', r = .securedSet false b connected :: r'

/-! ## The verdicts in between -/

/-- Without a refusal an accepted channel stays accepted. -/
theorem lastVerdict_of_no_refusal {l m : List Entry} (h : lastVerdict l = true)
    (hm : ∀ e ∈ m, ¬ e.IsRefusal) : lastVerdict (l ++ m) = true := by
  induction m generalizing l with
  | nil =>
    rw [List.append_nil]
    exact h
  | cons e m ih =>
    have hrest : ∀ e' ∈ m, ¬ e'.IsRefusal := fun e' he' => hm e' (List.mem_cons_of_mem e he')
    rw [List.append_cons]
    apply ih ?_ hrest
    rw [lastVerdict_append, h]
    -- only a result has a verdict, and one that refuses is excluded
    cases e with
    | dispatchedMsg packet =>
      by_cases htype : packet.msgType = EMsg.channelEncryptResult
      · show Entry.secures true (.dispatchedMsg packet) = true
        rw [secures_result htype]
        cases hverdict : verdict packet with
        | none => rfl
        | some success =>
          cases success with
          | true => rfl
          | false => exact absurd ⟨htype, hverdict⟩ (hm _ List.mem_cons_self)
      · exact secures_of_ne htype true
    | _ => rfl

/-- So between an accepted channel and one that is not, there is one. -/
theorem exists_refusal {l m : List Entry} (h : lastVerdict l = true)
    (h' : lastVerdict (l ++ m) = false) : ∃ e ∈ m, e.IsRefusal := by
  by_contra hnone
  have hm : ∀ e ∈ m, ¬ e.IsRefusal := fun e he hrefusal => hnone ⟨e, he, hrefusal⟩
  cases (lastVerdict_of_no_refusal h hm).symm.trans h'

variable {p : Platform} {C : Type} {ch : Channel C}

/-- What an entry shows is the verdict with it. -/
theorem Tracked.flag_eq (h : Tracked p ch) {l r : List Entry} {e : Entry} {b : Bool}
    (hlog : ch.log = l ++ e :: r) (hflag : e.flag = some b) : lastVerdict (l ++ [e]) = b := by
  have hfits := h.fits hlog
  have hb : lastVerdict l = b → e.secures (lastVerdict l) = lastVerdict l →
      lastVerdict (l ++ [e]) = b := by
    intro hlast hsecures
    rw [lastVerdict_append, ← hlast]
    exact hsecures
  cases e with
  | started b' =>
    obtain rfl := Option.some.inj hflag
    exact hb (Eq.symm hfits) rfl
  | consumed frame encrypt b' =>
    obtain rfl := Option.some.inj hflag
    exact hb hfits.1.symm rfl
  | executed command b' =>
    obtain rfl := Option.some.inj hflag
    exact hb (Eq.symm hfits) rfl
  | handed message buffer b' =>
    obtain rfl := Option.some.inj hflag
    exact hb (Eq.symm hfits) rfl
  | securedSet val b' connected =>
    -- the verdict was read one entry before
    obtain rfl := Option.some.inj hflag
    obtain ⟨l', packet, rfl, htype, hverdict, -⟩ := hfits
    refine hb ?_ rfl
    rw [lastVerdict_append]
    show Entry.secures (lastVerdict l') (.dispatchedMsg packet) = val
    rw [secures_result htype, hverdict]
    rfl
  | startCalled => cases hflag
  | shutdownCalled => cases hflag
  | dispatchedMsg packet => cases hflag
  | dispatchedProto packet => cases hflag
  | emitted event => cases hflag

/-- On a tracked log the flag is lost by a refusal only. -/
theorem Tracked.securedUntilRefused (h : Tracked p ch) : SecuredUntilRefused ch.secured ch.log := by
  refine ⟨?_, ?_, ?_⟩
  · intro l e m e' r hlog htrue hfalse
    have hfirst : lastVerdict (l ++ [e]) = true := by
      rw [List.append_assoc] at hlog
      exact h.flag_eq hlog htrue
    have hlast := h.flag_eq hlog hfalse
    rw [List.append_cons l, List.append_assoc (l ++ [e])] at hlast
    obtain ⟨refusal, hmem, hrefusal⟩ := exists_refusal hfirst hlast
    rcases List.mem_append.mp hmem with hmem | hmem
    · exact ⟨refusal, hmem, hrefusal⟩
    · -- the entry that shows the flag is no packet
      obtain rfl := List.mem_singleton.mp hmem
      cases refusal with
      | dispatchedMsg packet => cases hfalse
      | _ => exact hrefusal.elim
  · intro l e m hlog htrue hnow
    have hfirst := h.flag_eq hlog htrue
    have hlast : lastVerdict (l ++ [e] ++ m) = false := by
      rw [← List.append_cons, ← hlog, ← h.secured]
      exact hnow
    exact exists_refusal hfirst hlast
  · intro l packet r hlog hrefuses
    obtain ⟨connected, rest, rfl⟩ := h.written hlog hrefuses.1 hrefuses.2
    exact ⟨_, connected, _, rfl⟩

/-! ## Runs -/

section
variable {E M : Type} [Transport C E M]

/-- **No way back but one**: in a run of a new client, on whatever transport and with whatever
    callbacks, a secured channel stays secured until the peer refuses, and no longer. -/
theorem securedUntilRefused_run (p : Platform) (fuel : Nat) (connection : C)
    (crypto : EncryptionManager) (acts : List (Act E M)) :
    EveryState (step p fuel) (fun s => SecuredUntilRefused s.client.channelSecured s.client.log)
      (System.initial connection crypto) acts := by
  intro l₁ l₂ s heq hreach
  exact (tracked_run p fuel connection crypto acts l₁ l₂ s heq hreach).securedUntilRefused

end

/-- Behind the handshake the peer refuses, in an encrypted frame; its last handler is still to run. -/
def lateRefusal : List (Act Net.Lookup Net.Act) :=
  connecting ++ handshake ++
    deliver 1 (LittleEndian.bytes 4 refusalFrame.length ++ Net.MAGIC) ++
    [.transport (.transfer 1 refusalFrame), .transport (.complete 1 .success)]

/-- A secured channel is not secured behind a step that leaves the connection as it was. -/
theorem securedUntilRefused_lateRefusal : ¬ ∀ acts, Runs.EveryStep (step samplePlatform 8)
    (fun s _ s' => s.client.channelSecured = true → s'.client.connection.state = .connected →
      s'.client.channelSecured = true) System.onTcp acts := by
  intro h
  have hlower : ((Runs.run (step samplePlatform 8) System.onTcp lateRefusal).bind fun s =>
      (step samplePlatform 8 s (.transport (.run 1))).map fun s' =>
        (s.client.channelSecured, s'.client.connection.state, s'.client.channelSecured))
      = some (true, .connected, false) := by decide +kernel
  obtain ⟨s, hrun, hstep⟩ := Option.bind_eq_some_iff.mp hlower
  obtain ⟨s', hstep, heq⟩ := Option.map_eq_some_iff.mp hstep
  obtain ⟨hbefore, hrest⟩ := Prod.mk.inj heq
  obtain ⟨hconnected, hbehind⟩ := Prod.mk.inj hrest
  have hstays := h (lateRefusal ++ [.transport (.run 1)]) lateRefusal (.transport (.run 1)) [] s s'
    rfl hrun hstep hbefore hconnected
  cases hstays.symm.trans hbehind

end SteamMin.Client
