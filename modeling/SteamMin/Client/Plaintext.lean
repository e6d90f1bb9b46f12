/-
  WHAT LEAVES THE CLIENT IN THE CLEAR.

  `send_msg_impl` encrypts exactly while `channel_secured_` is set; whether that is asked before a
  command is sent is up to each handler.  Before the handshake is over the only message that may go
  out is the ChannelEncryptResponse itself.

  A record is `Balanced` when it shows a leak exactly if it shows a product information request on
  an unsecured channel: `exec_get_product_info` is the one handler that does not ask.  Every chunk
  that a step of the channel adds is balanced, so every record is.

  The balance is what makes the theorem an equivalence: from a leak one gets back to the request
  that caused it, and from a request in the clear one gets the leak, provided that serializing a
  request does not fail (`SerializesRequests`), since a request that throws puts nothing on the
  wire.
-/
import SteamMin.Client.ChannelRefinement

namespace SteamMin.Client

open Messages Crypto
open Runs (EveryState)

/-- A buffer goes out in the clear and is no ChannelEncryptResponse. -/
def Entry.Leaks : Entry → Prop
  | .handed _ buffer false => ¬ IsHandshake buffer
  | _ => False

/-- Product information is requested on an unsecured channel. -/
def Entry.AsksInClear : Entry → Prop
  | .executed command false => command.IsProductInfo
  | _ => False

/-- Every buffer handed to `async_send` in the clear is a ChannelEncryptResponse. -/
def NothingLeaks (log : List Entry) : Prop := ∀ e ∈ log, ¬ e.Leaks

/-- `GetProductInfo` is executed on a secured channel only. -/
def AsksWhenSecured (log : List Entry) : Prop := ∀ e ∈ log, ¬ e.AsksInClear

/-! ## Balanced records -/

/-- The invariant: a leak in the log and a request in the clear come together or not at all. -/
def Balanced (es : List Entry) : Prop := (∃ e ∈ es, e.Leaks) ↔ ∃ e ∈ es, e.AsksInClear

/-- A step that is balanced by itself keeps the balance. -/
theorem Balanced.append {l es : List Entry} (hl : Balanced l) (hes : Balanced es) :
    Balanced (l ++ es) := by
  unfold Balanced
  simp only [List.mem_append, or_and_right, exists_or]
  exact or_congr hl hes

/-- The entry is neither. -/
def Entry.Quiet (e : Entry) : Prop := ¬ e.Leaks ∧ ¬ e.AsksInClear

/-- A step that neither asks nor leaks is balanced. -/
theorem balanced_of_quiet {es : List Entry} (h : ∀ e ∈ es, e.Quiet) : Balanced es := by
  constructor
  · rintro ⟨e, he, hleaks⟩
    exact absurd hleaks (h e he).1
  · rintro ⟨e, he, hasks⟩
    exact absurd hasks (h e he).2

variable {p : Platform} {b b' : Bool} {packet : PacketMsg} {es : List Entry}

/-- The answer to a request is no leak, secured or not. -/
theorem Answer.quiet (h : Answer p b packet es) : ∀ e ∈ es, e.Quiet := by
  intro e he
  cases h with
  | @handed message buffer hmessage hplain =>
    obtain rfl := List.mem_singleton.mp he
    cases b with
    | true => exact ⟨id, id⟩
    | false =>
      rw [hplain rfl]
      exact ⟨not_not_intro hmessage, id⟩
  | failed hfailed =>
    obtain rfl := List.mem_singleton.mp he
    exact ⟨id, id⟩
  | stuck hsecured => nomatch he

/-- Answering a message of the handshake is quiet: what it hands over is no request. -/
theorem Dispatched.quiet (h : Dispatched p b packet es b') : ∀ e ∈ es, e.Quiet := by
  intro e he
  cases h with
  | request htype hanswer =>
    rcases List.mem_cons.mp he with rfl | he
    · exact ⟨id, id⟩
    · exact hanswer.quiet e he
  | result htype hverdict =>
    simp only [List.mem_cons, List.not_mem_nil, or_false] at he
    rcases he with rfl | rfl | rfl
    · exact ⟨id, id⟩
    · exact ⟨id, id⟩
    · exact ⟨id, id⟩
  | unreadable htype hverdict =>
    obtain rfl := List.mem_singleton.mp he
    exact ⟨id, id⟩
  | other hrequest hresult =>
    obtain rfl := List.mem_singleton.mp he
    exact ⟨id, id⟩

/-- A single quiet entry. -/
theorem balanced_singleton {e : Entry} (h : e.Quiet) : Balanced [e] := by
  apply balanced_of_quiet
  intro e' he'
  obtain rfl := List.mem_singleton.mp he'
  exact h

/-- Every step of the channel is balanced: a command that goes out does so through `send_msg`, in
    the clear exactly when the channel is not secured. -/
theorem balanced_step {C E : Type} [IConnection C E] {Src : Bytes → Prop}
    (hser : SerializesRequests p.protobuf) (ch ch' : Channel C) (h : Balanced ch.log)
    (hstep : Channel.Step p Src ch ch') : Balanced ch'.log := by
  cases hstep with
  | startCalled net => exact h.append (balanced_singleton ⟨id, id⟩)
  | started => exact h.append (balanced_singleton ⟨id, id⟩)
  | shutdownCalled => exact h.append (balanced_singleton ⟨id, id⟩)
  | emitted event hevent => exact h.append (balanced_singleton ⟨id, id⟩)
  | @commanded b l k command message buffer hproto hplain =>
    apply h.append
    cases b with
    | true =>
      apply balanced_of_quiet
      intro e he
      rcases List.mem_cons.mp he with rfl | he
      · exact ⟨id, id⟩
      · obtain rfl := List.mem_singleton.mp he
        exact ⟨id, id⟩
    | false =>
      -- a command goes out in the clear: it is a product information request, and it leaks
      obtain ⟨rfl, hcommand⟩ := hplain rfl
      refine iff_of_true ⟨.handed buffer buffer false, ?_, not_isHandshake_of_proto hproto⟩
        ⟨.executed command false, List.mem_cons_self, hcommand⟩
      exact List.mem_cons_of_mem _ List.mem_cons_self
  | @refused b l k command hrefused =>
    apply h.append
    apply balanced_singleton
    cases b with
    | true => exact ⟨id, id⟩
    | false =>
      refine ⟨id, ?_⟩
      intro hcommand
      exact hrefused rfl hcommand hser
  | rawFrame hsrc hplain hraw hdispatched =>
    apply h.append
    apply balanced_of_quiet
    intro e he
    rcases List.mem_cons.mp he with rfl | he
    · exact ⟨id, id⟩
    · exact hdispatched.quiet e he
  | frame hother => exact h.append (balanced_singleton ⟨id, id⟩)
  | dispatchedMsg hsrc hdispatched => exact h.append (balanced_of_quiet hdispatched.quiet)
  | dispatchedProto packet hsrc => exact h.append (balanced_singleton ⟨id, id⟩)

/-- With balance, no leak means that every request was made on a secured channel. -/
theorem nothingLeaks_iff {log : List Entry} (h : Balanced log) :
    NothingLeaks log ↔ AsksWhenSecured log := by
  have hnot := not_congr h
  constructor
  · intro hleaks e he hasks
    refine hnot.mp ?_ ⟨e, he, hasks⟩
    rintro ⟨e', he', hleak⟩
    exact hleaks e' he' hleak
  · intro hasks e he hleaks
    refine hnot.mpr ?_ ⟨e, he, hleaks⟩
    rintro ⟨e', he', hask⟩
    exact hasks e' he' hask

/-! ## Runs -/

section
variable {C E M : Type} [Transport C E M]

/-- **Plaintext**: in a run of a new client, on whatever transport and with whatever callbacks,
    only ChannelEncryptResponses are handed over in the clear exactly when product information is
    requested on a secured channel only. -/
theorem nothingLeaks_run_iff (p : Platform) (hser : SerializesRequests p.protobuf) (fuel : Nat)
    (connection : C) (crypto : EncryptionManager) (acts : List (Act E M)) :
    EveryState (step p fuel) (fun s => NothingLeaks s.client.log)
        (System.initial connection crypto) acts
      ↔ EveryState (step p fuel) (fun s => AsksWhenSecured s.client.log)
        (System.initial connection crypto) acts := by
  have hnil : Balanced [] := balanced_of_quiet nofun
  have hrun := everyState_of_channel p fuel (I := fun ch => Balanced ch.log)
    (s := System.initial connection crypto) (balanced_step hser) (fun _ _ h => h) hnil acts
  apply Runs.EveryState.congr
  intro l₁ l₂ s heq hreach
  exact nothingLeaks_iff (hrun l₁ l₂ s heq hreach)

end

instance : DecidablePred Entry.AsksInClear
  | .executed command false => match command with
    | .getProductInfo _ _ _ _ => .isTrue trivial
    | .anonymousLogin => .isFalse id
    | .clientLogoff => .isFalse id
  | .executed _ true => .isFalse id
  | .startCalled => .isFalse id
  | .shutdownCalled => .isFalse id
  | .started _ => .isFalse id
  | .consumed _ _ _ => .isFalse id
  | .dispatchedMsg _ => .isFalse id
  | .dispatchedProto _ => .isFalse id
  | .emitted _ => .isFalse id
  | .securedSet _ _ _ => .isFalse id
  | .handed _ _ _ => .isFalse id

instance : DecidablePred AsksWhenSecured :=
  fun log => inferInstanceAs (Decidable (∀ e ∈ log, ¬ e.AsksInClear))

/-- A codec that writes the fields one after the other. -/
theorem serializesRequests_writing : SerializesRequests .writing where
  header _ _ := rfl
  body _ _ := rfl

/-- A login is refused before the handshake, and goes out encrypted behind it. -/
def loginRun : List (Act Net.Lookup Net.Act) :=
  .execute .anonymousLogin :: connecting ++ handshake ++ [.execute .anonymousLogin]

/-- No state of it has a leak. -/
theorem nothingLeaks_loginRun :
    EveryState (step plainPlatform 8) (fun s => NothingLeaks s.client.log) System.onTcp loginRun :=
  (nothingLeaks_run_iff plainPlatform serializesRequests_writing 8 _ _ loginRun).mpr
    (by decide +kernel)

/-- The connection is made, and product information is requested at once. -/
def earlyRequest : List (Act Net.Lookup Net.Act) :=
  connecting ++ [.execute (.getProductInfo 440 76561197960265729 (-1) 7)]

/-- The last thing recorded is a buffer in the clear, and not a ChannelEncryptResponse. -/
def endsInClear (log : List Entry) : Bool :=
  match log.getLast? with
  | some (.handed _ buffer false) => firstWord buffer != EMsg.channelEncryptResponse
  | _ => false

/-- Such a log has a leak: only the answer to the challenge may go out in the clear. -/
theorem leaks_of_endsInClear {log : List Entry} (h : endsInClear log = true) :
    ∃ e ∈ log, e.Leaks := by
  unfold endsInClear at h
  split at h
  · rename_i message buffer hlast
    refine ⟨_, List.mem_of_getLast? hlast, ?_⟩
    intro hhandshake
    exact bne_iff_ne.mp h (firstWord_handshake hhandshake)
  · nomatch h

/-- A request before the handshake goes out as it is. -/
theorem nothingLeaks_earlyRequest : ¬ ∀ acts, EveryState (step plainPlatform 8)
    (fun s => NothingLeaks s.client.log) System.onTcp acts := by
  intro h
  have hend : (Runs.run (step plainPlatform 8) System.onTcp earlyRequest).any
      (fun s => endsInClear s.client.log) = true := by decide +kernel
  obtain ⟨s, hrun, hclear⟩ := (Option.any_eq_true _ _).mp hend
  obtain ⟨e, he, hleaks⟩ := leaks_of_endsInClear hclear
  exact (h earlyRequest).last hrun e he hleaks

end SteamMin.Client
