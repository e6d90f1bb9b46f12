/-
  THE PROGRAMS — `client.cpp`, `examples/get_info.cpp` and `examples/anonymous_login.cpp`.

  A program registers its listeners, connects, and leaves the rest to them: each answers its event with
  one command, or with nothing but output (`Answering`).  `SteamClient` only passes the calls on, so a
  program is a client whose user registers, starts a session, and then at most shuts down: `get_info`
  is `GetInfo.main`, `anonymous_login` is `AnonymousLogin.main`, with the moves of the transport in
  between.

  What such a program does in all its runs is a conversation (`Conversation`): each command stands
  right behind the event it answers, and each event that is to be answered has its command right
  behind it.  Between two events of a turn there is no room for anything else, so the steps of the
  journal are those of the handlers with the answer in them (`Program.Step`).
-/
import SteamMin.Client.Causes

namespace SteamMin.Client

open Messages Crypto
open Relation (ReflTransGen)

variable {C E M : Type}

/-! ## Listeners that answer

  A listener of these programs looks at the event and then at most executes one command; what it
  prints is left out.  So it is a function from events to commands (`answers`), and `Answering`
  says that the registered listeners are that function. -/

/-- `client.execute(command)`, the last call of a listener. -/
def executing (command : Command) : Script E :=
  .execute command fun thrown => thrown.elim .ret .raise

/-- Each listener executes the command its event is answered with, or calls nothing. -/
structure Answering (answers : Event → Option Command)
    (listeners : EventType → Option (Listener E)) : Prop where
  asks : ∀ event command, answers event = some command → ∃ callback,
    listeners event.type = some callback ∧ ∀ log, callback log event = executing command
  silent : ∀ event, answers event = none → ∀ callback, listeners event.type = some callback →
    ∀ log, callback log event = .ret

/-- No command is refused for want of a secured channel. -/
def Sendable (answers : Event → Option Command) : Prop :=
  ∀ event command, answers event = some command → event.IsSecured ∨ command.IsProductInfo

section
variable [IConnection C E] {p : Platform}

/-- Such a listener leaves what its command leaves. -/
theorem after_executing (emit : Event → Calling C E Unit) (command : Command) (c : CMClient C E) :
    Calls.after (runScript p emit (executing command) c)
      = Calls.after (execute p emit command c) := by
  show Calls.after ((attempt (execute p emit command) >>= fun thrown =>
    runScript p emit (thrown.elim .ret .raise)) c) = _
  cases hrun : execute p emit command c with
  | ok u c' =>
    have hattempt : attempt (execute p emit command) c = .ok none c' :=
      catchStd_ok (Calls.bind_ok hrun)
    rw [Calls.bind_ok hattempt]
    rfl
  | error fault c' =>
    have hbind : (do execute p emit command; pure none : Calling C E (Option Exn)) c
        = .error fault c' := Calls.bind_error hrun
    cases fault with
    | throws e =>
      have hattempt : attempt (execute p emit command) c = .ok (some e) c' :=
        catchStd_throws hbind
      rw [Calls.bind_ok hattempt]
      rfl
    | undefined =>
      have hattempt : attempt (execute p emit command) c = .error .undefined c' :=
        catchStd_undefined hbind
      rw [Calls.bind_error hattempt]
    | diverges =>
      have hattempt : attempt (execute p emit command) c = .error .diverges c' :=
        catchStd_diverges hbind
      rw [Calls.bind_error hattempt]

/-- An event that is not answered is recorded, and that is all. -/
theorem after_emit_silent {answers : Event → Option Command} {event : Event} {c : CMClient C E}
    (h : Answering answers c.listeners) (hanswer : answers event = none) (fuel : Nat) :
    Calls.after (emit p (fuel + 1) event c) = c.emitting event := by
  cases hlistener : c.listeners event.type with
  | none =>
    rw [emit_of_none hlistener]
    rfl
  | some callback =>
    rw [emit_succ_of_some hlistener, after_swallow, h.silent event hanswer callback hlistener]
    rfl

/-- An event that is answered is recorded, and its command executed. -/
theorem after_emit_asks {answers : Event → Option Command} {event : Event} {command : Command}
    {c : CMClient C E} (h : Answering answers c.listeners) (hanswer : answers event = some command)
    (fuel : Nat) : Calls.after (emit p (fuel + 1) event c)
      = Calls.after (execute p (emit p fuel) command (c.emitting event)) := by
  obtain ⟨callback, hlistener, hcallback⟩ := h.asks event command hanswer
  rw [emit_succ_of_some hlistener, after_swallow, hcallback, after_executing]

end

/-! ## The steps of a program

  A turn of the journal that ends in an event goes on with the listener of the event, and for
  these programs that is one more turn or nothing.  The fuel needs to be enough for one listener:
  the answers emit nothing on a secured channel. -/

/-- A turn without an event; a turn with an event that is not answered; a turn with an event and the
    turn of its answer.  A client with other listeners does anything. -/
inductive Program.Step (p : Platform) (answers : Event → Option Command) :
    Journal E → Journal E → Prop
  | quiet {j : Journal E} {es : List Entry} {b : Bool} {n : UInt64} (hes : ∀ e ∈ es, e.Unasked)
      (hturn : Turn p j.sessionKey j.secured j.nextJobid es b n) : Step p answers j (j.add es b n)
  | told {j : Journal E} {front : List Entry} {event : Event} {b : Bool} {n : UInt64}
      (hfront : ∀ e ∈ front, e.Unasked)
      (hturn : Turn p j.sessionKey j.secured j.nextJobid (front ++ [.emitted event]) b n)
      (hanswer : answers event = none) : Step p answers j (j.add (front ++ [.emitted event]) b n)
  | answered {j : Journal E} {front es : List Entry} {event : Event} {command : Command} {b : Bool}
      {n : UInt64} (hfront : ∀ e ∈ front, e.Unasked)
      (hturn : Turn p j.sessionKey j.secured j.nextJobid (front ++ [.emitted event]) b n)
      (hanswer : answers event = some command) (hsends : b = true ∨ command.IsProductInfo)
      (hreply : Turn p j.sessionKey b n (.executed command b :: es) b (command.draws n)) :
      Step p answers j
        ((j.add (front ++ [.emitted event]) b n).add (.executed command b :: es) b (command.draws n))
  | otherwise {j j' : Journal E} (h : ¬ Answering answers j.listeners) : Step p answers j j'

section
variable {p : Platform} {key : Bytes} {b b' : Bool} {n n' : UInt64} {es : List Entry} {event : Event}

/-- The event that says so comes with the flag. -/
theorem Turn.secured_of_isSecured (h : Turn p key b n es b' n') (hmem : .emitted event ∈ es)
    (hsecured : event.IsSecured) : b' = true := by
  cases h with
  | startCalled => simp at hmem
  | started => simp at hmem
  | shutdownCalled => simp at hmem
  | sent hsends hmessage hbuffer => simp at hmem
  | unserialized hsends hmessage => simp at hmem
  | unsealed hmessage hbuffer => simp at hmem
  | @refused n command hcommand =>
    cases command with
    | anonymousLogin =>
      obtain rfl : event = .clientLogon (.fail "Channel not secured") none none := by
        simpa [Command.refusal] using hmem
      cases hsecured
    | clientLogoff => simp [Command.refusal] at hmem
    | getProductInfo id steamid clientSessionid appToken => exact absurd trivial hcommand
  | frame hreaction =>
    generalize receivedUnder p key b _ _ = received at hreaction
    cases hreaction with
    | rejected => simp at hmem
    | raw hraw hreaction =>
      cases hreaction with
      | answered htype hkey hresponse hmessage hbuffer => simp at hmem
      | unanswered htype hkey hresponse hmessage hbuffer => simp at hmem
      | @declined crypto crypto' e htype hkey hfailed =>
        obtain rfl : event = .channelSecured (.fail (what e)) := by simpa using hmem
        cases hsecured
      | @result success connected htype hverdict =>
        obtain rfl : event = resultEvent b' := by simpa using hmem
        exact isSecured_resultEvent hsecured
      | unreadable htype hverdict => simp at hmem
      | unhandled htype =>
        obtain rfl : event = .msgNotImplemented _ _ := by simpa using hmem
        cases hsecured
    | @proto data packet hproto =>
      rcases protoReaction_cases p key packet with hnone | ⟨event', hevent, hcause⟩
      · simp [hnone] at hmem
      · obtain rfl : event = event' := by simpa [hevent] using hmem
        cases hcause with
        | logon htype => cases hsecured
        | productInfo htype hentries => cases hsecured
        | unhandledProto hid htype => cases hsecured
    | ignored hraw hproto => simp at hmem

end

/-- **The answers are in the steps**: with enough fuel for one listener. -/
theorem shows_program [IConnection C E] {p : Platform} {answers : Event → Option Command}
    (hsendable : Sendable answers) (fuel : Nat) :
    Shows p (Program.Step p answers) (emit p (fuel + 1) : Event → Calling C E Unit) where
  quiet hes hturn := .quiet hes hturn
  event := by
    intro j c front event hfront hc hturn
    obtain ⟨hkey, -, -, -, hlisteners⟩ := Journal.mk.inj hc
    have hemitting : (c.emitting event).journal
        = j.add (front ++ [.emitted event]) c.channelSecured c.nextJobid := by
      rw [← Journal.add_add, ← hc]
      rfl
    by_cases hanswering : Answering answers j.listeners
    · have hanswering' : Answering answers c.listeners := by
        rw [hlisteners]
        exact hanswering
      cases hanswer : answers event with
      | none =>
        rw [after_emit_silent hanswering' hanswer, hemitting]
        exact .single (.told hfront hturn hanswer)
      | some command =>
        have hsends : c.channelSecured = true ∨ command.IsProductInfo := by
          rcases hsendable event command hanswer with hsecured | hproduct
          · exact .inl (hturn.secured_of_isSecured (by simp) hsecured)
          · exact .inr hproduct
        have hsends' : (c.emitting event).channelSecured = true ∨ command.IsProductInfo := hsends
        obtain ⟨es, hreply, hrun⟩ := execute_journal (p := p) (emit p fuel) hsends'
        rw [after_emit_asks hanswering' hanswer, hrun, hemitting]
        have hkey' : (c.emitting event).crypto.sessionKey = j.sessionKey := hkey
        rw [hkey'] at hreply
        exact .single (.answered hfront hturn hanswer hsends hreply)
    · exact .single (.otherwise hanswering)

/-! ## Conversations

  What the steps make of a record, told without any step: which entry stands behind which. -/

/-- Each command answers the event right before it, and goes out; each event that is to be answered
    has its command right behind it. -/
structure Conversation (answers : Event → Option Command) (log : List Entry) : Prop where
  asked : ∀ l command b r, log = l ++ .executed command b :: r → ∃ l' event,
    l = l' ++ [.emitted event] ∧ answers event = some command ∧ (b = true ∨ command.IsProductInfo)
  answered : ∀ l event command r, log = l ++ .emitted event :: r → answers event = some command →
    ∃ b r', r = .executed command b :: r'

section
variable {answers : Event → Option Command} {l es : List Entry} {event : Event} {command : Command}

/-- A conversation goes on. -/
theorem Conversation.append (h : Conversation answers l) (h' : Conversation answers es) :
    Conversation answers (l ++ es) := by
  constructor
  · intro l₁ command b r hsplit
    rcases split_append hsplit with ⟨r', hl, rfl⟩ | ⟨m, hes, rfl⟩
    · exact h.asked l₁ command b r' hl
    · obtain ⟨l', event, rfl, hanswer⟩ := h'.asked m command b r hes
      exact ⟨l ++ l', event, (List.append_assoc l l' _).symm, hanswer⟩
  · intro l₁ event command r hsplit hanswer
    rcases split_append hsplit with ⟨r', hl, rfl⟩ | ⟨m, hes, rfl⟩
    · obtain ⟨b, r'', rfl⟩ := h.answered l₁ event command r' hl hanswer
      exact ⟨b, r'' ++ es, rfl⟩
    · exact h'.answered m event command r hes hanswer

/-- Where the user takes no part, nothing is said. -/
theorem Conversation.of_unasked (h : ∀ e ∈ es, e.Unasked) : Conversation answers es := by
  constructor
  · rintro l command b r rfl
    exact absurd (h (.executed command b) (by simp)) id
  · rintro l event command r rfl hanswer
    exact absurd (h (.emitted event) (by simp)) id

/-- An event that is not answered. -/
theorem Conversation.told (hanswer : answers event = none) :
    Conversation answers [.emitted event] := by
  constructor
  · intro l command b r hsplit
    obtain ⟨-, heq, -⟩ := split_singleton hsplit
    cases heq
  · intro l event' command r hsplit hanswer'
    obtain ⟨-, heq, -⟩ := split_singleton hsplit
    cases heq
    cases hanswer.symm.trans hanswer'

/-- An event and its answer. -/
theorem Conversation.pair {b : Bool} (hanswer : answers event = some command)
    (hsends : b = true ∨ command.IsProductInfo) :
    Conversation answers [.emitted event, .executed command b] := by
  constructor
  · intro l command' b' r hsplit
    obtain ⟨m, rfl, hrest⟩ := split_cons hsplit (by simp)
    obtain ⟨rfl, heq, -⟩ := split_singleton hrest
    cases heq
    exact ⟨[], event, rfl, hanswer, hsends⟩
  · intro l event' command' r hsplit hanswer'
    cases l with
    | nil =>
      obtain ⟨heq, rfl⟩ := List.cons.inj hsplit
      cases heq
      obtain rfl := Option.some.inj (hanswer.symm.trans hanswer')
      exact ⟨b, [], rfl⟩
    | cons e m =>
      obtain ⟨-, heq, -⟩ := split_singleton (List.cons.inj hsplit).2
      cases heq

end

section
variable {p : Platform} {answers : Event → Option Command} {j j' : Journal E}

/-- **Step lemma**: the conversation goes on, with the same listeners. -/
theorem Program.Step.conversation (h : Program.Step p answers j j')
    (hanswering : Answering answers j.listeners) (hlog : Conversation answers j.log) :
    Answering answers j'.listeners ∧ Conversation answers j'.log := by
  cases h with
  | quiet hes hturn => exact ⟨hanswering, hlog.append (.of_unasked hes)⟩
  | told hfront hturn hanswer =>
    exact ⟨hanswering, hlog.append (.append (.of_unasked hfront) (.told hanswer))⟩
  | @answered front es event command b n hfront hturn hanswer hsends hreply =>
    have hes : ∀ e ∈ es, e.Unasked := by
      intro e he
      have hreply' : Turn p j.sessionKey b n ([] ++ .executed command b :: es) b _ := hreply
      obtain ⟨-, ⟨message, buffer, rfl, -⟩ | ⟨rfl, -⟩⟩ := hreply'.command_of hsends
      · rw [List.mem_singleton.mp he]
        trivial
      · cases he
    refine ⟨hanswering, ?_⟩
    show Conversation answers ((j.log ++ (front ++ [.emitted event])) ++ .executed command b :: es)
    have hchunk : (j.log ++ (front ++ [.emitted event])) ++ .executed command b :: es
        = j.log ++ (front ++ ([.emitted event, .executed command b] ++ es)) := by simp
    rw [hchunk]
    exact hlog.append (.append (.of_unasked hfront) (.append (.pair hanswer hsends)
      (.of_unasked hes)))
  | otherwise h => exact absurd hanswering h

/-- The run lemma: the listeners stay as registered, and the log stays a conversation. -/
theorem Program.Step.run (hrun : ReflTransGen (Program.Step p answers) j j')
    (hanswering : Answering answers j.listeners) (hlog : Conversation answers j.log) :
    Answering answers j'.listeners ∧ Conversation answers j'.log := by
  induction hrun with
  | refl => exact ⟨hanswering, hlog⟩
  | tail _ hlast ih => exact hlast.conversation ih.1 ih.2

end

/-! ## Programs

  `main` registers its listeners before anything else, so from then on the table of listeners is
  that of the program. -/

/-- The listeners of a program, registered one after the other. -/
def registering (listeners : List (EventType × Listener E)) : List (Act E M) :=
  listeners.map fun listener => .on listener.1 listener.2

/-- The table of listeners behind it. -/
def registered (listeners : List (EventType × Listener E)) : EventType → Option (Listener E) :=
  listeners.foldl (fun table listener => Function.update table listener.1 (some listener.2))
    fun _ => none

section
variable [Transport C E M] {p : Platform} {fuel : Nat}

/-- Registering changes the table, and nothing else. -/
theorem run_registering (listeners : List (EventType × Listener E)) (s : System C E)
    (hs : s.stopped = none) :
    Runs.run (step p fuel) s (registering listeners : List (Act E M))
      = some { s with client := { s.client with
          listeners := listeners.foldl
            (fun table listener => Function.update table listener.1 (some listener.2))
            s.client.listeners } } := by
  induction listeners generalizing s with
  | nil => rfl
  | cons listener listeners ih =>
    have hstep : step p fuel s (.on listener.1 listener.2 : Act E M)
        = some { s with client := { s.client with
            listeners := Function.update s.client.listeners listener.1 (some listener.2) } } := by
      rw [step, hs]
      rfl
    rw [registering, List.map_cons, Runs.run_cons_of_step hstep]
    exact ih _ hs

/-- **Programs converse**: whatever the transport does, and however often the user connects and
    disconnects, a program whose listeners answer leaves the record of a conversation. -/
theorem conversation_run {answers : Event → Option Command}
    {listeners : List (EventType × Listener E)} (hanswering : Answering answers (registered listeners))
    (hsendable : Sendable answers) (connection : C) (crypto : EncryptionManager)
    {acts : List (Act E M)} (hacts : ∀ a ∈ acts, a.Idle) {s : System C E}
    (hrun : Runs.run (step p (fuel + 1)) (System.initial connection crypto)
      (registering listeners ++ acts) = some s) : Conversation answers s.client.log := by
  rw [Runs.run_append, run_registering listeners _ rfl] at hrun
  have hsteps : ∀ (acts : List (Act E M)) (s s' : System C E), (∀ a ∈ acts, a.Idle) →
      Runs.run (step p (fuel + 1)) s acts = some s' →
      ReflTransGen (Program.Step p answers) s.client.journal s'.client.journal := by
    intro acts
    induction acts with
    | nil =>
      intro s s' _ h
      cases h
      exact .refl
    | cons a acts ih =>
      intro s s' hidle h
      obtain ⟨ha, hrest⟩ := List.forall_mem_cons.mp hidle
      obtain ⟨s₁, hstep, hrun⟩ := Runs.run_cons_eq_some h
      exact (step_idle (shows_program hsendable fuel) hstep ha).trans (ih s₁ s' hrest hrun)
  have hempty : Conversation answers [] := .of_unasked fun e he => absurd he List.not_mem_nil
  exact (Program.Step.run (hsteps acts _ s hacts hrun) hanswering hempty).2

end

end SteamMin.Client
