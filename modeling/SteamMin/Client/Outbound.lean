/-
  WHAT GOES OUT, AND IN WHICH ORDER.

  `send_msg_impl` hands a buffer to `async_send`, and that is the end of it for the client.  The
  buffers come from commands, from the handshake and from callbacks inside both; the connection
  writes them when it can.  As long as it stays CONNECTED, the bytes its socket accepts are the
  frames of the buffers the client handed on, in the order in which the record has them
  (`buffers_written_run`): none is lost, cut short, doubled or overtaken.

  A connection that a callback closes does not come back within the same act, since only the handler
  of an attempt enters CONNECTED; so it is enough to look at the states between two acts.
-/
import SteamMin.Client.Shutdown
import SteamMin.Net.WriteOrder

namespace SteamMin.Client

open Runs (EveryState)
open Relation (ReflTransGen)

/-! ## The buffers handed on

  What the record says was given to the connection, as bytes on the wire. -/

/-- The buffer that an entry says was handed to the connection. -/
def Entry.handedOn : Entry → List Bytes
  | .handed _ buffer _ => [buffer]
  | _ => []

/-- The frames of the buffers of a record. -/
def writtenFor (es : List Entry) : Bytes := (es.flatMap Entry.handedOn).flatMap Net.frame

/-- What is written for a log accumulates. -/
theorem writtenFor_append (es es' : List Entry) :
    writtenFor (es ++ es') = writtenFor es ++ writtenFor es' := by
  rw [writtenFor, List.flatMap_append, List.flatMap_append]
  rfl

/-- Entries without a buffer put nothing on the wire. -/
theorem writtenFor_nil {es : List Entry} (h : es.flatMap Entry.handedOn = []) :
    writtenFor es = [] := by
  rw [writtenFor, h]
  rfl

/-! ## What the client does with its connection

  While the connection is CONNECTED the client only sends or closes, so the framing of its buffers
  goes behind what is on its way already. -/

/-- Sending changes no state. -/
theorem state_asyncSend (buffer : Bytes) (k : Net.Connection) :
    (Net.asyncSend buffer k).state = k.state := by
  by_cases hqueue : k.writeQueue = []
  · rw [Net.asyncSend_of_nil buffer hqueue]
    rfl
  · rw [Net.asyncSend_of_ne buffer hqueue]

/-- Nor does sending all that a handler sends. -/
theorem state_send (es : List Entry) (k : Net.Connection) :
    (es.foldl Entry.send k).state = k.state := by
  induction es generalizing k with
  | nil => rfl
  | cons e es ih =>
    rw [List.foldl_cons, ih]
    cases e with
    | handed message buffer secured => exact state_asyncSend buffer k
    | _ => rfl

/-- Entries send their buffers, in their order. -/
theorem draining_send {sent₀ : Bytes} (es : List Entry) :
    ∀ {stream : Bytes} {k : Net.Connection}, Net.Draining sent₀ stream k →
      Net.Draining sent₀ (stream ++ writtenFor es) (es.foldl Entry.send k) := by
  induction es with
  | nil =>
    intro stream k h
    rw [writtenFor_nil rfl, List.append_nil]
    exact h
  | cons e es ih =>
    intro stream k h
    rw [List.foldl_cons, ← List.singleton_append, writtenFor_append, ← List.append_assoc]
    apply ih
    cases e with
    | handed message buffer secured =>
      rw [show writtenFor [.handed message buffer secured] = Net.frame buffer from List.append_nil _]
      exact Net.draining_asyncSend buffer h
    | _ =>
      rw [writtenFor_nil rfl, List.append_nil]
      exact h

/-- Since the record was `l₀`: if the connection is CONNECTED, what was handed on is on its way. -/
def OnItsWay (l₀ : List Entry) (sent₀ : Bytes) (ch : Channel Net.Connection) : Prop :=
  ∃ es, ch.log = l₀ ++ es ∧
    (ch.connection.state = .connected → Net.Draining sent₀ (writtenFor es) ch.connection)

section
variable {p : Platform} {Src : Bytes → Prop} {l₀ : List Entry} {sent₀ : Bytes}
  {ch ch' : Channel Net.Connection}

/-- The entries are recorded, and what they hand on is sent. -/
theorem OnItsWay.send {b b' : Bool} {l : List Entry} {k : Net.Connection}
    (h : OnItsWay l₀ sent₀ ⟨b, l, k⟩) (es : List Entry) :
    OnItsWay l₀ sent₀ ⟨b', l ++ es, es.foldl Entry.send k⟩ := by
  obtain ⟨es₀, hlog, hdraining⟩ := h
  have hlog' : l = l₀ ++ es₀ := hlog
  refine ⟨es₀ ++ es, ?_, ?_⟩
  · rw [hlog', List.append_assoc]
  · intro hstate
    rw [writtenFor_append]
    exact draining_send es (hdraining ((state_send es k).symm.trans hstate))

/-- The connection may do anything but write; to be CONNECTED it must have been. -/
theorem OnItsWay.move {b b' : Bool} {l : List Entry} {k k' : Net.Connection}
    (h : OnItsWay l₀ sent₀ ⟨b, l, k⟩) {es : List Entry} (hes : es.flatMap Entry.handedOn = [])
    (hk : k'.state = .connected → k.state = .connected ∧ Net.SameWriting k k') :
    OnItsWay l₀ sent₀ ⟨b', l ++ es, k'⟩ := by
  obtain ⟨es₀, hlog, hdraining⟩ := h
  have hlog' : l = l₀ ++ es₀ := hlog
  refine ⟨es₀ ++ es, ?_, ?_⟩
  · rw [hlog', List.append_assoc]
  · intro hstate
    obtain ⟨hwas, hsame⟩ := hk hstate
    rw [writtenFor_append, writtenFor_nil hes, List.append_nil]
    exact hsame.draining (hdraining hwas)

/-- An attempt to connect leaves a connection that is CONNECTED as it is. -/
theorem connect_sameWriting (net : Net.Lookup) (k : Net.Connection)
    (hstate : (Calls.after (IConnection.networkConnect net (IConnection.setOnFrame k) :
      EStateM.Result Exn Net.Connection Unit)).state = .connected) :
    k.state = .connected ∧ Net.SameWriting k
      (Calls.after (IConnection.networkConnect net (IConnection.setOnFrame k))) := by
  have hwas : k.state = .connected :=
    (Net.rests_networkConnect net { k with onFrame := true }).state hstate
  refine ⟨hwas, ?_⟩
  have hbusy : Net.networkConnect net { k with onFrame := true }
      = .ok () { k with onFrame := true } := by
    apply Net.networkConnect_busy
    show k.state ≠ .disconnected
    rw [hwas]
    decide
  show Net.SameWriting k (Calls.after (Net.networkConnect net { k with onFrame := true }))
  rw [hbusy]
  exact ⟨rfl, rfl, rfl, rfl⟩

/-- **Step lemma**: what the client hands on is on its way. -/
theorem onItsWay_step (h : OnItsWay l₀ sent₀ ch) (hstep : Channel.Step p Src ch ch') :
    OnItsWay l₀ sent₀ ch' := by
  cases hstep with
  | startCalled net => exact h.move rfl (connect_sameWriting net _)
  | @shutdownCalled b l k =>
    refine h.move rfl fun hstate => ?_
    exfalso
    by_cases hconnected : IConnection.isConnected k = true
    · rw [if_pos hconnected] at hstate
      exact Net.networkClose_not_connected k hstate
    · rw [if_neg hconnected] at hstate
      exact hconnected (decide_eq_true hstate)
  | started => exact h.send [_]
  | emitted => exact h.send [_]
  | commanded => exact h.send [_, _]
  | refused => exact h.send [_]
  | rawFrame => exact h.send (_ :: _)
  | frame => exact h.send [_]
  | dispatchedMsg => exact h.send _
  | dispatchedProto => exact h.send [_]

/-- The run lemma: the steps of the client keep every buffer on its way, in order. -/
theorem onItsWay_run (h : OnItsWay l₀ sent₀ ch) (hrun : ReflTransGen (Channel.Step p Src) ch ch') :
    OnItsWay l₀ sent₀ ch' := keeps_run (fun _ _ => onItsWay_step) h hrun

/-! ## Acts

  The transport takes from the other end of the queue.  While the connection stays CONNECTED
  nothing is lost in between. -/

/-- A move of the transport on a connection that stays CONNECTED. -/
theorem OnItsWay.transport {b : Bool} {l : List Entry} {k k' : Net.Connection} {m : Net.Act}
    {f : Option Bytes} (h : OnItsWay l₀ sent₀ ⟨b, l, k⟩) (hconnected : k.state = .connected)
    (hmove : Transport.move k m = some (k', f)) : OnItsWay l₀ sent₀ ⟨b, l, k'⟩ := by
  obtain ⟨es₀, hlog, hdraining⟩ := h
  obtain ⟨hnet, -, hm⟩ := move_eq_some hmove
  refine ⟨es₀, hlog, fun hstate => ?_⟩
  have hnext := Net.draining_step (hdraining hconnected) hconnected hstate hnet
  have hsilent : Net.framesOf [m] = [] := by
    rcases hm with ⟨i, data, rfl⟩ | ⟨i, ec, rfl⟩ | ⟨i, rfl⟩
    · rfl
    · rfl
    · rfl
  rwa [hsilent, List.append_nil] at hnext

/-- Behind the frame handler the connection writes on. -/
theorem returned_sameWriting {k k' : Net.Connection} (h : k' = Transport.frameReturned k ∨
    k' = Transport.frameRaised k ∨ k' = k) : k'.state = k.state ∧ Net.SameWriting k k' := by
  rcases h with rfl | rfl | rfl
  · refine ⟨rfl, ?_⟩
    have hleft : Net.SameWriting k { k with inCallback := false } := ⟨rfl, rfl, rfl, rfl⟩
    exact hleft.trans (Net.sameWriting_startOp rfl _)
  · exact ⟨rfl, rfl, rfl, rfl, rfl⟩
  · exact ⟨rfl, rfl, rfl, rfl, rfl⟩

/-- **Each act** of a client whose connection is CONNECTED before it. -/
theorem onItsWay_act {fuel : Nat} {s s' : System Net.Connection Net.Lookup}
    {a : Act Net.Lookup Net.Act} (h : OnItsWay l₀ sent₀ s.client.channel)
    (hconnected : s.client.connection.state = .connected) (hstep : step p fuel s a = some s') :
    OnItsWay l₀ sent₀ s'.client.channel := by
  rcases step_cases hstep with ⟨-, hrun⟩ | ⟨m, k, -, hmove, hs'⟩ |
    ⟨m, k, frame, ch, k', -, hmove, hrun, hk', hs'⟩
  · exact onItsWay_run h hrun
  · rw [hs']
    exact OnItsWay.transport h hconnected hmove
  · have hmoved : OnItsWay l₀ sent₀ ⟨s.client.channelSecured, s.client.log, k⟩ :=
      OnItsWay.transport h hconnected hmove
    have hbehind := onItsWay_run hmoved hrun
    obtain ⟨hstate, hsame⟩ := returned_sameWriting hk'
    have hreturned : OnItsWay l₀ sent₀ ⟨ch.secured, ch.log ++ [], k'⟩ :=
      OnItsWay.move hbehind rfl fun hstate' => ⟨hstate.symm.trans hstate', hsame⟩
    rw [hs']
    rwa [List.append_nil] at hreturned

/-- The same for the acts of the system, as long as the connection is up. -/
theorem onItsWay_acts {fuel : Nat} {s s' : System Net.Connection Net.Lookup}
    {acts : List (Act Net.Lookup Net.Act)} (h : OnItsWay l₀ sent₀ s.client.channel)
    (hconnected : EveryState (step p fuel)
      (fun s : System Net.Connection Net.Lookup => s.client.connection.state = .connected) s acts)
    (hrun : Runs.run (step p fuel) s acts = some s') : OnItsWay l₀ sent₀ s'.client.channel := by
  induction acts generalizing s with
  | nil =>
    cases hrun
    exact h
  | cons a acts ih =>
    obtain ⟨s₁, hstep, hrun⟩ := Runs.run_cons_eq_some hrun
    obtain ⟨hstate, hrest⟩ := Runs.everyState_cons.mp hconnected
    exact ih (onItsWay_act h hstate hstep) (hrest s₁ hstep) hrun

/-- A connection with nothing to write. -/
theorem OnItsWay.starts {c : CMClient Net.Connection Net.Lookup}
    (hqueue : c.connection.writeQueue = []) (hwrites : c.connection.writes = []) :
    OnItsWay c.log c.connection.sent c.channel := by
  refine ⟨[], (List.append_nil _).symm, fun _ => ?_⟩
  exact .idle hqueue (Net.writeOps_eq_nil hwrites) (List.append_nil _).symm

/-- What is on its way has been written, or a beginning of it. -/
theorem OnItsWay.written {b : Bool} {l : List Entry} {k : Net.Connection}
    (h : OnItsWay l₀ sent₀ ⟨b, l, k⟩) (hconnected : k.state = .connected) :
    ∃ es written, l = l₀ ++ es ∧ k.sent = sent₀ ++ written ∧ written <+: writtenFor es ∧
      (k.writes = [] → written = writtenFor es) := by
  obtain ⟨es, hlog, hdraining⟩ := h
  have hend := hdraining hconnected
  cases hend with
  | idle hqueue hwrites hsent => exact ⟨es, _, hlog, hsent, List.prefix_refl _, fun _ => rfl⟩
  | @busy front written rest q hqueue hwrites hop hsession hsound hsent hrest =>
    refine ⟨es, written, hlog, hsent, ⟨_, hrest⟩, ?_⟩
    intro hnone
    have hops : k.writeOps = [] := Net.writeOps_eq_nil hnone
    cases hwrites.symm.trans hops

end

/-! ## Whole runs

  What is on its way has been accepted by the socket, or waits in the queue. -/

/-- **The client's messages on the wire**: while the connection of a client, with nothing to write at
    first, stays CONNECTED, what its socket accepts is the beginning of the frames of the buffers
    the client hands on, in their order, and all of them whenever no write is outstanding. -/
theorem buffers_written_run {p : Platform} {fuel : Nat} {s s' : System Net.Connection Net.Lookup}
    {acts : List (Act Net.Lookup Net.Act)} (hqueue : s.client.connection.writeQueue = [])
    (hwrites : s.client.connection.writes = [])
    (hconnected : EveryState (step p fuel)
      (fun s'' : System Net.Connection Net.Lookup => s''.client.connection.state = .connected) s acts)
    (hrun : Runs.run (step p fuel) s acts = some s') :
    ∃ es written, s'.client.log = s.client.log ++ es ∧
      s'.client.connection.sent = s.client.connection.sent ++ written ∧
      written <+: writtenFor es ∧
      (s'.client.connection.writes = [] → written = writtenFor es) := by
  have hstart : OnItsWay s.client.log s.client.connection.sent s.client.channel :=
    OnItsWay.starts hqueue hwrites
  exact (onItsWay_acts hstart hconnected hrun).written (hconnected.last hrun)

/-- The channel is secured, and the client logs in. -/
def loggingIn : List (Act Net.Lookup Net.Act) := handshake ++ [.execute .anonymousLogin]

/-- A login in a session that is up, through to the reached state. -/
theorem buffers_written_loggingIn :
    ∃ s s', Runs.run (step plainPlatform 8) System.onTcp connecting = some s ∧
      Runs.run (step plainPlatform 8) s loggingIn = some s' ∧
      ∃ es written, s'.client.log = s.client.log ++ es ∧
        s'.client.connection.sent = s.client.connection.sent ++ written ∧
        written <+: writtenFor es := by
  have hconnected : (Runs.run (step plainPlatform 8) System.onTcp connecting).any (fun s =>
      decide (s.client.connection.writeQueue = []) && decide (s.client.connection.writes = []) &&
      decide (EveryState (step plainPlatform 8)
        (fun s : System Net.Connection Net.Lookup => s.client.connection.state = .connected) s
        loggingIn) &&
      (Runs.run (step plainPlatform 8) s loggingIn).any fun _ => true) = true := by
    decide +kernel
  obtain ⟨s, hrun, hs⟩ := (Option.any_eq_true _ _).mp hconnected
  simp only [Bool.and_eq_true, decide_eq_true_eq] at hs
  obtain ⟨⟨⟨hqueue, hwrites⟩, hstates⟩, hend⟩ := hs
  obtain ⟨s', hrun', -⟩ := (Option.any_eq_true _ _).mp hend
  obtain ⟨es, written, hlog, hsent, hprefix, -⟩ := buffers_written_run hqueue hwrites hstates hrun'
  exact ⟨s, s', hrun, hrun', es, written, hlog, hsent, hprefix⟩

end SteamMin.Client
