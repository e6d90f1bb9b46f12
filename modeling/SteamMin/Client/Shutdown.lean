/-
  AFTER SHUTDOWN: does the connection stay down?

  `shutdown` closes a connection that is CONNECTED, and no other.  An attempt that is under way
  keeps its socket and its handler, and when the attempt succeeds the handler enters CONNECTED.  Nor
  does a close take back what has completed: the handler of a body that was read before the close
  still calls `on_frame_`.  Those are the two ways back (`Pending.Revives`), and there is no third:
  whatever else the transport does, and whatever callbacks and commands do with the connection, it
  `Rests`.

  * `shutdown_run_iff` — a run stays down exactly when no handler revives it while it is shut down;
  * `shutdown_final` — where nothing has completed yet, a shutdown of a CONNECTED client is final:
    its connection is `Settled`, and no run leads out of that but by `start_session`.
-/
import SteamMin.Client.ChannelRefinement
import SteamMin.Net.TcpSteps

namespace SteamMin.Net

/-! ## Connections that rest

  What must not happen behind a `shutdown`, step by step.  Only two handlers can make it happen,
  that of an attempt and that of a body, and `Pending.Revives` says when they do. -/

/-- The connection does not enter CONNECTED, and delivers nothing. -/
structure Rests (c c' : Connection) : Prop where
  state : c'.state = .connected → c.state = .connected
  delivered : c'.delivered = c.delivered

/-- The handler of this operation would change that: the operation has succeeded, and it connects,
    or it reads a body for which there is a frame handler. -/
def Pending.Revives (p : Pending) (onFrame : Bool) : Prop :=
  p.outcome = some .success ∧ (p.op = .connect ∨ onFrame = true ∧ ∃ len, p.op = .readBody len)

variable {c c' c'' : Connection}

/-- A step that changes nothing. -/
theorem Rests.refl (c : Connection) : Rests c c := ⟨id, rfl⟩

/-- Steps that rest, one behind the other. -/
theorem Rests.trans (h : Rests c c') (h' : Rests c' c'') : Rests c c'' :=
  ⟨fun hstate => h.state (h'.state hstate), h'.delivered.trans h.delivered⟩

/-- A step into any other state rests, if it delivers nothing. -/
theorem Rests.of_state {s : ConnectionState} (hs : s ≠ .connected) (hstate : c'.state = s)
    (hdelivered : c'.delivered = c.delivered) : Rests c c' :=
  ⟨fun h => absurd (hstate.symm.trans h) hs, hdelivered⟩

/-- Closing rests. -/
theorem rests_networkClose (c : Connection) : Rests c (networkClose c) := by
  by_cases hstate : c.state = .disconnected
  · rw [networkClose_of_disconnected hstate]
    exact ⟨id, rfl⟩
  · rw [networkClose_of_ne hstate]
    exact .of_state (s := .disconnected) (by decide) rfl rfl

/-- Closing is never a connect. -/
theorem networkClose_not_connected (c : Connection) : (networkClose c).state ≠ .connected := by
  rw [networkClose_disconnected]
  decide

/-- Connecting starts an attempt; only its handler could reach CONNECTED. -/
theorem rests_networkConnect (lookup : Lookup) (c : Connection) :
    Rests c (Calls.after (networkConnect lookup c)) := by
  by_cases hstate : c.state = .disconnected
  · by_cases hfinds : lookup.Finds
    · rw [networkConnect_finds hstate hfinds]
      exact .of_state (s := .connecting) (by decide) rfl rfl
    · obtain ⟨e, hrun⟩ := networkConnect_fails hstate hfinds
      rw [hrun]
      exact .of_state (s := .connecting) (by decide) rfl rfl
  · rw [networkConnect_busy hstate]
    exact .refl c

/-- Sending rests, whatever the queue does. -/
theorem rests_asyncSend (data : Bytes) (c : Connection) : Rests c (asyncSend data c) := by
  by_cases hqueue : c.writeQueue = []
  · rw [asyncSend_of_nil data hqueue]
    exact ⟨id, rfl⟩
  · rw [asyncSend_of_ne data hqueue]
    exact ⟨id, rfl⟩

/-- The handler of a header reads on or closes, and delivers nothing. -/
theorem rests_onReadHeader (ec : Outcome) (c : Connection) : Rests c (onReadHeader ec c) := by
  cases ec with
  | failure => exact rests_networkClose c
  | success =>
    show Rests c (if !validateMagic c.headerBuffer then handleDisconnect c
      else startReadBody (parseMessageLength c.headerBuffer) c)
    split
    · exact rests_networkClose c
    · exact ⟨id, rfl⟩

/-- The handler of a write goes on writing or closes. -/
theorem rests_onWrite (ec : Outcome) (c : Connection) : Rests c (onWrite ec c) := by
  cases ec with
  | failure => exact rests_networkClose c
  | success =>
    cases htail : c.writeQueue.tail with
    | nil =>
      rw [onWrite_success_of_nil htail]
      exact ⟨id, rfl⟩
    | cons buffer rest =>
      rw [onWrite_success_of_cons htail]
      exact ⟨id, rfl⟩

/-- Every other handler lets the connection rest. -/
theorem rests_handler {p : Pending} {ec : Outcome} (hec : p.outcome = some ec)
    (hrevives : ¬ p.Revives c.onFrame) : Rests c (p.op.handler ec c) := by
  cases hop : p.op with
  | connect =>
    cases ec with
    | success => exact absurd ⟨hec, .inl hop⟩ hrevives
    | failure => exact .of_state (s := .disconnected) (by decide) rfl rfl
  | readHeader => exact rests_onReadHeader ec c
  | readBody len =>
    cases ec with
    | failure => exact rests_networkClose c
    | success =>
      have honFrame : c.onFrame ≠ true := by
        intro h
        exact hrevives ⟨hec, .inr ⟨h, len, hop⟩⟩
      show Rests c (if c.onFrame then _ else afterFrame c)
      rw [if_neg honFrame]
      exact ⟨id, rfl⟩
  | write buffer => exact rests_onWrite ec c

/-- What the socket does on its own does not wake the connection. -/
theorem rests_transfer {i : Nat} {data : Bytes} (h : step c (.transfer i data) = some c') :
    Rests c c' := by
  obtain ⟨l₁, p, l₂, -, -, rfl⟩ := step_transfer h
  constructor
  · simp
  · simp

/-- A completion calls no handler. -/
theorem rests_complete {i : Nat} {ec : Outcome} (h : step c (.complete i ec) = some c') :
    Rests c c' := by
  obtain ⟨l₁, p, l₂, -, -, rfl⟩ := step_complete h
  exact ⟨id, rfl⟩

/-- The handlers that run next do not wake the connection. -/
def NothingRevives (c : Connection) : Act → Prop
  | .run i => ∀ p, c.pending[i]? = some p → ¬ p.Revives c.onFrame
  | _ => True

/-- A handler rests unless it is one of the two the condition names. -/
theorem rests_run {i : Nat} (hrevives : NothingRevives c (.run i)) (h : step c (.run i) = some c') :
    Rests c c' := by
  obtain ⟨-, l₁, p, l₂, ec, hsplit, rfl, hec, rfl⟩ := step_run h
  have hp : c.pending[l₁.length]? = some p := by simp [hsplit]
  have hremoved : Rests c { c with pending := l₁ ++ l₂ } := ⟨id, rfl⟩
  exact hremoved.trans (rests_handler hec (hrevives p hp))

/-- A connection that is revived enters CONNECTED, or a frame handler is called. -/
theorem revived {i : Nat} {p : Pending} (hp : c.pending[i]? = some p) (hp' : p.Revives c.onFrame)
    (h : step c (.run i) = some c') :
    (c'.inCallback = false ∧ c'.state = .connected) ∨ c'.delivered ≠ c.delivered := by
  obtain ⟨hcallback, l₁, q, l₂, ec, hsplit, rfl, hec, rfl⟩ := step_run h
  obtain rfl : q = p := by simpa [hsplit] using hp
  obtain ⟨hsuccess, hop⟩ := hp'
  obtain rfl : ec = .success := Option.some.inj (hec.symm.trans hsuccess)
  rcases hop with hop | ⟨honFrame, len, hop⟩
  · rw [hop]
    exact .inl ⟨hcallback, rfl⟩
  · rw [hop]
    right
    show (if c.onFrame then _ else _ : Connection).delivered ≠ c.delivered
    rw [if_pos honFrame]
    simp

/-! ## Connections that are settled

  An invariant that needs no condition on the handlers to come: on a closed socket every operation
  fails at once, and of what has completed before nothing revives. -/

/-- The connection is down for good: the socket is closed, every operation has completed, and no
    handler that is still to run revives. -/
structure Settled (c : Connection) : Prop where
  state : c.state ≠ .connected
  socket : c.socketOpen = false
  completed : ∀ p ∈ c.pending, p.outcome ≠ none ∧ ¬ p.Revives true

/-- A step that keeps the socket and adds no operation leaves the connection settled. -/
theorem Settled.same (h : Settled c) (hstate : c'.state ≠ .connected)
    (hsocket : c'.socketOpen = c.socketOpen) (hpending : c'.pending ⊆ c.pending) : Settled c' :=
  ⟨hstate, hsocket.trans h.socket, fun p hp => h.completed p (hpending hp)⟩

/-- An operation on a closed socket fails at once. -/
theorem Settled.startOp (h : Settled c) (op : Op) : Settled (startOp op c) := by
  refine ⟨h.state, h.socket, ?_⟩
  intro p hp
  rcases List.mem_append.mp hp with hp | hp
  · exact h.completed p hp
  · obtain rfl := List.mem_singleton.mp hp
    rw [h.socket]
    refine ⟨Option.some_ne_none _, ?_⟩
    rintro ⟨hsuccess, -⟩
    cases hsuccess

/-- Closing settles a connection unless something that has completed is to revive it. -/
theorem settled_networkClose (hsocket : c.state = .disconnected → c.socketOpen = false)
    (hpending : ∀ p ∈ c.pending, ¬ p.Revives true ∧ (c.state = .disconnected → p.outcome ≠ none)) :
    Settled (networkClose c) := by
  refine ⟨networkClose_not_connected c, ?_, ?_⟩
  · by_cases hstate : c.state = .disconnected
    · rw [networkClose_of_disconnected hstate]
      exact hsocket hstate
    · rw [networkClose_of_ne hstate]
      rfl
  · by_cases hstate : c.state = .disconnected
    · rw [networkClose_of_disconnected hstate]
      exact fun p hp => ⟨(hpending p hp).2 hstate, (hpending p hp).1⟩
    · rw [networkClose_of_ne hstate]
      intro q hq
      -- what was still under way has been aborted, and an abort is no success
      obtain ⟨p, hp, rfl⟩ := List.mem_map.mp hq
      refine ⟨Option.some_ne_none _, ?_⟩
      rintro ⟨hsuccess, hop⟩
      cases hout : p.outcome with
      | none =>
        rw [Pending.abort, hout] at hsuccess
        cases hsuccess
      | some ec =>
        rw [Pending.abort, hout] at hsuccess
        exact (hpending p hp).1 ⟨hout.trans hsuccess, hop⟩

/-- Closing again is harmless. -/
theorem Settled.networkClose (h : Settled c) : Settled (networkClose c) :=
  settled_networkClose (fun _ => h.socket)
    fun p hp => ⟨(h.completed p hp).2, fun _ => (h.completed p hp).1⟩

/-- Sending into a closed connection starts a write, and a write revives nothing. -/
theorem Settled.asyncSend (h : Settled c) (data : Bytes) : Settled (asyncSend data c) := by
  have hqueued (queue : List Bytes) : Settled { c with writeQueue := queue } :=
    h.same h.state rfl fun _ hp => hp
  by_cases hqueue : c.writeQueue = []
  · rw [asyncSend_of_nil data hqueue]
    exact (hqueued _).startOp _
  · rw [asyncSend_of_ne data hqueue]
    exact hqueued _

/-- A header read that failed closes what is closed; one that succeeded starts a read that fails
    at once. -/
theorem Settled.onReadHeader (h : Settled c) (ec : Outcome) : Settled (onReadHeader ec c) := by
  cases ec with
  | failure => exact h.networkClose
  | success =>
    have hresized (buffer : Bytes) : Settled { c with bodyBuffer := buffer } :=
      h.same h.state rfl fun _ hp => hp
    show Settled (if !validateMagic c.headerBuffer then handleDisconnect c
      else startReadBody (parseMessageLength c.headerBuffer) c)
    split
    · exact h.networkClose
    · exact (hresized _).startOp (.readBody (parseMessageLength c.headerBuffer))

/-- The same for a write: the next one fails at once. -/
theorem Settled.onWrite (h : Settled c) (ec : Outcome) : Settled (onWrite ec c) := by
  cases ec with
  | failure => exact h.networkClose
  | success =>
    have hqueued (queue : List Bytes) : Settled { c with writeQueue := queue } :=
      h.same h.state rfl fun _ hp => hp
    cases htail : c.writeQueue.tail with
    | nil =>
      rw [onWrite_success_of_nil htail]
      exact hqueued []
    | cons buffer rest =>
      rw [onWrite_success_of_cons htail]
      exact (hqueued (buffer :: rest)).startOp _

/-- The handlers that are still to run leave it settled. -/
theorem Settled.handler (h : Settled c) {p : Pending} {ec : Outcome} (hec : p.outcome = some ec)
    (hrevives : ¬ p.Revives true) : Settled (p.op.handler ec c) := by
  cases hop : p.op with
  | connect =>
    cases ec with
    | success => exact absurd ⟨hec, .inl hop⟩ hrevives
    | failure => exact h.same (by simp [Op.handler, onConnect]) rfl fun _ hp => hp
  | readHeader => exact h.onReadHeader ec
  | readBody len =>
    cases ec with
    | success => exact absurd ⟨hec, .inr ⟨rfl, len, hop⟩⟩ hrevives
    | failure => exact h.networkClose
  | write buffer => exact h.onWrite ec

/-- Nothing moves any more, and nothing completes. -/
theorem Settled.step (h : Settled c) {a : Act} (hstep : step c a = some c')
    (ha : (∃ i data, a = .transfer i data) ∨ (∃ i ec, a = .complete i ec) ∨ ∃ i, a = .run i) :
    Settled c' := by
  rcases ha with ⟨i, data, rfl⟩ | ⟨i, ec, rfl⟩ | ⟨i, rfl⟩
  · obtain ⟨l₁, p, l₂, hsplit, hmove, -⟩ := step_transfer hstep
    have hp : p ∈ c.pending := by simp [hsplit]
    exact absurd hmove.1 (h.completed p hp).1
  · obtain ⟨l₁, p, l₂, hsplit, hcomplete, -⟩ := step_complete hstep
    have hp : p ∈ c.pending := by simp [hsplit]
    exact absurd hcomplete.1 (h.completed p hp).1
  · obtain ⟨-, l₁, p, l₂, ec, hsplit, -, hec, rfl⟩ := step_run hstep
    have hp : p ∈ c.pending := by simp [hsplit]
    have hremoved : Settled { c with pending := l₁ ++ l₂ } :=
      h.same h.state rfl fun q hq => hsplit ▸ mem_of_mem_erased hq
    exact hremoved.handler hec (h.completed p hp).2

end SteamMin.Net

namespace SteamMin.Client

open Runs (EveryState EveryStep)
open Relation (ReflTransGen)

/-! ## What the user wants

  The last word of the record, `shutdown` or `start_session`, and what it asks of the
  connection. -/

/-- What an entry makes of the user's wish. -/
def Entry.shuts (b : Bool) : Entry → Bool
  | .startCalled => false
  | .shutdownCalled => true
  | _ => b

/-- `shutdown` has been called, and `start_session` has not been called since. -/
def shutDown (log : List Entry) : Bool := log.foldl Entry.shuts false

/-- The wish after a log is that of its last word on it. -/
theorem shutDown_append (l es : List Entry) :
    shutDown (l ++ es) = es.foldl Entry.shuts (shutDown l) := List.foldl_append

/-- After `shutdown` the connection is not CONNECTED. -/
def StaysDown (s : System Net.Connection Net.Lookup) : Prop :=
  shutDown s.client.log = true → s.client.connection.state ≠ .connected

/-- After `shutdown` no act delivers a frame. -/
def DeliversNothing (s : System Net.Connection Net.Lookup) (_ : Act Net.Lookup Net.Act)
    (s' : System Net.Connection Net.Lookup) : Prop :=
  shutDown s.client.log = true → s'.client.connection.delivered = s.client.connection.delivered

/-- After `shutdown` no handler runs of an attempt that has succeeded, nor of a body that was read
    while there is a frame handler. -/
def NothingRevives (s : System Net.Connection Net.Lookup) (a : Act Net.Lookup Net.Act)
    (_ : System Net.Connection Net.Lookup) : Prop :=
  shutDown s.client.log = true → ∀ m, a = .transport m → Net.NothingRevives s.client.connection m

/-! ## What the client does with its connection

  Its callbacks send, close and connect; none of these enters CONNECTED or delivers a frame. -/

variable {p : Platform} {Src : Bytes → Prop} {ch ch' : Channel Net.Connection}

/-- Of the connection, entries only use `async_send`. -/
theorem keeps_send {I : Net.Connection → Prop}
    (hkeep : ∀ buffer k, I k → I (Net.asyncSend buffer k)) (es : List Entry) {k : Net.Connection}
    (h : I k) : I (es.foldl Entry.send k) := by
  induction es generalizing k with
  | nil => exact h
  | cons e es ih =>
    refine ih ?_
    cases e with
    | handed message buffer secured => exact hkeep buffer k h
    | _ => exact h

/-- What a handler sends leaves the connection resting. -/
theorem rests_send (es : List Entry) (k : Net.Connection) : Net.Rests k (es.foldl Entry.send k) :=
  keeps_send (fun buffer _ h => h.trans (Net.rests_asyncSend buffer _)) es (.refl k)

/-- Messages do not change what the user wants. -/
theorem Dispatched.shuts {b b' : Bool} {packet : Messages.PacketMsg} {es : List Entry}
    (h : Dispatched p b packet es b') (wish : Bool) : es.foldl Entry.shuts wish = wish := by
  cases h with
  | request _ hanswer =>
    cases hanswer with
    | handed => rfl
    | failed => rfl
    | stuck => rfl
  | result => rfl
  | unreadable => rfl
  | other => rfl

/-- A channel that is not CONNECTED if it was shut down. -/
def Down (ch : Channel Net.Connection) : Prop :=
  shutDown ch.log = true → ch.connection.state ≠ .connected

/-- A connection that rests stays as the user wants it. -/
theorem Down.rests {b b' : Bool} {l es : List Entry} {k k' : Net.Connection} (h : Down ⟨b, l, k⟩)
    (hrests : Net.Rests k k') (hes : ∀ wish, es.foldl Entry.shuts wish = wish) :
    Down ⟨b', l ++ es, k'⟩ := by
  intro hshut hstate
  rw [shutDown_append, hes] at hshut
  exact h hshut (hrests.state hstate)

/-- A step of the client delivers no frame: the transport does. -/
theorem delivered_step (hstep : Channel.Step p Src ch ch') :
    ch'.connection.delivered = ch.connection.delivered := by
  cases hstep with
  | startCalled net => exact (Net.rests_networkConnect net _).delivered
  | @shutdownCalled b l k =>
    show (if IConnection.isConnected k then _ else _ : Net.Connection).delivered = k.delivered
    split
    · exact (Net.rests_networkClose k).delivered
    · rfl
  | commanded => exact (Net.rests_asyncSend _ _).delivered
  | rawFrame => exact (rests_send _ _).delivered
  | dispatchedMsg => exact (rests_send _ _).delivered
  | _ => rfl

/-- **Step lemma**: whatever the client does, it does not wake a connection it has shut down. -/
theorem down_step (h : Down ch) (hstep : Channel.Step p Src ch ch') : Down ch' := by
  cases hstep with
  | startCalled net =>
    intro hshut
    rw [shutDown_append] at hshut
    cases hshut
  | @shutdownCalled b l k =>
    intro _
    show (if IConnection.isConnected k then _ else _ : Net.Connection).state ≠ .connected
    by_cases hconnected : IConnection.isConnected k = true
    · rw [if_pos hconnected]
      exact Net.networkClose_not_connected k
    · rw [if_neg hconnected]
      exact fun hstate => hconnected (decide_eq_true hstate)
  | started => exact h.rests (.refl _) fun _ => rfl
  | emitted => exact h.rests (.refl _) fun _ => rfl
  | commanded => exact h.rests (Net.rests_asyncSend _ _) fun _ => rfl
  | refused => exact h.rests (.refl _) fun _ => rfl
  | rawFrame _ _ _ hdispatched => exact h.rests (rests_send _ _) hdispatched.shuts
  | frame => exact h.rests (.refl _) fun _ => rfl
  | dispatchedMsg _ hdispatched => exact h.rests (rests_send _ _) hdispatched.shuts
  | dispatchedProto => exact h.rests (.refl _) fun _ => rfl

/-- So no steps of the client do. -/
theorem delivered_run (hrun : ReflTransGen (Channel.Step p Src) ch ch') :
    ch'.connection.delivered = ch.connection.delivered :=
  keeps_run (I := fun ch' => ch'.connection.delivered = ch.connection.delivered)
    (fun _ _ h hstep => (delivered_step hstep).trans h) rfl hrun

/-- The steps of the client keep a channel down that was shut down. -/
theorem down_run (h : Down ch) (hrun : ReflTransGen (Channel.Step p Src) ch ch') : Down ch' :=
  keeps_run (fun _ _ => down_step) h hrun

/-! ## What the transport does with it

  Here is where the condition is needed: a handler that revives is one of the moves. -/

/-- Behind the frame handler the connection goes on reading, at most. -/
theorem rests_returned {k k' : Net.Connection} (h : k' = Transport.frameReturned k ∨
    k' = Transport.frameRaised k ∨ k' = k) : Net.Rests k k' := by
  rcases h with rfl | rfl | rfl
  · exact ⟨id, rfl⟩
  · exact ⟨id, rfl⟩
  · exact .refl _

/-- A move of the transport is an act of the connection; it calls the client when that is inside
    the frame handler. -/
theorem move_eq_some {k k' : Net.Connection} {m : Net.Act} {f : Option Bytes}
    (h : Transport.move k m = some (k', f)) :
    Net.step k m = some k' ∧ (k'.inCallback = false → f = none) ∧
      ((∃ i data, m = .transfer i data) ∨ (∃ i ec, m = .complete i ec) ∨ ∃ i, m = .run i) := by
  have hcalled (h : (Net.step k m).map
      (fun c => (c, if c.inCallback then some c.bodyBuffer else none)) = some (k', f)) :
      Net.step k m = some k' ∧ (k'.inCallback = false → f = none) := by
    obtain ⟨k'', hstep, heq⟩ := Option.map_eq_some_iff.mp h
    obtain ⟨rfl, rfl⟩ := Prod.mk.inj heq
    refine ⟨hstep, ?_⟩
    intro hcallback
    exact if_neg (Bool.eq_false_iff.mp hcallback)
  cases m with
  | transfer i data => exact ⟨(hcalled h).1, (hcalled h).2, .inl ⟨i, data, rfl⟩⟩
  | complete i ec => exact ⟨(hcalled h).1, (hcalled h).2, .inr (.inl ⟨i, ec, rfl⟩)⟩
  | run i => exact ⟨(hcalled h).1, (hcalled h).2, .inr (.inr ⟨i, rfl⟩)⟩
  | _ => cases h

/-- A move of the transport rests under the condition of the step. -/
theorem rests_move {k k' : Net.Connection} {m : Net.Act} {f : Option Bytes}
    (hrevives : Net.NothingRevives k m) (h : Transport.move k m = some (k', f)) :
    Net.Rests k k' := by
  obtain ⟨hstep, -, ⟨i, data, rfl⟩ | ⟨i, ec, rfl⟩ | ⟨i, rfl⟩⟩ := move_eq_some h
  · exact Net.rests_transfer hstep
  · exact Net.rests_complete hstep
  · exact Net.rests_run hrevives hstep

/-! ## Acts and runs

  An act that revives nothing keeps a system down, and one that revives something does not.  So the
  condition on the run is exact. -/

variable {fuel : Nat} {s s' : System Net.Connection Net.Lookup} {a : Act Net.Lookup Net.Act}

/-- An act that revives nothing leaves a system down, and delivers nothing to it. -/
theorem staysDown_step (h : StaysDown s) (hstep : step p fuel s a = some s')
    (hrevives : NothingRevives s a s') : StaysDown s' ∧ DeliversNothing s a s' := by
  have hdown : Down s.client.channel := h
  rcases step_cases hstep with ⟨-, hrun⟩ | ⟨m, k, rfl, hmove, hs'⟩ |
    ⟨m, k, frame, ch, k', rfl, hmove, hrun, hk', hs'⟩
  · exact ⟨down_run hdown hrun, fun _ => delivered_run hrun⟩
  · rw [StaysDown, DeliversNothing, hs']
    refine ⟨?_, ?_⟩
    · intro hshut hstate
      exact h hshut ((rests_move (hrevives hshut m rfl) hmove).state hstate)
    · intro hshut
      exact (rests_move (hrevives hshut m rfl) hmove).delivered
  -- a frame: the move, the run of the callback, and the end of the callback
  · have hlog : s'.client.log = ch.log := congrArg Channel.log hs'
    have hconnection : s'.client.connection = k' := congrArg Channel.connection hs'
    rw [StaysDown, DeliversNothing, hlog, hconnection]
    have hreturned : Net.Rests ch.connection k' := rests_returned hk'
    have hmoved : Down ⟨s.client.channelSecured, s.client.log, k⟩ := by
      intro hshut hstate
      exact h hshut ((rests_move (hrevives hshut m rfl) hmove).state hstate)
    refine ⟨?_, ?_⟩
    · intro hshut hstate
      exact down_run hmoved hrun hshut (hreturned.state hstate)
    · intro hshut
      rw [hreturned.delivered, delivered_run hrun]
      exact (rests_move (hrevives hshut m rfl) hmove).delivered

/-- And one that revives something does not. -/
theorem nothingRevives_of_staysDown (hstep : step p fuel s a = some s') (h : StaysDown s')
    (hdelivers : DeliversNothing s a s') : NothingRevives s a s' := by
  rintro hshut m rfl
  cases m with
  | run i =>
    intro q hq hrevives
    rcases step_cases hstep with ⟨hnone, -⟩ | ⟨m, k, hm, hmove, hs'⟩ |
      ⟨m, k, frame, ch, k', hm, hmove, hrun, hk', hs'⟩
    · exact hnone _ rfl
    · cases hm
      obtain ⟨hrun, -, -⟩ := move_eq_some hmove
      rw [StaysDown, hs'] at h
      rw [DeliversNothing, hs'] at hdelivers
      -- a handler that revives shows in the state or in what is delivered
      rcases Net.revived hq hrevives hrun with ⟨-, hstate⟩ | hdelivered
      · exact h hshut hstate
      · exact hdelivered (hdelivers hshut)
    · cases hm
      obtain ⟨hnet, hcallback, -⟩ := move_eq_some hmove
      have hconnection : s'.client.connection = k' := congrArg Channel.connection hs'
      have hsame : k'.delivered = k.delivered :=
        (rests_returned hk').delivered.trans (delivered_run hrun)
      rcases Net.revived hq hrevives hnet with ⟨hfalse, -⟩ | hdelivered
      · -- a handler that connects calls no one
        cases hcallback hfalse
      · rw [DeliversNothing, hconnection, hsame] at hdelivers
        exact hdelivered (hdelivers hshut)
  | _ => trivial

/-- **Shutting down**: a run of a new client on TCP, with whatever callbacks, stays down after
    `shutdown` until `start_session` exactly when meanwhile no handler runs of a connection attempt
    that has succeeded, nor of a body that has been read. -/
theorem shutdown_run_iff (p : Platform) (fuel : Nat) (crypto : Crypto.EncryptionManager)
    (acts : List (Act Net.Lookup Net.Act)) :
    EveryState (step p fuel) StaysDown (System.initial .initial crypto) acts ∧
        EveryStep (step p fuel) DeliversNothing (System.initial .initial crypto) acts
      ↔ EveryStep (step p fuel) NothingRevives (System.initial .initial crypto) acts := by
  have h₀ : StaysDown (System.initial .initial crypto) := by
    intro hshut
    cases hshut
  refine Runs.everyState_and_everyStep_iff ?_ h₀ acts
  intro s a s' h hstep
  constructor
  · rintro ⟨h', hdelivers⟩
    exact nothingRevives_of_staysDown hstep h' hdelivers
  · exact staysDown_step h hstep

/-- A session is shut down while its connection is being made, and the attempt succeeds. -/
def shutdownWhileConnecting : List (Act Net.Lookup Net.Act) :=
  [.startSession .found, .shutdown, .transport (.complete 0 .success), .transport (.run 0)]

/-- An attempt under way is not closed by `shutdown`, and it succeeds later. -/
theorem shutdown_whileConnecting : ¬ ∀ acts,
    EveryState (step plainPlatform 8) StaysDown System.onTcp acts ∧
      EveryStep (step plainPlatform 8) DeliversNothing System.onTcp acts := by
  intro h
  have hend : (Runs.run (step plainPlatform 8) System.onTcp shutdownWhileConnecting).any
      (fun s => shutDown s.client.log && s.client.connection.state = .connected) = true := by
    decide +kernel
  obtain ⟨s, hrun, hbad⟩ := (Option.any_eq_true _ _).mp hend
  obtain ⟨hshut, hstate⟩ := Bool.and_eq_true_iff.mp hbad
  exact (h shutdownWhileConnecting).1.last hrun hshut (of_decide_eq_true hstate)

/-! ## A shutdown that is final

  A `shutdown` of a CONNECTED client with no such handler waiting settles its connection.  Then
  nothing is asked of what comes behind, up to the next `start_session`. -/

/-- Calls of `start_session`. -/
def Entry.isStart : Entry → Bool
  | .startCalled => true
  | _ => false

/-- The calls of `start_session` so far. -/
def starts (log : List Entry) : Nat := log.countP Entry.isStart

/-- Calls add up. -/
theorem starts_append (l es : List Entry) : starts (l ++ es) = starts l + starts es :=
  List.countP_append

/-- Unless `start_session` has been called again, since it had been called `n` times, the connection
    is settled. -/
def Final (n : Nat) (ch : Channel Net.Connection) : Prop :=
  n ≤ starts ch.log ∧ (starts ch.log = n → Net.Settled ch.connection)

/-- A step that adds anything but a start keeps the bound, if it leaves the connection settled. -/
theorem Final.keeps {n : Nat} {b b' : Bool} {l : List Entry} {k k' : Net.Connection}
    (h : Final n ⟨b, l, k⟩) (es : List Entry) (hkeep : Net.Settled k → Net.Settled k') :
    Final n ⟨b', l ++ es, k'⟩ := by
  have hle : n ≤ starts l := h.1
  have hsettled : starts l = n → Net.Settled k := h.2
  rw [Final, starts_append]
  refine ⟨by omega, ?_⟩
  intro heq
  exact hkeep (hsettled (by omega))

/-- Every step of the client keeps it: a new start makes the condition void. -/
theorem final_step {n : Nat} (h : Final n ch) (hstep : Channel.Step p Src ch ch') :
    Final n ch' := by
  have hsend (es : List Entry) (k : Net.Connection) (hk : Net.Settled k) :
      Net.Settled (es.foldl Entry.send k) :=
    keeps_send (fun buffer _ hk => hk.asyncSend buffer) es hk
  -- all but a new start leave a settled connection settled
  cases hstep with
  | @startCalled b l k net =>
    have hle : n ≤ starts l := h.1
    have hmore : starts (l ++ [.startCalled]) = starts l + 1 := starts_append l [.startCalled]
    rw [Final, hmore]
    refine ⟨by omega, ?_⟩
    intro heq
    omega
  | @shutdownCalled b l k =>
    refine h.keeps [.shutdownCalled] fun hk => ?_
    split
    · exact hk.networkClose
    · exact hk
  | started => exact h.keeps _ id
  | emitted => exact h.keeps _ id
  | commanded => exact h.keeps _ fun hk => hk.asyncSend _
  | refused => exact h.keeps _ id
  | rawFrame => exact h.keeps _ (hsend _ _)
  | frame => exact h.keeps _ id
  | dispatchedMsg => exact h.keeps _ (hsend _ _)
  | dispatchedProto => exact h.keeps _ id

/-- A move of the transport leaves a settled connection settled. -/
theorem settled_move {k k' : Net.Connection} {m : Net.Act} {f : Option Bytes} (h : Net.Settled k)
    (hmove : Transport.move k m = some (k', f)) : Net.Settled k' := by
  obtain ⟨hstep, -, ha⟩ := move_eq_some hmove
  exact h.step hstep ha

/-- So does the end of a callback, however it ends: at most a read is started on a closed
    socket. -/
theorem settled_returned {k k' : Net.Connection} (h : Net.Settled k)
    (hk' : k' = Transport.frameReturned k ∨ k' = Transport.frameRaised k ∨ k' = k) :
    Net.Settled k' := by
  have hleft : Net.Settled { k with inCallback := false } := h.same h.state rfl fun _ hp => hp
  rcases hk' with rfl | rfl | rfl
  · exact hleft.startOp .readHeader
  · exact hleft
  · exact h

/-- Acts leave a settled connection settled. -/
theorem final_act {n : Nat} (h : Final n s.client.channel) (hstep : step p fuel s a = some s') :
    Final n s'.client.channel := by
  rcases step_cases hstep with ⟨-, hrun⟩ | ⟨m, k, -, hmove, hs'⟩ |
    ⟨m, k, frame, ch, k', -, hmove, hrun, hk', hs'⟩
  · exact keeps_run (fun _ _ => final_step) h hrun
  · rw [hs']
    exact ⟨h.1, fun heq => settled_move (h.2 heq) hmove⟩
  · have hmoved : Final n ⟨s.client.channelSecured, s.client.log, k⟩ :=
      ⟨h.1, fun heq => settled_move (h.2 heq) hmove⟩
    have hbehind : Final n ch := keeps_run (fun _ _ => final_step) hmoved hrun
    rw [hs']
    exact ⟨hbehind.1, fun heq => settled_returned (hbehind.2 heq) hk'⟩

/-- **A final shutdown**: of a CONNECTED client on which nothing has completed that would revive it.
    Whatever happens then, its connection stays settled until `start_session` is called. -/
theorem shutdown_final (hstate : s.client.connection.state = .connected)
    (hpending : ∀ q ∈ s.client.connection.pending, ¬ q.Revives true)
    (hstep : step p fuel s .shutdown = some s') (acts : List (Act Net.Lookup Net.Act)) :
    EveryState (step p fuel) (fun s'' => starts s''.client.log = starts s'.client.log →
      Net.Settled s''.client.connection) s' acts := by
  have hclosed : Net.Settled (Net.networkClose s.client.connection) := by
    refine Net.settled_networkClose ?_ ?_
    · intro hdown
      cases hstate.symm.trans hdown
    · intro q hq
      refine ⟨hpending q hq, ?_⟩
      intro hdown
      cases hstate.symm.trans hdown
  have hconnection : s'.client.connection = Net.networkClose s.client.connection := by
    unfold step at hstep
    split at hstep
    · cases hstep
    · cases hstep
      have hconnected : IConnection.isConnected s.client.connection = true := decide_eq_true hstate
      rw [client_settle]
      show CMClient.connection (if IConnection.isConnected s.client.connection then _ else _) = _
      rw [if_pos hconnected]
      rfl
  -- the count of starts is taken at the call
  have h₀ : Final (starts s'.client.log) s'.client.channel := by
    refine ⟨Nat.le_refl _, fun _ => ?_⟩
    show Net.Settled s'.client.connection
    rw [hconnection]
    exact hclosed
  have hruns : EveryState (step p fuel) (fun s'' => Final (starts s'.client.log) s''.client.channel)
      s' acts :=
    Runs.everyState_of_invariant (fun _ _ _ hI hact => final_act hI hact) h₀ acts
  intro l₁ l₂ s'' heq hreach
  exact (hruns l₁ l₂ s'' heq hreach).2

end SteamMin.Client
