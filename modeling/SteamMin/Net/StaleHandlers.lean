/-
  HANDLERS THAT OUTLIVE A CLOSE.

  The handlers capture `this` and nothing else: one that was queued when `network_close` was called
  runs later, against whatever the connection has become.  `Stale c i` is such a handler, counted
  by calls of `network_close`; `Harmless` says that its run leaves no trace but its own removal.

  `harmless_iff` decides, from the state the handler meets, whether it is harmless.  It never looks
  at the session, so nothing protects a later session from the handlers of an earlier one.

  The four kinds of handlers differ in what they do first.  The two reads and the write disconnect
  on an error and go on without one; the connect sets the state either way.  So a stale handler is
  harmless when it fails on a connection that is down already, or is a write that succeeded with
  nothing else queued, or a read of a header that is refused on a connection that is down.

  `staleHarmless_run_iff` puts this over runs: a run is free of harm exactly when every stale
  handler in it is one of these.
-/
import SteamMin.Net.WriteQueue

namespace SteamMin.Net

open Runs

variable {c c' : Connection}

/-- The operation at `i` was started before the most recent call of `network_close`. -/
def Stale (c : Connection) (i : Nat) : Prop :=
  ∃ p, c.pending[i]? = some p ∧ p.closes < c.closes

/-- The run of the handler at `i` does not change `state_`, closes no socket, starts no operation
    and does not call `on_frame_`. -/
structure Harmless (c : Connection) (i : Nat) (c' : Connection) : Prop where
  state : c'.state = c.state
  socket : c'.socketOpen = c.socketOpen
  session : c'.session = c.session
  pending : c'.pending = c.pending.eraseIdx i
  delivered : c'.delivered = c.delivered

/-- What has to hold when the handler runs: it reports an error, or reads a header with a wrong
    magic, while `state_` is DISCONNECTED already; or it is a write with nothing queued behind. -/
def Quiet (c : Connection) (p : Pending) : Prop :=
  match p.op, p.outcome with
  | .connect, some .success => False
  | .readHeader, some .success => validateMagic c.headerBuffer = false ∧ c.state = .disconnected
  | .readBody _, some .success => False
  | .write _, some .success => c.writeQueue.tail = []
  | _, _ => c.state = .disconnected

/-! ## The effect of each function -/

/-- The same with the handler already removed, which is where it starts from. -/
structure Unchanged (c c' : Connection) : Prop where
  state : c'.state = c.state
  socket : c'.socketOpen = c.socketOpen
  session : c'.session = c.session
  pending : c'.pending = c.pending
  delivered : c'.delivered = c.delivered

/-- Disconnecting leaves the connection alone when it is disconnected already. -/
theorem unchanged_handleDisconnect : Unchanged c (handleDisconnect c) ↔ c.state = .disconnected := by
  constructor
  · intro h
    by_cases hstate : c.state = .disconnected
    · exact hstate
    · have hchange := h.state
      rw [handleDisconnect, networkClose_of_ne hstate] at hchange
      exact hchange.symm
  · intro hstate
    rw [handleDisconnect, networkClose_of_disconnected hstate]
    exact ⟨rfl, rfl, rfl, rfl, rfl⟩

/-- Starting an operation shows in `pending`. -/
theorem not_unchanged_startOp (op : Op) (d : Connection) (hd : d.pending = c.pending) :
    ¬ Unchanged c (startOp op d) := by
  intro h
  have hlen := congrArg List.length h.pending
  rw [startOp, List.length_append, hd, List.length_singleton] at hlen
  omega

/-- A stale connect handler is harmless when it failed and the connection is down. -/
theorem unchanged_onConnect (ec : Outcome) :
    Unchanged c (onConnect ec c) ↔ ec = .failure ∧ c.state = .disconnected := by
  cases ec with
  | success =>
    refine iff_of_false (not_unchanged_startOp _ { c with state := .connected } rfl) ?_
    exact fun h => nomatch h.1
  | failure =>
    constructor
    · intro h
      exact ⟨rfl, h.state.symm⟩
    · rintro ⟨-, hstate⟩
      exact ⟨hstate.symm, rfl, rfl, rfl, rfl⟩

/-- A stale header handler is harmless when it closes what is closed. -/
theorem unchanged_onReadHeader (ec : Outcome) :
    Unchanged c (onReadHeader ec c)
      ↔ (ec = .success → validateMagic c.headerBuffer = false) ∧ c.state = .disconnected := by
  cases ec with
  | failure =>
    show Unchanged c (handleDisconnect c) ↔ _
    rw [unchanged_handleDisconnect]
    exact ⟨fun h => ⟨nofun, h⟩, And.right⟩
  | success =>
    show Unchanged c (if !validateMagic c.headerBuffer then handleDisconnect c
      else startReadBody (parseMessageLength c.headerBuffer) c) ↔ _
    cases hmagic : validateMagic c.headerBuffer with
    | false =>
      show Unchanged c (handleDisconnect c) ↔ _
      rw [unchanged_handleDisconnect]
      exact ⟨fun h => ⟨fun _ => rfl, h⟩, And.right⟩
    | true =>
      refine iff_of_false (not_unchanged_startOp _ _ rfl) ?_
      exact fun h => nomatch h.1 rfl

/-- A stale body handler is harmless when it failed and the connection is down. -/
theorem unchanged_onReadBody (ec : Outcome) :
    Unchanged c (onReadBody ec c) ↔ ec = .failure ∧ c.state = .disconnected := by
  cases ec with
  | failure =>
    show Unchanged c (handleDisconnect c) ↔ _
    rw [unchanged_handleDisconnect]
    exact ⟨fun h => ⟨rfl, h⟩, And.right⟩
  | success =>
    refine iff_of_false ?_ fun h => nomatch h.1
    show ¬ Unchanged c (if c.onFrame then _ else startReadHeader c)
    split
    · intro h
      have hlen := congrArg List.length h.delivered
      rw [List.length_append, List.length_singleton] at hlen
      omega
    · exact not_unchanged_startOp _ c rfl

/-- A stale write handler is harmless when nothing else is queued, or when it failed on a
    connection that is down. -/
theorem unchanged_onWrite (ec : Outcome) :
    Unchanged c (onWrite ec c)
      ↔ (ec = .success ∧ c.writeQueue.tail = []) ∨ (ec = .failure ∧ c.state = .disconnected) := by
  cases ec with
  | failure =>
    show Unchanged c (handleDisconnect c) ↔ _
    rw [unchanged_handleDisconnect]
    constructor
    · intro h
      exact .inr ⟨rfl, h⟩
    · rintro (⟨h, -⟩ | ⟨-, h⟩)
      · nomatch h
      · exact h
  | success =>
    cases htail : c.writeQueue.tail with
    | nil =>
      rw [onWrite_success_of_nil htail]
      exact iff_of_true ⟨rfl, rfl, rfl, rfl, rfl⟩ (.inl ⟨rfl, rfl⟩)
    | cons buffer rest =>
      rw [onWrite_success_of_cons htail]
      -- the next write is started, so there is one operation more
      refine iff_of_false (not_unchanged_startOp _ { c with writeQueue := buffer :: rest } rfl) ?_
      rintro (⟨-, h⟩ | ⟨h, -⟩)
      · nomatch h
      · nomatch h

/-- A handler leaves no trace exactly when it is quiet. -/
theorem unchanged_handler {p : Pending} {ec : Outcome} (hec : p.outcome = some ec) :
    Unchanged c (p.op.handler ec c) ↔ Quiet c p := by
  unfold Quiet
  rw [hec]
  cases p.op with
  | connect =>
    refine (unchanged_onConnect ec).trans ?_
    cases ec <;> simp
  | readHeader =>
    refine (unchanged_onReadHeader ec).trans ?_
    cases ec <;> simp
  | readBody len =>
    refine (unchanged_onReadBody ec).trans ?_
    cases ec <;> simp
  | write buffer =>
    refine (unchanged_onWrite ec).trans ?_
    cases ec <;> simp

/-! ## Steps and runs -/

/-- The four cases in one condition on the operation and its outcome. -/
theorem harmless_iff {i : Nat} {p : Pending} (hp : c.pending[i]? = some p)
    (hstep : step c (.run i) = some c') : Harmless c i c' ↔ Quiet c p := by
  obtain ⟨-, l₁, q, l₂, ec, hsplit, rfl, hec, rfl⟩ := step_run hstep
  obtain rfl : q = p := by
    rw [hsplit, List.getElem?_append_right (Nat.le_refl _), Nat.sub_self] at hp
    exact Option.some.inj hp
  have herase : c.pending.eraseIdx l₁.length = l₁ ++ l₂ := by
    rw [hsplit, eraseIdx_split]
  have hunchanged := unchanged_handler (c := { c with pending := l₁ ++ l₂ }) hec
  refine Iff.trans ?_ hunchanged
  constructor
  · intro h
    exact ⟨h.state, h.socket, h.session, h.pending.trans herase, h.delivered⟩
  · intro h
    exact ⟨h.state, h.socket, h.session, h.pending.trans herase.symm, h.delivered⟩

/-- Every stale handler of the run is harmless. -/
def StaleHarmless (c : Connection) (a : Act) (c' : Connection) : Prop :=
  ∀ i, a = .run i → Stale c i → Harmless c i c'

/-- Every stale handler is quiet when it runs. -/
def StaleQuiet (c : Connection) (a : Act) (_ : Connection) : Prop :=
  ∀ i, a = .run i → ∀ p, c.pending[i]? = some p → p.closes < c.closes → Quiet c p

/-- **Stale handlers**: in a run of a new connection all handlers of operations from before the
    most recent close are harmless exactly when each meets a state in which it is quiet. -/
theorem staleHarmless_run_iff (acts : List Act) :
    EveryStep step StaleHarmless .initial acts ↔ EveryStep step StaleQuiet .initial acts := by
  constructor
  · intro h
    refine h.mono fun c a c' hstep hharmless i ha p hp hcloses => ?_
    subst ha
    exact (harmless_iff hp hstep).mp (hharmless i rfl ⟨p, hp, hcloses⟩)
  · intro h
    refine h.mono fun c a c' hstep hquiet i ha hstale => ?_
    subst ha
    obtain ⟨p, hp, hcloses⟩ := hstale
    exact (harmless_iff hp hstep).mpr (hquiet i rfl p hp hcloses)

/-- A session is closed and the next one connected, before the handler of the first session's
    aborted read has run. -/
def secondSession : List Act :=
  [.connect .found, .complete 0 .success, .run 0, .close,
   .connect .found, .complete 1 .success, .run 1]

/-- That handler closes the second session. -/
theorem stale_closes_secondSession :
    ¬ ∀ acts, EveryStep step StaleHarmless .initial acts := by
  intro h
  cases hrun : run step .initial secondSession with
  | none => nomatch hrun
  | some c =>
    cases hstep : step c (.run 0) with
    | none =>
      cases hrun
      nomatch hstep
    | some c' =>
      -- the handler of the first session's read is still to run in the second
      have hstale : Stale c 0 := by
        cases hrun
        exact ⟨_, rfl, Nat.zero_lt_one⟩
      have hbefore : c.state = .connected := by
        cases hrun
        rfl
      have hafter : c'.state = .disconnected := by
        cases hrun
        cases hstep
        rfl
      have hharmless := h (secondSession ++ [.run 0]) secondSession (.run 0) [] c c' rfl hrun hstep
        0 rfl hstale
      nomatch hafter.symm.trans (hharmless.state.trans hbefore)

end SteamMin.Net
