/-
  A CALL OF `network_connect` THAT FAILS.

  `network_connect` enters CONNECTING first, and what comes next may throw: fetching the servers, an
  empty list of them, resolving the first one.  The handler of `async_connect`, which would set
  DISCONNECTED again, has then not been started.

  * `Ignores`, `Attempts` — what a later call does, at the guard and behind it;
  * `Repairs`             — the acts that set DISCONNECTED, exactly (`step_repairs_iff`);
  * `cleanFailure_run_iff` — no failing call leaves the state as it was, and until a repair every
    later call is ignored.

  What repairs the connection is little: `network_close` from outside, or the handler of an
  operation that was started earlier and now fails.  The failing call itself has started none, so
  on a connection that was new only the user can repair it.
-/
import SteamMin.Net.TcpSteps

namespace SteamMin.Net

open Runs

variable {c c' : Connection} {lookup : Lookup}

/-! ## A later call

  What the guard at the top of `network_connect` makes of a call. -/

/-- The call returns at the guard, whatever there is to be found. -/
def Ignores (c : Connection) : Prop := ∀ lookup, networkConnect lookup c = .ok () c

/-- The call starts `async_connect` where there is a server. -/
def Attempts (c : Connection) : Prop :=
  ∀ lookup, lookup.Finds →
    networkConnect lookup c = .ok () (asyncConnect { c with state := .connecting })

/-- A lookup that finds an endpoint. -/
theorem found_finds : Lookup.found.Finds := ⟨_, [], rfl, rfl⟩

/-- A closed connection tries to connect, whatever the lookup will say. -/
theorem attempts_of_disconnected (h : c.state = .disconnected) : Attempts c := by
  intro lookup hfinds
  exact networkConnect_finds h hfinds

/-- An attempt opens the socket for a new session, so it is not ignored. -/
theorem not_ignores_of_attempts (h : Attempts c) : ¬ Ignores c := by
  intro hignores
  have hsame : EStateM.Result.ok () c = .ok () (asyncConnect { c with state := .connecting }) :=
    (hignores .found).symm.trans (h .found found_finds)
  have hsession : c.session = c.session + 1 := by
    injection hsame with _ hsame
    exact congrArg Connection.session hsame
  omega

/-- A call is ignored exactly when the connection is not closed. -/
theorem ignores_iff : Ignores c ↔ c.state ≠ .disconnected := by
  constructor
  · intro hignores hstate
    exact not_ignores_of_attempts (attempts_of_disconnected hstate) hignores
  · intro hstate lookup
    exact networkConnect_busy hstate

/-- And tries exactly when it is. -/
theorem attempts_iff : Attempts c ↔ c.state = .disconnected := by
  constructor
  · intro h
    by_contra hstate
    exact not_ignores_of_attempts h (ignores_iff.mpr hstate)
  · exact attempts_of_disconnected

/-! ## The failing call

  The state is set before the server list is looked at, and the exception leaves it at that. -/

/-- The call throws. -/
def Fails (lookup : Lookup) (c : Connection) : Prop :=
  ∃ e c', networkConnect lookup c = .error e c'

/-- Only a call that passes the guard and finds no server throws, and it leaves CONNECTING. -/
theorem state_of_error {e : Exn} (h : networkConnect lookup c = .error e c') :
    c.state = .disconnected ∧ ¬ lookup.Finds ∧ c' = { c with state := .connecting } := by
  by_cases hstate : c.state = .disconnected
  · by_cases hfinds : lookup.Finds
    · cases (networkConnect_finds hstate hfinds).symm.trans h
    · obtain ⟨e', hfails⟩ := networkConnect_fails hstate hfinds
      cases hfails.symm.trans h
      exact ⟨hstate, hfinds, rfl⟩
  · cases (networkConnect_busy hstate).symm.trans h

/-- It fails when there is nothing to connect to. -/
theorem fails_iff : Fails lookup c ↔ c.state = .disconnected ∧ ¬ lookup.Finds := by
  constructor
  · rintro ⟨e, c', h⟩
    obtain ⟨hstate, hfinds, -⟩ := state_of_error h
    exact ⟨hstate, hfinds⟩
  · rintro ⟨hstate, hfinds⟩
    obtain ⟨e, h⟩ := networkConnect_fails hstate hfinds
    exact ⟨e, _, h⟩

/-! ## What sets DISCONNECTED

  The acts behind which a call is an attempt again.  There are no others. -/

/-- The acts that set it: `network_close`, and a handler that learns of an error or of a header that
    is none. -/
def Repairs (c : Connection) : Act → Prop
  | .close => True
  | .run i => ∃ p, c.pending[i]? = some p ∧
      (p.outcome = some .failure ∨ p.op = .readHeader ∧ validateMagic c.headerBuffer = false)
  | _ => False

/-- A handler that succeeds only disconnects at a wrong magic. -/
theorem handler_success_iff {p : Pending} (h : c.state ≠ .disconnected) :
    (p.op.handler .success c).state = .disconnected
      ↔ p.op = .readHeader ∧ validateMagic c.headerBuffer = false := by
  cases hop : p.op with
  | connect => simp [Op.handler, onConnect, startReadHeader, startOp]
  | readHeader =>
    by_cases hmagic : validateMagic c.headerBuffer = true
    · simp [Op.handler, onReadHeader, hmagic, startReadBody, startOp, h]
    · simp [Op.handler, onReadHeader, hmagic, handleDisconnect, networkClose_disconnected]
  | readBody len =>
    by_cases hframe : c.onFrame = true
    · simp [Op.handler, onReadBody, hframe, h]
    · simp [Op.handler, onReadBody, hframe, afterFrame, startReadHeader, startOp, h]
  | write buffer =>
    cases hqueue : c.writeQueue.tail with
    | nil => simp [Op.handler, onWrite_success_of_nil hqueue, h]
    | cons front rest => simp [Op.handler, onWrite_success_of_cons hqueue, startOp, h]

/-- A handler that failed leaves the connection closed, each in its way. -/
theorem handler_failure (p : Pending) : (p.op.handler .failure c).state = .disconnected := by
  cases p.op with
  | connect => rfl
  | readHeader => exact networkClose_disconnected c
  | readBody len => exact networkClose_disconnected c
  | write buffer => exact networkClose_disconnected c

/-- **The way back**: out of CONNECTING and CONNECTED exactly the repairs lead to DISCONNECTED. -/
theorem step_repairs_iff {a : Act} (h : c.state ≠ .disconnected) (hstep : step c a = some c') :
    c'.state = .disconnected ↔ Repairs c a := by
  cases a with
  | connect lookup =>
    rcases step_connect hstep with ⟨-, rfl⟩ | ⟨hstate, -, -⟩ | ⟨hstate, -, -⟩
    · simp [Repairs, h]
    · exact absurd hstate h
    · exact absurd hstate h
  | close =>
    rw [step_close hstep]
    simp [Repairs, networkClose_disconnected]
  | send data =>
    rw [step_send hstep]
    by_cases hqueue : c.writeQueue = []
    · simp [Repairs, asyncSend_of_nil data hqueue, startOp, h]
    · simp [Repairs, asyncSend_of_ne data hqueue, h]
  | setOnFrame =>
    rw [step_setOnFrame hstep]
    simp [Repairs, h]
  | transfer i data =>
    obtain ⟨l₁, p, l₂, -, -, rfl⟩ := step_transfer hstep
    simp [Repairs, h]
  | complete i ec =>
    obtain ⟨l₁, p, l₂, -, -, rfl⟩ := step_complete hstep
    simp [Repairs, h]
  | run i =>
    obtain ⟨-, l₁, p, l₂, ec, hsplit, rfl, hec, rfl⟩ := step_run hstep
    -- the handler that was run, whatever else is pending
    have hp : c.pending[l₁.length]? = some p := by
      rw [hsplit, List.getElem?_append_right (Nat.le_refl _), Nat.sub_self]
      rfl
    cases ec with
    | success => simp [Repairs, hp, hec, handler_success_iff (c := { c with pending := l₁ ++ l₂ }) h]
    | failure => simp [Repairs, hp, hec, handler_failure]
  | ret =>
    obtain ⟨-, rfl⟩ := step_ret hstep
    simp [Repairs, startReadHeader, startOp, h]
  | raise =>
    obtain ⟨-, rfl⟩ := step_raise hstep
    simp [Repairs, h]

/-- So calls are ignored throughout a run exactly when nothing in it is a repair. -/
theorem ignores_run_iff (h : c.state ≠ .disconnected) (acts : List Act) :
    EveryState step Ignores c acts ↔ EveryStep step (fun c a _ => ¬ Repairs c a) c acts := by
  have hstates : EveryState step Ignores c acts
      ↔ EveryState step (fun c => c.state ≠ .disconnected) c acts :=
    EveryState.congr fun _ _ _ _ _ => ignores_iff
  rw [hstates]
  refine everyState_iff_everyStep (P := fun c : Connection => c.state ≠ .disconnected) ?_ h acts
  intro c a c' hstate hstep
  exact not_congr (step_repairs_iff hstate hstep)

/-! ## Runs

  So a failing call is never without a trace, and it is known what removes the trace. -/

/-- A failing call leaves the state as it was, and whatever happens until the next one, that one is
    an attempt. -/
def CleanFailure (c : Connection) (a : Act) (c' : Connection) : Prop :=
  ∀ lookup, a = .connect lookup → Fails lookup c → c'.state = c.state ∧
    ∀ acts d, (∀ lookup', Act.connect lookup' ∉ acts) → run step c' acts = some d → Attempts d

/-- A call in DISCONNECTED finds a server. -/
def ConnectFinds (c : Connection) (a : Act) (_ : Connection) : Prop :=
  ∀ lookup, a = .connect lookup → c.state = .disconnected → lookup.Finds

/-- One call is clean exactly when it does not fail, since one that fails has changed the
    state. -/
theorem cleanFailure_iff {a : Act} (hstep : step c a = some c') :
    CleanFailure c a c' ↔ ConnectFinds c a c' := by
  constructor
  · rintro hclean lookup rfl hstate
    by_contra hfinds
    obtain ⟨hsame, -⟩ := hclean lookup rfl (fails_iff.mpr ⟨hstate, hfinds⟩)
    rcases step_connect hstep with ⟨hbusy, -⟩ | ⟨-, -, rfl⟩ | ⟨-, hfinds', -⟩
    · exact hbusy hstate
    · cases hsame.trans hstate
    · exact hfinds hfinds'
  · rintro hfinds lookup rfl hfails
    obtain ⟨hstate, hnot⟩ := fails_iff.mp hfails
    exact absurd (hfinds lookup rfl hstate) hnot

/-- **Failing calls**: they are clean in a run of a new connection exactly when there are none.  One
    that fails leaves CONNECTING, and the calls behind it are ignored exactly until a repair. -/
theorem cleanFailure_run_iff (acts : List Act) :
    (EveryStep step CleanFailure .initial acts ↔ EveryStep step ConnectFinds .initial acts) ∧
    ∀ c lookup e c', networkConnect lookup c = .error e c' →
      c.state = .disconnected ∧ c'.state = .connecting ∧
        ∀ acts, EveryState step Ignores c' acts
          ↔ EveryStep step (fun c a _ => ¬ Repairs c a) c' acts := by
  constructor
  · constructor
    · intro h
      exact h.mono fun c a c' hstep => (cleanFailure_iff hstep).mp
    · intro h
      exact h.mono fun c a c' hstep => (cleanFailure_iff hstep).mpr
  · intro c lookup e c' herror
    obtain ⟨hstate, -, rfl⟩ := state_of_error herror
    refine ⟨hstate, rfl, ignores_run_iff ?_⟩
    intro hconnecting
    cases hconnecting

/-- A lookup that comes back with no server. -/
def Lookup.nothing : Lookup := ⟨.ok [], fun _ => .ok ()⟩

/-- The second call of a new connection, after the directory was empty once. -/
theorem cleanFailure_emptyList : ¬ ∀ acts, EveryStep step CleanFailure .initial acts := by
  intro h
  have hstep : step .initial (.connect .nothing) = some { Connection.initial with
    state := .connecting } := rfl
  have hfails : Fails .nothing .initial := ⟨_, _, rfl⟩
  obtain ⟨-, hlater⟩ := h [.connect .nothing] [] _ [] _ _ rfl rfl hstep .nothing rfl hfails
  have hattempts : Attempts { Connection.initial with state := .connecting } :=
    hlater [] _ (fun _ hmem => by cases hmem) rfl
  cases attempts_iff.mp hattempts

end SteamMin.Net
