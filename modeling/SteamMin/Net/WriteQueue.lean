/-
  THE WRITE QUEUE.

  `async_send` starts a write only when the queue was empty, and the handler of a write starts the
  next one when it has popped its own buffer; so an empty queue doubles as the mark "no write in
  flight".  `WriteDiscipline` is that reading: one write of the front element is outstanding, on
  the current session, exactly while the queue is not empty.

  Two steps break it (`writeDiscipline_step`), and nothing mends it afterwards:

  * the handler of a failed write leaves its buffer at the front without writing it again;
  * a new session begins while a buffer of an old one is still queued.

  Over whole runs this is an equivalence (`writeDiscipline_run_iff`): the discipline holds in
  every state of a run exactly when the run takes neither step.  The first of the two is visible
  in the source as the missing half of the error branch of its handler; the second, as the queue
  that `network_close` leaves as it is.
-/
import SteamMin.Net.TcpSteps

namespace SteamMin.Net

open Runs

variable {c c' : Connection}

/-! ## The outstanding writes

  The discipline of the queue speaks of three things: the queue, the session, and the writes whose
  handlers have still to run. -/

/-- The buffer of a write, and the session it was started in. -/
def Pending.asWrite (p : Pending) : Option (Bytes × Nat) :=
  match p.op with
  | .write buffer => some (buffer, p.session)
  | _ => none

/-- The writes whose handlers have not run yet. -/
def Connection.writes (c : Connection) : List (Bytes × Nat) := c.pending.filterMap Pending.asWrite

/-- A write of the front element is outstanding, on the current session, and no other; none, if
    the queue is empty. -/
def WriteDiscipline (c : Connection) : Prop :=
  c.writes = match c.writeQueue with
    | [] => []
    | front :: _ => [(front, c.session)]

/-- The step is none of the two that break the discipline: it does not run the handler of a failed
    write, and it does not begin a session over a queue that is not empty. -/
def KeepsDraining (c : Connection) : Act → Prop
  | .run i => ∀ p, c.pending[i]? = some p → ∀ buffer, p.op = .write buffer →
      p.outcome ≠ some .failure
  | .connect lookup => c.state = .disconnected → lookup.Finds → c.writeQueue = []
  | _ => True

/-! ## What leaves the writes alone

  Most functions touch none of the three. -/

/-- Queue, session and outstanding writes are the same. -/
structure SameWrites (c c' : Connection) : Prop where
  queue : c'.writeQueue = c.writeQueue
  session : c'.session = c.session
  writes : c'.writes = c.writes

/-- A step that changes nothing. -/
theorem SameWrites.refl (c : Connection) : SameWrites c c := ⟨rfl, rfl, rfl⟩

/-- Steps that leave the writes alone, one behind the other. -/
theorem SameWrites.trans {c₁ c₂ c₃ : Connection} (h₁ : SameWrites c₁ c₂)
    (h₂ : SameWrites c₂ c₃) : SameWrites c₁ c₃ :=
  ⟨h₂.queue.trans h₁.queue, h₂.session.trans h₁.session, h₂.writes.trans h₁.writes⟩

/-- The discipline speaks of queue, session and writes only. -/
theorem SameWrites.discipline_iff (h : SameWrites c c') :
    WriteDiscipline c' ↔ WriteDiscipline c := by
  unfold WriteDiscipline
  rw [h.queue, h.session, h.writes]

/-- The writes before, at and behind an operation of the list. -/
theorem writes_split {l₁ l₂ : List Pending} {p : Pending} (h : c.pending = l₁ ++ p :: l₂) :
    c.writes = l₁.filterMap Pending.asWrite ++
      (p.asWrite.toList ++ l₂.filterMap Pending.asWrite) := by
  rw [Connection.writes, h, List.filterMap_append, List.filterMap_cons]
  cases p.asWrite <;> rfl

/-- An operation that moves or completes is still the same write, or still none. -/
theorem writes_replace {l₁ l₂ : List Pending} {p q : Pending} (h : c.pending = l₁ ++ p :: l₂)
    (h' : c'.pending = l₁ ++ q :: l₂) (hq : q.asWrite = p.asWrite) : c'.writes = c.writes := by
  rw [writes_split h', writes_split h, hq]

/-- Taking an operation that is no write out of the list leaves the writes. -/
theorem writes_erase {l₁ l₂ : List Pending} {p : Pending} (h : c.pending = l₁ ++ p :: l₂)
    (h' : c'.pending = l₁ ++ l₂) (hp : p.asWrite = none) : c'.writes = c.writes := by
  rw [writes_split h, Connection.writes, h', List.filterMap_append, hp]
  rfl

/-- Aborting an operation gives it an outcome; a write stays a write. -/
theorem writes_socketClose (c : Connection) : (socketClose c).writes = c.writes := by
  show (c.pending.map Pending.abort).filterMap Pending.asWrite = c.writes
  rw [List.filterMap_map]
  rfl

/-- Closing clears no queue, as in the source: this is what a later session stumbles over. -/
theorem sameWrites_networkClose (c : Connection) : SameWrites c (networkClose c) := by
  show SameWrites c (if c.state = .disconnected then _ else _)
  split
  · exact ⟨rfl, rfl, rfl⟩
  · exact ⟨rfl, rfl, writes_socketClose _⟩

/-- Starting a write adds it at the end, in the current session; starting a read adds none. -/
theorem writes_startOp (op : Op) (c : Connection) : (startOp op c).writes = c.writes ++
    match op with
    | .write buffer => [(buffer, c.session)]
    | _ => [] := by
  unfold Connection.writes startOp
  rw [List.filterMap_append]
  cases op <;> rfl

/-- The read loop does not touch the writes. -/
theorem sameWrites_startReadHeader (c : Connection) : SameWrites c (startReadHeader c) :=
  ⟨rfl, rfl, (writes_startOp .readHeader c).trans (List.append_nil _)⟩

/-- Nor does its other half. -/
theorem sameWrites_startReadBody (len : UInt32) (c : Connection) :
    SameWrites c (startReadBody len c) :=
  ⟨rfl, rfl, (writes_startOp (.readBody len) _).trans (List.append_nil _)⟩

/-- A connect starts reading and writes nothing: a queue that was filled before waits for the next
    `async_send`. -/
theorem sameWrites_onConnect (ec : Outcome) (c : Connection) : SameWrites c (onConnect ec c) := by
  cases ec with
  | success =>
    refine SameWrites.trans ?_ (sameWrites_startReadHeader { c with state := .connected })
    exact ⟨rfl, rfl, rfl⟩
  | failure => exact ⟨rfl, rfl, rfl⟩

/-- The handler of a header reads on or closes. -/
theorem sameWrites_onReadHeader (ec : Outcome) (c : Connection) :
    SameWrites c (onReadHeader ec c) := by
  cases ec with
  | failure => exact sameWrites_networkClose c
  | success =>
    unfold onReadHeader
    dsimp only
    split
    · exact sameWrites_networkClose c
    · exact sameWrites_startReadBody _ c

/-- The handler of a body enters the callback, reads on or closes. -/
theorem sameWrites_onReadBody (ec : Outcome) (c : Connection) :
    SameWrites c (onReadBody ec c) := by
  cases ec with
  | failure => exact sameWrites_networkClose c
  | success =>
    unfold onReadBody
    dsimp only
    split
    · exact ⟨rfl, rfl, rfl⟩
    · exact sameWrites_startReadHeader c

/-- Only the handler of a write touches the queue. -/
theorem sameWrites_handler {op : Op} (hop : ∀ buffer, op ≠ .write buffer) (ec : Outcome)
    (c : Connection) : SameWrites c (op.handler ec c) := by
  cases op with
  | connect => exact sameWrites_onConnect ec c
  | readHeader => exact sameWrites_onReadHeader ec c
  | readBody len => exact sameWrites_onReadBody ec c
  | write buffer => exact absurd rfl (hop buffer)

/-! ## What writes

  Two functions do: `async_send`, on an empty queue, and the handler of a write, on a queue that
  goes on. -/

/-- Starting a write of the front element, with none outstanding, restores the discipline. -/
theorem writeDiscipline_startOp {front : Bytes} {rest : List Bytes}
    (hqueue : c.writeQueue = front :: rest) (hwrites : c.writes = []) :
    WriteDiscipline (startOp (.write front) c) := by
  rw [WriteDiscipline, writes_startOp, hwrites,
    show (startOp (.write front) c).writeQueue = front :: rest from hqueue]
  rfl

/-- `async_send` writes at once when the queue was empty, and otherwise leaves it to the write
    that is outstanding. -/
theorem writeDiscipline_asyncSend (data : Bytes) (h : WriteDiscipline c) :
    WriteDiscipline (asyncSend data c) := by
  by_cases hqueue : c.writeQueue = []
  · rw [asyncSend_of_nil data hqueue]
    rw [WriteDiscipline, hqueue] at h
    exact writeDiscipline_startOp rfl h
  · rw [asyncSend_of_ne data hqueue]
    obtain ⟨front, rest, hcons⟩ := List.exists_cons_of_ne_nil hqueue
    rw [WriteDiscipline, hcons] at h ⊢
    exact h

/-- The handler of a write, the only one outstanding. -/
theorem writeDiscipline_onWrite (ec : Outcome) (hwrites : c.writes = [])
    (hqueue : c.writeQueue ≠ []) :
    WriteDiscipline (onWrite ec c) ↔ ec ≠ .failure := by
  cases ec with
  | failure =>
    refine iff_of_false ?_ (not_not_intro rfl)
    obtain ⟨front, rest, hcons⟩ := List.exists_cons_of_ne_nil hqueue
    rw [onWrite, handleDisconnect, (sameWrites_networkClose c).discipline_iff, WriteDiscipline,
      hwrites, hcons]
    exact nofun
  | success =>
    refine iff_of_true ?_ nofun
    cases htail : c.writeQueue.tail with
    | nil =>
      rw [onWrite_success_of_nil htail]
      exact hwrites
    | cons front rest =>
      rw [onWrite_success_of_cons htail]
      exact writeDiscipline_startOp rfl hwrites

/-- Under the discipline, a write that is outstanding is the only one. -/
theorem WriteDiscipline.only (h : WriteDiscipline c) {ws₁ ws₂ : List (Bytes × Nat)}
    {w : Bytes × Nat} (hwrites : c.writes = ws₁ ++ ((some w).toList ++ ws₂)) :
    c.writeQueue ≠ [] ∧ ws₁ ++ ws₂ = [] := by
  unfold WriteDiscipline at h
  rw [h] at hwrites
  have hlen := congrArg List.length hwrites
  simp only [List.length_append, Option.toList_some, List.length_cons, List.length_nil] at hlen
  cases hqueue : c.writeQueue with
  | nil =>
    rw [hqueue, List.length_nil] at hlen
    omega
  | cons front rest =>
    rw [hqueue, List.length_singleton] at hlen
    refine ⟨nofun, List.eq_nil_of_length_eq_zero ?_⟩
    rw [List.length_append]
    omega

/-! ## One step

  The condition is exact for each step, so it is exact for runs. -/

/-- The condition at a handler, with the operation at hand. -/
theorem keepsDraining_run {l₁ l₂ : List Pending} {p : Pending} {ec : Outcome}
    (hsplit : c.pending = l₁ ++ p :: l₂) (hec : p.outcome = some ec) :
    KeepsDraining c (.run l₁.length) ↔ ∀ buffer, p.op = .write buffer → ec ≠ .failure := by
  have hp : c.pending[l₁.length]? = some p := by
    rw [hsplit, List.getElem?_append_right (Nat.le_refl _), Nat.sub_self]
    rfl
  constructor
  · intro hk buffer hop heq
    exact hk p hp buffer hop (heq ▸ hec)
  · intro hk q hq buffer hop hfail
    obtain rfl : p = q := Option.some.inj (hp.symm.trans hq)
    exact hk buffer hop (Option.some.inj (hec.symm.trans hfail))

/-- The discipline survives a step exactly when the step is none of the two. -/
theorem writeDiscipline_step {a : Act} (h : WriteDiscipline c) (hstep : step c a = some c') :
    WriteDiscipline c' ↔ KeepsDraining c a := by
  cases a with
  | connect lookup =>
    rcases step_connect hstep with ⟨hstate, rfl⟩ | ⟨hstate, hlookup, rfl⟩ | ⟨hstate, hlookup, rfl⟩
    · exact iff_of_true h fun hdisc => absurd hdisc hstate
    · exact iff_of_true h fun _ hfinds => absurd hfinds hlookup
    · -- the session is new, the outstanding writes are old
      have hwrites : (asyncConnect { c with state := .connecting }).writes = c.writes := by
        rw [asyncConnect, writes_startOp, List.append_nil]
        exact writes_socketClose _
      have hkeeps : KeepsDraining c (.connect lookup) ↔ c.writeQueue = [] :=
        ⟨fun hk => hk hstate hlookup, fun hq _ _ => hq⟩
      rw [hkeeps, WriteDiscipline, hwrites, h]
      show (match c.writeQueue with
          | [] => []
          | front :: _ => [(front, c.session)])
        = (match c.writeQueue with
          | [] => []
          | front :: _ => [(front, c.session + 1)]) ↔ _
      cases c.writeQueue with
      | nil => simp
      | cons front rest => simp
  | close =>
    obtain rfl := step_close hstep
    exact iff_of_true ((sameWrites_networkClose c).discipline_iff.mpr h) trivial
  | send data =>
    obtain rfl := step_send hstep
    exact iff_of_true (writeDiscipline_asyncSend data h) trivial
  | setOnFrame =>
    obtain rfl := step_setOnFrame hstep
    exact iff_of_true h trivial
  | transfer i data =>
    obtain ⟨l₁, p, l₂, hsplit, -, rfl⟩ := step_transfer hstep
    have hsame : SameWrites c { moveBytes p data c with
        pending := l₁ ++ { p with moved := p.moved + data.length } :: l₂ } :=
      ⟨moveBytes_writeQueue p data c, moveBytes_session p data c, writes_replace hsplit rfl rfl⟩
    exact iff_of_true (hsame.discipline_iff.mpr h) trivial
  | complete i ec =>
    obtain ⟨l₁, p, l₂, hsplit, -, rfl⟩ := step_complete hstep
    have hsame : SameWrites c { c with
        pending := l₁ ++ { p with outcome := some ec } :: l₂ } :=
      ⟨rfl, rfl, writes_replace hsplit rfl rfl⟩
    exact iff_of_true (hsame.discipline_iff.mpr h) trivial
  | run i =>
    obtain ⟨-, l₁, p, l₂, ec, hsplit, rfl, hec, rfl⟩ := step_run hstep
    rw [keepsDraining_run hsplit hec]
    by_cases hop : ∃ buffer, p.op = .write buffer
    · obtain ⟨buffer, hop⟩ := hop
      -- it is the only write, so none is outstanding while its handler runs
      have hwrites := writes_split hsplit
      rw [show p.asWrite = some (buffer, p.session) by rw [Pending.asWrite, hop]] at hwrites
      obtain ⟨hqueue, hrest⟩ := h.only hwrites
      rw [hop]
      have hrun := writeDiscipline_onWrite (c := { c with pending := l₁ ++ l₂ }) ec
        (List.filterMap_append.trans hrest) hqueue
      exact hrun.trans ⟨fun hne _ _ => hne, fun hne => hne buffer rfl⟩
    · have hnot : ∀ buffer, p.op ≠ .write buffer := fun buffer hb => hop ⟨buffer, hb⟩
      have hnone : p.asWrite = none := by
        unfold Pending.asWrite
        split
        · rename_i buffer hb
          exact absurd hb (hnot buffer)
        · rfl
      have hsame : SameWrites c { c with pending := l₁ ++ l₂ } :=
        ⟨rfl, rfl, writes_erase hsplit rfl hnone⟩
      exact iff_of_true ((hsame.trans (sameWrites_handler hnot ec _)).discipline_iff.mpr h)
        fun buffer hb => absurd hb (hnot buffer)
  | ret =>
    obtain ⟨-, rfl⟩ := step_ret hstep
    exact iff_of_true ((sameWrites_startReadHeader _).discipline_iff.mpr h) trivial
  | raise =>
    obtain ⟨-, rfl⟩ := step_raise hstep
    exact iff_of_true h trivial

/-! ## Whole runs

  And a run in which it fails. -/

/-- Nothing queued, nothing written. -/
theorem writeDiscipline_initial : WriteDiscipline .initial := rfl

/-- **The write queue**: in a run of a new connection the discipline holds in every state exactly
    when no handler of a failed write runs and no session begins over a queued buffer. -/
theorem writeDiscipline_run_iff (acts : List Act) :
    EveryState step WriteDiscipline .initial acts
      ↔ EveryStep step (fun c a _ => KeepsDraining c a) .initial acts :=
  everyState_iff_everyStep (C := fun c a _ => KeepsDraining c a)
    (fun _ _ _ h hstep => writeDiscipline_step h hstep) writeDiscipline_initial acts

/-- Two sessions: the write of the first fails, and the second never writes. -/
def stalledRun : List Act :=
  [.connect .found, .complete 0 .success, .run 0,
   .send (ascii "m"), .complete 1 .failure, .run 1, .run 0,
   .connect .found, .complete 0 .success, .run 0, .send (ascii "n")]

/-- It does not hold in every run: a write fails, and the queue stays full with nothing
    outstanding. -/
theorem writeDiscipline_stalled : ¬ ∀ acts, EveryState step WriteDiscipline .initial acts := by
  intro h
  cases hrun : run step .initial stalledRun with
  | none => nomatch hrun
  | some c =>
    have hwrites : c.writes = [] := by
      cases hrun
      rfl
    have hqueue : c.writeQueue = [frame (ascii "m"), frame (ascii "n")] := by
      cases hrun
      rfl
    have hlast := (h stalledRun).last hrun
    rw [WriteDiscipline, hwrites, hqueue] at hlast
    nomatch hlast

end SteamMin.Net
