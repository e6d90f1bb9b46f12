/-
  THE ORDER OF WHAT IS WRITTEN.

  The buffers of the queue are written one after the other, each from its first byte to its last;
  the handler of a write pops its own buffer and starts the next.  So what the socket has accepted,
  what the write in flight has still to move, and what waits behind it in the queue are together
  always the frames of all calls of `async_send`, in their order (`Draining`).

  The connection stays CONNECTED: a write that fails, or anything else that closes the socket, ends
  the run this is about.  Everything else may happen in between, in any order: reads, frames, their
  callbacks, and calls of `async_send` from inside them.
-/
import SteamMin.Net.TcpFraming

namespace SteamMin.Net

open Runs

variable {c c' : Connection}

/-! ## What was sent

  `Draining` has the sequence of all messages in three parts: what the socket has accepted, what
  is left of the write in flight, and the queue behind its front.  The front of the queue is the
  buffer in flight, which is popped only when it is written. -/

/-- The data of a call of `async_send`. -/
def Act.sends : Act → List Bytes
  | .send data => [data]
  | _ => []

/-- The frames of the calls of `async_send`, in their order. -/
def framesOf (acts : List Act) : Bytes := (acts.flatMap Act.sends).flatMap frame

/-- The operation of the write chain. -/
def Op.isWrite : Op → Bool
  | .write _ => true
  | _ => false

/-- The writes whose handlers have not run yet, with what they have moved. -/
def Connection.writeOps (c : Connection) : List Pending := c.pending.filter (·.op.isWrite)

/-- Since the socket had accepted `sent₀`, `stream` was sent: it is accepted, in flight, or waits in
    the queue. -/
inductive Draining (sent₀ stream : Bytes) (c : Connection) : Prop
  | idle (hqueue : c.writeQueue = []) (hwrites : c.writeOps = []) (hsent : c.sent = sent₀ ++ stream)
  | busy {front written : Bytes} {rest : List Bytes} {p : Pending}
      (hqueue : c.writeQueue = front :: rest) (hwrites : c.writeOps = [p])
      (hop : p.op = .write front) (hsession : p.session = c.session) (hsound : p.Sound)
      (hsent : c.sent = sent₀ ++ written)
      (hrest : written ++ (front.drop p.moved ++ rest.flatten) = stream)

/-- A write is one. -/
theorem isWrite_of_eq {p : Pending} {buffer : Bytes} (h : p.op = .write buffer) :
    p.op.isWrite = true := by
  rw [h]
  rfl

/-- And has a buffer. -/
theorem eq_write_of_isWrite {p : Pending} (h : p.op.isWrite = true) :
    ∃ buffer, p.op = .write buffer := by
  cases hop : p.op with
  | write buffer => exact ⟨buffer, rfl⟩
  | connect => cases (congrArg Op.isWrite hop).symm.trans h
  | readHeader => cases (congrArg Op.isWrite hop).symm.trans h
  | readBody len => cases (congrArg Op.isWrite hop).symm.trans h

/-- The outstanding writes, by their buffers. -/
theorem writes_eq (c : Connection) : c.writes = c.writeOps.filterMap Pending.asWrite := by
  rw [Connection.writes, Connection.writeOps, List.filterMap_filter]
  apply List.filterMap_congr
  intro p _
  by_cases hp : p.op.isWrite = true
  · rw [if_pos hp]
  · rw [if_neg hp]
    unfold Pending.asWrite
    split
    · rename_i buffer hop
      exact absurd (isWrite_of_eq hop) hp
    · rfl

/-- No buffer outstanding, no write outstanding. -/
theorem writeOps_eq_nil (h : c.writes = []) : c.writeOps = [] := by
  rw [writes_eq] at h
  apply List.eq_nil_iff_forall_not_mem.mpr
  intro p hp
  obtain ⟨buffer, hop⟩ := eq_write_of_isWrite (List.mem_filter.mp hp).2
  have hnone := List.filterMap_eq_nil_iff.mp h p hp
  rw [Pending.asWrite, hop] at hnone
  cases hnone

/-! ## Acts that do not concern the writes

  Reads, and the handlers of reads, as long as they leave the connection up: closing it fails the
  write in flight. -/

/-- The queue, the session, the outstanding writes and what was accepted are the same. -/
structure SameWriting (c c' : Connection) : Prop where
  queue : c'.writeQueue = c.writeQueue
  session : c'.session = c.session
  writeOps : c'.writeOps = c.writeOps
  sent : c'.sent = c.sent

/-- Steps that leave the writing alone, one behind the other. -/
theorem SameWriting.trans {c₁ c₂ c₃ : Connection} (h₁ : SameWriting c₁ c₂)
    (h₂ : SameWriting c₂ c₃) : SameWriting c₁ c₃ :=
  ⟨h₂.queue.trans h₁.queue, h₂.session.trans h₁.session, h₂.writeOps.trans h₁.writeOps,
    h₂.sent.trans h₁.sent⟩

/-- And they leave the invariant. -/
theorem SameWriting.draining (h : SameWriting c c') {sent₀ stream : Bytes}
    (hc : Draining sent₀ stream c) : Draining sent₀ stream c' := by
  cases hc with
  | idle hqueue hwrites hsent =>
    exact .idle (h.queue.trans hqueue) (h.writeOps.trans hwrites) (h.sent.trans hsent)
  | busy hqueue hwrites hop hsession hsound hsent hrest =>
    exact .busy (h.queue.trans hqueue) (h.writeOps.trans hwrites) hop
      (hsession.trans h.session.symm) hsound (h.sent.trans hsent) hrest

/-- Another operation is started. -/
theorem sameWriting_startOp {op : Op} (hop : op.isWrite = false) (c : Connection) :
    SameWriting c (startOp op c) := by
  refine ⟨rfl, rfl, ?_, rfl⟩
  rw [Connection.writeOps, startOp, List.filter_append, List.filter_cons_of_neg]
  · exact List.append_nil _
  · rw [hop]
    exact Bool.false_ne_true

/-- The other handlers close the connection, or leave the writes alone. -/
theorem sameWriting_handler {op : Op} (hop : op.isWrite = false) {ec : Outcome}
    (hstate : (op.handler ec c).state = .connected) : SameWriting c (op.handler ec c) := by
  -- the connection is still up, so the handler has not closed it
  have hclosed : op.handler ec c ≠ networkClose c := by
    intro heq
    rw [heq, networkClose_disconnected] at hstate
    cases hstate
  cases op with
  | connect =>
    cases ec with
    | success =>
      refine SameWriting.trans ?_ (sameWriting_startOp rfl { c with state := .connected })
      exact ⟨rfl, rfl, rfl, rfl⟩
    | failure => cases hstate
  | readHeader =>
    cases ec with
    | failure => exact absurd rfl hclosed
    | success =>
      by_cases hmagic : validateMagic c.headerBuffer = true
      · rw [show Op.readHeader.handler .success c = startReadBody (parseMessageLength c.headerBuffer) c
          from onReadHeader_of_magic hmagic]
        refine SameWriting.trans ?_ (sameWriting_startOp rfl _)
        exact ⟨rfl, rfl, rfl, rfl⟩
      · rw [Bool.not_eq_true] at hmagic
        exact absurd (onReadHeader_of_not_magic hmagic) hclosed
  | readBody len =>
    cases ec with
    | failure => exact absurd rfl hclosed
    | success =>
      show SameWriting c (if c.onFrame then _ else afterFrame c)
      split
      · exact ⟨rfl, rfl, rfl, rfl⟩
      · exact sameWriting_startOp rfl c
  | write buffer => cases hop

/-! ## Acts that do

  One lemma for each: a message is sent, bytes are accepted, the write completes, its handler
  runs. -/

section
variable {sent₀ stream : Bytes}

/-- A write of the front element is started. -/
theorem draining_startOp {front : Bytes} {rest : List Bytes} (hqueue : c.writeQueue = front :: rest)
    (hwrites : c.writeOps = []) (hsent : c.sent ++ (front ++ rest.flatten) = sent₀ ++ stream)
    (hpast : ∃ written, c.sent = sent₀ ++ written) :
    Draining sent₀ stream (startOp (.write front) c) := by
  obtain ⟨written, hwritten⟩ := hpast
  rw [hwritten, List.append_assoc] at hsent
  have hops : (startOp (.write front) c).writeOps
      = [{ op := .write front, session := c.session, closes := c.closes, moved := 0,
           outcome := if c.socketOpen then none else some .failure }] := by
    rw [Connection.writeOps] at hwrites
    rw [Connection.writeOps, startOp, List.filter_append, hwrites]
    rfl
  have hnot : (if c.socketOpen then none else some .failure : Option Outcome) ≠ some .success := by
    split
    · exact fun h => by cases h
    · exact fun h => by cases h
  refine .busy hqueue hops rfl rfl ⟨Nat.zero_le _, fun h => absurd h hnot⟩ hwritten ?_
  exact List.append_cancel_left hsent

/-- A message that is sent is one more frame at the end of the stream. -/
theorem draining_asyncSend (data : Bytes) (h : Draining sent₀ stream c) :
    Draining sent₀ (stream ++ frame data) (asyncSend data c) := by
  cases h with
  | idle hqueue hwrites hsent =>
    rw [asyncSend_of_nil data hqueue]
    refine draining_startOp rfl hwrites ?_ ⟨stream, hsent⟩
    rw [List.flatten_nil, List.append_nil, ← List.append_assoc, ← hsent]
  | @busy front written rest p hqueue hwrites hop hsession hsound hsent hrest =>
    -- it waits at the end
    rw [asyncSend_of_ne data (by rw [hqueue]; exact List.cons_ne_nil _ _)]
    have hqueue' : c.writeQueue ++ [frame data] = front :: (rest ++ [frame data]) := by
      rw [hqueue]
      rfl
    refine .busy hqueue' hwrites hop hsession hsound hsent ?_
    rw [List.flatten_append, List.flatten_singleton, ← hrest]
    simp only [List.append_assoc]

/-- A write that is outstanding is the one in flight. -/
theorem Draining.inFlight {l₁ l₂ : List Pending} {p : Pending} {buffer : Bytes}
    (h : Draining sent₀ stream c) (hsplit : c.pending = l₁ ++ p :: l₂) (hop : p.op = .write buffer) :
    ∃ written rest, c.writeQueue = buffer :: rest ∧ c.writeOps = [p] ∧ p.session = c.session ∧
      p.Sound ∧ c.sent = sent₀ ++ written ∧
      written ++ (buffer.drop p.moved ++ rest.flatten) = stream := by
  cases h with
  | idle hqueue hwrites hsent =>
    rw [Connection.writeOps, filter_split hsplit, if_pos (isWrite_of_eq hop)] at hwrites
    simp at hwrites
  | @busy front written rest q hqueue hwrites hop' hsession hsound hsent hrest =>
    obtain ⟨rfl, -, -⟩ := filter_only hsplit (isWrite_of_eq hop) hwrites
    obtain rfl : buffer = front := Op.write.inj (hop.symm.trans hop')
    exact ⟨written, rest, hqueue, hwrites, hsession, hsound, hsent, hrest⟩

section
variable {l₁ l₂ : List Pending} {p : Pending} {buffer : Bytes} {ec : Outcome}

/-- The next bytes of the write in flight are accepted. -/
theorem draining_transfer {data : Bytes} (h : Draining sent₀ stream c)
    (hsplit : c.pending = l₁ ++ p :: l₂) (hop : p.op = .write buffer) (hmove : p.CanMove data) :
    Draining sent₀ stream { c with
      sent := c.sent ++ data
      pending := l₁ ++ { p with moved := p.moved + data.length } :: l₂ } := by
  obtain ⟨written, rest, hqueue, hwrites, hsession, hsound, hsent, hrest⟩ := h.inFlight hsplit hop
  obtain ⟨hopen, hsize, hprefix⟩ := hmove
  rw [hop] at hprefix
  obtain ⟨behind, hbehind⟩ := hprefix
  let q : Pending := { p with moved := p.moved + data.length }
  have hops : (l₁ ++ q :: l₂).filter (·.op.isWrite) = [q] :=
    filter_replaced hsplit (isWrite_of_eq hop) hwrites (isWrite_of_eq hop)
  have hsent' : c.sent ++ data = sent₀ ++ (written ++ data) := by
    rw [hsent, List.append_assoc]
  refine .busy hqueue hops hop hsession ⟨hsize, ?_⟩ hsent' ?_
  · intro hsuccess
    cases hopen.symm.trans hsuccess
  · rw [← hrest, show q.moved = p.moved + data.length from rfl, ← List.drop_drop, ← hbehind,
      List.drop_left, List.append_assoc, List.append_assoc]

/-- The write in flight completes. -/
theorem draining_complete (h : Draining sent₀ stream c) (hsplit : c.pending = l₁ ++ p :: l₂)
    (hop : p.op = .write buffer) (hcomplete : p.CanComplete ec) :
    Draining sent₀ stream { c with pending := l₁ ++ { p with outcome := some ec } :: l₂ } := by
  obtain ⟨written, rest, hqueue, hwrites, hsession, hsound, hsent, hrest⟩ := h.inFlight hsplit hop
  let q : Pending := { p with outcome := some ec }
  have hops : (l₁ ++ q :: l₂).filter (·.op.isWrite) = [q] :=
    filter_replaced hsplit (isWrite_of_eq hop) hwrites (isWrite_of_eq hop)
  refine .busy hqueue hops hop hsession ⟨hsound.le, ?_⟩ hsent hrest
  intro hsuccess
  exact hcomplete.2 (Option.some.inj hsuccess)

/-- Its handler runs, and the next buffer is written. -/
theorem draining_onWrite (h : Draining sent₀ stream c) (hsplit : c.pending = l₁ ++ p :: l₂)
    (hop : p.op = .write buffer) (hsuccess : p.outcome = some .success) :
    Draining sent₀ stream (onWrite .success { c with pending := l₁ ++ l₂ }) := by
  obtain ⟨written, rest, hqueue, hwrites, hsession, hsound, hsent, hrest⟩ := h.inFlight hsplit hop
  have hops : (l₁ ++ l₂).filter (·.op.isWrite) = [] :=
    filter_erased hsplit (isWrite_of_eq hop) hwrites
  -- all of the front element has been moved
  have hall : buffer.drop p.moved = [] := by
    rw [hsound.full hsuccess, hop]
    exact List.drop_length
  rw [hall, List.nil_append] at hrest
  have htail : ({ c with pending := l₁ ++ l₂ } : Connection).writeQueue.tail = rest :=
    congrArg List.tail hqueue
  cases rest with
  | nil =>
    rw [List.flatten_nil, List.append_nil] at hrest
    rw [onWrite_success_of_nil htail]
    exact .idle rfl hops (hrest ▸ hsent)
  | cons next rest =>
    rw [onWrite_success_of_cons htail]
    refine draining_startOp rfl hops ?_ ⟨written, hsent⟩
    show c.sent ++ (next :: rest).flatten = sent₀ ++ stream
    rw [hsent, List.append_assoc, hrest]

end

/-! ## One step -/

/-- **One act** on a connection that stays CONNECTED adds to the stream what it sends. -/
theorem draining_step {a : Act} (h : Draining sent₀ stream c) (hstate : c.state = .connected)
    (hstate' : c'.state = .connected) (hstep : step c a = some c') :
    Draining sent₀ (stream ++ framesOf [a]) c' := by
  have hnot : c.state ≠ .disconnected := by
    rw [hstate]
    exact fun h => by cases h
  -- an act that sends nothing leaves the stream as it is
  have hsilent : framesOf [a] = [] → Draining sent₀ stream c' →
      Draining sent₀ (stream ++ framesOf [a]) c' := by
    intro hframes h'
    rw [hframes, List.append_nil]
    exact h'
  have hsame : SameWriting c c' → Draining sent₀ stream c' := fun hsame => hsame.draining h
  cases a with
  | connect lookup =>
    rcases step_connect hstep with ⟨-, rfl⟩ | ⟨hdisc, -⟩ | ⟨hdisc, -⟩
    · exact hsilent rfl h
    · exact absurd hdisc hnot
    · exact absurd hdisc hnot
  | close =>
    obtain rfl := step_close hstep
    cases (networkClose_disconnected c).symm.trans hstate'
  | send data =>
    obtain rfl := step_send hstep
    rw [show framesOf [.send data] = frame data from List.append_nil _]
    exact draining_asyncSend data h
  | setOnFrame =>
    obtain rfl := step_setOnFrame hstep
    exact hsilent rfl (hsame ⟨rfl, rfl, rfl, rfl⟩)
  | transfer i data =>
    obtain ⟨l₁, p, l₂, hsplit, hmove, rfl⟩ := step_transfer hstep
    apply hsilent rfl
    by_cases hwrite : p.op.isWrite = true
    · obtain ⟨buffer, hop⟩ := eq_write_of_isWrite hwrite
      rw [moveBytes_write hop]
      exact draining_transfer h hsplit hop hmove
    · rw [Bool.not_eq_true] at hwrite
      refine hsame ⟨moveBytes_writeQueue p data c, moveBytes_session p data c,
        (filter_others hsplit hwrite hwrite).1, ?_⟩
      cases hop : p.op with
      | write buffer => cases hwrite.symm.trans (isWrite_of_eq hop)
      | connect => simp [moveBytes, hop]
      | readHeader => simp [moveBytes, hop]
      | readBody len => simp [moveBytes, hop]
  | complete i ec =>
    obtain ⟨l₁, p, l₂, hsplit, hcomplete, rfl⟩ := step_complete hstep
    apply hsilent rfl
    by_cases hwrite : p.op.isWrite = true
    · obtain ⟨buffer, hop⟩ := eq_write_of_isWrite hwrite
      exact draining_complete h hsplit hop hcomplete
    · rw [Bool.not_eq_true] at hwrite
      exact hsame ⟨rfl, rfl, (filter_others hsplit hwrite hwrite).1, rfl⟩
  | run i =>
    obtain ⟨-, l₁, p, l₂, ec, hsplit, rfl, hec, rfl⟩ := step_run hstep
    apply hsilent rfl
    by_cases hwrite : p.op.isWrite = true
    · obtain ⟨buffer, hop⟩ := eq_write_of_isWrite hwrite
      rw [hop] at hstate' ⊢
      cases ec with
      | failure =>
        -- the connection would be closed
        cases (networkClose_disconnected { c with pending := l₁ ++ l₂ }).symm.trans hstate'
      | success => exact draining_onWrite h hsplit hop hec
    · rw [Bool.not_eq_true] at hwrite
      have hfirst : SameWriting c { c with pending := l₁ ++ l₂ } :=
        ⟨rfl, rfl, (filter_others hsplit hwrite hwrite).2, rfl⟩
      exact hsame (hfirst.trans (sameWriting_handler hwrite hstate'))
  | ret =>
    obtain ⟨-, rfl⟩ := step_ret hstep
    apply hsilent rfl
    refine hsame (SameWriting.trans ?_ (sameWriting_startOp rfl { c with inCallback := false }))
    exact ⟨rfl, rfl, rfl, rfl⟩
  | raise =>
    obtain ⟨-, rfl⟩ := step_raise hstep
    exact hsilent rfl (hsame ⟨rfl, rfl, rfl, rfl⟩)

/-! ## Whole runs -/

/-- The run lemma, while the connection is up. -/
theorem draining_run {acts : List Act} (h : Draining sent₀ stream c)
    (hconnected : EveryState step (fun c => c.state = .connected) c acts)
    (hrun : run step c acts = some c') : Draining sent₀ (stream ++ framesOf acts) c' := by
  induction acts generalizing c stream with
  | nil =>
    cases hrun
    rw [show framesOf [] = [] from rfl, List.append_nil]
    exact h
  | cons a acts ih =>
    obtain ⟨c₁, hstep, hrun⟩ := run_cons_eq_some hrun
    obtain ⟨hstate, hrest⟩ := everyState_cons.mp hconnected
    have hstate₁ : c₁.state = .connected := hrest c₁ hstep [] acts c₁ rfl rfl
    have hframes : framesOf (a :: acts) = framesOf [a] ++ framesOf acts := by
      rw [framesOf, framesOf, framesOf, ← List.flatMap_append, ← List.flatMap_append]
      rfl
    rw [hframes, ← List.append_assoc]
    exact ih (draining_step h hstate hstate₁ hstep) (hrest c₁ hstep) hrun

/-- Under the invariant the queue is as it should be. -/
theorem Draining.writeDiscipline (h : Draining sent₀ stream c) : WriteDiscipline c := by
  rw [WriteDiscipline, writes_eq]
  cases h with
  | idle hqueue hwrites hsent =>
    rw [hqueue, hwrites]
    rfl
  | @busy front written rest p hqueue hwrites hop hsession hsound hsent hrest =>
    rw [hqueue, hwrites, ← hsession]
    simp only [List.filterMap_cons, Pending.asWrite, hop, List.filterMap_nil]

/-- **The order of writes**: while a connection that had nothing to write stays CONNECTED, at most
    one write is outstanding, of the front element; the bytes accepted are a prefix of the frames
    sent, in their order, and all of them whenever no write is outstanding. -/
theorem writeOrder_run {acts : List Act} (hqueue : c.writeQueue = []) (hwrites : c.writes = [])
    (hconnected : EveryState step (fun c => c.state = .connected) c acts)
    (hrun : run step c acts = some c') :
    WriteDiscipline c' ∧ ∃ written, c'.sent = c.sent ++ written ∧ written <+: framesOf acts ∧
      (c'.writes = [] → written = framesOf acts) := by
  have hops : c.writeOps = [] := writeOps_eq_nil hwrites
  have hstart : Draining c.sent [] c := .idle hqueue hops (List.append_nil _).symm
  have hend := draining_run hstart hconnected hrun
  rw [List.nil_append] at hend
  refine ⟨hend.writeDiscipline, ?_⟩
  cases hend with
  | idle hqueue' hwrites' hsent => exact ⟨_, hsent, List.prefix_refl _, fun _ => rfl⟩
  | @busy front written rest p hqueue' hwrites' hop hsession hsound hsent hrest =>
    refine ⟨written, hsent, ⟨_, hrest⟩, ?_⟩
    intro hnone
    rw [writes_eq, hwrites'] at hnone
    simp [Pending.asWrite, hop] at hnone

end

/-- Two messages, the second sent while the first is half written. -/
def twoMessages : List Act :=
  [.send (ascii "a"), .transfer 1 (LittleEndian.bytes 4 1), .send (ascii "b"),
   .transfer 1 (ascii "VT01a"), .complete 1 .success, .run 1]

/-- Two messages, of which the first is on the wire and the second is being written. -/
theorem writeOrder_run_twoMessages : ∃ c, run step Idle.initial.listening twoMessages = some c ∧
    c.writes = [(frame (ascii "b"), 1)] ∧ c.sent <+: framesOf twoMessages := by
  obtain ⟨c, hrun⟩ : ∃ c, run step Idle.initial.listening twoMessages = some c := ⟨_, rfl⟩
  obtain ⟨-, written, hsent, hprefix, -⟩ :=
    writeOrder_run rfl rfl (by decide +kernel) hrun
  refine ⟨c, hrun, ?_, ?_⟩
  · cases hrun
    rfl
  · rw [hsent]
    exact hprefix

end SteamMin.Net
