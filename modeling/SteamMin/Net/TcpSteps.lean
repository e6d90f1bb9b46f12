/-
  WHAT ONE ACT CAN DO.

  Inversion lemmas for `step`, one for each kind of act, with the guards it passed; an operation
  that was picked by its position splits `pending` in front of it and behind it.  Later modules
  reason from these and never unfold `step`.

  An inversion lemma says everything its act can have done: which guard held, which operation was
  meant, and the whole state behind it.  The invariants of the later modules are case splits on
  these and a few words a case; where the source changes what an act does, its lemma here changes,
  and the cases that lean on it.

  Beside them stand the branches of the member functions (`networkClose_of_disconnected`,
  `asyncSend_of_nil` and so on), one equation each with the condition that selects it, and what a
  transfer leaves alone, field by field, for `simp`.
-/
import SteamMin.Net.TcpConnection
import Mathlib.Data.List.Basic
import SteamMin.Lib.Calls

namespace SteamMin.Net

variable {c c' : Connection}

/-! ## Positions in a list -/

/-- Asio hands a handler by its place in the list; the proofs speak of the operations before and
    behind it. -/
theorem exists_split {α : Type} {l : List α} {i : Nat} {p : α} (h : l[i]? = some p) :
    ∃ l₁ l₂, l = l₁ ++ p :: l₂ ∧ l₁.length = i := by
  obtain ⟨hi, rfl⟩ := List.getElem?_eq_some_iff.mp h
  refine ⟨l.take i, l.drop (i + 1), ?_, List.length_take_of_le (Nat.le_of_lt hi)⟩
  rw [← List.drop_eq_getElem_cons hi, List.take_append_drop]

/-- A handler that runs leaves the list, its neighbours stay in order. -/
theorem eraseIdx_split {α : Type} (l₁ l₂ : List α) (p : α) :
    (l₁ ++ p :: l₂).eraseIdx l₁.length = l₁ ++ l₂ := by
  rw [List.eraseIdx_append_of_length_le (Nat.le_refl _), Nat.sub_self]
  rfl

/-- An operation that moves bytes or completes keeps its place. -/
theorem set_split {α : Type} (l₁ l₂ : List α) (p q : α) :
    (l₁ ++ p :: l₂).set l₁.length q = l₁ ++ q :: l₂ := by
  rw [List.set_append_right _ _ (Nat.le_refl _), Nat.sub_self]
  rfl

/-- What is pending after a handler ran was pending before. -/
theorem mem_of_mem_erased {α : Type} {l₁ l₂ : List α} {p r : α} (h : r ∈ l₁ ++ l₂) :
    r ∈ l₁ ++ p :: l₂ := by
  rcases List.mem_append.mp h with h | h
  · exact List.mem_append_left _ h
  · exact List.mem_append_right _ (List.mem_cons_of_mem _ h)

/-- What is pending after an operation changed is that operation or was pending before. -/
theorem mem_of_mem_replaced {α : Type} {l₁ l₂ : List α} {p q r : α} (h : r ∈ l₁ ++ q :: l₂) :
    r = q ∨ r ∈ l₁ ++ p :: l₂ := by
  rcases List.mem_append.mp h with h | h
  · exact .inr (List.mem_append_left _ h)
  · rcases List.mem_cons.mp h with rfl | h
    · exact .inl rfl
    · exact .inr (List.mem_append_right _ (List.mem_cons_of_mem _ h))

/-! ## The operations of one kind -/

section
variable {α : Type} {f : α → Bool} {l l₁ l₂ : List α} {p q r : α}

/-- Filters split as the list does, so a count of the operations of one kind changes by one at
    most. -/
theorem filter_split (h : l = l₁ ++ p :: l₂) :
    l.filter f = l₁.filter f ++ ((if f p then [p] else []) ++ l₂.filter f) := by
  rw [h, List.filter_append, List.filter_cons]
  split <;> rfl

/-- Where there is one of its kind, it is the only one. -/
theorem filter_only (hsplit : l = l₁ ++ p :: l₂) (hp : f p = true) (hl : l.filter f = [q]) :
    p = q ∧ l₁.filter f = [] ∧ l₂.filter f = [] := by
  rw [filter_split hsplit, if_pos hp] at hl
  rcases List.append_eq_singleton_iff.mp hl with ⟨h₁, hrest⟩ | ⟨-, hrest⟩
  · obtain ⟨rfl, h₂⟩ := List.cons.inj hrest
    exact ⟨rfl, h₁, h₂⟩
  · cases hrest

/-- It is replaced by its next stage. -/
theorem filter_replaced (hsplit : l = l₁ ++ p :: l₂) (hp : f p = true) (hl : l.filter f = [r])
    (hq : f q = true) : (l₁ ++ q :: l₂).filter f = [q] := by
  obtain ⟨-, h₁, h₂⟩ := filter_only hsplit hp hl
  rw [filter_split rfl, if_pos hq, h₁, h₂]
  rfl

/-- It is taken out. -/
theorem filter_erased (hsplit : l = l₁ ++ p :: l₂) (hp : f p = true) (hl : l.filter f = [r]) :
    (l₁ ++ l₂).filter f = [] := by
  obtain ⟨-, h₁, h₂⟩ := filter_only hsplit hp hl
  rw [List.filter_append, h₁, h₂]
  rfl

/-- One of another kind makes no difference. -/
theorem filter_others (hsplit : l = l₁ ++ p :: l₂) (hp : f p = false) (hq : f q = false) :
    (l₁ ++ q :: l₂).filter f = l.filter f ∧ (l₁ ++ l₂).filter f = l.filter f := by
  rw [filter_split hsplit, filter_split rfl, hp, hq, List.filter_append]
  exact ⟨rfl, rfl⟩

end

/-! ## The branches of the functions -/

/-- On a closed connection `network_close` counts the call and returns: the early exit of the
    source. -/
theorem networkClose_of_disconnected (h : c.state = .disconnected) :
    networkClose c = { c with closes := c.closes + 1 } := if_pos h

/-- On any other connection it closes the socket, which fails every operation that has not
    completed, and changes the state. -/
theorem networkClose_of_ne (h : c.state ≠ .disconnected) :
    networkClose c = { socketClose { c with closes := c.closes + 1 } with
      state := .disconnected } := if_neg h

/-- Whatever the state was, the connection is `DISCONNECTED` afterwards. -/
theorem networkClose_disconnected (c : Connection) : (networkClose c).state = .disconnected := by
  by_cases hstate : c.state = .disconnected
  · rw [networkClose_of_disconnected hstate]
    exact hstate
  · rw [networkClose_of_ne hstate]

/-- Nothing queued: the buffer is written at once. -/
theorem asyncSend_of_nil (data : Bytes) (h : c.writeQueue = []) :
    asyncSend data c = startOp (.write (frame data)) { c with writeQueue := [frame data] } := by
  show (if !(!c.writeQueue.isEmpty) then doWrite { c with writeQueue := c.writeQueue ++ [frame data] }
    else _) = _
  rw [h]
  rfl

/-- Otherwise it waits. -/
theorem asyncSend_of_ne (data : Bytes) (h : c.writeQueue ≠ []) :
    asyncSend data c = { c with writeQueue := c.writeQueue ++ [frame data] } := by
  obtain ⟨front, rest, hcons⟩ := List.exists_cons_of_ne_nil h
  show (if !(!c.writeQueue.isEmpty) then _ else _) = _
  rw [hcons]
  rfl

/-- The last buffer of the queue is written. -/
theorem onWrite_success_of_nil (h : c.writeQueue.tail = []) :
    onWrite .success c = { c with writeQueue := [] } := by
  show (if !c.writeQueue.tail.isEmpty then _ else { c with writeQueue := c.writeQueue.tail }) = _
  rw [h]
  rfl

/-- A write that succeeded pops its own buffer and starts the next one: this is how at most one
    write is ever in flight. -/
theorem onWrite_success_of_cons {buffer : Bytes} {rest : List Bytes}
    (h : c.writeQueue.tail = buffer :: rest) :
    onWrite .success c = startOp (.write buffer) { c with writeQueue := buffer :: rest } := by
  show (if !c.writeQueue.tail.isEmpty then
    doWrite { c with writeQueue := c.writeQueue.tail } else _) = _
  rw [h]
  rfl

/-- Bytes of a header read land in the header buffer, behind those already moved. -/
theorem moveBytes_readHeader {p : Pending} (h : p.op = .readHeader) (data : Bytes) :
    moveBytes p data c = { c with
      headerBuffer := overwrite c.headerBuffer p.moved data, received := c.received ++ data } := by
  rw [moveBytes, h]

/-- Bytes of a body read land in the body buffer, behind those already moved. -/
theorem moveBytes_readBody {p : Pending} {len : UInt32} (h : p.op = .readBody len)
    (data : Bytes) :
    moveBytes p data c = { c with
      bodyBuffer := overwrite c.bodyBuffer p.moved data, received := c.received ++ data } := by
  rw [moveBytes, h]

/-- Bytes of a write go to the peer; no member of the connection changes. -/
theorem moveBytes_write {p : Pending} {buffer : Bytes} (h : p.op = .write buffer)
    (data : Bytes) : moveBytes p data c = { c with sent := c.sent ++ data } := by
  rw [moveBytes, h]

/-! ## What moving bytes leaves alone -/

section
variable (p : Pending) (data : Bytes) (c : Connection)

/-- A transfer neither connects nor closes. -/
@[simp] theorem moveBytes_state : (moveBytes p data c).state = c.state := by
  unfold moveBytes
  cases p.op <;> rfl

/-- A transfer never touches the queue: only `async_send` pushes, and only the handler of a
    write pops. -/
@[simp] theorem moveBytes_writeQueue : (moveBytes p data c).writeQueue = c.writeQueue := by
  unfold moveBytes
  cases p.op <;> rfl

/-- A transfer stays in the session of the socket it runs on. -/
@[simp] theorem moveBytes_session : (moveBytes p data c).session = c.session := by
  unfold moveBytes
  cases p.op <;> rfl

/-- The kernel moves bytes without entering a callback. -/
@[simp] theorem moveBytes_inCallback : (moveBytes p data c).inCallback = c.inCallback := by
  unfold moveBytes
  cases p.op <;> rfl

/-- No byte that the kernel moves is handed to `on_frame_` before the handler runs. -/
@[simp] theorem moveBytes_delivered : (moveBytes p data c).delivered = c.delivered := by
  unfold moveBytes
  cases p.op <;> rfl

end

/-! ## Inversion -/

/-- `network_connect` does nothing unless DISCONNECTED. -/
theorem networkConnect_busy {lookup : Lookup} (h : c.state ≠ .disconnected) :
    networkConnect lookup c = .ok () c := by
  show (if c.state ≠ .disconnected then _ else _ : EStateM Exn Connection Unit) c = _
  rw [if_pos h]
  rfl

/-- With an endpoint found, `network_connect` goes to `CONNECTING` and leaves an asynchronous
    connect behind. -/
theorem networkConnect_finds {lookup : Lookup} (h : c.state = .disconnected)
    (hfinds : lookup.Finds) :
    networkConnect lookup c = .ok () (asyncConnect { c with state := .connecting }) := by
  obtain ⟨server, servers, hservers, hresolve⟩ := hfinds
  show (if c.state ≠ .disconnected then _ else _ : EStateM Exn Connection Unit) c = _
  rw [if_neg (not_not_intro h), Calls.modify_bind, hservers]
  dsimp only
  rw [hresolve]
  rfl

/-- A lookup that throws leaves CONNECTING behind. -/
theorem networkConnect_fails {lookup : Lookup} (h : c.state = .disconnected)
    (hfails : ¬ lookup.Finds) :
    ∃ e, networkConnect lookup c = .error e { c with state := .connecting } := by
  show ∃ e, (if c.state ≠ .disconnected then _ else _ : EStateM Exn Connection Unit) c = _
  rw [if_neg (not_not_intro h), Calls.modify_bind]
  rcases hservers : lookup.servers with e | _ | ⟨server, servers⟩
  · exact ⟨e, rfl⟩
  · exact ⟨.runtimeError "No CM servers", rfl⟩
  · cases hresolve : lookup.resolve server with
    | error e =>
      dsimp only
      rw [hresolve]
      exact ⟨e, rfl⟩
    | ok u => exact absurd ⟨server, servers, hservers, hresolve⟩ hfails

/-- So it leaves things as they are, or gets stuck in CONNECTING, or opens the socket. -/
theorem step_connect {lookup : Lookup} (h : step c (.connect lookup) = some c') :
    (c.state ≠ .disconnected ∧ c' = c) ∨
    (c.state = .disconnected ∧ ¬ lookup.Finds ∧ c' = { c with state := .connecting }) ∨
    (c.state = .disconnected ∧ lookup.Finds ∧
      c' = asyncConnect { c with state := .connecting }) := by
  rw [step] at h
  by_cases hstate : c.state = .disconnected
  · right
    by_cases hfinds : lookup.Finds
    · rw [networkConnect_finds hstate hfinds] at h
      exact .inr ⟨hstate, hfinds, (Option.some.inj h).symm⟩
    · obtain ⟨e, hrun⟩ := networkConnect_fails hstate hfinds
      rw [hrun] at h
      exact .inl ⟨hstate, hfinds, (Option.some.inj h).symm⟩
  · rw [networkConnect_busy hstate] at h
    exact .inl ⟨hstate, (Option.some.inj h).symm⟩

/-- What `network_close` called from outside does. -/
theorem step_close (h : step c .close = some c') : c' = networkClose c :=
  (Option.some.inj h).symm

/-- What `async_send` called from outside does, whatever the state: the queue takes every
    buffer. -/
theorem step_send {data : Bytes} (h : step c (.send data) = some c') : c' = asyncSend data c :=
  (Option.some.inj h).symm

/-- Setting the callback changes the callback only. -/
theorem step_setOnFrame (h : step c .setOnFrame = some c') : c' = { c with onFrame := true } :=
  (Option.some.inj h).symm

/-- The inversion of a transfer: the one operation that moved, its neighbours untouched, and the
    bytes at their place. -/
theorem step_transfer {i : Nat} {data : Bytes} (h : step c (.transfer i data) = some c') :
    ∃ l₁ p l₂, c.pending = l₁ ++ p :: l₂ ∧ p.CanMove data ∧
      c' = { moveBytes p data c with
        pending := l₁ ++ { p with moved := p.moved + data.length } :: l₂ } := by
  rw [step] at h
  split at h
  · nomatch h
  · rename_i p hp
    split at h
    · rename_i hmove
      obtain ⟨l₁, l₂, hsplit, rfl⟩ := exists_split hp
      rw [hsplit, set_split] at h
      exact ⟨l₁, p, l₂, hsplit, hmove, (Option.some.inj h).symm⟩
    · nomatch h

/-- The inversion of a completion: the operation stays in the list with its outcome, until its
    handler is run. -/
theorem step_complete {i : Nat} {ec : Outcome} (h : step c (.complete i ec) = some c') :
    ∃ l₁ p l₂, c.pending = l₁ ++ p :: l₂ ∧ p.CanComplete ec ∧
      c' = { c with pending := l₁ ++ { p with outcome := some ec } :: l₂ } := by
  rw [step] at h
  split at h
  · nomatch h
  · rename_i p hp
    split at h
    · rename_i hcomplete
      obtain ⟨l₁, l₂, hsplit, rfl⟩ := exists_split hp
      rw [hsplit, set_split] at h
      exact ⟨l₁, p, l₂, hsplit, hcomplete, (Option.some.inj h).symm⟩
    · nomatch h

/-- The inversion of a handler: it is run outside every callback, on the connection without it. -/
theorem step_run {i : Nat} (h : step c (.run i) = some c') :
    c.inCallback = false ∧ ∃ l₁ p l₂ ec, c.pending = l₁ ++ p :: l₂ ∧ l₁.length = i ∧
      p.outcome = some ec ∧ c' = p.op.handler ec { c with pending := l₁ ++ l₂ } := by
  rw [step] at h
  split at h
  · nomatch h
  · rename_i hcallback
    refine ⟨Bool.eq_false_iff.mpr hcallback, ?_⟩
    split at h
    · nomatch h
    · rename_i p hp
      split at h
      · nomatch h
      · rename_i ec hec
        obtain ⟨l₁, l₂, hsplit, rfl⟩ := exists_split hp
        rw [hsplit, eraseIdx_split] at h
        exact ⟨l₁, p, l₂, ec, hsplit, rfl, hec, (Option.some.inj h).symm⟩

/-- Returning from `on_frame_` is what starts the next header read. -/
theorem step_ret (h : step c .ret = some c') :
    c.inCallback = true ∧ c' = startReadHeader { c with inCallback := false } := by
  rw [step] at h
  split at h
  · rename_i hcallback
    exact ⟨hcallback, (Option.some.inj h).symm⟩
  · nomatch h

/-- Leaving `on_frame_` by an exception starts nothing: `start_read_header` behind the call is
    skipped. -/
theorem step_raise (h : step c .raise = some c') :
    c.inCallback = true ∧ c' = { c with inCallback := false } := by
  rw [step] at h
  split at h
  · rename_i hcallback
    exact ⟨hcallback, (Option.some.inj h).symm⟩
  · nomatch h

/-! ## Carrying out an act -/

/-- The same three steps the other way round, for runs that are built action by action. -/
theorem step_transfer_of {i : Nat} {p : Pending} {data : Bytes} (hp : c.pending[i]? = some p)
    (hmove : p.CanMove data) :
    step c (.transfer i data) = some { moveBytes p data c with
      pending := c.pending.set i { p with moved := p.moved + data.length } } := by
  rw [step, hp]
  exact if_pos hmove

/-- A completion can be taken as soon as its guard holds. -/
theorem step_complete_of {i : Nat} {p : Pending} {ec : Outcome} (hp : c.pending[i]? = some p)
    (hcomplete : p.CanComplete ec) :
    step c (.complete i ec)
      = some { c with pending := c.pending.set i { p with outcome := some ec } } := by
  rw [step, hp]
  exact if_pos hcomplete

/-- A completed operation can be run as soon as no callback is active. -/
theorem step_run_of {i : Nat} {p : Pending} {ec : Outcome} (hcallback : c.inCallback = false)
    (hp : c.pending[i]? = some p) (hec : p.outcome = some ec) :
    step c (.run i) = some (p.op.handler ec { c with pending := c.pending.eraseIdx i }) := by
  rw [step, hcallback, hp]
  dsimp only
  rw [if_neg Bool.false_ne_true, hec]

end SteamMin.Net
