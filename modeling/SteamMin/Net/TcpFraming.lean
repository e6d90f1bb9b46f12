/-
  FRAMES OVER TCP.

  `async_send` puts the length, the magic and the data on the wire; `start_read_header` and
  `start_read_body` take them off again, in a loop of two reads whose buffers are used over and
  over.  `wire` is the format both sides keep to (`SteamMin.Lib.Framing`).

  `Loop d₀ c` is what the read loop maintains from the moment the connection is up: the bytes
  received are whole frames, delivered one by one behind `d₀`, and then what has been read of the
  next one (`Phase`).  It survives every calm act (`loop_step`): the user may send at any time, but
  closes nothing, and no operation fails.

  `frames_delivered` is the result: on any stream, the loop delivers the bodies of its
  decomposition, and comes to rest DISCONNECTED exactly when the rest has a refused header.

  `on_frame_` is called from the handler of the body, and the next header is only asked for behind
  that call.  If it throws there is no next read: the connection is up and nothing reads from it
  (`Stalled`), so that no later byte is delivered (`raised_run`).
-/
import SteamMin.Net.WriteQueue
import SteamMin.Lib.Framing

namespace SteamMin.Net

open Runs Framing

variable {c c' : Connection}

/-! ## The wire format

  What `async_send` writes and what the read loop takes are compared with one format, so that
  neither is the measure of the other.  A header is refused exactly for its magic word. -/

/-- The framing of the connection as an instance of the general format: length, magic
    word, body. -/
def wire : Format Byte where
  headerSize := 8
  headerSize_pos := by decide
  bodySize hdr := if validateMagic hdr then some (parseMessageLength hdr).toNat else none

/-- The first eight bytes of a frame. -/
def frameHeader (data : Bytes) : Bytes :=
  LittleEndian.bytes 4 (UInt32.ofNat data.length).toNat ++ MAGIC

/-- A frame is its header and its data. -/
theorem frame_eq (data : Bytes) : frame data = frameHeader data ++ data := rfl

/-- What `async_send` writes for a message below four gigabytes is a frame of that message. -/
theorem isFrame_frame {data : Bytes} (h : data.length < 2 ^ 32) :
    IsFrame wire (frameHeader data) data := by
  have hmagic : validateMagic (frameHeader data) = true := rfl
  have hlen : parseMessageLength (frameHeader data) = UInt32.ofNat data.length := by
    rw [parseMessageLength, frameHeader,
      List.take_left' (LittleEndian.length_bytes 4 _), LittleEndian.word32_bytes]
  refine ⟨rfl, ?_⟩
  show (if validateMagic (frameHeader data) then some (parseMessageLength (frameHeader data)).toNat
    else none) = _
  rw [if_pos hmagic, hlen, UInt32.toNat_ofNat', Nat.mod_eq_of_lt h]

/-- So a queue of such messages becomes a stream of whole frames. -/
theorem frames_stream {ms : List Bytes} (h : ∀ m ∈ ms, m.length < 2 ^ 32) :
    Frames wire ms (ms.flatMap frame) := by
  induction ms with
  | nil => exact .nil
  | cons m ms ih =>
    rw [List.flatMap_cons, frame_eq]
    exact .cons (isFrame_frame (h m List.mem_cons_self))
      (ih fun m' hm => h m' (List.mem_cons_of_mem m hm))

/-- A stream of messages is nothing but their frames. -/
theorem decomposes_stream {ms : List Bytes} (h : ∀ m ∈ ms, m.length < 2 ^ 32) :
    Decomposes wire (ms.flatMap frame) ms [] :=
  ⟨⟨_, frames_stream h, (List.append_nil _).symm⟩, stuck_of_length_lt wire.headerSize_pos⟩

/-! ## Calm runs

  A session without accidents: every operation succeeds, nobody closes, and the frame callback
  returns.  When an operation succeeds, and how many bytes move at a time, is left open. -/

/-- The user closes and connects nothing, no callback throws, and no operation fails. -/
def Act.Calm : Act → Prop
  | .connect _ | .close | .raise => False
  | .complete _ ec => ec = .success
  | _ => True

/-- A connection between two sessions: no handler is due, and a callback is set. -/
structure Idle where
  conn : Connection
  state : conn.state = .disconnected
  pending : conn.pending = []
  inCallback : conn.inCallback = false
  onFrame : conn.onFrame = true
  headerLength : conn.headerBuffer.length = 8

/-- A new object with its callback set. -/
def Idle.initial : Idle where
  conn := { Connection.initial with onFrame := true }
  state := rfl
  pending := rfl
  inCallback := rfl
  onFrame := rfl
  headerLength := rfl

/-- The connection as the next session begins, its first read started. -/
def Idle.listening (i : Idle) : Connection :=
  { i.conn with
    state := .connected, socketOpen := true, session := i.conn.session + 1,
    received := [], sent := [],
    pending := [{ op := .readHeader, session := i.conn.session + 1, closes := i.conn.closes,
                  moved := 0, outcome := none }] }

/-- Connecting leads there. -/
theorem run_connect (i : Idle) {lookup : Lookup} (h : lookup.Finds) :
    run step i.conn [.connect lookup, .complete 0 .success, .run 0] = some i.listening := by
  obtain ⟨⟨⟨state, _, _, _, _⟩, _, _, pending, inCallback, _, _, _, _⟩, hstate, hpending,
    hcallback, honFrame, hheader⟩ := i
  obtain rfl : state = .disconnected := hstate
  obtain rfl : pending = [] := hpending
  obtain rfl : inCallback = false := hcallback
  rw [run, step, networkConnect_finds rfl h]
  rfl

/-! ## The state of the loop

  The loop is in one of four phases: it reads a header, it reads a body, it is inside the frame
  callback, or it has stopped at a refused header.  Which one it is can be told from the reads that
  are outstanding, and each phase says what has been taken of the next frame. -/

/-- The two operations of the read loop. -/
def Op.isRead : Op → Bool
  | .readHeader | .readBody _ => true
  | _ => false

/-- The reads whose handlers have not run yet. -/
def Connection.reads (c : Connection) : List Pending := c.pending.filter (·.op.isRead)

/-- A read has moved no more than it asked for, and all of that when it succeeds. -/
structure Pending.Sound (p : Pending) : Prop where
  le : p.moved ≤ p.op.size
  full : p.outcome = some .success → p.moved = p.op.size

/-- Connected, and no operation has failed. -/
structure Live (c : Connection) : Prop where
  state : c.state = .connected
  socket : c.socketOpen = true
  noFailure : ∀ p ∈ c.pending, p.outcome ≠ some .failure

/-- Where the loop stands, and what it has read of the next frame. -/
inductive Phase (c : Connection) : Bytes → Prop
  | header {p : Pending} : Live c → c.inCallback = false → c.reads = [p] →
      p.op = .readHeader → p.Sound → Phase c (c.headerBuffer.take p.moved)
  | body {p : Pending} {len : UInt32} {hdr : Bytes} : Live c → c.inCallback = false →
      c.reads = [p] → p.op = .readBody len → p.Sound → hdr.length = 8 →
      wire.bodySize hdr = some len.toNat → c.bodyBuffer.length = len.toNat →
      Phase c (hdr ++ c.bodyBuffer.take p.moved)
  | callback : Live c → c.inCallback = true → c.reads = [] → Phase c []
  | closed {hdr : Bytes} : c.state = .disconnected → c.socketOpen = false →
      c.inCallback = false → c.reads = [] → hdr.length = 8 → wire.bodySize hdr = none →
      Phase c hdr

/-- The invariant of the read loop, since `d₀` was delivered. -/
structure Loop (d₀ : List Bytes) (c : Connection) : Prop where
  headerLength : c.headerBuffer.length = 8
  onFrame : c.onFrame = true
  noConnect : ∀ p ∈ c.pending, p.op ≠ .connect
  progress : ∃ fs r tail, Frames wire fs r ∧ c.received = r ++ tail ∧
    c.delivered = d₀ ++ fs ∧ Phase c tail

/-! ## Acts that do not concern the loop

  Writes share `pending`, the socket and the state with the reads.  `SameLoop` is what they leave
  alone; it is reflexive and transitive, so an act that does several things is dealt with one by
  one. -/

/-- Nothing the loop looks at has changed; what was started is no `async_connect`, and fails only
    on a closed socket. -/
structure SameLoop (c c' : Connection) : Prop where
  headerBuffer : c'.headerBuffer = c.headerBuffer
  bodyBuffer : c'.bodyBuffer = c.bodyBuffer
  onFrame : c.onFrame = true → c'.onFrame = true
  state : c'.state = c.state
  socket : c'.socketOpen = c.socketOpen
  inCallback : c'.inCallback = c.inCallback
  received : c'.received = c.received
  delivered : c'.delivered = c.delivered
  reads : c'.reads = c.reads
  pending : ∀ p ∈ c'.pending, p ∈ c.pending ∨
    (p.op ≠ .connect ∧ (c.socketOpen = true → p.outcome ≠ some .failure))

/-- A connection that is up stays up. -/
theorem SameLoop.live (h : SameLoop c c') (hlive : Live c) : Live c' := by
  refine ⟨h.state.trans hlive.state, h.socket.trans hlive.socket, fun p hp => ?_⟩
  rcases h.pending p hp with hold | ⟨-, hnew⟩
  · exact hlive.noFailure p hold
  · exact hnew hlive.socket

/-- The loop stands where it stood. -/
theorem SameLoop.phase (h : SameLoop c c') {tail : Bytes} (hphase : Phase c tail) :
    Phase c' tail := by
  cases hphase with
  | header hlive hcallback hreads hop hp =>
    rw [← h.headerBuffer]
    exact .header (h.live hlive) (h.inCallback.trans hcallback) (h.reads.trans hreads) hop hp
  | body hlive hcallback hreads hop hp hhdr hsize hbuf =>
    rw [← h.bodyBuffer] at hbuf ⊢
    exact .body (h.live hlive) (h.inCallback.trans hcallback) (h.reads.trans hreads) hop hp hhdr
      hsize hbuf
  | callback hlive hcallback hreads =>
    exact .callback (h.live hlive) (h.inCallback.trans hcallback) (h.reads.trans hreads)
  | closed hstate hsocket hcallback hreads hhdr hsize =>
    exact .closed (h.state.trans hstate) (h.socket.trans hsocket) (h.inCallback.trans hcallback)
      (h.reads.trans hreads) hhdr hsize

/-- The invariant of the loop is kept by what does not concern it. -/
theorem SameLoop.loop (h : SameLoop c c') {d₀ : List Bytes} (hloop : Loop d₀ c) : Loop d₀ c' := by
  obtain ⟨fs, r, tail, hframes, hreceived, hdelivered, hphase⟩ := hloop.progress
  constructor
  · rw [h.headerBuffer]
    exact hloop.headerLength
  · exact h.onFrame hloop.onFrame
  · intro p hp
    rcases h.pending p hp with hold | ⟨hnew, -⟩
    · exact hloop.noConnect p hold
    · exact hnew
  · exact ⟨fs, r, tail, hframes, h.received.trans hreceived, h.delivered.trans hdelivered,
      h.phase hphase⟩

/-- Nothing changed. -/
theorem SameLoop.refl : SameLoop c c :=
  ⟨rfl, rfl, id, rfl, rfl, rfl, rfl, rfl, rfl, fun _ hp => .inl hp⟩

/-- Changes that do not concern the loop, one behind the other. -/
theorem SameLoop.trans {c₁ c₂ c₃ : Connection} (h₁ : SameLoop c₁ c₂) (h₂ : SameLoop c₂ c₃) :
    SameLoop c₁ c₃ where
  headerBuffer := h₂.headerBuffer.trans h₁.headerBuffer
  bodyBuffer := h₂.bodyBuffer.trans h₁.bodyBuffer
  onFrame h := h₂.onFrame (h₁.onFrame h)
  state := h₂.state.trans h₁.state
  socket := h₂.socket.trans h₁.socket
  inCallback := h₂.inCallback.trans h₁.inCallback
  received := h₂.received.trans h₁.received
  delivered := h₂.delivered.trans h₁.delivered
  reads := h₂.reads.trans h₁.reads
  pending p hp := by
    rcases h₂.pending p hp with hp | ⟨hop, hfail⟩
    · exact h₁.pending p hp
    · exact .inr ⟨hop, fun hsocket => hfail (h₁.socket.trans hsocket)⟩

/-- The queue belongs to the writes. -/
theorem sameLoop_setQueue (c : Connection) (queue : List Bytes) :
    SameLoop c { c with writeQueue := queue } :=
  ⟨rfl, rfl, id, rfl, rfl, rfl, rfl, rfl, rfl, fun _ hp => .inl hp⟩

/-- The loop needs a callback; setting one is no harm. -/
theorem sameLoop_setOnFrame (c : Connection) : SameLoop c { c with onFrame := true } :=
  ⟨rfl, rfl, fun _ => rfl, rfl, rfl, rfl, rfl, rfl, rfl, fun _ hp => .inl hp⟩

/-- A write that starts leaves the reads. -/
theorem sameLoop_startWrite (buffer : Bytes) (c : Connection) :
    SameLoop c (startOp (.write buffer) c) := by
  refine ⟨rfl, rfl, id, rfl, rfl, rfl, rfl, rfl, ?_, fun p hp => ?_⟩
  · unfold Connection.reads startOp
    rw [List.filter_append]
    exact List.append_nil _
  · rcases List.mem_append.mp hp with hp | hp
    · exact .inl hp
    · rw [List.mem_singleton.mp hp]
      refine .inr ⟨nofun, fun hsocket => ?_⟩
      rw [if_pos hsocket]
      exact nofun

/-- Sending does not concern the loop. -/
theorem sameLoop_asyncSend (data : Bytes) (c : Connection) : SameLoop c (asyncSend data c) := by
  by_cases hqueue : c.writeQueue = []
  · rw [asyncSend_of_nil data hqueue]
    exact (sameLoop_setQueue c _).trans (sameLoop_startWrite _ _)
  · rw [asyncSend_of_ne data hqueue]
    exact sameLoop_setQueue c _

/-- A write that moves or completes. -/
theorem sameLoop_replace {l₁ l₂ : List Pending} {p q : Pending} {buffer : Bytes} (sent : Bytes)
    (hsplit : c.pending = l₁ ++ p :: l₂) (hp : p.op = .write buffer) (hq : q.op = .write buffer)
    (hfail : q.outcome ≠ some .failure) :
    SameLoop c { c with pending := l₁ ++ q :: l₂, sent := sent } := by
  refine ⟨rfl, rfl, id, rfl, rfl, rfl, rfl, rfl, ?_, fun r hr => ?_⟩
  · exact (filter_others hsplit (congrArg Op.isRead hp) (congrArg Op.isRead hq)).1
  · rcases mem_of_mem_replaced hr with rfl | hr
    · exact .inr ⟨hq ▸ nofun, fun _ => hfail⟩
    · exact .inl (hsplit ▸ hr)

/-- The handler of a write that succeeded, in any phase; of one that failed, after the end. -/
theorem sameLoop_onWrite {ec : Outcome} (h : ec = .failure → c.state = .disconnected) :
    SameLoop c (onWrite ec c) := by
  cases ec with
  | failure =>
    show SameLoop c (networkClose c)
    rw [networkClose_of_disconnected (h rfl)]
    exact ⟨rfl, rfl, id, rfl, rfl, rfl, rfl, rfl, rfl, fun _ hp => .inl hp⟩
  | success =>
    cases htail : c.writeQueue.tail with
    | nil =>
      rw [onWrite_success_of_nil htail]
      exact sameLoop_setQueue c _
    | cons buffer rest =>
      rw [onWrite_success_of_cons htail]
      exact (sameLoop_setQueue c _).trans (sameLoop_startWrite _ _)

/-- Nor does an operation that is no read, when its handler has run. -/
theorem sameLoop_erase {l₁ l₂ : List Pending} {p : Pending} (hsplit : c.pending = l₁ ++ p :: l₂)
    (hp : p.op.isRead = false) : SameLoop c { c with pending := l₁ ++ l₂ } := by
  refine ⟨rfl, rfl, id, rfl, rfl, rfl, rfl, rfl, ?_, fun q hq => .inl ?_⟩
  · exact (filter_others hsplit hp hp).2
  · exact hsplit ▸ mem_of_mem_erased hq

/-! ## The reads of the loop

  At most one read is outstanding.  With that, the read that an act picks by its position in
  `pending` is the one the phase speaks of. -/

/-- A read among the pending operations is the only one. -/
theorem reads_only {l₁ l₂ : List Pending} {p q : Pending} (hsplit : c.pending = l₁ ++ p :: l₂)
    (hread : p.op.isRead = true) (hreads : c.reads = [q]) : p = q :=
  (filter_only hsplit hread hreads).1

/-- A read in the list is a read outstanding. -/
theorem not_reads_nil {l₁ l₂ : List Pending} {p : Pending} (hsplit : c.pending = l₁ ++ p :: l₂)
    (hread : p.op.isRead = true) : c.reads ≠ [] := by
  rw [Connection.reads, filter_split hsplit, if_pos hread]
  simp

/-- Replacing the read by its next stage. -/
theorem reads_replace {l₁ l₂ : List Pending} {p q r : Pending}
    (hsplit : c.pending = l₁ ++ p :: l₂) (hread : p.op.isRead = true) (hreads : c.reads = [r])
    (hq : q.op.isRead = true) (hsplit' : c'.pending = l₁ ++ q :: l₂) : c'.reads = [q] := by
  rw [Connection.reads, hsplit']
  exact filter_replaced hsplit hread hreads hq

/-- Its handler runs with no other read outstanding. -/
theorem reads_erase {l₁ l₂ : List Pending} {p r : Pending} (hsplit : c.pending = l₁ ++ p :: l₂)
    (hread : p.op.isRead = true) (hreads : c.reads = [r]) (hsplit' : c'.pending = l₁ ++ l₂) :
    c'.reads = [] := by
  rw [Connection.reads, hsplit']
  exact filter_erased hsplit hread hreads

/-- With no read outstanding, the one that is started is the only one. -/
theorem reads_startOp {op : Op} (hop : op.isRead = true) (hreads : c.reads = []) :
    (startOp op c).reads
      = [{ op, session := c.session, closes := c.closes, moved := 0,
           outcome := if c.socketOpen then none else some .failure }] := by
  unfold Connection.reads at hreads
  rw [Connection.reads, startOp, List.filter_append, hreads]
  simp [hop]

/-- A new operation on an open socket. -/
theorem live_startOp {op : Op} (hlive : Live c) : Live (startOp op c) := by
  refine ⟨hlive.state, hlive.socket, fun p hp => ?_⟩
  rcases List.mem_append.mp hp with hp | hp
  · exact hlive.noFailure p hp
  · rw [List.mem_singleton.mp hp, hlive.socket]
    exact nofun

/-- An operation that moves on without failing leaves the connection up. -/
theorem live_replace {l₁ l₂ : List Pending} {p q : Pending} (hlive : Live c)
    (hsplit : c.pending = l₁ ++ p :: l₂) (hstate : c'.state = c.state)
    (hsocket : c'.socketOpen = c.socketOpen) (hsplit' : c'.pending = l₁ ++ q :: l₂)
    (hq : q.outcome ≠ some .failure) : Live c' := by
  refine ⟨hstate.trans hlive.state, hsocket.trans hlive.socket, fun r hr => ?_⟩
  rw [hsplit'] at hr
  rcases mem_of_mem_replaced hr with rfl | hr
  · exact hq
  · exact hlive.noFailure r (hsplit ▸ hr)

/-- So does one whose handler has run. -/
theorem live_erase {l₁ l₂ : List Pending} {p : Pending} (hlive : Live c)
    (hsplit : c.pending = l₁ ++ p :: l₂) : Live { c with pending := l₁ ++ l₂ } := by
  refine ⟨hlive.state, hlive.socket, fun r hr => hlive.noFailure r ?_⟩
  exact hsplit ▸ mem_of_mem_erased hr

/-- No connect is pending while a session is up; an operation does not change its kind. -/
theorem noConnect_replace {l₁ l₂ : List Pending} {p q : Pending}
    (h : ∀ r ∈ c.pending, r.op ≠ .connect) (hsplit : c.pending = l₁ ++ p :: l₂)
    (hq : q.op = p.op) : ∀ r ∈ l₁ ++ q :: l₂, r.op ≠ .connect := by
  intro r hr
  rcases mem_of_mem_replaced hr with rfl | hr
  · rw [hq]
    exact h p (hsplit ▸ List.mem_append_right _ List.mem_cons_self)
  · exact h r (hsplit ▸ hr)

/-- Nor when one is gone. -/
theorem noConnect_erase {l₁ l₂ : List Pending} {p : Pending}
    (h : ∀ r ∈ c.pending, r.op ≠ .connect) (hsplit : c.pending = l₁ ++ p :: l₂) :
    ∀ r ∈ l₁ ++ l₂, r.op ≠ .connect := by
  intro r hr
  exact h r (hsplit ▸ mem_of_mem_erased hr)

/-- Nor when a read or a write is started. -/
theorem noConnect_startOp {op : Op} (hop : op ≠ .connect)
    (h : ∀ r ∈ c.pending, r.op ≠ .connect) : ∀ r ∈ (startOp op c).pending, r.op ≠ .connect := by
  intro r hr
  rcases List.mem_append.mp hr with hr | hr
  · exact h r hr
  · rw [List.mem_singleton.mp hr]
    exact hop

/-! ## Buffers

  A read writes into a buffer that still holds the bytes of the frame before.  What has been moved
  so far is the front of it; the rest is never looked at. -/

/-- Bytes that land behind those already there extend them. -/
theorem take_overwrite {buffer data : Bytes} {offset : Nat} (h : offset ≤ buffer.length) :
    (overwrite buffer offset data).take (offset + data.length)
      = buffer.take offset ++ data := by
  apply List.take_left'
  rw [List.length_append, List.length_take_of_le h]

/-- The buffer keeps its size. -/
theorem length_overwrite {buffer data : Bytes} {offset : Nat}
    (h : offset + data.length ≤ buffer.length) :
    (overwrite buffer offset data).length = buffer.length := by
  rw [overwrite, List.length_append, List.length_append, List.length_take_of_le (by omega),
    List.length_drop]
  omega

/-- A buffer that is resized has the size asked for. -/
theorem length_resize (buffer : Bytes) (n : Nat) : (resize buffer n).length = n := by
  rw [resize, List.length_append, List.length_take, List.length_replicate]
  omega

/-! ## One act

  One lemma for each act of the read loop: bytes arrive, a read completes, its handler runs, the
  callback returns.  `loop_step` puts them together with the acts that do not concern it. -/

variable {d₀ : List Bytes} {l₁ l₂ : List Pending} {p : Pending}

/-- A pending read of a header is what the loop waits for. -/
theorem Phase.of_readHeader {tail : Bytes} (h : Phase c tail)
    (hsplit : c.pending = l₁ ++ p :: l₂) (hop : p.op = .readHeader) :
    Live c ∧ c.inCallback = false ∧ c.reads = [p] ∧ p.Sound ∧
      tail = c.headerBuffer.take p.moved := by
  have hread : p.op.isRead = true := by rw [hop]; rfl
  cases h with
  | callback _ _ hreads => exact absurd hreads (not_reads_nil hsplit hread)
  | closed _ _ _ hreads _ _ => exact absurd hreads (not_reads_nil hsplit hread)
  | body _ _ hreads hbody =>
    obtain rfl := reads_only hsplit hread hreads
    nomatch hop.symm.trans hbody
  | header hlive hcallback hreads _ hsound =>
    obtain rfl := reads_only hsplit hread hreads
    exact ⟨hlive, hcallback, hreads, hsound, rfl⟩

/-- So is one of a body, whose header announced its length. -/
theorem Phase.of_readBody {tail : Bytes} {len : UInt32} (h : Phase c tail)
    (hsplit : c.pending = l₁ ++ p :: l₂) (hop : p.op = .readBody len) :
    Live c ∧ c.inCallback = false ∧ c.reads = [p] ∧ p.Sound ∧
      c.bodyBuffer.length = len.toNat ∧ ∃ hdr, hdr.length = 8 ∧
        wire.bodySize hdr = some len.toNat ∧ tail = hdr ++ c.bodyBuffer.take p.moved := by
  have hread : p.op.isRead = true := by rw [hop]; rfl
  cases h with
  | callback _ _ hreads => exact absurd hreads (not_reads_nil hsplit hread)
  | closed _ _ _ hreads _ _ => exact absurd hreads (not_reads_nil hsplit hread)
  | header _ _ hreads hheader =>
    obtain rfl := reads_only hsplit hread hreads
    nomatch hop.symm.trans hheader
  | body hlive hcallback hreads hbody hsound hhdr hsize hbuf =>
    obtain rfl := reads_only hsplit hread hreads
    obtain rfl := Op.readBody.inj (hop.symm.trans hbody)
    exact ⟨hlive, hcallback, hreads, hsound, hbuf, _, hhdr, hsize, rfl⟩

/-- Bytes move into the buffer of the read, behind those that are there; `q` is the read then. -/
theorem loop_transfer {data : Bytes} {q : Pending} (h : Loop d₀ c)
    (hsplit : c.pending = l₁ ++ p :: l₂) (hmove : p.CanMove data) (hqop : q.op = p.op)
    (hqmoved : q.moved = p.moved + data.length) (hqoutcome : q.outcome = p.outcome) :
    Loop d₀ { moveBytes p data c with pending := l₁ ++ q :: l₂ } := by
  obtain ⟨hnone, hfit, -⟩ := hmove
  obtain ⟨fs, r, tail, hframes, hreceived, hdelivered, hphase⟩ := h.progress
  have hfail : q.outcome ≠ some .failure := by
    rw [hqoutcome, hnone]
    exact nofun
  have hsound : q.Sound := by
    refine ⟨by rw [hqop, hqmoved]; exact hfit, fun hs => ?_⟩
    rw [hqoutcome, hnone] at hs
    nomatch hs
  have hconnect := noConnect_replace h.noConnect hsplit hqop
  cases hop : p.op with
  | connect => exact absurd hop (h.noConnect p (hsplit ▸ List.mem_append_right _ List.mem_cons_self))
  | write buffer =>
    rw [moveBytes_write hop]
    exact (sameLoop_replace _ hsplit hop (hqop.trans hop) hfail).loop h
  | readHeader =>
    have hread : p.op.isRead = true := by rw [hop]; rfl
    rw [moveBytes_readHeader hop]
    obtain ⟨hlive, hcallback, hreads, -, rfl⟩ := hphase.of_readHeader hsplit hop
    rw [hop] at hfit
    have hlen : p.moved + data.length ≤ c.headerBuffer.length := by
      rw [h.headerLength]
      exact hfit
    refine ⟨(length_overwrite hlen).trans h.headerLength, h.onFrame, hconnect, fs, r,
      c.headerBuffer.take p.moved ++ data, hframes, ?_, hdelivered, ?_⟩
    · show c.received ++ data = _
      rw [hreceived, List.append_assoc]
    -- the bytes have landed behind those that were there
    · rw [← take_overwrite (by omega), ← hqmoved]
      exact .header (live_replace hlive hsplit rfl rfl rfl hfail) hcallback
        (reads_replace hsplit hread hreads (hqop ▸ hread) rfl) (hqop.trans hop) hsound
  | readBody len =>
    have hread : p.op.isRead = true := by rw [hop]; rfl
    rw [moveBytes_readBody hop]
    obtain ⟨hlive, hcallback, hreads, -, hbuf, hdr, hhdr, hsize, rfl⟩ :=
      hphase.of_readBody hsplit hop
    rw [hop] at hfit
    have hlen : p.moved + data.length ≤ c.bodyBuffer.length := by
      rw [hbuf]
      exact hfit
    refine ⟨h.headerLength, h.onFrame, hconnect, fs, r,
      hdr ++ (c.bodyBuffer.take p.moved ++ data), hframes, ?_, hdelivered, ?_⟩
    · show c.received ++ data = _
      rw [hreceived, List.append_assoc, List.append_assoc]
    · rw [← take_overwrite (by omega), ← hqmoved]
      exact .body (live_replace hlive hsplit rfl rfl rfl hfail) hcallback
        (reads_replace hsplit hread hreads (hqop ▸ hread) rfl) (hqop.trans hop) hsound hhdr
        hsize ((length_overwrite hlen).trans hbuf)

/-- An operation has moved all its bytes, and succeeds. -/
theorem loop_complete {q : Pending} (h : Loop d₀ c) (hsplit : c.pending = l₁ ++ p :: l₂)
    (hcomplete : p.CanComplete .success) (hqop : q.op = p.op) (hqmoved : q.moved = p.moved)
    (hqoutcome : q.outcome = some .success) :
    Loop d₀ { c with pending := l₁ ++ q :: l₂ } := by
  obtain ⟨-, hfull⟩ := hcomplete
  obtain ⟨fs, r, tail, hframes, hreceived, hdelivered, hphase⟩ := h.progress
  have hfail : q.outcome ≠ some .failure := by
    rw [hqoutcome]
    exact nofun
  have hmoved : q.moved = q.op.size := by
    rw [hqop, hqmoved]
    exact hfull rfl
  have hsound : q.Sound := ⟨Nat.le_of_eq hmoved, fun _ => hmoved⟩
  have hconnect := noConnect_replace h.noConnect hsplit hqop
  -- a read that completes is the one the phase speaks of
  by_cases hread : p.op.isRead = true
  · refine ⟨h.headerLength, h.onFrame, hconnect, fs, r, tail, hframes, hreceived, hdelivered, ?_⟩
    cases hphase with
    | callback _ _ hreads => exact absurd hreads (not_reads_nil hsplit hread)
    | closed _ _ _ hreads _ _ => exact absurd hreads (not_reads_nil hsplit hread)
    | header hlive hcallback hreads hop _ =>
      obtain rfl := reads_only hsplit hread hreads
      rw [← hqmoved]
      exact .header (live_replace hlive hsplit rfl rfl rfl hfail) hcallback
        (reads_replace hsplit hread hreads (hqop ▸ hread) rfl) (hqop.trans hop) hsound
    | body hlive hcallback hreads hop _ hhdr hsize hbuf =>
      obtain rfl := reads_only hsplit hread hreads
      rw [← hqmoved]
      exact .body (live_replace hlive hsplit rfl rfl rfl hfail) hcallback
        (reads_replace hsplit hread hreads (hqop ▸ hread) rfl) (hqop.trans hop) hsound hhdr hsize
        hbuf
  · cases hop : p.op with
    | connect =>
      exact absurd hop (h.noConnect p (hsplit ▸ List.mem_append_right _ List.mem_cons_self))
    | readHeader => exact absurd (by rw [hop]; rfl) hread
    | readBody len => exact absurd (by rw [hop]; rfl) hread
    | write buffer =>
      exact (sameLoop_replace c.sent hsplit hop (hqop.trans hop) hfail).loop h

/-- A header has been read: the body is read next, or the connection closes. -/
theorem loop_readHeader {ec : Outcome} (h : Loop d₀ c) (hsplit : c.pending = l₁ ++ p :: l₂)
    (hop : p.op = .readHeader) (hec : p.outcome = some ec) :
    Loop d₀ (onReadHeader ec { c with pending := l₁ ++ l₂ }) := by
  have hread : p.op.isRead = true := by rw [hop]; rfl
  obtain ⟨fs, r, tail, hframes, hreceived, hdelivered, hphase⟩ := h.progress
  obtain ⟨hlive, hcallback, hreads, hsound, rfl⟩ := hphase.of_readHeader hsplit hop
  cases ec with
  | failure =>
    exact absurd hec (hlive.noFailure p (hsplit ▸ List.mem_append_right _ List.mem_cons_self))
  | success =>
    have hfull : c.headerBuffer.take p.moved = c.headerBuffer := by
      apply List.take_of_length_le
      rw [hsound.full hec, hop, h.headerLength]
      exact Nat.le_refl _
    rw [hfull] at hreceived
    have hlive' := live_erase hlive hsplit
    have hconnect := noConnect_erase h.noConnect hsplit
    have hreads' : Connection.reads { c with pending := l₁ ++ l₂ } = [] :=
      reads_erase hsplit hread hreads rfl
    show Loop d₀ (if !validateMagic c.headerBuffer then
        handleDisconnect { c with pending := l₁ ++ l₂ }
      else startReadBody (parseMessageLength c.headerBuffer) { c with pending := l₁ ++ l₂ })
    cases hmagic : validateMagic c.headerBuffer with
    | true =>
      have hsize : wire.bodySize c.headerBuffer
          = some (parseMessageLength c.headerBuffer).toNat := if_pos hmagic
      refine ⟨h.headerLength, h.onFrame, noConnect_startOp nofun hconnect, fs, r,
        c.headerBuffer ++ [], hframes, ?_, hdelivered, ?_⟩
      · rw [List.append_nil]
        exact hreceived
      · have hbody : Live { c with
            pending := l₁ ++ l₂,
            bodyBuffer := resize c.bodyBuffer (parseMessageLength c.headerBuffer).toNat } :=
          ⟨hlive'.state, hlive'.socket, hlive'.noFailure⟩
        refine Phase.body (live_startOp hbody) hcallback (reads_startOp rfl hreads') rfl
          ⟨Nat.zero_le _, ?_⟩ h.headerLength hsize (length_resize _ _)
        show (if c.socketOpen then none else some Outcome.failure) = some .success → _
        rw [hlive.socket]
        exact nofun
    | false =>
      have hbad : wire.bodySize c.headerBuffer = none := if_neg (by rw [hmagic]; decide)
      have hclose : handleDisconnect { c with pending := l₁ ++ l₂ } = { socketClose
          { c with pending := l₁ ++ l₂, closes := c.closes + 1 } with
          state := .disconnected } := by
        apply networkClose_of_ne
        rw [hlive.state]
        decide
      show Loop d₀ (handleDisconnect { c with pending := l₁ ++ l₂ })
      rw [hclose]
      refine ⟨h.headerLength, h.onFrame, ?_, fs, r, c.headerBuffer, hframes, hreceived,
        hdelivered, ?_⟩
      · intro q hq
        obtain ⟨q', hq', rfl⟩ := List.mem_map.mp hq
        exact hconnect q' hq'
      · refine .closed rfl rfl hcallback ?_ h.headerLength hbad
        show ((l₁ ++ l₂).map Pending.abort).filter (·.op.isRead) = []
        rw [List.filter_map]
        show ((l₁ ++ l₂).filter (·.op.isRead)).map Pending.abort = []
        rw [show (l₁ ++ l₂).filter (·.op.isRead) = [] from hreads']
        rfl

/-- A body has been read: the frame is delivered. -/
theorem loop_readBody {ec : Outcome} {len : UInt32} (h : Loop d₀ c)
    (hsplit : c.pending = l₁ ++ p :: l₂) (hop : p.op = .readBody len)
    (hec : p.outcome = some ec) : Loop d₀ (onReadBody ec { c with pending := l₁ ++ l₂ }) := by
  have hread : p.op.isRead = true := by rw [hop]; rfl
  obtain ⟨fs, r, tail, hframes, hreceived, hdelivered, hphase⟩ := h.progress
  obtain ⟨hlive, hcallback, hreads, hsound, hbuf, hdr, hhdr, hsize, rfl⟩ :=
    hphase.of_readBody hsplit hop
  cases ec with
  | failure =>
    exact absurd hec (hlive.noFailure p (hsplit ▸ List.mem_append_right _ List.mem_cons_self))
  | success =>
    have hfull : c.bodyBuffer.take p.moved = c.bodyBuffer := by
      apply List.take_of_length_le
      rw [hsound.full hec, hop, hbuf]
      exact Nat.le_refl _
    rw [hfull] at hreceived
    have hlive' := live_erase hlive hsplit
    show Loop d₀ (if c.onFrame then _ else _)
    rw [if_pos h.onFrame]
    refine ⟨h.headerLength, h.onFrame, noConnect_erase h.noConnect hsplit,
      fs ++ [c.bodyBuffer], r ++ (hdr ++ c.bodyBuffer), [],
      hframes.snoc ⟨hhdr, hbuf ▸ hsize⟩, ?_, ?_, ?_⟩
    · rw [List.append_nil]
      exact hreceived
    · show c.delivered ++ [c.bodyBuffer] = _
      rw [hdelivered, List.append_assoc]
    · exact .callback ⟨hlive'.state, hlive'.socket, hlive'.noFailure⟩ rfl
        (reads_erase hsplit hread hreads rfl)

/-- The frame callback returns: the next header is read. -/
theorem loop_ret (h : Loop d₀ c) (hcallback : c.inCallback = true) :
    Loop d₀ (startReadHeader { c with inCallback := false }) := by
  obtain ⟨fs, r, tail, hframes, hreceived, hdelivered, hphase⟩ := h.progress
  cases hphase with
  | header _ hno => nomatch hcallback.symm.trans hno
  | body _ hno => nomatch hcallback.symm.trans hno
  | closed _ _ hno => nomatch hcallback.symm.trans hno
  | callback hlive _ hreads =>
    refine ⟨h.headerLength, h.onFrame, noConnect_startOp nofun h.noConnect, fs, r, [], hframes,
      hreceived, hdelivered, ?_⟩
    have hlive' : Live { c with inCallback := false } :=
      ⟨hlive.state, hlive.socket, hlive.noFailure⟩
    refine Phase.header (live_startOp hlive') rfl (reads_startOp rfl hreads) rfl
      ⟨Nat.zero_le _, ?_⟩
    show (if c.socketOpen then none else some Outcome.failure) = some .success → _
    rw [hlive.socket]
    exact nofun

/-- **The loop invariant survives every calm act.** -/
theorem loop_step {a : Act} (h : Loop d₀ c) (ha : a.Calm) (hstep : step c a = some c') :
    Loop d₀ c' := by
  cases a with
  | connect lookup => exact absurd ha id
  | close => exact absurd ha id
  | raise => exact absurd ha id
  | send data =>
    obtain rfl := step_send hstep
    exact (sameLoop_asyncSend data c).loop h
  | setOnFrame =>
    obtain rfl := step_setOnFrame hstep
    exact (sameLoop_setOnFrame c).loop h
  | transfer i data =>
    obtain ⟨l₁, p, l₂, hsplit, hmove, rfl⟩ := step_transfer hstep
    exact loop_transfer h hsplit hmove rfl rfl rfl
  | complete i ec =>
    obtain ⟨l₁, p, l₂, hsplit, hcomplete, rfl⟩ := step_complete hstep
    obtain rfl : ec = .success := ha
    exact loop_complete h hsplit hcomplete rfl rfl rfl
  | ret =>
    obtain ⟨hcallback, rfl⟩ := step_ret hstep
    exact loop_ret h hcallback
  | run i =>
    obtain ⟨hcallback, l₁, p, l₂, ec, hsplit, -, hec, rfl⟩ := step_run hstep
    have hp : p ∈ c.pending := hsplit ▸ List.mem_append_right _ List.mem_cons_self
    cases hop : p.op with
    | connect => exact absurd hop (h.noConnect p hp)
    | readHeader => exact loop_readHeader h hsplit hop hec
    | readBody len => exact loop_readBody h hsplit hop hec
    | write buffer =>
      -- a write fails only once the loop has closed the connection
      have hclosed : ec = .failure → c.state = .disconnected := by
        rintro rfl
        obtain ⟨_, _, _, -, -, -, hphase⟩ := h.progress
        cases hphase with
        | closed hstate => exact hstate
        | header hlive => exact absurd hec (hlive.noFailure p hp)
        | body hlive => exact absurd hec (hlive.noFailure p hp)
        | callback hlive => exact absurd hec (hlive.noFailure p hp)
      have hsame := sameLoop_erase hsplit (by rw [hop]; rfl)
      exact (hsame.trans (sameLoop_onWrite hclosed)).loop h

/-! ## Whole runs -/

/-- The invariant as the session begins: nothing received, a header being read. -/
theorem loop_listening (i : Idle) : Loop i.conn.delivered i.listening := by
  refine ⟨i.headerLength, i.onFrame, ?_, [], [], [], .nil, rfl, (List.append_nil _).symm, ?_⟩
  · intro p hp
    rw [List.mem_singleton.mp hp]
    exact nofun
  · have hlive : Live i.listening := by
      refine ⟨rfl, rfl, fun p hp => ?_⟩
      rw [List.mem_singleton.mp hp]
      exact nofun
    have hsound : Pending.Sound ⟨.readHeader, i.conn.session + 1, i.conn.closes, 0, none⟩ :=
      ⟨Nat.zero_le _, nofun⟩
    exact .header hlive i.inCallback rfl rfl hsound

/-- A session that runs on the stream `s`: every act is calm, and the reads take the bytes of `s`
    in order. -/
structure Reads (i : Idle) (s : Bytes) (acts : List Act) (c : Connection) : Prop where
  calm : ∀ a ∈ acts, a.Calm
  run : run step i.listening acts = some c
  stream : c.received <+: s

/-- Nothing is left to do with `s`: no callback runs, no read is complete, and either all of `s`
    has been taken or nothing reads any more. -/
structure Drained (s : Bytes) (c : Connection) : Prop where
  callback : c.inCallback = false
  waiting : ∀ p ∈ c.reads, p.outcome = none ∧ p.moved < p.op.size
  taken : c.received = s ∨ c.reads = []

/-- So it holds of every state the reading run reaches. -/
theorem Reads.loop {i : Idle} {s : Bytes} {acts : List Act} (h : Reads i s acts c) :
    Loop i.conn.delivered c := by
  have hcalm : EveryStep step (fun _ a _ => a.Calm) i.listening acts := by
    intro l₁ a l₂ _ _ heq _ _
    exact h.calm a (heq ▸ List.mem_append_right _ List.mem_cons_self)
  have hloop : EveryState step (Loop i.conn.delivered) i.listening acts :=
    everyState_of_steps (C := fun _ a _ => a.Calm) (fun _ _ _ hl hs ha => loop_step hl ha hs)
      (loop_listening i) hcalm
  exact hloop.last h.run

/-- At any time the frames delivered are the first of the stream. -/
theorem Reads.delivered_isPrefix {i : Idle} {s rest : Bytes} {acts : List Act} {fs : List Bytes}
    (h : Reads i s acts c) (hdec : Decomposes wire s fs rest) :
    ∃ gs, gs <+: fs ∧ c.delivered = i.conn.delivered ++ gs := by
  obtain ⟨gs, r, tail, hframes, hreceived, hdelivered, -⟩ := h.loop.progress
  obtain ⟨t, rfl⟩ := h.stream
  rw [hreceived, List.append_assoc] at hdec
  obtain ⟨gs', rfl, -⟩ := hframes.split hdec
  exact ⟨gs, List.prefix_append gs gs', hdelivered⟩

/-- When the stream is drained all of its frames have been delivered, and the connection is closed
    exactly if the header of the next one was refused. -/
theorem Reads.delivered_eq {i : Idle} {s rest : Bytes} {acts : List Act} {fs : List Bytes}
    (h : Reads i s acts c) (hdec : Decomposes wire s fs rest) (hdrained : Drained s c) :
    c.delivered = i.conn.delivered ++ fs ∧ (BadHeader wire rest ↔ c.state = .disconnected) := by
  obtain ⟨gs, r, tail, hframes, hreceived, hdelivered, hphase⟩ := h.loop.progress
  obtain ⟨t, ht⟩ := h.stream
  have hsplit : s = r ++ (tail ++ t) := by rw [← ht, hreceived, List.append_assoc]
  rw [hsplit] at hdec
  obtain ⟨gs', rfl, htail⟩ := hframes.split hdec
  have htaken : c.reads ≠ [] → t = [] := by
    intro hreads
    have hall : c.received = s := hdrained.taken.resolve_right hreads
    exact List.append_cancel_left (ht.trans (hall.symm.trans (List.append_nil _).symm))
  -- what the loop has read of the next frame, with the bytes nobody will read, is the rest
  have hstuck : Stuck wire (tail ++ t) ∧
      (BadHeader wire (tail ++ t) ↔ c.state = .disconnected) := by
    cases hphase with
    | callback _ hcallback _ => nomatch hcallback.symm.trans hdrained.callback
    | closed hstate _ _ _ hhdr hsize =>
      have hbad : BadHeader wire (tail ++ t) := by
        refine ⟨?_, by rw [take_header hhdr]; exact hsize⟩
        show 8 ≤ (tail ++ t).length
        rw [List.length_append]
        omega
      exact ⟨hbad.stuck, iff_of_true hbad hstate⟩
    | @header p hlive _ hreads hop _ =>
      obtain ⟨-, hshort⟩ := hdrained.waiting p (hreads ▸ List.mem_singleton_self p)
      have htaken := htaken (hreads ▸ List.cons_ne_nil _ _)
      rw [hop] at hshort
      have hlen : (c.headerBuffer.take p.moved ++ t).length < 8 := by
        rw [htaken, List.append_nil, List.length_take]
        exact Nat.lt_of_le_of_lt (Nat.min_le_left _ _) hshort
      refine ⟨stuck_of_length_lt hlen, iff_of_false ?_ ?_⟩
      · exact fun hbad => absurd hlen (Nat.not_lt_of_le hbad.1)
      · rw [hlive.state]
        exact nofun
    | @body p len hdr hlive _ hreads hop _ hhdr hsize _ =>
      obtain ⟨-, hshort⟩ := hdrained.waiting p (hreads ▸ List.mem_singleton_self p)
      have htaken := htaken (hreads ▸ List.cons_ne_nil _ _)
      rw [hop] at hshort
      have hlen : (c.bodyBuffer.take p.moved).length < len.toNat := by
        rw [List.length_take]
        exact Nat.lt_of_le_of_lt (Nat.min_le_left _ _) hshort
      rw [htaken, List.append_nil]
      refine ⟨stuck_of_short hhdr hsize hlen, iff_of_false ?_ ?_⟩
      · intro hbad
        have htake := hbad.2
        rw [take_header hhdr, hsize] at htake
        nomatch htake
      · rw [hlive.state]
        exact nofun
  obtain ⟨rfl, rfl⟩ := hstuck.1.decomposes htail
  rw [List.append_nil]
  exact ⟨hdelivered, hstuck.2⟩

/-! ## Every stream can be drained

  That the right frames are delivered would also be said of a loop that stops.  Here a run is built
  for every stream, frame by frame, by induction on its length; it ends with the rest, of which
  nothing more can be made. -/

/-- The loop before a frame, with nothing else pending. -/
structure Ready (c : Connection) : Prop where
  state : c.state = .connected
  socket : c.socketOpen = true
  callback : c.inCallback = false
  onFrame : c.onFrame = true
  headerLength : c.headerBuffer.length = 8
  pending : ∃ session closes, c.pending = [⟨.readHeader, session, closes, 0, none⟩]

/-- The only operation pending has moved all its bytes: it completes, and its handler runs. -/
theorem run_finish (hcallback : c.inCallback = false) (hpending : c.pending = [p])
    (houtcome : p.outcome = none) (hmoved : p.moved = p.op.size) :
    run step c [.complete 0 .success, .run 0]
      = some (p.op.handler .success { c with pending := [] }) := by
  have hcomplete : step c (.complete 0 .success)
      = some { c with pending := [{ p with outcome := some .success }] } := by
    have hcan : p.CanComplete .success := ⟨houtcome, fun _ => hmoved⟩
    have h := step_complete_of (c := c) (i := 0) (by rw [hpending]; rfl) hcan
    rw [hpending] at h
    exact h
  rw [run_cons_of_step hcomplete]
  have hrun := step_run_of (c := { c with pending := [{ p with outcome := some .success }] })
    (i := 0) hcallback rfl rfl
  exact run_cons_of_step hrun []

/-- One read, from its first byte to its handler. -/
theorem run_read {data : Bytes} (hcallback : c.inCallback = false)
    (hpending : c.pending = [p]) (hread : p.op.isRead = true) (houtcome : p.outcome = none)
    (hmoved : p.moved = 0) (hdata : data.length = p.op.size) :
    run step c [.transfer 0 data, .complete 0 .success, .run 0]
      = some (p.op.handler .success { moveBytes p data c with pending := [] }) := by
  have hmove : p.CanMove data := by
    refine ⟨houtcome, by omega, ?_⟩
    cases hop : p.op with
    | write buffer => rw [hop] at hread; nomatch hread
    | _ => trivial
  -- the bytes arrive at once; how they are cut does not matter here
  have htransfer : step c (.transfer 0 data) = some { moveBytes p data c with
      pending := [{ p with moved := p.moved + data.length }] } := by
    have h := step_transfer_of (c := c) (p := p) (i := 0) (by rw [hpending]; rfl) hmove
    rw [hpending] at h
    exact h
  have hcallback' : (moveBytes p data c).inCallback = false := by
    simp [hcallback]
  refine (run_cons_of_step htransfer _).trans ?_
  exact run_finish (p := { p with moved := p.moved + data.length }) hcallback' rfl houtcome
    (show p.moved + data.length = p.op.size by omega)

/-- A header is read. -/
theorem run_readHeader {hdr : Bytes} (h : Ready c) (hhdr : hdr.length = 8) :
    run step c [.transfer 0 hdr, .complete 0 .success, .run 0]
      = some (onReadHeader .success
          { c with headerBuffer := hdr, received := c.received ++ hdr, pending := [] }) := by
  obtain ⟨session, closes, hpending⟩ := h.pending
  have hbuf : overwrite c.headerBuffer 0 hdr = hdr := by
    rw [overwrite, List.take_zero, List.nil_append, hhdr, Nat.zero_add,
      List.drop_of_length_le (Nat.le_of_eq h.headerLength), List.append_nil]
  rw [run_read h.callback hpending rfl rfl rfl hhdr]
  show some (onReadHeader .success
    { c with
      headerBuffer := overwrite c.headerBuffer 0 hdr, received := c.received ++ hdr,
      pending := [] }) = _
  rw [hbuf]

/-- A header is accepted for its magic word, and its length is taken as it is. -/
theorem bodySize_eq_some {hdr : Bytes} {n : Nat} (h : wire.bodySize hdr = some n) :
    validateMagic hdr = true ∧ (parseMessageLength hdr).toNat = n := by
  change (if validateMagic hdr then some (parseMessageLength hdr).toNat else none) = some n at h
  split at h
  · rename_i hmagic
    exact ⟨hmagic, Option.some.inj h⟩
  · cases h

/-- Behind the magic word the body is read. -/
theorem onReadHeader_of_magic (h : validateMagic c.headerBuffer = true) :
    onReadHeader .success c = startReadBody (parseMessageLength c.headerBuffer) c := by
  show (if !validateMagic c.headerBuffer then _ else startReadBody _ c) = _
  rw [h]
  rfl

/-- Without it the connection is closed. -/
theorem onReadHeader_of_not_magic (h : validateMagic c.headerBuffer = false) :
    onReadHeader .success c = handleDisconnect c := by
  show (if !validateMagic c.headerBuffer then handleDisconnect c else _) = _
  rw [h]
  rfl

/-- The loop before a body of `len` bytes, with nothing else pending. -/
structure ReadyBody (len : UInt32) (c : Connection) : Prop where
  state : c.state = .connected
  socket : c.socketOpen = true
  callback : c.inCallback = false
  onFrame : c.onFrame = true
  headerLength : c.headerBuffer.length = 8
  bodyLength : c.bodyBuffer.length = len.toNat
  pending : ∃ session closes, c.pending = [⟨.readBody len, session, closes, 0, none⟩]

/-- A header that is not refused is read. -/
theorem run_header {hdr : Bytes} {n : Nat} (h : Ready c) (hhdr : hdr.length = 8)
    (hsize : wire.bodySize hdr = some n) :
    ∃ c' len, run step c [.transfer 0 hdr, .complete 0 .success, .run 0] = some c' ∧
      ReadyBody len c' ∧ len.toNat = n ∧ c'.received = c.received ++ hdr := by
  obtain ⟨hmagic, hlen⟩ := bodySize_eq_some hsize
  refine ⟨_, parseMessageLength hdr, run_readHeader h hhdr, ?_, hlen, ?_⟩
  · rw [onReadHeader_of_magic hmagic]
    refine ⟨h.state, h.socket, h.callback, h.onFrame, hhdr, length_resize _ _,
      c.session, c.closes, ?_⟩
    show [(⟨.readBody _, c.session, c.closes, 0, if c.socketOpen then none else _⟩ : Pending)] = _
    rw [h.socket]
    rfl
  · rw [onReadHeader_of_magic hmagic]
    rfl

/-- A body is read and delivered, and the callback returns. -/
theorem run_body {len : UInt32} {body : Bytes} (h : ReadyBody len c)
    (hbody : body.length = len.toNat) :
    ∃ c', run step c [.transfer 0 body, .complete 0 .success, .run 0, .ret] = some c' ∧
      Ready c' ∧ c'.received = c.received ++ body := by
  obtain ⟨session, closes, hpending⟩ := h.pending
  have hread := run_read h.callback hpending rfl rfl rfl hbody
  -- the callback returns, and the next header is read
  have hret : run step (onReadBody .success { c with
        bodyBuffer := overwrite c.bodyBuffer 0 body
        received := c.received ++ body
        pending := [] }) [.ret]
      = some (startReadHeader { c with
        bodyBuffer := overwrite c.bodyBuffer 0 body
        received := c.received ++ body
        pending := []
        inCallback := false
        delivered := c.delivered ++ [overwrite c.bodyBuffer 0 body] }) := by
    show run step (if c.onFrame then _ else _) [.ret] = _
    rw [if_pos h.onFrame]
    rfl
  refine ⟨_, run_append_of hread hret, ?_, rfl⟩
  refine ⟨h.state, h.socket, rfl, h.onFrame, h.headerLength, c.session, c.closes, ?_⟩
  show [(⟨.readHeader, c.session, c.closes, 0, if c.socketOpen then none else _⟩ : Pending)] = _
  rw [h.socket]
  rfl

/-- A read that is not filled waits. -/
theorem run_partial {data : Bytes} (hcallback : c.inCallback = false) (hpending : c.pending = [p])
    (hread : p.op.isRead = true) (houtcome : p.outcome = none) (hmoved : p.moved = 0)
    (hdata : data.length < p.op.size) :
    ∃ c', run step c [.transfer 0 data] = some c' ∧ c'.received = c.received ++ data ∧
      Drained (c.received ++ data) c' := by
  have hmove : p.CanMove data := by
    refine ⟨houtcome, by omega, ?_⟩
    cases hop : p.op with
    | write buffer => rw [hop] at hread; nomatch hread
    | _ => trivial
  have htransfer := step_transfer_of (c := c) (i := 0) (by rw [hpending]; rfl) hmove
  rw [hpending] at htransfer
  have hreceived : (moveBytes p data c).received = c.received ++ data := by
    cases hop : p.op with
    | readHeader => rw [moveBytes_readHeader hop]
    | readBody len => rw [moveBytes_readBody hop]
    | connect => rw [hop] at hread; nomatch hread
    | write buffer => rw [hop] at hread; nomatch hread
  have hcallback' : (moveBytes p data c).inCallback = false := by
    simp [hcallback]
  refine ⟨_, run_cons_of_step htransfer [], hreceived, hcallback', ?_, .inl hreceived⟩
  -- the read is still open: it has moved less than it asked for
  intro q hq
  obtain rfl : q = { p with moved := p.moved + data.length } :=
    List.mem_singleton.mp (List.mem_filter.mp hq).1
  exact ⟨houtcome, show p.moved + data.length < p.op.size by omega⟩

/-- A stream with no whole frame at its front. -/
theorem exists_drained_of_stuck {t : Bytes} (h : Ready c) (hstuck : Stuck wire t) :
    ∃ acts c', (∀ a ∈ acts, a.Calm) ∧ run step c acts = some c' ∧
      c'.received <+: c.received ++ t ∧ Drained (c.received ++ t) c' := by
  obtain ⟨session, closes, hpending⟩ := h.pending
  by_cases hlen : t.length < 8
  -- not even a header: the read of it stays open
  · obtain ⟨c', hrun, hreceived, hdrained⟩ := run_partial h.callback hpending rfl rfl rfl hlen
    refine ⟨_, c', ?_, hrun, hreceived ▸ List.prefix_refl _, hdrained⟩
    simp [Act.Calm]
  · have hhdr : (t.take 8).length = 8 := List.length_take_of_le (by omega)
    have ht : c.received ++ t.take 8 ++ t.drop 8 = c.received ++ t := by
      rw [List.append_assoc, List.take_append_drop]
    cases hsize : wire.bodySize (t.take 8) with
    | none =>
      -- a refused header closes the connection, and nothing reads any more
      have hmagic : validateMagic (t.take 8) = false := by
        change (if validateMagic (t.take 8) then _ else none) = none at hsize
        split at hsize
        · nomatch hsize
        · exact Bool.eq_false_iff.mpr ‹_›
      have hclose : onReadHeader .success { c with
            headerBuffer := t.take 8, received := c.received ++ t.take 8, pending := [] }
          = { c with
            headerBuffer := t.take 8, received := c.received ++ t.take 8, pending := [],
            closes := c.closes + 1, socketOpen := false, state := .disconnected } := by
        rw [onReadHeader_of_not_magic hmagic]
        apply networkClose_of_ne
        rw [h.state]
        decide
      refine ⟨_, _, ?_, run_readHeader h hhdr, ?_, ?_⟩
      · simp [Act.Calm]
      · rw [hclose]
        exact ⟨t.drop 8, ht⟩
      · rw [hclose]
        exact ⟨h.callback, (fun p hp => nomatch hp), .inr rfl⟩
    | some n =>
      -- a header whose body is not all there: the read of the body stays open
      obtain ⟨c₁, len, hrun₁, hready, hn, hreceived₁⟩ := run_header h hhdr hsize
      obtain ⟨session₁, closes₁, hpending₁⟩ := hready.pending
      have hshort : (t.drop 8).length < len.toNat := by
        have hlt := hstuck (Nat.le_of_not_lt hlen) n hsize
        change t.length < 8 + n at hlt
        rw [List.length_drop]
        omega
      obtain ⟨c', hrun₂, hreceived, hdrained⟩ :=
        run_partial hready.callback hpending₁ rfl rfl rfl hshort
      rw [hreceived₁, ht] at hreceived hdrained
      refine ⟨_, c', ?_, run_append_of hrun₁ hrun₂, hreceived ▸ List.prefix_refl _, hdrained⟩
      simp [Act.Calm]

/-- **Every stream can be drained.** -/
theorem exists_drained (t : Bytes) : ∀ {c : Connection}, Ready c →
    ∃ acts c', (∀ a ∈ acts, a.Calm) ∧ run step c acts = some c' ∧
      c'.received <+: c.received ++ t ∧ Drained (c.received ++ t) c' := by
  induction hn : t.length using Nat.strongRecOn generalizing t with
  | ind n ih =>
    intro c h
    by_cases hstuck : Stuck wire t
    · exact exists_drained_of_stuck h hstuck
    · -- one whole frame, and the rest by induction
      obtain ⟨hdr, body, t, hframe, rfl⟩ := exists_isFrame hstuck
      have hhdr : hdr.length = 8 := hframe.header
      obtain ⟨c₁, len, hrun₁, hready₁, hlen, hreceived₁⟩ := run_header h hhdr hframe.body
      obtain ⟨c₂, hrun₂, hready₂, hreceived₂⟩ := run_body hready₁ hlen.symm
      rw [List.length_append, List.length_append] at hn
      obtain ⟨acts, c', hcalm, hrun, hprefix, hdrained⟩ := ih t.length (by omega) t rfl hready₂
      rw [hreceived₂, hreceived₁, List.append_assoc, List.append_assoc,
        ← List.append_assoc hdr] at hprefix hdrained
      refine ⟨_, c', ?_, run_append_of hrun₁ (run_append_of hrun₂ hrun), hprefix, hdrained⟩
      intro a ha
      simp only [List.mem_append, List.mem_cons, List.not_mem_nil, or_false] at ha
      rcases ha with (rfl | rfl | rfl) | (rfl | rfl | rfl | rfl) | ha
      all_goals first | trivial | exact hcalm a ha

/-- The loop stands before a frame as the session begins. -/
theorem ready_listening (i : Idle) : Ready i.listening :=
  ⟨rfl, rfl, i.inCallback, i.onFrame, i.headerLength, _, _, rfl⟩

/-- **Frames over TCP**: a stream has one decomposition, and if it was made by sending messages
    that is these messages.  Reading it can always be carried to the end; at any time the frames
    delivered are the first of the decomposition, and at the end they are all of them, with the
    connection closed exactly if the next header was refused. -/
theorem frames_delivered (i : Idle) (s : Bytes) :
    ∃ fs rest, Decomposes wire s fs rest ∧
      (∀ fs' rest', Decomposes wire s fs' rest' → fs' = fs ∧ rest' = rest) ∧
      (∀ ms : List Bytes, (∀ m ∈ ms, m.length < 2 ^ 32) → s = ms.flatMap frame →
        fs = ms ∧ rest = []) ∧
      (∃ acts c, Reads i s acts c ∧ Drained s c) ∧
      ∀ acts c, Reads i s acts c →
        (∃ gs, gs <+: fs ∧ c.delivered = i.conn.delivered ++ gs) ∧
        (Drained s c → c.delivered = i.conn.delivered ++ fs ∧
          (BadHeader wire rest ↔ c.state = .disconnected)) := by
  obtain ⟨fs, rest, hdec⟩ := exists_decomposes (F := wire) s
  refine ⟨fs, rest, hdec, fun fs' rest' h => hdec.unique h, ?_, ?_, ?_⟩
  · rintro ms hms rfl
    exact (decomposes_stream hms).unique hdec
  · obtain ⟨acts, c, hcalm, hrun, hprefix, hdrained⟩ := exists_drained s (ready_listening i)
    exact ⟨acts, c, ⟨hcalm, hrun, hprefix⟩, hdrained⟩
  · intro acts c hreads
    exact ⟨hreads.delivered_isPrefix hdec, fun hdrained => hreads.delivered_eq hdec hdrained⟩

/-- The user closes and connects nothing, and no operation fails; callbacks may throw. -/
def Act.Undisturbed : Act → Prop
  | .connect _ | .close => False
  | .complete _ ec => ec = .success
  | _ => True

/-- An empty message and a message of one byte have been sent.  The callback throws at the first. -/
theorem frames_delivered_raised : ¬ ∀ (i : Idle) (ms : List Bytes) (acts : List Act)
    (c : Connection), (∀ m ∈ ms, m.length < 2 ^ 32) → (∀ a ∈ acts, a.Undisturbed) →
    run step i.listening acts = some c → c.received <+: ms.flatMap frame →
    Drained (ms.flatMap frame) c → c.delivered = i.conn.delivered ++ ms := by
  intro h
  let thrown : Connection :=
    { Idle.initial.listening with
      headerBuffer := frameHeader [], received := frameHeader [], delivered := [[]], pending := [] }
  have hrun : run step Idle.initial.listening [.transfer 0 (frameHeader []), .complete 0 .success,
      .run 0, .complete 0 .success, .run 0, .raise] = some thrown := rfl
  have hdrained : Drained ([[], [1]].flatMap frame) thrown :=
    ⟨rfl, fun p hp => absurd hp List.not_mem_nil, .inr rfl⟩
  have hall := h Idle.initial [[], [1]] _ thrown (by decide) (by simp [Act.Undisturbed]) hrun
    ⟨frame [1], rfl⟩ hdrained
  exact absurd hall (by decide)

/-! ## When a callback throws

  The exception leaves the handler of the body behind `on_frame_`, where the next header would
  have been asked for.  No read is outstanding then and no handler is due that would start one, so
  what holds of the loop holds until the connection is closed. -/

/-- The connection is up, but nothing reads from it. -/
structure Stalled (c : Connection) : Prop where
  live : Live c
  callback : c.inCallback = false
  writes : ∀ p ∈ c.pending, ∃ buffer, p.op = .write buffer

/-- What is neither a connect nor a read is a write. -/
theorem exists_write {op : Op} (hconnect : op ≠ .connect) (hread : op.isRead = false) :
    ∃ buffer, op = .write buffer := by
  cases op with
  | connect => exact absurd rfl hconnect
  | readHeader => cases hread
  | readBody len => cases hread
  | write buffer => exact ⟨buffer, rfl⟩

/-- Without a read, the operations pending are writes. -/
theorem writes_of_reads (hreads : c.reads = []) {p : Pending} (hp : p ∈ c.pending)
    (hconnect : p.op ≠ .connect) : ∃ buffer, p.op = .write buffer := by
  refine exists_write hconnect (Bool.eq_false_iff.mpr fun hread => ?_)
  have hmem : p ∈ c.reads := List.mem_filter.mpr ⟨hp, hread⟩
  rw [hreads] at hmem
  cases hmem

/-- Without a pending read nothing is outstanding for the loop. -/
theorem Stalled.reads (h : Stalled c) : c.reads = [] := by
  refine List.filter_eq_nil_iff.mpr fun p hp => ?_
  obtain ⟨buffer, hop⟩ := h.writes p hp
  rw [hop]
  exact Bool.false_ne_true

/-- `start_read_header` stands behind the call of `on_frame_`, so an exception skips it. -/
theorem Loop.stalled {d₀ : List Bytes} (h : Loop d₀ c) (hcallback : c.inCallback = true) :
    Stalled { c with inCallback := false } := by
  obtain ⟨fs, r, tail, -, -, -, hphase⟩ := h.progress
  cases hphase with
  | header _ hno => cases hcallback.symm.trans hno
  | body _ hno => cases hcallback.symm.trans hno
  | closed _ _ hno => cases hcallback.symm.trans hno
  | callback hlive _ hreads =>
    refine ⟨⟨hlive.state, hlive.socket, hlive.noFailure⟩, rfl, fun p hp => ?_⟩
    exact writes_of_reads hreads hp (h.noConnect p hp)

/-- What does not concern the loop does not revive it. -/
theorem SameLoop.stalled (hsame : SameLoop c c') (h : Stalled c) : Stalled c' where
  live := hsame.live h.live
  callback := hsame.inCallback.trans h.callback
  writes p hp := by
    rcases hsame.pending p hp with hold | ⟨hconnect, -⟩
    · exact h.writes p hold
    · exact writes_of_reads (hsame.reads.trans h.reads) hp hconnect

/-- **Each act** of a user who closes nothing leaves the loop alone from then on. -/
theorem stalled_step {a : Act} (h : Stalled c) (ha : a.Undisturbed) (hstep : step c a = some c') :
    SameLoop c c' := by
  cases a with
  | connect lookup => exact absurd ha id
  | close => exact absurd ha id
  | raise =>
    obtain ⟨hcallback, -⟩ := step_raise hstep
    cases hcallback.symm.trans h.callback
  | ret =>
    obtain ⟨hcallback, -⟩ := step_ret hstep
    cases hcallback.symm.trans h.callback
  | send data =>
    obtain rfl := step_send hstep
    exact sameLoop_asyncSend data c
  | setOnFrame =>
    obtain rfl := step_setOnFrame hstep
    exact sameLoop_setOnFrame c
  | transfer i data =>
    obtain ⟨l₁, p, l₂, hsplit, ⟨hnone, -, -⟩, rfl⟩ := step_transfer hstep
    obtain ⟨buffer, hop⟩ := h.writes p (hsplit ▸ List.mem_append_right _ List.mem_cons_self)
    rw [moveBytes_write hop]
    refine sameLoop_replace _ hsplit hop hop ?_
    rw [hnone]
    simp
  | complete i ec =>
    obtain ⟨l₁, p, l₂, hsplit, -, rfl⟩ := step_complete hstep
    obtain rfl : ec = .success := ha
    obtain ⟨buffer, hop⟩ := h.writes p (hsplit ▸ List.mem_append_right _ List.mem_cons_self)
    exact sameLoop_replace c.sent hsplit hop hop (by simp)
  | run i =>
    obtain ⟨-, l₁, p, l₂, ec, hsplit, -, hec, rfl⟩ := step_run hstep
    have hp : p ∈ c.pending := hsplit ▸ List.mem_append_right _ List.mem_cons_self
    obtain ⟨buffer, hop⟩ := h.writes p hp
    rw [hop]
    refine (sameLoop_erase hsplit (by rw [hop]; rfl)).trans (sameLoop_onWrite ?_)
    rintro rfl
    exact absurd hec (h.live.noFailure p hp)

/-- A whole run of such acts. -/
theorem stalled_run (acts : List Act) : ∀ {c : Connection}, Stalled c →
    (∀ a ∈ acts, a.Undisturbed) → run step c acts = some c' → SameLoop c c' := by
  induction acts with
  | nil =>
    intro c _ _ hrun
    cases hrun
    exact .refl
  | cons a acts ih =>
    intro c h hacts hrun
    obtain ⟨ha, hacts⟩ := List.forall_mem_cons.mp hacts
    obtain ⟨c₁, hstep, hrun⟩ := run_cons_eq_some hrun
    have hsame := stalled_step h ha hstep
    exact hsame.trans (ih (hsame.stalled h) hacts hrun)

/-- The acts of a connection that comes up. -/
def connectActs (lookup : Lookup) : List Act := [.connect lookup, .complete 0 .success, .run 0]

/-- **A callback that throws** stalls the session: what was taken from the stream up to then are
    whole frames, all of them delivered.  Whatever the user does but close the connection, and
    whatever the peer sends, nothing more is taken and nothing more delivered, and the connection
    goes on being CONNECTED. -/
theorem raised_run (i : Idle) {lookup : Lookup} (hfinds : lookup.Finds) {acts later : List Act}
    (hcalm : ∀ a ∈ acts, a.Calm) (hlater : ∀ a ∈ later, a.Undisturbed)
    (hrun : run step i.conn (connectActs lookup ++ (acts ++ .raise :: later)) = some c) :
    ∃ c₁ fs, run step i.conn (connectActs lookup ++ acts) = some c₁ ∧
      c₁.inCallback = true ∧ Frames wire fs c₁.received ∧ c₁.delivered = i.conn.delivered ++ fs ∧
      c.received = c₁.received ∧ c.delivered = c₁.delivered ∧ c.state = .connected ∧
      c.reads = [] := by
  have hconnect := run_connect i hfinds
  rw [run_append, connectActs, hconnect, Option.bind_some, run_append] at hrun
  obtain ⟨c₁, hacts, hrun⟩ := Option.bind_eq_some_iff.mp hrun
  obtain ⟨c₂, hraise, hrun⟩ := run_cons_eq_some hrun
  obtain ⟨hcallback, rfl⟩ := step_raise hraise
  -- the session so far is one in which no callback has thrown
  have hreads : Reads i c₁.received acts c₁ := ⟨hcalm, hacts, List.prefix_refl _⟩
  obtain ⟨fs, r, tail, hframes, hreceived, hdelivered, hphase⟩ := hreads.loop.progress
  obtain rfl : tail = [] := by
    cases hphase with
    | callback => rfl
    | header _ hno => cases hcallback.symm.trans hno
    | body _ hno => cases hcallback.symm.trans hno
    | closed _ _ hno => cases hcallback.symm.trans hno
  rw [List.append_nil] at hreceived
  have hstalled := hreads.loop.stalled hcallback
  have hsame := stalled_run later hstalled hlater hrun
  refine ⟨c₁, fs, run_append_of hconnect hacts, hcallback, ?_, hdelivered, hsame.received,
    hsame.delivered, (hsame.stalled hstalled).live.state, (hsame.stalled hstalled).reads⟩
  rw [hreceived]
  exact hframes

/-- The callback throws at the first of two messages, and a message is sent behind that. -/
theorem raised_run_emptyMessage :
    ∃ c, run step Idle.initial.conn (connectActs .found ++
        ([.transfer 0 (frameHeader []), .complete 0 .success, .run 0, .complete 0 .success, .run 0]
          ++ [.raise, .send [7], .transfer 0 (frame [7]), .complete 0 .success, .run 0])) = some c ∧
      c.received = frameHeader [] ∧ c.delivered = [[]] ∧ c.state = .connected ∧ c.reads = [] := by
  have hruns : (run step Idle.initial.conn (connectActs .found ++
      ([.transfer 0 (frameHeader []), .complete 0 .success, .run 0, .complete 0 .success, .run 0]
        ++ [.raise, .send [7], .transfer 0 (frame [7]), .complete 0 .success, .run 0]))).isSome := by
    decide +kernel
  obtain ⟨c, hrun⟩ := Option.isSome_iff_exists.mp hruns
  have hfinds : Lookup.found.Finds := ⟨_, _, rfl, rfl⟩
  obtain ⟨c₁, fs, hrun₁, -, -, -, hreceived, hdelivered, hstate, hreads⟩ :=
    raised_run Idle.initial hfinds (by simp [Act.Calm]) (by simp [Act.Undisturbed]) hrun
  cases hrun₁
  exact ⟨c, hrun, hreceived, hdelivered, hstate, hreads⟩

end SteamMin.Net
