/-
  THE TCP CONNECTION — `src/network/connection/tcp.cpp`, and the asio it runs on.

  Three layers in one state:

  * `TCPConnection` — the members of the class;
  * `Connection`    — the socket and the operations that were started on it and whose handlers
    have not run yet (`pending`), plus a record of what happened (`closes`, `received`, `sent`,
    `delivered`) that the code never reads;
  * `step`          — one act: a call of the user, a move of the socket, or the run of one handler.

  Every function of the class has its own definition over `Connection`, and every lambda it hands
  to asio is one of the handlers `onConnect`, `onReadHeader`, `onReadBody`, `onWrite`.

  What is taken from asio: a started operation completes once, later; bytes move piece by piece
  (`transfer`) and an operation succeeds only when all of its bytes have moved; closing the socket
  fails what has not completed; on a closed socket an operation fails; an operation that has
  completed keeps its outcome until its handler runs.  Handlers run one at a time, in any order.
  The frame callback is the user's code: between its call and its return (or its exception) the
  user may call the connection again, and no handler runs.

  The byte order of the host is little-endian, so `native_to_little` changes nothing.
-/
import SteamMin.Basic
import SteamMin.Lib.LittleEndian
import SteamMin.Lib.Runs

namespace SteamMin.Net

/-! ## Frames on the wire -/

/-- The word behind the length of every frame, in both directions. -/
def MAGIC : Bytes := ascii "VT01"

/-- `parse_message_length`; the header buffer is an array of eight bytes. -/
def parseMessageLength (buffer : Bytes) : UInt32 := LittleEndian.word32 (buffer.take 4)

/-- `validate_magic` -/
def validateMagic (buffer : Bytes) : Bool := (buffer.drop 4).take 4 = MAGIC

/-- The buffer `async_send` builds; the length is cut to 32 bits. -/
def frame (data : Bytes) : Bytes :=
  LittleEndian.bytes 4 (UInt32.ofNat data.length).toNat ++ MAGIC ++ data

/-! ## The state -/

/-- `ConnectionState` -/
inductive ConnectionState
  | disconnected
  | connecting
  | connected
  deriving DecidableEq

/-- The operations the class starts. -/
inductive Op
  | connect
  | readHeader
  | readBody (len : UInt32)
  | write (buffer : Bytes)
  deriving DecidableEq

/-- How many bytes the operation asks for. -/
def Op.size : Op → Nat
  | .connect => 0
  | .readHeader => 8
  | .readBody len => len.toNat
  | .write buffer => buffer.length

/-- What a handler learns from its `std::error_code`. -/
inductive Outcome
  | success
  | failure
  deriving DecidableEq

/-- An operation whose handler has not run yet. -/
structure Pending where
  op : Op
  /-- the session it was started in -/
  session : Nat
  /-- how many calls of `network_close` there had been -/
  closes : Nat
  /-- bytes moved so far -/
  moved : Nat
  /-- set once the operation has completed -/
  outcome : Option Outcome
  deriving DecidableEq

/-- The members of the class; of `on_frame_`, whether a callback is set. -/
structure TCPConnection where
  state : ConnectionState
  headerBuffer : Bytes
  bodyBuffer : Bytes
  writeQueue : List Bytes
  onFrame : Bool

/-- The connection with its socket. -/
structure Connection extends TCPConnection where
  socketOpen : Bool
  /-- the number of times the socket was opened -/
  session : Nat
  pending : List Pending
  /-- inside a call of `on_frame_` -/
  inCallback : Bool
  /-- calls of `network_close` so far -/
  closes : Nat
  /-- what the reads of this session have taken from the peer's stream -/
  received : Bytes
  /-- what the socket of this session has accepted -/
  sent : Bytes
  /-- the frames `on_frame_` was called with -/
  delivered : List Bytes

/-- A new object. -/
def Connection.initial : Connection where
  state := .disconnected
  headerBuffer := List.replicate 8 0
  bodyBuffer := []
  writeQueue := []
  onFrame := false
  socketOpen := false
  session := 0
  pending := []
  inCallback := false
  closes := 0
  received := []
  sent := []
  delivered := []

/-! ## Starting and aborting operations -/

/-- An asio initiating function. -/
def startOp (op : Op) (c : Connection) : Connection :=
  { c with
    pending := c.pending ++
      [{ op, session := c.session, closes := c.closes, moved := 0,
         outcome := if c.socketOpen then none else some .failure }] }

/-- Closing the socket fails what has not completed. -/
def Pending.abort (p : Pending) : Pending :=
  { p with outcome := some (p.outcome.getD .failure) }

/-- `socket_.close(ec)` -/
def socketClose (c : Connection) : Connection :=
  { c with socketOpen := false, pending := c.pending.map Pending.abort }

/-! ## The functions of the class -/

/-- `network_close`: nothing on a closed connection, else the socket is closed and the state set.
    Queue, buffers and handlers that are due stay. -/
def networkClose (c : Connection) : Connection :=
  let c := { c with closes := c.closes + 1 }
  if c.state = .disconnected then c
  else { socketClose c with state := .disconnected }

/-- `handle_disconnect`, which logs its reason and closes. -/
def handleDisconnect (c : Connection) : Connection := networkClose c

/-- What `fetch_cm_servers`, `get_servers` and the resolver do in one call of `network_connect`. -/
structure Lookup where
  servers : Except Exn (List (Bytes × Int))
  resolve : Bytes × Int → Except Exn Unit

/-- There is a server, and it can be resolved. -/
def Lookup.Finds (lookup : Lookup) : Prop :=
  ∃ server servers, lookup.servers = .ok (server :: servers) ∧ lookup.resolve server = .ok ()

/-- A lookup that finds a server. -/
def Lookup.found : Lookup := ⟨.ok [(ascii "cm", 27017)], fun _ => .ok ()⟩

/-- `asio::async_connect`: the socket is closed and opened anew. -/
def asyncConnect (c : Connection) : Connection :=
  let c := socketClose c
  startOp .connect
    { c with socketOpen := true, session := c.session + 1, received := [], sent := [] }

/-- `network_connect`: nothing unless closed.  What throws behind the first assignment leaves the
    state CONNECTING. -/
def networkConnect (lookup : Lookup) : EStateM Exn Connection Unit := do
  if (← get).state ≠ .disconnected then return
  modify fun c => { c with state := .connecting }
  match lookup.servers with
  | .error e => throw e
  | .ok [] => throw (.runtimeError "No CM servers")
  | .ok (server :: _) =>
    match lookup.resolve server with
    | .error e => throw e
    | .ok () => modify asyncConnect

/-- `start_read_header` -/
def startReadHeader (c : Connection) : Connection := startOp .readHeader c

/-- `std::vector::resize` -/
def resize (buffer : Bytes) (n : Nat) : Bytes :=
  buffer.take n ++ List.replicate (n - buffer.length) 0

/-- `start_read_body` -/
def startReadBody (len : UInt32) (c : Connection) : Connection :=
  startOp (.readBody len) { c with bodyBuffer := resize c.bodyBuffer len.toNat }

/-- `do_write`; it is only called with a front element. -/
def doWrite (c : Connection) : Connection :=
  match c.writeQueue with
  | [] => c
  | buffer :: _ => startOp (.write buffer) c

/-- `async_send`: the frame is queued, and written at once when the queue was empty.  The state is
    not asked. -/
def asyncSend (data : Bytes) (c : Connection) : Connection :=
  let writeInProgress := !c.writeQueue.isEmpty
  let c := { c with writeQueue := c.writeQueue ++ [frame data] }
  if !writeInProgress then doWrite c else c

/-! ## The completion handlers -/

/-- The handler of `async_connect`, whichever session it belongs to. -/
def onConnect (ec : Outcome) (c : Connection) : Connection :=
  match ec with
  | .success => startReadHeader { c with state := .connected }
  | .failure => { c with state := .disconnected }

/-- The handler of the header read.  The magic word is checked behind the length; the length is not
    checked. -/
def onReadHeader (ec : Outcome) (c : Connection) : Connection :=
  match ec with
  | .failure => handleDisconnect c
  | .success =>
    let len := parseMessageLength c.headerBuffer
    if !validateMagic c.headerBuffer then handleDisconnect c
    else startReadBody len c

/-- The part of the handler behind `on_frame_`. -/
def afterFrame (c : Connection) : Connection := startReadHeader c

/-- The handler of the body read; `on_frame_` runs inside it. -/
def onReadBody (ec : Outcome) (c : Connection) : Connection :=
  match ec with
  | .failure => handleDisconnect c
  | .success =>
    if c.onFrame then
      { c with delivered := c.delivered ++ [c.bodyBuffer], inCallback := true }
    else afterFrame c

/-- The handler of the write: it pops the front, whatever was written. -/
def onWrite (ec : Outcome) (c : Connection) : Connection :=
  match ec with
  | .failure => handleDisconnect c
  | .success =>
    let c := { c with writeQueue := c.writeQueue.tail }
    if !c.writeQueue.isEmpty then doWrite c else c

/-- Which handler an operation was started with. -/
def Op.handler : Op → Outcome → Connection → Connection
  | .connect => onConnect
  | .readHeader => onReadHeader
  | .readBody _ => onReadBody
  | .write _ => onWrite

/-! ## The moves of the socket -/

/-- `data` written over `buffer` from `offset` on. -/
def overwrite (buffer : Bytes) (offset : Nat) (data : Bytes) : Bytes :=
  buffer.take offset ++ data ++ buffer.drop (offset + data.length)

/-- The bytes `data` move: from the peer's stream into the buffer of a read, or from the buffer of
    a write to the socket. -/
def moveBytes (p : Pending) (data : Bytes) (c : Connection) : Connection :=
  match p.op with
  | .connect => c
  | .readHeader =>
    { c with headerBuffer := overwrite c.headerBuffer p.moved data,
             received := c.received ++ data }
  | .readBody _ =>
    { c with bodyBuffer := overwrite c.bodyBuffer p.moved data,
             received := c.received ++ data }
  | .write _ => { c with sent := c.sent ++ data }

/-- The pieces an operation can move next; those of a write come from its buffer. -/
def Pending.CanMove (p : Pending) (data : Bytes) : Prop :=
  p.outcome = none ∧ p.moved + data.length ≤ p.op.size ∧
    match p.op with
    | .write buffer => data <+: buffer.drop p.moved
    | _ => True

instance (p : Pending) (data : Bytes) : Decidable (p.CanMove data) := by
  unfold Pending.CanMove
  cases p.op <;> infer_instance

/-- The outcomes an operation can complete with. -/
def Pending.CanComplete (p : Pending) (ec : Outcome) : Prop :=
  p.outcome = none ∧ (ec = .success → p.moved = p.op.size)

instance (p : Pending) (ec : Outcome) : Decidable (p.CanComplete ec) :=
  inferInstanceAs (Decidable (_ ∧ _))

/-! ## One act -/

/-- What can happen next: a call of the user, a move of the kernel, a handler, the end of a
    callback. -/
inductive Act
  /-- the user calls `network_connect` -/
  | connect (lookup : Lookup)
  /-- the user calls `network_close` -/
  | close
  /-- the user calls `async_send` -/
  | send (data : Bytes)
  /-- the user calls `set_on_frame` with a callback -/
  | setOnFrame
  /-- the operation at `i` moves some bytes -/
  | transfer (i : Nat) (data : Bytes)
  /-- the operation at `i` completes -/
  | complete (i : Nat) (ec : Outcome)
  /-- the handler of the operation at `i` runs -/
  | run (i : Nat)
  /-- `on_frame_` returns -/
  | ret
  /-- `on_frame_` throws; the exception leaves the handler -/
  | raise

/-- One of them, where it can happen.  An exception of `network_connect` reaches the user. -/
def step (c : Connection) : Act → Option Connection
  | .connect lookup =>
    match networkConnect lookup c with
    | .ok () c => some c
    | .error _ c => some c
  | .close => some (networkClose c)
  | .send data => some (asyncSend data c)
  | .setOnFrame => some { c with onFrame := true }
  | .transfer i data =>
    match c.pending[i]? with
    | none => none
    | some p =>
      if p.CanMove data then
        some { moveBytes p data c with
          pending := c.pending.set i { p with moved := p.moved + data.length } }
      else none
  | .complete i ec =>
    match c.pending[i]? with
    | none => none
    | some p =>
      if p.CanComplete ec then
        some { c with pending := c.pending.set i { p with outcome := some ec } }
      else none
  | .run i =>
    if c.inCallback then none
    else
      match c.pending[i]? with
      | none => none
      | some p =>
        match p.outcome with
        | none => none
        | some ec => some (p.op.handler ec { c with pending := c.pending.eraseIdx i })
  | .ret => if c.inCallback then some (afterFrame { c with inCallback := false }) else none
  | .raise => if c.inCallback then some { c with inCallback := false } else none

end SteamMin.Net
