/-
  A CLIENT AT WORK: the user calls it, the transport delivers frames to it.

  `Transport` is what a client's connection does on its own: it moves, and some of its moves call
  the frame handler.  `Net.Connection` is one (`instTransportConnection`), with the moves of the
  socket and the handlers of `Net.step`.

  An act is a call of the user or a move of the transport.  Between two acts no code of the client
  is on the stack; within one, callbacks may call the client again.  An act that ends in undefined
  behaviour, or never ends, is the last (`stopped`); what it recorded before stays in the record.

  A frame reaches the client inside the read handler of its connection: the move that completes a
  body, the call of `consume_frame`, and what the connection does when that call returns or throws
  are one act here.  Calls of the user that happen during it are made by callbacks, so they are
  part of the same act.
-/
import SteamMin.Client.Handlers
import SteamMin.Crypto.Envelope
import SteamMin.Lib.Runs

namespace SteamMin.Client

open Messages Crypto

/-- A connection with the moves `M` it makes on its own.  A move may deliver a frame; then the
    handler runs, and the connection goes on from `frameReturned` or `frameRaised`. -/
class Transport (C : Type) (E M : outParam Type) extends IConnection C E where
  move : C → M → Option (C × Option Bytes)
  frameReturned : C → C
  frameRaised : C → C

/-- What may happen between two calls of the user. -/
inductive Act (E M : Type)
  | startSession (net : E)
  | shutdown
  | on (type : EventType) (callback : Listener E)
  | execute (command : Command)
  | transport (m : M)

/-- A client, and the fault that has put an end to it. -/
structure System (C E : Type) where
  client : CMClient C E
  stopped : Option Fault

variable {C E M : Type}

/-- A client that has done nothing yet. -/
def System.initial (connection : C) (crypto : EncryptionManager) : System C E where
  client := .new connection crypto
  stopped := none

/-- The end of an act.  An exception reaches the caller, who may go on. -/
def settle : EStateM.Result Fault (CMClient C E) Unit → System C E
  | .ok () client => ⟨client, none⟩
  | .error (.throws _) client => ⟨client, none⟩
  | .error fault client => ⟨client, some fault⟩

/-- The client is the one the call left behind, however it ended. -/
theorem client_settle (r : EStateM.Result Fault (CMClient C E) Unit) :
    (settle r).client = Calls.after r := by
  rcases r with _ | ⟨e | _ | _, client⟩ <;> rfl

section
variable [Transport C E M] (p : Platform) (fuel : Nat)

/-- The frame handler that `start_session` sets, called by the transport. -/
def onFrame (frame : Bytes) : Calling C E Unit := do
  match ← attempt (consumeFrame (emit p fuel) p fuel frame true) with
  | none => modify fun c => { c with connection := Transport.frameReturned c.connection }
  | some e =>
    modify fun c => { c with connection := Transport.frameRaised c.connection }
    throw (.throws e)

/-- One act, unless an earlier one did not end. -/
def step (s : System C E) (a : Act E M) : Option (System C E) :=
  if s.stopped.isSome then none
  else
    match a with
    | .startSession net => some (settle (startSession net s.client))
    | .shutdown => some (settle (shutdown s.client))
    | .on type callback => some (settle (on type callback s.client))
    | .execute command => some (settle (execute p (emit p fuel) command s.client))
    | .transport m =>
      match Transport.move s.client.connection m with
      | none => none
      | some (connection, none) => some { s with client := { s.client with connection } }
      | some (connection, some frame) =>
        some (settle (onFrame p fuel frame { s.client with connection }))

end

/-! ## The client on a TCP connection -/

/-- The connection of the repository as a transport. -/
instance instTransportConnection : Transport Net.Connection Net.Lookup Net.Act where
  state c := c.state
  networkConnect := Net.networkConnect
  networkClose := Net.networkClose
  asyncSend := Net.asyncSend
  setOnFrame c := { c with onFrame := true }
  move c a :=
    match a with
    | .transfer _ _ | .complete _ _ | .run _ =>
      (Net.step c a).map fun c => (c, if c.inCallback then some c.bodyBuffer else none)
    | _ => none
  frameReturned c := Net.afterFrame { c with inCallback := false }
  frameRaised c := { c with inCallback := false }

/-! ## A platform to run on -/

/-- Primitives for runs on which nothing is encrypted but the session key: its RSA block is 128
    bytes `1`, whose CRC this is. -/
def plainPlatform : Platform where
  cryptoPP :=
    { ecbEncrypt := fun _ data => data
      ecbDecrypt := fun _ data => data
      cbcEncrypt := fun _ _ data => data
      cbcDecrypt := fun _ _ data => .ok data
      hmacSha1 := fun _ _ => List.replicate 20 0
      crc32 := fun _ => 0x350EF43B
      rsaesOaepSha := fun _ _ pool => (.ok (List.replicate 128 1), pool)
      gunzip := fun _ => .error "not a gzip stream" }
  protobuf := .writing
  elidesCopy := true
  cryptoFile := "src/crypto/crypto.cpp"

/-- The same with what Crypto++ computes for a client whose random pool starts with 0, 1, 2, … -/
def samplePlatform : Platform := { plainPlatform with cryptoPP := sampleCryptoPP }

/-- A client on a new TCP connection. -/
def System.onTcp : System Net.Connection Net.Lookup :=
  .initial .initial (.new ⟨fun i => UInt8.ofNat i⟩)

/-- A session begins, and the connection is made. -/
def connecting : List (Act Net.Lookup Net.Act) :=
  [.startSession .found, .transport (.complete 0 .success), .transport (.run 0)]

/-- Operation `i` reads the data, and its handler runs. -/
def deliver (i : Nat) (data : Bytes) : List (Act Net.Lookup Net.Act) :=
  [.transport (.transfer i data), .transport (.complete i .success), .transport (.run i)]

/-- A frame is read, its header and then its body. -/
def deliverFrame (i : Nat) (frame : Bytes) : List (Act Net.Lookup Net.Act) :=
  deliver i (LittleEndian.bytes 4 frame.length ++ Net.MAGIC) ++ deliver i frame

/-- A raw message: its type, two job ids of -1 and the body. -/
def rawMessage (emsg : EMsg) (body : Bytes) : Bytes :=
  LittleEndian.bytes 4 emsg.toNat ++ List.replicate 16 255 ++ body

/-- The peer asks for a secured channel, and accepts the response. -/
def handshake : List (Act Net.Lookup Net.Act) :=
  deliverFrame 0 (rawMessage EMsg.channelEncryptRequest
    (LittleEndian.bytes 4 1 ++ LittleEndian.bytes 4 1 ++ List.replicate 16 7)) ++
  deliverFrame 1 (rawMessage EMsg.channelEncryptResult (LittleEndian.bytes 4 1))

end SteamMin.Client
