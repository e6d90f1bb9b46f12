/-
  THE CLIENT — `CMClient` of `include/steamclient/network/cmclient.hpp` and
  `src/network/cmclient.cpp`, with the commands of `src/routing/commands`.

  The members are the fields of `CMClient`.  The client is generic over its connection, as it is in
  the code: `IConnection` is the interface, and `E` is what the network does in one call of
  `network_connect`.

  `emit` calls user code, which may call the client again.  The definitions that can emit take
  `emit` as an argument; the tie is `emit` itself, where each nesting of callbacks costs one unit of
  fuel.

  Two members are not asked where one might expect it: `start_session` keeps `channel_secured_` as
  the last session left it, and `shutdown` does nothing unless the connection is CONNECTED.  Both
  are modelled as they are; what follows for whole runs is in `Reconnect.lean` and
  `Shutdown.lean`.

  Every call also writes what it did into `log`.  The record is the model's own: no function of
  the client reads it, and the theorems about runs speak of it.
-/
import SteamMin.Client.Events
import SteamMin.Crypto.EncryptionManager
import SteamMin.Net.TcpConnection

namespace SteamMin.Client

open Messages Crypto
open Net (ConnectionState)

/-- `IConnection`; of the frame handler, that it was set. -/
class IConnection (C : Type) (E : outParam Type) where
  state : C → ConnectionState
  networkConnect : E → EStateM Exn C Unit
  networkClose : C → C
  asyncSend : Bytes → C → C
  setOnFrame : C → C

/-- `is_connected()` -/
def IConnection.isConnected {C E : Type} [IConnection C E] (connection : C) : Bool :=
  IConnection.state connection = .connected

/-- The members of the class, the counter of `JobIDs`, and the record. -/
structure CMClient (C E : Type) where
  channelSecured : Bool
  connection : C
  crypto : EncryptionManager
  listeners : EventType → Option (Listener E)
  nextJobid : UInt64
  log : List Entry

/-- `CMClient(connection)`.  The counter of `JobIDs` is a static member, one for the whole process; it
    starts with the client here, which is then the only client of its process. -/
def CMClient.new {C E : Type} (connection : C) (crypto : EncryptionManager) : CMClient C E where
  channelSecured := false
  connection
  crypto
  listeners := fun _ => none
  nextJobid := 0
  log := []

/-- A call on a client. -/
abbrev Calling (C E α : Type) := EStateM Fault (CMClient C E) α

variable {C E : Type}

/-- One more line of the record. -/
def record (entry : Entry) : Calling C E Unit := modify fun c => { c with log := c.log ++ [entry] }

/-- `catch (const std::exception& e)` -/
def catchStd {α : Type} (x : Calling C E α) (handler : Exn → Calling C E α) : Calling C E α :=
  tryCatch x fun
    | .throws e => handler e
    | fault => throw fault

/-- What a call threw, if it did. -/
def attempt (x : Calling C E Unit) : Calling C E (Option Exn) :=
  catchStd (do x; pure none) fun e => pure (some e)

/-- A call on `crypto_`. -/
def onCrypto {α : Type} (x : EStateM Fault EncryptionManager α) : Calling C E α :=
  Calls.zoom CMClient.crypto (fun crypto c => { c with crypto }) x

/-- `JobIDs::generate_jobid()`, on the counter of the process. -/
def generateJobid : Calling C E UInt64 := do
  let id := (← get).nextJobid
  modify fun c => { c with nextJobid := id + 1 }
  pure id

/-- `on<Type>(callback)` -/
def on (type : EventType) (callback : Listener E) : Calling C E Unit :=
  modify fun c => { c with listeners := Function.update c.listeners type (some callback) }

section
variable [IConnection C E] (p : Platform)

/-- `set_channel_secured(val)` -/
def setChannelSecured (val : Bool) : Calling C E Unit := do
  let c ← get
  record (.securedSet val c.channelSecured (IConnection.isConnected c.connection))
  modify fun c => { c with channelSecured := val }

/-- `start_session`: the callback is set before the attempt.  The flag of an earlier session is not
    reset. -/
def startSession (net : E) : Calling C E Unit := do
  record .startCalled
  let c ← get
  let connection := IConnection.setOnFrame c.connection
  match IConnection.networkConnect net connection with
  | .error e connection =>
    set { c with connection }
    throw (.throws e)
  | .ok () connection =>
    set { c with connection }
    if IConnection.state c.connection = .disconnected then record (.started c.channelSecured)

/-- `shutdown`, which closes a connection that is CONNECTED and no other. -/
def shutdown : Calling C E Unit := do
  record .shutdownCalled
  modify fun c =>
    if IConnection.isConnected c.connection then
      { c with connection := IConnection.networkClose c.connection }
    else c

/-- `send_msg_impl`: through the encryption manager when the channel is secured, as it is when
    not. -/
def sendMsgImpl (buffer : Bytes) : Calling C E Unit := do
  let secured := (← get).channelSecured
  let message := buffer
  let buffer ←
    (if secured then onCrypto (EncryptionManager.processOutgoingEncryptedMessage p buffer)
     else pure buffer)
  record (.handed message buffer secured)
  modify fun c => { c with connection := IConnection.asyncSend buffer c.connection }

/-- `send_msg(msg)`; the argument is `msg.Serialize()`. -/
def sendMsg (serialized : Except Fault Bytes) : Calling C E Unit := do
  let buffer ← Calls.lift serialized
  sendMsgImpl p buffer

/-! ## Commands -/

variable (emit : Event → Calling C E Unit)

/-- The message of `exec_anon_logon`. -/
def anonLogonMessage : MsgProto CMsgClientLogon :=
  let msg : MsgProto CMsgClientLogon := .new EMsg.clientLogon .new
  let steamID := SteamID.make 0 0 EUniverse.pub EAccountType.anonUser
  let proto := { msg.header.proto with steamid := some steamID.convertToUInt64 }
  let body := { msg.body with
    clientPackageVersion := some 1561159470, protocolVersion := some 65580 }
  { msg with header := { msg.header with proto }, body }

/-- `exec_anon_logon`, refused by an event without a secured channel. -/
def execAnonLogon : Calling C E Unit := do
  if !(← get).channelSecured then
    emit (.clientLogon (.fail "Channel not secured") none none)
  else sendMsg p (anonLogonMessage.serialize p.protobuf.header p.protobuf.clientLogon)

/-- The message of `exec_logoff`; its body is that of a logon. -/
def logoffMessage : MsgProto CMsgClientLogon := .new EMsg.clientLogOff .new

/-- `exec_logoff`, which does nothing without one. -/
def execLogoff : Calling C E Unit := do
  if !(← get).channelSecured then pure ()
  else sendMsg p (logoffMessage.serialize p.protobuf.header p.protobuf.clientLogon)

/-- The message of `exec_get_product_info`. -/
def productInfoRequest (id : UInt32) (steamid : UInt64) (clientSessionid : Int32)
    (appToken jobid : UInt64) : MsgProto CMsgClientPICSProductInfoRequest :=
  let msg : MsgProto CMsgClientPICSProductInfoRequest :=
    .new EMsg.clientPICSProductInfoRequest .new
  let app : AppInfoRequest := { appid := some id, accessToken := some appToken }
  let msg := { msg with body := { msg.body with apps := msg.body.apps ++ [app] } }
  let msg := msg.setSourceJobID jobid
  let proto := { msg.header.proto with
    clientSessionid := some clientSessionid, steamid := some steamid }
  { msg with header := { msg.header with proto } }

/-- `exec_get_product_info`, which does not ask whether the channel is secured. -/
def execGetProductInfo (id : UInt32) (steamid : UInt64) (clientSessionid : Int32)
    (appToken : UInt64) : Calling C E Unit := do
  let jobid ← generateJobid
  let msg := productInfoRequest id steamid clientSessionid appToken jobid
  sendMsg p (msg.serialize p.protobuf.header p.protobuf.productInfoRequest)

/-- `execute(req)`, which runs the function registered for the type of the request. -/
def execute (command : Command) : Calling C E Unit := do
  record (.executed command (← get).channelSecured)
  match command with
  | .anonymousLogin => execAnonLogon p emit
  | .clientLogoff => execLogoff p
  | .getProductInfo id steamid clientSessionid appToken =>
    execGetProductInfo p id steamid clientSessionid appToken

/-! ## Events -/

/-- The run of a callback. -/
def runScript : Script E → Calling C E Unit
  | .ret => pure ()
  | .raise e => throw (.throws e)
  | .startSession net next => do
    let thrown ← attempt (startSession net)
    runScript (next thrown)
  | .shutdown next => do
    shutdown
    runScript next
  | .isConnected next => do
    let connected := IConnection.isConnected (← get).connection
    runScript (next connected)
  | .execute command next => do
    let thrown ← attempt (execute p emit command)
    runScript (next thrown)
  | .on type callback next => do
    on type callback
    runScript next

end

/-- `emit(event)`: the listener of its type is called, and what it throws is ignored. -/
def emit [IConnection C E] (p : Platform) : Nat → Event → Calling C E Unit
  | fuel, event => do
    record (.emitted event)
    let c ← get
    match c.listeners event.type with
    | none => pure ()
    | some callback =>
      match fuel with
      | 0 => throw .diverges
      | fuel + 1 => catchStd (runScript p (emit p fuel) (callback c.log event)) fun _ => pure ()

end SteamMin.Client
