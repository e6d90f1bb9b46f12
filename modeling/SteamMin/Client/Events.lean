/-
  EVENTS, COMMANDS AND CALLBACKS — `include/steamclient/events.hpp`, `external/event_emitter.h`.

  Commands go into the client, events come out of it.  What a user's callback does with an event is
  not the repository's code, but it may call the client again while a frame is still being handled.
  A callback is therefore a `Script`: it makes calls one after the other, each with a continuation
  for what the call came back with, and returns or throws in the end.  It sees the record of all
  that has happened so far, so a callback with a memory of its own is one of these too.

  `Entry` is one line of that record.  The code never reads it.

  A script is a tree: at each node a call of the client, below it the script for every way that
  call may come back.  Induction on scripts is therefore induction on what a callback does, and
  since the scripts of a program are arbitrary functions of the record and the event, a theorem
  about all scripts is one about all user code that ends.
-/
import SteamMin.Messages.Message
import SteamMin.Vdf.Node

namespace SteamMin.Client

open Messages

/-! ## Events -/

/-- `EventResult` -/
structure EventResult where
  success : Bool
  message : String
  deriving DecidableEq

/-- `EventResult::ok()` -/
def EventResult.ok : EventResult := ⟨true, ""⟩

/-- `EventResult::fail(msg)` -/
def EventResult.fail (msg : String) : EventResult := ⟨false, msg⟩

/-- `ProductInfoResult::ProductAppInfo` -/
structure ProductAppInfo where
  appid : UInt32
  sha : Bytes
  appinfo : Vdf.VDFNode

/-- `ProductInfoResult::ProductPackageInfo` -/
structure ProductPackageInfo where
  packageid : UInt32
  sha : Bytes
  pkginfo : Vdf.VDFNode

/-- The types that derive from `Event`.  The two last fields of a `ClientLogonEvent` that was made
    from a result only are not initialised: `none`. -/
inductive Event
  | channelSecured (result : EventResult)
  | clientLogon (result : EventResult) (steamid : Option UInt64) (clientSessionid : Option Int32)
  | msgNotImplemented (emsg : UInt32) (packet : IPacketMsg)
  | productInfoResult (apps : List ProductAppInfo) (packages : List ProductPackageInfo)

/-- `typeid` of an event, the key of its listener. -/
inductive EventType
  | channelSecured
  | clientLogon
  | msgNotImplemented
  | productInfoResult
  deriving DecidableEq

/-- The type an event is dispatched by. -/
def Event.type : Event → EventType
  | .channelSecured _ => .channelSecured
  | .clientLogon _ _ _ => .clientLogon
  | .msgNotImplemented _ _ => .msgNotImplemented
  | .productInfoResult _ _ => .productInfoResult

/-! ## Commands -/

/-- The types that derive from `Command`. -/
inductive Command
  | anonymousLogin
  | clientLogoff
  | getProductInfo (id : UInt32) (steamid : UInt64) (clientSessionid : Int32) (appToken : UInt64)
  deriving DecidableEq

/-- The command asks for product information. -/
def Command.IsProductInfo : Command → Prop
  | .getProductInfo _ _ _ _ => True
  | _ => False

/-! ## The record -/

/-- What is recorded of a run, in order: calls, frames, packets, buffers, events. -/
inductive Entry
  /-- `start_session` was called -/
  | startCalled
  /-- `shutdown` was called -/
  | shutdownCalled
  /-- `start_session` has begun a session; `channel_secured_` at that time -/
  | started (secured : Bool)
  /-- `consume_frame` was called with a frame that is not too short; `channel_secured_` then -/
  | consumed (frame : Bytes) (encrypt secured : Bool)
  /-- a raw packet was dispatched -/
  | dispatchedMsg (packet : PacketMsg)
  /-- a protobuf packet was dispatched -/
  | dispatchedProto (packet : PacketClientMsgProtobuf)
  | emitted (event : Event)
  /-- `set_channel_secured` was called; `channel_secured_` before, and whether the connection was
      connected then -/
  | securedSet (val secured connected : Bool)
  /-- `execute` was called; `channel_secured_` at that time -/
  | executed (command : Command) (secured : Bool)
  /-- `send_msg_impl` got `message` and handed `buffer` to `async_send`; `channel_secured_` then -/
  | handed (message buffer : Bytes) (secured : Bool)

/-! ## Callbacks -/

/-- What a callback does; `E` is what the network answers to a call of `start_session`. -/
inductive Script (E : Type)
  | ret
  | raise (e : Exn)
  | startSession (net : E) (next : Option Exn → Script E)
  | shutdown (next : Script E)
  | isConnected (next : Bool → Script E)
  | execute (command : Command) (next : Option Exn → Script E)
  | on (type : EventType) (callback : List Entry → Event → Script E) (next : Script E)

/-- A callback, given the record so far and its event. -/
abbrev Listener (E : Type) := List Entry → Event → Script E

end SteamMin.Client
