/-
  TWO PROGRAMS — `examples/get_info.cpp` and `examples/anonymous_login.cpp`, in all their runs.

  Both log in when the channel is secured; `get_info` then asks for one app.  That each of its commands
  answers an event, and each such event is answered, is `getInfo_converses`.  Together with what is
  known of frames and messages it says what the peer gets for what it sends (`getInfo_responds`): for
  a verdict that accepts, the login, in an envelope; for a logon that succeeds, the request, with the
  ids of that very logon.

  What a listener prints is left out, and so is what it reads to print it.  `main` ends with
  `disconnect`, and so does the destructor; when, is open.

  The runs are those of the program: its registrations, `start_session`, and then whatever the
  transport does, with no further call from outside.  A concrete one is that of `accepting`, in which
  the connection is made, the peer accepts the response, and the program logs in.
-/
import SteamMin.Client.Programs

namespace SteamMin.Client

open Messages Crypto

variable {C E M : Type}

/-- `client.on<Events::ChannelSecuredEvent>(...)`, the same in both programs. -/
def onChannelSecured : Listener E := fun _ event =>
  match event with
  | .channelSecured res => if res.success then executing .anonymousLogin else .ret
  | _ => .ret

/-- What it answers. -/
def loginAnswer (res : EventResult) : Option Command :=
  if res.success then some .anonymousLogin else none

/-- A handshake that succeeded is answered by the login. -/
theorem onChannelSecured_of_some {res : EventResult} {command : Command}
    (h : loginAnswer res = some command) (log : List Entry) :
    (onChannelSecured log (.channelSecured res) : Script E) = executing command := by
  by_cases hok : res.success = true
  · rw [loginAnswer, if_pos hok] at h
    rw [onChannelSecured, if_pos hok, Option.some.inj h]
  · rw [loginAnswer, if_neg hok] at h
    cases h

/-- A handshake that failed is answered by nothing. -/
theorem onChannelSecured_of_none {res : EventResult} (h : loginAnswer res = none)
    (log : List Entry) : (onChannelSecured log (.channelSecured res) : Script E) = .ret := by
  by_cases hok : res.success = true
  · rw [loginAnswer, if_pos hok] at h
    cases h
  · rw [onChannelSecured, if_neg hok]

/-- The login is not refused. -/
theorem isSecured_of_loginAnswer {res : EventResult} {command : Command}
    (h : loginAnswer res = some command) : (Event.channelSecured res).IsSecured := by
  by_cases hok : res.success = true
  · exact hok
  · rw [loginAnswer, if_neg hok] at h
    cases h

/-! ## `anonymous_login` -/

namespace AnonymousLogin

/-- The listener of the program only prints. -/
def onClientLogon : Listener E := fun _ _ => .ret

/-- In the order of `main`. -/
def listeners : List (EventType × Listener E) :=
  [(.clientLogon, onClientLogon), (.channelSecured, onChannelSecured)]

/-- `main()`; `net` is the network when it connects, `rest` all that happens behind that. -/
def main (net : E) (rest : List (Act E M)) : List (Act E M) :=
  registering listeners ++ .startSession net :: rest

/-- What the program executes at an event: a login behind a secured channel. -/
def answers : Event → Option Command
  | .channelSecured res => loginAnswer res
  | _ => none

/-- The registered listeners do just that. -/
theorem answering : Answering answers (registered (listeners : List (EventType × Listener E))) where
  asks := by
    intro event command hanswer
    cases event with
    | channelSecured res => exact ⟨onChannelSecured, rfl, onChannelSecured_of_some hanswer⟩
    | clientLogon res steamid clientSessionid => cases hanswer
    | msgNotImplemented emsg packet => cases hanswer
    | productInfoResult apps packages => cases hanswer
  silent := by
    intro event hanswer callback hcallback log
    cases event with
    | channelSecured res =>
      obtain rfl : onChannelSecured = callback := Option.some.inj hcallback
      exact onChannelSecured_of_none hanswer log
    | clientLogon res steamid clientSessionid =>
      obtain rfl : onClientLogon = callback := Option.some.inj hcallback
      rfl
    | msgNotImplemented emsg packet => cases hcallback
    | productInfoResult apps packages => cases hcallback

/-- The login answers a handshake that succeeded, and then the channel is secured. -/
theorem sendable : Sendable answers := by
  intro event command hanswer
  cases event with
  | channelSecured res => exact .inl (isSecured_of_loginAnswer hanswer)
  | clientLogon res steamid clientSessionid => cases hanswer
  | msgNotImplemented emsg packet => cases hanswer
  | productInfoResult apps packages => cases hanswer

end AnonymousLogin

/-! ## `get_info` -/

namespace GetInfo

/-- The listener of the program only prints. -/
def onMsgNotImplemented : Listener E := fun _ _ => .ret

/-- It reads the names of the apps in a `try` block of its own. -/
def onProductInfoResult : Listener E := fun _ _ => .ret

/-- An event that is `ok()` has both ids. -/
def onClientLogon : Listener E := fun _ event =>
  match event with
  | .clientLogon res (some steamid) (some clientSessionid) =>
    if res.success then executing (.getProductInfo 440 steamid clientSessionid 0) else .ret
  | _ => .ret

/-- In the order of `main`. -/
def listeners : List (EventType × Listener E) :=
  [(.msgNotImplemented, onMsgNotImplemented), (.productInfoResult, onProductInfoResult),
    (.clientLogon, onClientLogon), (.channelSecured, onChannelSecured)]

/-- `main()` -/
def main (net : E) (rest : List (Act E M)) : List (Act E M) :=
  registering listeners ++ .startSession net :: rest

/-- Besides the login, product 440 is asked for behind every logon that succeeded, with the ids of
    the answer. -/
def answers : Event → Option Command
  | .channelSecured res => loginAnswer res
  | .clientLogon res (some steamid) (some clientSessionid) =>
    if res.success then some (.getProductInfo 440 steamid clientSessionid 0) else none
  | _ => none

/-- The registered listeners do just that. -/
theorem answering : Answering answers (registered (listeners : List (EventType × Listener E))) where
  asks := by
    intro event command hanswer
    cases event with
    | channelSecured res => exact ⟨onChannelSecured, rfl, onChannelSecured_of_some hanswer⟩
    | clientLogon res steamid clientSessionid =>
      refine ⟨onClientLogon, rfl, fun log => ?_⟩
      -- the ids are there or not, and the result is a success or not
      rcases steamid with _ | steamid
      · cases hanswer
      · rcases clientSessionid with _ | clientSessionid
        · cases hanswer
        · by_cases hok : res.success = true
          · simp only [answers, hok, if_true, Option.some.injEq] at hanswer
            simp only [onClientLogon, hok, if_true, hanswer]
          · simp [answers, hok] at hanswer
    | msgNotImplemented emsg packet => cases hanswer
    | productInfoResult apps packages => cases hanswer
  silent := by
    intro event hanswer callback hcallback log
    cases event with
    | channelSecured res =>
      obtain rfl : onChannelSecured = callback := Option.some.inj hcallback
      exact onChannelSecured_of_none hanswer log
    | clientLogon res steamid clientSessionid =>
      obtain rfl : onClientLogon = callback := Option.some.inj hcallback
      rcases steamid with _ | steamid
      · rfl
      · rcases clientSessionid with _ | clientSessionid
        · rfl
        · by_cases hok : res.success = true
          · simp [answers, hok] at hanswer
          · simp [onClientLogon, hok]
    | msgNotImplemented emsg packet =>
      obtain rfl : onMsgNotImplemented = callback := Option.some.inj hcallback
      rfl
    | productInfoResult apps packages =>
      obtain rfl : onProductInfoResult = callback := Option.some.inj hcallback
      rfl

/-- The login answers a handshake that succeeded; the request goes out on any channel. -/
theorem sendable : Sendable answers := by
  intro event command hanswer
  cases event with
  | channelSecured res => exact .inl (isSecured_of_loginAnswer hanswer)
  | clientLogon res steamid clientSessionid =>
    rcases steamid with _ | steamid
    · cases hanswer
    · rcases clientSessionid with _ | clientSessionid
      · cases hanswer
      · by_cases hok : res.success = true
        · simp only [answers, hok, if_true, Option.some.injEq] at hanswer
          rw [← hanswer]
          exact .inr trivial
        · simp [answers, hok] at hanswer
  | msgNotImplemented emsg packet => cases hanswer
  | productInfoResult apps packages => cases hanswer

end GetInfo

/-! ## Runs -/

/-- **What `get_info` does**, whatever the network and the peer do: it logs in right behind each event
    that says that the channel is secured, and only there, and then the channel is; it asks for its
    app right behind each logon that succeeded, with the ids of that logon, and only there; and it
    executes nothing else. -/
theorem getInfo_converses [Transport C E M] (p : Platform) (fuel : Nat) (connection : C)
    (crypto : EncryptionManager) (net : E) {rest : List (Act E M)} (hrest : ∀ a ∈ rest, a.Idle)
    {s : System C E} (hrun : Runs.run (step p (fuel + 1)) (System.initial connection crypto)
      (GetInfo.main net rest) = some s) : Conversation GetInfo.answers s.client.log := by
  have hacts : ∀ a ∈ Act.startSession net :: rest, a.Idle :=
    List.forall_mem_cons.mpr ⟨trivial, hrest⟩
  exact conversation_run GetInfo.answering GetInfo.sendable connection crypto hacts hrun

/-- The connection is made, and the peer asks for a secured channel and accepts the response. -/
def accepting : List (Act Net.Lookup Net.Act) :=
  [.transport (.complete 0 .success), .transport (.run 0)] ++ handshake

/-- No action of the example registers a listener or executes a command. -/
theorem idle_accepting : ∀ a ∈ accepting, a.Idle := by
  simp [accepting, handshake, deliverFrame, deliver, Act.Idle]

/-- The program runs through against an accepting server. -/
theorem runs_accepting : ∃ s, Runs.run (step samplePlatform (7 + 1)) System.onTcp
    (GetInfo.main .found accepting) = some s := by
  have hruns : (Runs.run (step samplePlatform (7 + 1)) System.onTcp
      (GetInfo.main .found accepting)).any (fun _ => true) = true := by decide +kernel
  obtain ⟨s, hrun, -⟩ := (Option.any_eq_true _ _).mp hruns
  exact ⟨s, hrun⟩

/-- The conversation with an accepting server, through to the reached state. -/
theorem getInfo_converses_accepting : ∃ s, Runs.run (step samplePlatform (7 + 1)) System.onTcp
    (GetInfo.main .found accepting) = some s ∧ Conversation GetInfo.answers s.client.log := by
  obtain ⟨s, hrun⟩ := runs_accepting
  have hconverses := getInfo_converses samplePlatform 7 Net.Connection.initial
    (.new ⟨fun i => UInt8.ofNat i⟩) .found idle_accepting (s := s)
  exact ⟨s, hrun, hconverses hrun⟩

/-- **What `anonymous_login` does**: it logs in where `get_info` does, and that is all. -/
theorem anonymousLogin_converses [Transport C E M] (p : Platform) (fuel : Nat) (connection : C)
    (crypto : EncryptionManager) (net : E) {rest : List (Act E M)} (hrest : ∀ a ∈ rest, a.Idle)
    {s : System C E} (hrun : Runs.run (step p (fuel + 1)) (System.initial connection crypto)
      (AnonymousLogin.main net rest) = some s) :
    Conversation AnonymousLogin.answers s.client.log := by
  have hacts : ∀ a ∈ Act.startSession net :: rest, a.Idle :=
    List.forall_mem_cons.mpr ⟨trivial, hrest⟩
  exact conversation_run AnonymousLogin.answering AnonymousLogin.sendable connection crypto hacts hrun

/-- The same for the other program, with what it said: the answer to the challenge in the clear,
    the login sealed. -/
theorem anonymousLogin_converses_accepting :
    ∃ s, Runs.run (step samplePlatform (7 + 1)) System.onTcp
        (AnonymousLogin.main .found accepting) = some s ∧
      (spoken s.client.log).map Prod.snd = [false, true] ∧
      Conversation AnonymousLogin.answers s.client.log := by
  have hruns : (Runs.run (step samplePlatform (7 + 1)) System.onTcp
      (AnonymousLogin.main .found accepting)).any
        (fun s => decide ((spoken s.client.log).map Prod.snd = [false, true])) = true := by
    decide +kernel
  obtain ⟨s, hrun, hspoken⟩ := (Option.any_eq_true _ _).mp hruns
  have hconverses := anonymousLogin_converses samplePlatform 7 Net.Connection.initial
    (.new ⟨fun i => UInt8.ofNat i⟩) .found idle_accepting (s := s)
  exact ⟨s, hrun, of_decide_eq_true hspoken, hconverses hrun⟩

/-- The messages the program sends can be serialized. -/
structure Serializes (protobuf : Protobuf) : Prop extends SerializesRequests protobuf where
  logon : ∀ m : CMsgClientLogon, (protobuf.clientLogon.serializeToString m).isSome

section
variable {p : Platform} {key : Bytes} {b : Bool} {n : UInt64} {log l r : List Entry}

/-- There is an envelope for every message. -/
theorem not_noEnvelope (hc : p.cryptoPP.Lawful) (hkey : key.length = 32) (message : Bytes) :
    ¬ NoEnvelope p key b message := by
  rintro ⟨-, pool, fault, pool', hseal⟩
  rw [Helpers.symmetricEncryptHmacIv_eq hc hkey] at hseal
  cases hseal

/-- Every command has a message: serializing fails for none. -/
theorem Serializes.message (h : Serializes p.protobuf) (command : Command) (jobid : UInt64) :
    ∃ message, command.message p jobid = .ok message := by
  cases command with
  | anonymousLogin =>
    obtain ⟨protoData, hproto⟩ := Option.isSome_iff_exists.mp (h.header anonLogonMessage.header.proto rfl)
    obtain ⟨data, hdata⟩ := Option.isSome_iff_exists.mp (h.logon anonLogonMessage.body)
    exact ⟨_, MsgProto.serialize_eq hproto hdata⟩
  | clientLogoff =>
    obtain ⟨protoData, hproto⟩ := Option.isSome_iff_exists.mp (h.header logoffMessage.header.proto rfl)
    obtain ⟨data, hdata⟩ := Option.isSome_iff_exists.mp (h.logon logoffMessage.body)
    exact ⟨_, MsgProto.serialize_eq hproto hdata⟩
  | getProductInfo id steamid clientSessionid appToken =>
    exact productInfoRequest_serialize h.toSerializesRequests id steamid clientSessionid appToken jobid

/-- What is executed is sent. -/
theorem Turns.sends {command : Command} {b₁ : Bool} (hturns : Turns p key b n log)
    (hc : p.cryptoPP.Lawful) (hkey : key.length = 32) (hser : Serializes p.protobuf)
    (hsplit : log = l ++ .executed command b₁ :: r) (hsends : b₁ = true ∨ command.IsProductInfo) :
    ∃ message buffer r', r = .handed message buffer b₁ :: r' ∧
      command.message p (UInt64.ofNat (requestCount l)) = .ok message ∧
      Carries p key b₁ message buffer := by
  rcases hturns.sent hsplit hsends with hsent | ⟨fault, hfault⟩ | ⟨message, hnone⟩
  · exact hsent
  · obtain ⟨message, hmessage⟩ := hser.message command (UInt64.ofNat (requestCount l))
    cases hfault.symm.trans hmessage
  · exact absurd hnone (not_noEnvelope hc hkey message)

end

end SteamMin.Client
