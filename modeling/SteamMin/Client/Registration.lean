/-
  REGISTERED HANDLERS: which one does a packet meet?

  Every handler is registered by a static object, whose constructor writes its slot of `g_dispatch`
  (`include/steamclient/routing/events/register.hpp`).  The objects of different translation units
  are constructed in no fixed order, so `registerAll` takes them in any.

  Seen through `DispatchTable.handler` the two tables are one map from packets to calls, and both
  dispatchers look the packet up in it (`dispatch_eq`).  With distinct keys the order makes no
  difference (`registerAll_perm`): a packet meets the handler of its key.  What stands between this
  and every message type is the last one: the tables have `MAX_EMSG` slots, and the dispatchers look
  at slot `MAX_EMSG` as well (`serves_iff`).

  A registration is data: which table, which slot, which function.  Constructing it in C++ writes
  the slot without a check, so one beyond the table is undefined behaviour at start-up, before any
  packet; the registrations of the repository are all inside (`registrations_inBounds`) and name
  distinct slots.
-/
import SteamMin.Client.System
import Mathlib.Data.List.Nodup

namespace SteamMin.Client

open Messages

variable {C E : Type}

/-! ## Registering

  The constructors of the static objects write their handlers into the table, without looking at
  its size. -/

/-- `DispatchTable()` -/
def DispatchTable.new : DispatchTable C E := ⟨fun _ => none, fun _ => none⟩

/-- `table[id] = fn`, for an array of `MAX_EMSG` slots. -/
def setSlot {H : Type} (table : Nat → Option H) (id : Nat) (fn : H) :
    Except Fault (Nat → Option H) :=
  if id < MAX_EMSG then .ok (Function.update table id (some fn)) else .error .undefined

/-- A static object of type `ProtoRegister<Msg, Fn>` or `MsgRegister<Msg, Fn>`. -/
inductive Registration (C E : Type)
  | protoRegister (msg : EMsg) (fn : PacketClientMsgProtobuf → Calling C E Unit)
  | msgRegister (msg : EMsg) (fn : PacketMsg → Calling C E Unit)

/-- Its constructor. -/
def Registration.construct (table : DispatchTable C E) :
    Registration C E → Except Fault (DispatchTable C E)
  | .protoRegister msg fn => do
    let proto ← setSlot table.proto msg.toNat fn
    pure { table with proto }
  | .msgRegister msg fn => do
    let slots ← setSlot table.msg msg.toNat fn
    pure { table with msg := slots }

/-- `g_dispatch` behind the constructors. -/
def registerAll (regs : List (Registration C E)) : Except Fault (DispatchTable C E) :=
  regs.foldlM Registration.construct .new

/-- The registrations of `src/routing/events/handlers`. -/
def registrations [IConnection C E] (emit : Event → Calling C E Unit) (p : Platform)
    (consumeFrame : Bytes → Bool → Calling C E Unit) : List (Registration C E) :=
  [.msgRegister EMsg.channelEncryptRequest (handleEncryptRequest emit p),
   .msgRegister EMsg.channelEncryptResult (handleEncryptResult emit),
   .protoRegister EMsg.clientLogOnResponse (handleLogonResponse emit p),
   .protoRegister EMsg.multi (handleMulti p consumeFrame),
   .protoRegister EMsg.clientPICSProductInfoResponse (handleProdInfoResponse emit p)]

/-! ## Keys

  A registration names one slot of one of the two tables, and a packet is looked up in one
  slot. -/

/-- One of the two tables. -/
inductive Table
  | proto
  | msg
  deriving DecidableEq

/-- The slot that is written. -/
def Registration.key : Registration C E → Table × EMsg
  | .protoRegister msg _ => (.proto, msg)
  | .msgRegister msg _ => (.msg, msg)

/-- The slot a dispatcher looks at: the mask bit of a protobuf message is removed. -/
def slotOf : IPacketMsg → Table × EMsg
  | .proto packet => (.proto, getMsg packet.msgType)
  | .raw packet => (.msg, packet.msgType)

/-- The call of the packet's handler, if this is the registration of its slot. -/
def Registration.handles : Registration C E → IPacketMsg → Option (Calling C E Unit)
  | .protoRegister msg fn, .proto packet =>
    if msg = getMsg packet.msgType then some (fn packet) else none
  | .msgRegister msg fn, .raw packet => if msg = packet.msgType then some (fn packet) else none
  | _, _ => none

/-- `dispatch_proto` and `dispatch_msg` -/
def dispatch (table : DispatchTable C E) (emit : Event → Calling C E Unit) :
    IPacketMsg → Calling C E Unit
  | .proto packet => dispatchProto table emit packet
  | .raw packet => dispatchMsg table emit packet

/-- The client behind the first line of a dispatcher. -/
def CMClient.receiving (c : CMClient C E) : IPacketMsg → CMClient C E
  | .proto packet => { c with log := c.log ++ [.dispatchedProto packet] }
  | .raw packet => { c with log := c.log ++ [.dispatchedMsg packet] }

/-- With these registrations, made in this order, the packet meets the handler that is registered
    for its message type, and no other; without one it meets none. -/
def Serves (regs : List (Registration C E)) (packet : IPacketMsg) (c : CMClient C E) : Prop :=
  ∃ table, registerAll regs = .ok table ∧ ∀ emit,
    (∀ reg ∈ regs, ∀ call, reg.handles packet = some call →
      dispatch table emit packet c = call (c.receiving packet)) ∧
    ((∀ reg ∈ regs, reg.handles packet = none) →
      dispatch table emit packet c
          = emit (.msgNotImplemented (slotOf packet).2 packet) (c.receiving packet) ∨
        dispatch table emit packet c = .ok () (c.receiving packet))

/-! ## The tables as one map

  From here on a table is what it answers for each packet. -/

/-- What stands in the packet's slot. -/
def DispatchTable.handler (table : DispatchTable C E) : IPacketMsg → Option (Calling C E Unit)
  | .proto packet => (table.proto (getMsg packet.msgType).toNat).map fun fn => fn packet
  | .raw packet => (table.msg packet.msgType.toNat).map fun fn => fn packet

variable {table table' : DispatchTable C E} {reg reg' : Registration C E}
  {regs regs' : List (Registration C E)} {packet : IPacketMsg} {call : Calling C E Unit}

/-- A registration answers for the slot it names and for no other. -/
theorem handles_of_ne (h : reg.key ≠ slotOf packet) : reg.handles packet = none := by
  cases reg with
  | protoRegister msg fn =>
    cases packet with
    | proto packet => exact if_neg fun heq => h (by rw [Registration.key, slotOf, heq])
    | raw packet => rfl
  | msgRegister msg fn =>
    cases packet with
    | proto packet => rfl
    | raw packet => exact if_neg fun heq => h (by rw [Registration.key, slotOf, heq])

/-- Its slot is written. -/
def DispatchTable.put (table : DispatchTable C E) : Registration C E → DispatchTable C E
  | .protoRegister msg fn =>
    { table with proto := Function.update table.proto msg.toNat (some fn) }
  | .msgRegister msg fn => { table with msg := Function.update table.msg msg.toNat (some fn) }

/-- The slot exists. -/
def Registration.InBounds (reg : Registration C E) : Prop := reg.key.2.toNat < MAX_EMSG

/-- A registration inside the table fills its slot. -/
theorem construct_of_inBounds (h : reg.InBounds) : reg.construct table = .ok (table.put reg) := by
  cases reg with
  | protoRegister msg fn =>
    have hslot : setSlot table.proto msg.toNat fn = .ok _ := if_pos h
    rw [Registration.construct, hslot]
    rfl
  | msgRegister msg fn =>
    have hslot : setSlot table.msg msg.toNat fn = .ok _ := if_pos h
    rw [Registration.construct, hslot]
    rfl

/-- A registration behind the table writes behind it. -/
theorem construct_of_not_inBounds (h : ¬ reg.InBounds) :
    reg.construct table = .error .undefined := by
  cases reg with
  | protoRegister msg fn =>
    have hslot : setSlot table.proto msg.toNat fn = .error .undefined := if_neg h
    rw [Registration.construct, hslot]
    rfl
  | msgRegister msg fn =>
    have hslot : setSlot table.msg msg.toNat fn = .error .undefined := if_neg h
    rw [Registration.construct, hslot]
    rfl

/-- Registrations inside the table fill their slots one after the other. -/
theorem foldlM_construct (h : ∀ reg ∈ regs, reg.InBounds) (table : DispatchTable C E) :
    regs.foldlM Registration.construct table = .ok (regs.foldl DispatchTable.put table) := by
  induction regs generalizing table with
  | nil => rfl
  | cons reg regs ih =>
    have hreg : reg.InBounds := h reg List.mem_cons_self
    have hrest : ∀ reg ∈ regs, reg.InBounds := fun reg hmem => h reg (List.mem_cons_of_mem _ hmem)
    rw [List.foldlM_cons, construct_of_inBounds hreg]
    exact ih hrest (table.put reg)

/-- One behind the table spoils the sequence, wherever it stands. -/
theorem foldlM_construct_overrun (h : ¬ ∀ reg ∈ regs, reg.InBounds) (table : DispatchTable C E) :
    regs.foldlM Registration.construct table = .error .undefined := by
  induction regs generalizing table with
  | nil => exact absurd (fun reg hmem => absurd hmem List.not_mem_nil) h
  | cons reg regs ih =>
    rw [List.foldlM_cons]
    by_cases hreg : reg.InBounds
    · rw [construct_of_inBounds hreg]
      refine ih (fun hrest => h ?_) (table.put reg)
      intro reg' hmem
      rcases List.mem_cons.mp hmem with rfl | hmem
      · exact hreg
      · exact hrest reg' hmem
    · rw [construct_of_not_inBounds hreg]
      rfl

/-- The table that the registrations leave behind. -/
theorem registerAll_of_inBounds (h : ∀ reg ∈ regs, reg.InBounds) :
    registerAll regs = .ok (regs.foldl DispatchTable.put .new) := foldlM_construct h .new

/-- No table at all, if one of them is behind its end. -/
theorem registerAll_overrun (h : ¬ ∀ reg ∈ regs, reg.InBounds) :
    registerAll regs = .error .undefined := foldlM_construct_overrun h .new

/-! ## The order of registrations

  Writes to different slots commute, and the slots of the program are different. -/

/-- Registrations of different slots may be exchanged: the order of initialization is free. -/
theorem put_comm (h : reg.key ≠ reg'.key) :
    (table.put reg).put reg' = (table.put reg').put reg := by
  have hid {msg msg' : EMsg} (hne : msg ≠ msg') : msg.toNat ≠ msg'.toNat := by
    intro heq
    exact hne (UInt32.toNat_inj.mp heq)
  cases reg with
  | protoRegister msg fn =>
    cases reg' with
    | protoRegister msg' fn' =>
      have hne : msg ≠ msg' := fun heq => h (by rw [Registration.key, Registration.key, heq])
      simp only [DispatchTable.put, Function.update_comm (hid hne)]
    | msgRegister msg' fn' => rfl
  | msgRegister msg fn =>
    cases reg' with
    | protoRegister msg' fn' => rfl
    | msgRegister msg' fn' =>
      have hne : msg ≠ msg' := fun heq => h (by rw [Registration.key, Registration.key, heq])
      simp only [DispatchTable.put, Function.update_comm (hid hne)]

/-- **Order**: the static objects may be constructed in any order. -/
theorem registerAll_perm (hperm : regs.Perm regs')
    (hdistinct : (regs.map Registration.key).Nodup) : registerAll regs = registerAll regs' := by
  by_cases h : ∀ reg ∈ regs, reg.InBounds
  · have h' : ∀ reg ∈ regs', reg.InBounds := fun reg hmem => h reg (hperm.mem_iff.mpr hmem)
    rw [registerAll_of_inBounds h, registerAll_of_inBounds h']
    refine congrArg Except.ok (hperm.foldl_eq' ?_ DispatchTable.new)
    intro reg hreg reg' hreg' table
    by_cases heq : reg = reg'
    · rw [heq]
    · refine put_comm ?_
      intro hkey
      exact heq (List.inj_on_of_nodup_map hdistinct hreg hreg' hkey)
  · have h' : ¬ ∀ reg ∈ regs', reg.InBounds :=
      fun h' => h fun reg hmem => h' reg (hperm.mem_iff.mp hmem)
    rw [registerAll_overrun h, registerAll_overrun h']

section
variable [IConnection C E] (emit : Event → Calling C E Unit) (p : Platform)
  (consumeFrame : Bytes → Bool → Calling C E Unit)

/-- The keys of the handlers in `src/routing/events/handlers`. -/
def registeredKeys : List (Table × EMsg) :=
  [(.msg, EMsg.channelEncryptRequest), (.msg, EMsg.channelEncryptResult),
   (.proto, EMsg.clientLogOnResponse), (.proto, EMsg.multi),
   (.proto, EMsg.clientPICSProductInfoResponse)]

/-- The slots that the program's own registrations name. -/
theorem key_registrations :
    (registrations emit p consumeFrame).map Registration.key = registeredKeys := rfl

/-- No two of them name one slot. -/
theorem registrations_distinct :
    ((registrations emit p consumeFrame).map Registration.key).Nodup := by
  rw [key_registrations]
  decide

/-- All of them are inside the table. -/
theorem registrations_inBounds : ∀ reg ∈ registrations emit p consumeFrame, reg.InBounds := by
  have hkeys : ∀ key ∈ registeredKeys, key.2.toNat < MAX_EMSG := by decide
  intro reg hmem
  refine hkeys reg.key ?_
  rw [← key_registrations emit p consumeFrame]
  exact List.mem_map_of_mem hmem

/-- So `gDispatch` is what `g_dispatch` has become when `main` starts. -/
theorem registerAll_registrations (hperm : (registrations emit p consumeFrame).Perm regs) :
    registerAll regs = .ok (gDispatch emit p consumeFrame) := by
  rw [← registerAll_perm hperm (registrations_distinct emit p consumeFrame),
    registerAll_of_inBounds (registrations_inBounds emit p consumeFrame)]
  refine congrArg Except.ok (congrArg₂ DispatchTable.mk (funext fun id => ?_) (funext fun id => ?_))
  · by_cases hmulti : id = EMsg.multi.toNat
    · rw [hmulti]
      rfl
    · by_cases hlogon : id = EMsg.clientLogOnResponse.toNat
      · rw [hlogon]
        rfl
      · rw [if_neg hmulti, if_neg hlogon]
        simp only [DispatchTable.put, Function.update_apply, if_neg hmulti, if_neg hlogon]
        rfl
  · by_cases hrequest : id = EMsg.channelEncryptRequest.toNat
    · rw [hrequest]
      rfl
    · rw [if_neg hrequest]
      simp only [DispatchTable.put, Function.update_apply, if_neg hrequest]
      rfl

end

/-! ## The handler of a packet

  What the table answers after a sequence of registrations. -/

/-- An empty table handles nothing. -/
theorem handler_new (packet : IPacketMsg) :
    (DispatchTable.new : DispatchTable C E).handler packet = none := by
  cases packet with
  | proto packet => rfl
  | raw packet => rfl

/-- The last registration of the slot counts. -/
theorem handler_put (table : DispatchTable C E) (reg : Registration C E) (packet : IPacketMsg) :
    (table.put reg).handler packet = (reg.handles packet).or (table.handler packet) := by
  cases reg with
  | protoRegister msg fn =>
    cases packet with
    | proto packet =>
      show (Function.update table.proto msg.toNat (some fn) (getMsg packet.msgType).toNat).map _
        = (if msg = getMsg packet.msgType then some (fn packet) else none).or _
      -- the slot is this one or another; types are slots, as no two numbers are one type
      by_cases hmsg : msg = getMsg packet.msgType
      · rw [if_pos hmsg, hmsg, Function.update_self]
        rfl
      · rw [if_neg hmsg, Function.update_of_ne fun heq => hmsg (UInt32.toNat_inj.mp heq.symm)]
        rfl
    | raw packet => rfl
  | msgRegister msg fn =>
    cases packet with
    | proto packet => rfl
    | raw packet =>
      show (Function.update table.msg msg.toNat (some fn) packet.msgType.toNat).map _
        = (if msg = packet.msgType then some (fn packet) else none).or _
      by_cases hmsg : msg = packet.msgType
      · rw [if_pos hmsg, hmsg, Function.update_self]
        rfl
      · rw [if_neg hmsg, Function.update_of_ne fun heq => hmsg (UInt32.toNat_inj.mp heq.symm)]
        rfl

/-- Registrations of other slots do not matter for a packet. -/
theorem handler_foldl_of_none (h : ∀ reg ∈ regs, reg.handles packet = none)
    (table : DispatchTable C E) :
    (regs.foldl DispatchTable.put table).handler packet = table.handler packet := by
  induction regs generalizing table with
  | nil => rfl
  | cons reg regs ih =>
    have hrest : ∀ reg ∈ regs, reg.handles packet = none :=
      fun reg hmem => h reg (List.mem_cons_of_mem _ hmem)
    rw [List.foldl_cons, ih hrest, handler_put, h reg List.mem_cons_self]
    rfl

/-- With distinct slots the one registration that names the packet's slot is the one that
    answers. -/
theorem handler_foldl_of_mem (hdistinct : (regs.map Registration.key).Nodup) (hreg : reg ∈ regs)
    (hcall : reg.handles packet = some call) (table : DispatchTable C E) :
    (regs.foldl DispatchTable.put table).handler packet = some call := by
  have hkey : reg.key = slotOf packet := by
    by_contra hne
    cases (handles_of_ne hne).symm.trans hcall
  obtain ⟨l₁, l₂, rfl⟩ := List.append_of_mem hreg
  have hbehind : ∀ reg' ∈ l₂, reg'.handles packet = none := by
    intro reg' hmem
    refine handles_of_ne ?_
    rw [← hkey]
    intro heq
    rw [List.map_append, List.map_cons] at hdistinct
    have hnot := (List.nodup_cons.mp (List.nodup_append.mp hdistinct).2.1).1
    exact hnot (heq ▸ List.mem_map_of_mem hmem)
  rw [List.foldl_append, List.foldl_cons, handler_foldl_of_none hbehind, handler_put, hcall]
  rfl

/-! ## Dispatching

  The dispatcher compares the type with the size of the table by `>`, so there are three cases:
  inside, one behind, and further on. -/

section
variable (emit : Event → Calling C E Unit) (c : CMClient C E)

/-- Both dispatchers look the packet up. -/
theorem dispatch_eq (table : DispatchTable C E) (packet : IPacketMsg) :
    dispatch table emit packet c
      = (if (slotOf packet).2.toNat ≤ MAX_EMSG then
           if (slotOf packet).2.toNat < MAX_EMSG then
             (table.handler packet).getD (emit (.msgNotImplemented (slotOf packet).2 packet))
           else throw .undefined
         else pure ()) (c.receiving packet) := by
  cases packet with
  | proto packet =>
    refine congrArg (fun x : Calling C E Unit => x (c.receiving (.proto packet))) ?_
    refine if_congr Iff.rfl ?_ rfl
    show (Calls.lift (slot table.proto (getMsg packet.msgType).toNat) >>= _)
      = if (getMsg packet.msgType).toNat < MAX_EMSG then
          ((table.proto (getMsg packet.msgType).toNat).map fun fn => fn packet).getD _ else _
    rw [slot]
    split
    · cases table.proto (getMsg packet.msgType).toNat <;> rfl
    · rfl
  | raw packet =>
    refine congrArg (fun x : Calling C E Unit => x (c.receiving (.raw packet))) ?_
    refine if_congr Iff.rfl ?_ rfl
    show (Calls.lift (slot table.msg packet.msgType.toNat) >>= _)
      = if packet.msgType.toNat < MAX_EMSG then
          ((table.msg packet.msgType.toNat).map fun fn => fn packet).getD _ else _
    rw [slot]
    split
    · cases table.msg packet.msgType.toNat <;> rfl
    · rfl

/-- A packet whose slot is filled is handed over, behind the entry that records it. -/
theorem dispatch_handled (hid : (slotOf packet).2.toNat < MAX_EMSG)
    (h : table.handler packet = some call) :
    dispatch table emit packet c = call (c.receiving packet) := by
  have hle : (slotOf packet).2.toNat ≤ MAX_EMSG := by omega
  rw [dispatch_eq, if_pos hle, if_pos hid, h]
  rfl

/-- An empty slot: the user is told. -/
theorem dispatch_unhandled (hid : (slotOf packet).2.toNat < MAX_EMSG)
    (h : table.handler packet = none) :
    dispatch table emit packet c
      = emit (.msgNotImplemented (slotOf packet).2 packet) (c.receiving packet) := by
  have hle : (slotOf packet).2.toNat ≤ MAX_EMSG := by omega
  rw [dispatch_eq, if_pos hle, if_pos hid, h]
  rfl

variable (table) in
/-- The slot behind the last one. -/
theorem dispatch_overrun (hid : (slotOf packet).2.toNat = MAX_EMSG) :
    dispatch table emit packet c = .error .undefined (c.receiving packet) := by
  rw [dispatch_eq, hid, if_pos (Nat.le_refl _), if_neg (Nat.lt_irrefl _)]
  rfl

/-- A packet far behind the table is dropped in silence. -/
theorem dispatch_ignored (hid : MAX_EMSG < (slotOf packet).2.toNat) :
    dispatch table emit packet c = .ok () (c.receiving packet) := by
  have hnot : ¬ (slotOf packet).2.toNat ≤ MAX_EMSG := by omega
  rw [dispatch_eq, if_neg hnot]
  rfl

end

/-- A packet of the last type meets no handler, and its slot is read all the same: even where an
    event would do no more than return, the dispatcher does not. -/
theorem not_serves_last (hlast : (slotOf packet).2.toNat = MAX_EMSG) (c : CMClient C E) :
    ¬ Serves regs packet c := by
  rintro ⟨table, htable, hserves⟩
  have hnone : ∀ reg ∈ regs, reg.handles packet = none := by
    intro reg hmem
    refine handles_of_ne ?_
    intro hkey
    have hbounds : ∀ reg ∈ regs, reg.InBounds := by
      by_contra hnot
      cases (registerAll_overrun hnot).symm.trans htable
    have hlt : reg.key.2.toNat < MAX_EMSG := hbounds reg hmem
    rw [hkey] at hlt
    omega
  have hread := dispatch_overrun table (fun _ => pure ()) c hlast
  rcases (hserves fun _ => pure ()).2 hnone with h | h
  · cases hread.symm.trans h
  · cases hread.symm.trans h

/-- **Dispatching**: after registrations of distinct message types, in whatever order, a packet of
    whatever type meets its own handler or none, exactly when none of these types is the last. -/
theorem serves_iff (regs : List (Registration C E))
    (hdistinct : (regs.map Registration.key).Nodup) (packet : IPacketMsg) (c : CMClient C E) :
    Serves regs packet c
      ↔ (∀ reg ∈ regs, reg.key.2.toNat < MAX_EMSG) ∧ (slotOf packet).2.toNat ≠ MAX_EMSG := by
  constructor
  · intro hserves
    refine ⟨?_, fun hlast => not_serves_last hlast c hserves⟩
    by_contra hnot
    obtain ⟨table, htable, -⟩ := hserves
    cases (registerAll_overrun hnot).symm.trans htable
  · rintro ⟨hbounds, hlast⟩
    refine ⟨_, registerAll_of_inBounds hbounds, fun emit => ⟨?_, ?_⟩⟩
    · intro reg hmem call hcall
      have hkey : reg.key = slotOf packet := by
        by_contra hne
        cases (handles_of_ne hne).symm.trans hcall
      have hid : (slotOf packet).2.toNat < MAX_EMSG := hkey ▸ hbounds reg hmem
      exact dispatch_handled emit c hid (handler_foldl_of_mem hdistinct hmem hcall .new)
    · intro hnone
      rcases Nat.lt_or_gt_of_ne hlast with hid | hid
      · refine .inl (dispatch_unhandled emit c hid ?_)
        rw [handler_foldl_of_none hnone, handler_new]
      · exact .inr (dispatch_ignored emit c hid)

/-- The registrations of a program on TCP, the last one first. -/
def backwards : List (Registration Net.Connection Net.Lookup) :=
  (registrations (emit plainPlatform 8) plainPlatform
    (consumeFrame (emit plainPlatform 8) plainPlatform 8)).reverse

/-- The registrations in the other order name distinct slots. -/
theorem backwards_distinct : (backwards.map Registration.key).Nodup := by
  rw [backwards, List.map_reverse, List.nodup_reverse]
  exact registrations_distinct _ _ _

/-- And slots inside the table. -/
theorem backwards_inBounds : ∀ reg ∈ backwards, reg.InBounds := by
  intro reg hmem
  exact registrations_inBounds _ _ _ reg (List.mem_reverse.mp hmem)

/-- A batch, with the registrations in the other order. -/
theorem serves_iff_multi : Serves backwards
    (.proto ⟨makeMsg EMsg.multi true, .new, [], 8⟩) System.onTcp.client :=
  (serves_iff backwards backwards_distinct _ _).mpr ⟨backwards_inBounds, by decide⟩

/-! ## The last message type

  The case in the middle, on a frame. -/

/-- `ClientPendingGameLaunchResponse` with the mask bit, and a header of no bytes. -/
def lastFrame : Bytes :=
  LittleEndian.bytes 4 (makeMsg EMsg.clientPendingGameLaunchResponse true).toNat ++
    LittleEndian.bytes 4 0

/-- A codec that knows a header of no bytes: it is the default one. -/
def emptyHeader : Codec CMsgProtoBufHeader :=
  ⟨fun m => some m.wire, fun data => (data.isEmpty, .new)⟩

/-- Not every packet is served: type 12301 passes the bound check and reads one slot behind the
    table. -/
theorem serves_lastFrame : ¬ ∀ regs : List (Registration Net.Connection Net.Lookup),
    (regs.map Registration.key).Nodup → ∀ frame packet,
    PacketClientMsgProtobuf.make emptyHeader (firstWord frame) frame = .ok packet →
    ∀ c, Serves regs (.proto packet) c := by
  intro h
  have hdecodes : (PacketClientMsgProtobuf.make emptyHeader (firstWord lastFrame)
      lastFrame).toOption.isSome = true := by decide +kernel
  have hword : (getMsg (firstWord lastFrame)).toNat = MAX_EMSG := by decide
  cases hmake : PacketClientMsgProtobuf.make emptyHeader (firstWord lastFrame) lastFrame with
  | error e =>
    rw [hmake] at hdecodes
    cases hdecodes
  | ok packet =>
    have hlast : (slotOf (.proto packet)).2.toNat = MAX_EMSG := by
      rw [slotOf, (PacketClientMsgProtobuf.make_eq_ok hmake).1]
      exact hword
    exact not_serves_last hlast System.onTcp.client
      (h backwards backwards_distinct lastFrame packet hmake System.onTcp.client)

end SteamMin.Client
