/-
  ROUTING OF REQUESTS — `include/steamclient/routing/commands`, and `CMClient::execute`.

  A request type has no name at run time.  `request_id<T>` gives it a number when it is first asked
  for, by a registration or by an `execute`, and `g_request_router.table` has the functions under
  these numbers, without their types: a function is called with a `const void*`.

  Underneath is the code: the table, the counter and the ids (`Statics`), a call with a request of
  the wrong type or an access outside the table being undefined.  Above it is what the router is for,
  a `Registry`: for each type the function that was registered last.

  * `run_represents` — with at most `MAX_REQUESTS` types the table is the registry, in every run;
  * `run_ok_iff` — with more the table is left;
  * `registered_perm` — the registry does not depend on the order of the registrations;
  * `execute_command` — the commands of the client are routed to the functions `execute` calls.

  What a function does that is called is not part of a run; the calls of `execute` it makes are,
  behind its own.
-/
import SteamMin.Lib.LazyIds
import SteamMin.Client.System

namespace SteamMin.Dispatch

open LazyIds (Ids intern)

/-- The size of the table. -/
def MAX_REQUESTS : Nat := 512

section
variable {κ : Type} {Req Fn : κ → Type}

/-! ## The table

  Functions are kept without the type of their request, in slots under ids that are given out on
  first use.  The cast back to the request is unchecked; here a function called with a request of
  another type is undefined behaviour. -/

/-- The lambda of `RequestRegister<Request, Fn>`, which is its template arguments. -/
structure RequestExecFn (Fn : κ → Type) where
  request : κ
  fn : Fn request

/-- A `const void*`, with the type of the request it points to. -/
structure RequestPtr (Req : κ → Type) where
  type : κ
  req : Req type

/-- `Fn(client, req)` -/
structure Invocation (Req Fn : κ → Type) where
  type : κ
  fn : Fn type
  req : Req type

variable [DecidableEq κ]

/-- The body of the lambda; `static_cast<const Request*>` does not look at the type. -/
def RequestExecFn.invoke (f : RequestExecFn Fn) (p : RequestPtr Req) :
    Except Fault (Invocation Req Fn) :=
  if h : p.type = f.request then .ok ⟨f.request, f.fn, h ▸ p.req⟩ else .error .undefined

/-- `g_request_router.table`, and the static variables of `next_request_id` and `request_id`. -/
structure Statics (Fn : κ → Type) where
  table : Fin MAX_REQUESTS → Option (RequestExecFn Fn)
  ids : Ids κ

/-- An empty table, and no id given out. -/
def Statics.initial : Statics Fn := ⟨fun _ => none, .empty⟩

/-- A call that may throw, or leave the table. -/
abbrev Routing (Fn : κ → Type) (α : Type) := EStateM Fault (Statics Fn) α

/-- `request_id<T>()`, with `next_request_id()` -/
def requestId (type : κ) : Routing Fn Nat := do
  let s ← get
  let (id, ids) := intern type s.ids
  set { s with ids }
  pure id

/-- The element `table[id]`, which `std::array` does not check. -/
def tableIndex (id : Nat) : Routing Fn (Fin MAX_REQUESTS) :=
  if h : id < MAX_REQUESTS then pure ⟨id, h⟩ else throw .undefined

/-- `RequestRegister<Request, Fn>()` -/
def requestRegister (request : κ) (fn : Fn request) : Routing Fn Unit := do
  let id ← requestId request
  let i ← tableIndex id
  modify fun s => { s with table := Function.update s.table i (some ⟨request, fn⟩) }

/-- `execute<Request>(req)`, up to the call of the function. -/
def execute (request : κ) (req : Req request) : Routing Fn (Option (Invocation Req Fn)) := do
  let id ← requestId request
  let i ← tableIndex id
  match (← get).table i with
  | none => pure none
  | some fn => do pure (some (← Calls.lift (fn.invoke ⟨request, req⟩)))

/-! ## Runs

  A program constructs `RequestRegister` objects and executes requests, in any order. -/

/-- What a program does with the router. -/
inductive Op (Req Fn : κ → Type)
  /-- a `RequestRegister<Request, Fn>` is constructed -/
  | construct (request : κ) (fn : Fn request)
  /-- `execute<Request>(req)` -/
  | execute (request : κ) (req : Req request)

/-- The type it does it for. -/
def Op.request : Op Req Fn → κ
  | .construct request _ => request
  | .execute request _ => request

/-- The call itself; an execution returns what it invoked. -/
def Op.call : Op Req Fn → Routing Fn (Option (Invocation Req Fn))
  | .construct request fn => do
    requestRegister request fn
    pure none
  | .execute request req => Dispatch.execute request req

/-! ## The registry

  What the router is for: a map from types to functions. -/

/-- For each type the function registered for it. -/
abbrev Registry (Fn : κ → Type) := ∀ request : κ, Option (Fn request)

namespace Registry

/-- No type has a function. -/
def empty : Registry Fn := fun _ => none

/-- The last registration of a type counts. -/
def after (g : Registry Fn) : Op Req Fn → Registry Fn
  | .construct request fn => Function.update g request (some fn)
  | .execute _ _ => g

/-- The function that an operation calls, with its argument. -/
def answer (g : Registry Fn) : Op Req Fn → Option (Invocation Req Fn)
  | .construct _ _ => none
  | .execute request req => (g request).map fun fn => ⟨request, fn, req⟩

/-- What the executions of a program should invoke. -/
def answers : Registry Fn → List (Op Req Fn) → List (Option (Invocation Req Fn))
  | _, [] => []
  | g, op :: ops => g.answer op :: (g.after op).answers ops

end Registry

/-- What has been registered in the end. -/
def registered (ops : List (Op Req Fn)) : Registry Fn := ops.foldl Registry.after Registry.empty

/-- The constructed `RequestRegister` objects. -/
def registrations (ops : List (Op Req Fn)) : List (RequestExecFn Fn) :=
  ops.filterMap fun
    | .construct request fn => some ⟨request, fn⟩
    | .execute _ _ => none

/-! ## The table is the registry

  Two types never share an id, so a slot belongs to one type. -/

/-- Each type finds its function under its id; the slots behind the ids are empty, and a type
    without an id has no function. -/
structure Represents (g : Registry Fn) (s : Statics Fn) : Prop where
  slot : ∀ {request} (i : Fin MAX_REQUESTS), s.ids.id request = some i.1 →
    s.table i = (g request).map (RequestExecFn.mk request)
  free : ∀ i : Fin MAX_REQUESTS, s.ids.next ≤ i.1 → s.table i = none
  unused : ∀ {request}, s.ids.id request = none → g request = none

omit [DecidableEq κ] in
/-- No type has an id at first. -/
theorem id_initial (request : κ) (i : Nat) : (Statics.initial : Statics Fn).ids.id request ≠ some i :=
  nofun

omit [DecidableEq κ] in
/-- The empty table represents the empty registry. -/
theorem represents_initial : Represents (Registry.empty : Registry Fn) .initial where
  slot := by
    intro request i h
    nomatch h
  free _ _ := rfl
  unused _ := rfl

variable {g : Registry Fn} {s s' : Statics Fn} {op : Op Req Fn} {ops : List (Op Req Fn)}

/-- A type that gets its id now finds an empty slot, and has no function. -/
theorem Represents.intern (h : Represents g s) (type : κ) :
    Represents g { s with ids := (intern type s.ids).2 } := by
  cases hid : s.ids.id type with
  | some i =>
    rw [LazyIds.intern_of_some hid]
    exact h
  | none =>
    have hnew := LazyIds.intern_of_none hid
    -- a type that is new gets the next slot, which is empty
    have hself : (LazyIds.intern type s.ids).2.id type = some s.ids.next := by
      rw [LazyIds.id_intern_self, hnew]
    refine ⟨?_, ?_, ?_⟩
    · intro request i hi
      by_cases hne : request = type
      · subst hne
        have hnext : s.ids.next = i.1 := Option.some.inj (hself.symm.trans hi)
        rw [h.unused hid]
        exact h.free i (by omega)
      · exact h.slot i ((LazyIds.id_intern_of_ne hne).symm.trans hi)
    · intro i hi
      have hle := LazyIds.next_le_next_intern (s := s.ids) (k := type)
      exact h.free i (by simp only at hi; omega)
    · intro request hi
      by_cases hne : request = type
      · subst hne
        nomatch hself.symm.trans hi
      · exact h.unused ((LazyIds.id_intern_of_ne hne).symm.trans hi)

/-- A function goes into the slot of its type, and no other type has that slot. -/
theorem Represents.update (h : Represents g s) {type : κ} {i : Fin MAX_REQUESTS}
    (hi : s.ids.id type = some i.1) (fn : Fn type) :
    Represents (Function.update g type (some fn))
      { s with table := Function.update s.table i (some ⟨type, fn⟩) } := by
  refine ⟨?_, ?_, ?_⟩
  -- the slot of the type holds the new function, the others what they held
  · intro request j hj
    by_cases hne : request = type
    · subst hne
      have hij : j = i := Fin.ext (Option.some.inj (hj.symm.trans hi))
      rw [hij, Function.update_self]
      simp only [Function.update_self]
      rfl
    · have hij : j ≠ i := by
        rintro rfl
        exact hne (s.ids.inj hj hi)
      rw [Function.update_of_ne hne]
      exact (Function.update_of_ne hij ..).trans (h.slot j hj)
  · intro j hj
    have hlt := s.ids.lt hi
    have hij : j ≠ i := by
      rintro rfl
      simp only at hj
      omega
    exact (Function.update_of_ne hij ..).trans (h.free j hj)
  · intro request hnone
    have hne : request ≠ type := by
      rintro rfl
      nomatch hi.symm.trans hnone
    rw [Function.update_of_ne hne]
    exact h.unused hnone

/-! ## One operation

  With its id inside the table an operation does what it does to the registry; with the id outside
  it leaves the table. -/

/-- The static local of the template gives a type its id once. -/
theorem requestId_eq (type : κ) (s : Statics Fn) :
    requestId type s = .ok (intern type s.ids).1 { s with ids := (intern type s.ids).2 } := rfl

omit [DecidableEq κ] in
/-- An index inside the table. -/
theorem tableIndex_lt {id : Nat} (h : id < MAX_REQUESTS) (s : Statics Fn) :
    tableIndex id s = .ok ⟨id, h⟩ s := by
  rw [tableIndex, dif_pos h]
  rfl

omit [DecidableEq κ] in
/-- An index behind the table is undefined behaviour: the array is not asked for its size. -/
theorem tableIndex_ge {id : Nat} (h : ¬ id < MAX_REQUESTS) (s : Statics Fn) :
    tableIndex id s = .error .undefined s := by
  rw [tableIndex, dif_neg h]
  rfl

/-- Outside the table nothing is promised. -/
theorem call_outside (op : Op Req Fn) (hid : ¬ (intern op.request s.ids).1 < MAX_REQUESTS) :
    op.call s = .error .undefined { s with ids := (intern op.request s.ids).2 } := by
  cases op with
  | construct request fn =>
    refine Calls.bind_error ?_
    rw [requestRegister, Calls.bind_ok (requestId_eq request s)]
    exact Calls.bind_error (tableIndex_ge hid _)
  | execute request req =>
    rw [Op.call, execute, Calls.bind_ok (requestId_eq request s)]
    exact Calls.bind_error (tableIndex_ge hid _)

section
variable {request : κ} {fn : Fn request} {req : Req request}

/-- A registration puts its function where the id of its type says. -/
theorem call_construct (hid : (intern request s.ids).1 < MAX_REQUESTS) :
    (Op.construct request fn : Op Req Fn).call s = .ok none
      { table := Function.update s.table ⟨(intern request s.ids).1, hid⟩ (some ⟨request, fn⟩)
        ids := (intern request s.ids).2 } := by
  refine Calls.bind_ok (a := ()) ?_
  rw [requestRegister, Calls.bind_ok (requestId_eq request s), Calls.bind_ok (tableIndex_lt hid _)]
  rfl

/-- An empty slot: nothing is called. -/
theorem call_execute_none (hid : (intern request s.ids).1 < MAX_REQUESTS)
    (hslot : s.table ⟨(intern request s.ids).1, hid⟩ = none) :
    (Op.execute request req : Op Req Fn).call s
      = .ok none { s with ids := (intern request s.ids).2 } := by
  rw [Op.call, execute, Calls.bind_ok (requestId_eq request s), Calls.bind_ok (tableIndex_lt hid _),
    Calls.get_bind]
  simp only [hslot]
  rfl

/-- A function is called with the request, whatever its type. -/
theorem call_execute_some {f : RequestExecFn Fn} (hid : (intern request s.ids).1 < MAX_REQUESTS)
    (hslot : s.table ⟨(intern request s.ids).1, hid⟩ = some f) :
    (Op.execute request req : Op Req Fn).call s
      = (do pure (some (← Calls.lift (f.invoke ⟨request, req⟩))) : Routing Fn _)
        { s with ids := (intern request s.ids).2 } := by
  rw [Op.call, execute, Calls.bind_ok (requestId_eq request s), Calls.bind_ok (tableIndex_lt hid _),
    Calls.get_bind]
  simp only [hslot]

/-- If it is of the same type, the cast is right. -/
theorem invoke_self : (RequestExecFn.mk request fn).invoke (⟨request, req⟩ : RequestPtr Req)
    = .ok ⟨request, fn, req⟩ := dif_pos rfl

end

/-- **An operation does to the table what it does to the registry.** -/
theorem call_represents (op : Op Req Fn) (h : Represents g s)
    (hid : (intern op.request s.ids).1 < MAX_REQUESTS) :
    ∃ s', op.call s = .ok (g.answer op) s' ∧ Represents (g.after op) s' ∧
      s'.ids = (intern op.request s.ids).2 := by
  -- the id is given out first, in both calls
  have hinterned := h.intern op.request
  cases op with
  | construct request fn =>
    simp only [Op.request] at hid hinterned
    exact ⟨_, call_construct hid, hinterned.update (i := ⟨_, hid⟩) LazyIds.id_intern_self fn, rfl⟩
  | execute request req =>
    simp only [Op.request] at hid hinterned
    have hslot : s.table ⟨(intern request s.ids).1, hid⟩
        = (g request).map (RequestExecFn.mk request) :=
      hinterned.slot ⟨_, hid⟩ LazyIds.id_intern_self
    rw [Registry.answer]
    cases hg : g request with
    | none =>
      rw [hg] at hslot
      exact ⟨_, call_execute_none hid hslot, hinterned, rfl⟩
    | some fn =>
      rw [hg] at hslot
      refine ⟨_, ?_, hinterned, rfl⟩
      rw [call_execute_some hid hslot]
      exact Calls.bind_ok (Calls.lift_ok invoke_self _)

/-- An operation that succeeds has had its id in the table. -/
theorem call_eq_ok {a : Option (Invocation Req Fn)} (h : op.call s = .ok a s') :
    s'.ids = (intern op.request s.ids).2 ∧ (intern op.request s.ids).1 < MAX_REQUESTS := by
  by_cases hid : (intern op.request s.ids).1 < MAX_REQUESTS
  · refine ⟨?_, hid⟩
    cases op with
    | construct request fn =>
      simp only [Op.request] at hid ⊢
      rw [call_construct hid] at h
      cases h
      rfl
    | execute request req =>
      simp only [Op.request] at hid ⊢
      cases hslot : s.table ⟨(intern request s.ids).1, hid⟩ with
      | none =>
        rw [call_execute_none hid hslot] at h
        cases h
        rfl
      | some f =>
        rw [call_execute_some hid hslot] at h
        -- invoking changes nothing, whatever it returns
        obtain ⟨b, t, hlift, ht⟩ := Calls.bind_eq_ok h
        cases ht
        have hsame := Calls.after_lift (f.invoke (⟨request, req⟩ : RequestPtr Req))
          ({ s with ids := (intern request s.ids).2 } : Statics Fn)
        rw [hlift] at hsame
        exact congrArg Statics.ids hsame
  · rw [call_outside op hid] at h
    nomatch h

/-! ## All operations of a run

  The ids of a run are as many as the types it has used, whether registered or only executed. -/

/-- What a run that succeeds leaves of the ids: they stay, each type it has used has one, and none
    lies outside the table. -/
theorem run_ids {o : List (Option (Invocation Req Fn))} (h : ops.mapM Op.call s = .ok o s') :
    (∀ request i, s.ids.id request = some i → s'.ids.id request = some i) ∧
    (∀ op ∈ ops, (s'.ids.id op.request).isSome) ∧
    (s.ids.next ≤ MAX_REQUESTS → s'.ids.next ≤ MAX_REQUESTS) := by
  induction ops generalizing s o with
  | nil =>
    cases h
    exact ⟨fun _ _ hi => hi, by simp, fun hn => hn⟩
  | cons op ops ih =>
    rw [List.mapM_cons] at h
    obtain ⟨a, s₁, hcall, h⟩ := Calls.bind_eq_ok h
    obtain ⟨as, s₂, hrest, h⟩ := Calls.bind_eq_ok h
    cases h
    -- ids are given out and never taken back, so what was true behind the first call stays true
    obtain ⟨hids, hid⟩ := call_eq_ok hcall
    obtain ⟨hstay, hused, hnext⟩ := ih hrest
    rw [hids] at hstay hnext
    refine ⟨?_, ?_, ?_⟩
    · intro request i hi
      exact hstay request i (LazyIds.id_intern_of_some hi)
    · refine List.forall_mem_cons.mpr ⟨?_, hused⟩
      rw [hstay _ _ LazyIds.id_intern_self]
      rfl
    · intro hn
      exact hnext (LazyIds.next_intern_le hn hid)

/-- **The table is the registry.**  With all types from a set that fits into the table, a run
    succeeds, and calls what the registry says. -/
theorem run_represents {S : Finset κ} (hS : S.card ≤ MAX_REQUESTS)
    (hops : ∀ op ∈ ops, op.request ∈ S) (hkeys : ∀ request i, s.ids.id request = some i → request ∈ S)
    (h : Represents g s) :
    ∃ s', ops.mapM Op.call s = .ok (g.answers ops) s' ∧ Represents (ops.foldl Registry.after g) s' ∧
      ∀ request i, s'.ids.id request = some i → request ∈ S := by
  induction ops generalizing g s with
  | nil => exact ⟨s, rfl, h, hkeys⟩
  | cons op ops ih =>
    obtain ⟨hop, hops⟩ := List.forall_mem_cons.mp hops
    have hid : (intern op.request s.ids).1 < MAX_REQUESTS :=
      Nat.lt_of_lt_of_le (LazyIds.intern_lt_card hkeys hop) hS
    obtain ⟨s₁, hcall, hrep, hids⟩ := call_represents op h hid
    have hkeys₁ : ∀ request i, s₁.ids.id request = some i → request ∈ S := by
      intro request i hi
      rw [hids] at hi
      by_cases hne : request = op.request
      · rw [hne]
        exact hop
      · exact hkeys request i ((LazyIds.id_intern_of_ne hne).symm.trans hi)
    obtain ⟨s', hrest, hrep', hkeys'⟩ := ih hops hkeys₁ hrep
    refine ⟨s', ?_, hrep', hkeys'⟩
    rw [List.mapM_cons, Calls.bind_ok hcall, Calls.bind_ok hrest]
    rfl

/-- **A run stays inside the table** exactly if it uses at most `MAX_REQUESTS` types. -/
theorem run_ok_iff (ops : List (Op Req Fn)) :
    (∃ o s', ops.mapM Op.call .initial = .ok o s')
      ↔ (ops.map Op.request).toFinset.card ≤ MAX_REQUESTS := by
  constructor
  · rintro ⟨o, s', h⟩
    obtain ⟨-, hused, hnext⟩ := run_ids h
    have hall : ∀ request ∈ (ops.map Op.request).toFinset, (s'.ids.id request).isSome := by
      intro request hmem
      obtain ⟨op, hop, rfl⟩ := List.mem_map.mp (List.mem_toFinset.mp hmem)
      exact hused op hop
    calc (ops.map Op.request).toFinset.card ≤ s'.ids.next := LazyIds.card_le_next hall
      _ ≤ MAX_REQUESTS := hnext (Nat.zero_le _)
  · intro hcard
    have hops : ∀ op ∈ ops, op.request ∈ (ops.map Op.request).toFinset :=
      fun op hop => List.mem_toFinset.mpr (List.mem_map_of_mem hop)
    obtain ⟨s', hrun, -, -⟩ :=
      run_represents hcard hops (fun _ _ hi => (id_initial _ _ hi).elim) represents_initial
    exact ⟨_, s', hrun⟩

/-! ## The order of the registrations

  Static objects of different files are constructed in an order the program does not choose. -/

/-- The last registration of a type counts; with one for each type they all do. -/
theorem foldl_after_eq_some_iff {request : κ} {fn : Fn request}
    (hone : ((registrations ops).map RequestExecFn.request).Nodup) :
    ops.foldl Registry.after g request = some fn ↔ ⟨request, fn⟩ ∈ registrations ops ∨
      (request ∉ (registrations ops).map RequestExecFn.request ∧ g request = some fn) := by
  induction ops generalizing g with
  | nil => simp [registrations]
  | cons op ops ih =>
    cases op with
    | execute type req => exact ih hone
    | construct type f =>
      have hcons : registrations (Op.construct type f :: ops : List (Op Req Fn))
          = ⟨type, f⟩ :: registrations ops := rfl
      rw [hcons, List.map_cons, List.nodup_cons] at hone
      rw [List.foldl_cons, ih hone.2, hcons, List.map_cons, List.mem_cons, List.mem_cons]
      by_cases hne : request = type
      · subst hne
        have hnot : (⟨request, fn⟩ : RequestExecFn Fn) ∉ registrations ops := fun hmem =>
          hone.1 (List.mem_map.mpr ⟨_, hmem, rfl⟩)
        simp [Registry.after, hone.1, hnot, eq_comm]
      · have hne' : (⟨request, fn⟩ : RequestExecFn Fn) ≠ ⟨type, f⟩ := by
          intro heq
          exact hne (congrArg RequestExecFn.request heq)
        simp [Registry.after, hne, hne']

/-- What is registered, with one registration for each type. -/
theorem registered_eq_some_iff {request : κ} {fn : Fn request}
    (hone : ((registrations ops).map RequestExecFn.request).Nodup) :
    registered ops request = some fn ↔ ⟨request, fn⟩ ∈ registrations ops := by
  rw [registered, foldl_after_eq_some_iff hone]
  simp [Registry.empty]

/-- **The registry does not depend on the order** in which the registrations are made. -/
theorem registered_perm {ops' : List (Op Req Fn)}
    (hone : ((registrations ops).map RequestExecFn.request).Nodup)
    (hperm : (registrations ops).Perm (registrations ops')) : registered ops = registered ops' := by
  have hone' : ((registrations ops').map RequestExecFn.request).Nodup :=
    ((hperm.map _).nodup_iff).mp hone
  funext request
  refine Option.ext fun fn => ?_
  rw [registered_eq_some_iff hone, registered_eq_some_iff hone', hperm.mem_iff]

/-! ## The router

  The pieces together, for the programs that register each type once. -/

/-- A run of a process, with one registration for each type, and the types from a set that fits into
    the table. -/
structure Process (S : Finset κ) (ops : List (Op Req Fn)) : Prop where
  fits : S.card ≤ MAX_REQUESTS
  types : ∀ op ∈ ops, op.request ∈ S
  once : ((registrations ops).map RequestExecFn.request).Nodup

/-- The run lemma: as long as the types that occur fit the table, every call does what the
    registry says. -/
theorem Process.run {S : Finset κ} (h : Process S ops) :
    ∃ s, ops.mapM Op.call .initial = .ok (Registry.empty.answers ops) s ∧
      Represents (registered ops) s ∧ ∀ request i, s.ids.id request = some i → request ∈ S :=
  run_represents h.fits h.types (fun _ _ hi => (id_initial _ _ hi).elim) represents_initial

/-- What an execution calls. -/
theorem execute_represents {S : Finset κ} (hS : S.card ≤ MAX_REQUESTS)
    (hkeys : ∀ request i, s.ids.id request = some i → request ∈ S) (h : Represents g s) {request : κ}
    (hmem : request ∈ S) (req : Req request) :
    ∃ s', execute request req s = .ok ((g request).map fun fn => ⟨request, fn, req⟩) s' := by
  have hid : (intern request s.ids).1 < MAX_REQUESTS :=
    Nat.lt_of_lt_of_le (LazyIds.intern_lt_card hkeys hmem) hS
  obtain ⟨s', hcall, -, -⟩ := call_represents (.execute request req : Op Req Fn) h hid
  exact ⟨s', hcall⟩

/-- **Requests are routed.**  However the registrations and executions follow each other, as long as
    the types that are registered or executed fit into the table: all accesses are inside it and all
    calls are as registered before them; two types have two ids, and an id that a type had on the way
    it has at the end; what is executed then calls exactly the function registered for its type with
    the request, or nothing; and in any other such run with the same registrations, in whatever
    order, everything executed behind them calls the same. -/
theorem requests_route {S : Finset κ} {ops : List (Op Req Fn)} (h : Process S ops) :
    ∃ s, ops.mapM Op.call .initial = .ok (Registry.empty.answers ops) s ∧
      (∀ request request' i, s.ids.id request = some i → s.ids.id request' = some i →
        request = request') ∧
      (∀ before behind, ops = before ++ behind → ∃ o s₁, before.mapM Op.call .initial = .ok o s₁ ∧
        ∀ request i, s₁.ids.id request = some i → s.ids.id request = some i) ∧
      (∀ request ∈ S, ∀ req : Req request,
        (∀ fn, ⟨request, fn⟩ ∈ registrations ops →
          ∃ s', execute request req s = .ok (some ⟨request, fn, req⟩) s') ∧
        (request ∉ (registrations ops).map RequestExecFn.request →
          ∃ s', execute request req s = .ok none s')) ∧
      ∀ (S' : Finset κ) (ops' : List (Op Req Fn)), Process S' ops' →
        (registrations ops).Perm (registrations ops') →
        ∃ o' t, ops'.mapM Op.call .initial = .ok o' t ∧
          ∀ later : List (Op Req Fn), (∀ op ∈ later, op.request ∈ S ∧ op.request ∈ S') →
            ∃ o s' t', later.mapM Op.call s = .ok o s' ∧ later.mapM Op.call t = .ok o t' := by
  obtain ⟨s, hrun, hrep, hkeys⟩ := h.run
  refine ⟨s, hrun, fun _ _ _ => s.ids.inj, ?_, ?_, ?_⟩
  -- a prefix of the process has given out the ids it has, and they stay
  · intro before behind heq
    rw [heq, List.mapM_append] at hrun
    obtain ⟨o, s₁, hbefore, hrest⟩ := Calls.bind_eq_ok hrun
    obtain ⟨o', s₂, hbehind, hpure⟩ := Calls.bind_eq_ok hrest
    injection (hpure : EStateM.Result.ok (o ++ o') s₂ = .ok _ s) with _ hs
    subst hs
    exact ⟨o, s₁, hbefore, (run_ids hbehind).1⟩
  · intro request hmem req
    obtain ⟨s', hcall⟩ := execute_represents h.fits hkeys hrep hmem req
    constructor
    · intro fn hfn
      rw [(registered_eq_some_iff h.once).mpr hfn] at hcall
      exact ⟨s', hcall⟩
    · intro hnot
      have hnone : registered ops request = none := by
        cases hreg : registered ops request with
        | none => rfl
        | some fn =>
          exact absurd (List.mem_map_of_mem ((registered_eq_some_iff h.once).mp hreg)) hnot
      rw [hnone] at hcall
      exact ⟨s', hcall⟩
  -- in another order the ids differ, and the registry does not
  · intro S' ops' h' hperm
    obtain ⟨t, hrun', hrep', hkeys'⟩ := h'.run
    refine ⟨_, t, hrun', fun later hlater => ?_⟩
    obtain ⟨s', hs', -, -⟩ := run_represents h.fits (fun op hop => (hlater op hop).1) hkeys hrep
    obtain ⟨t', ht', -, -⟩ := run_represents h'.fits (fun op hop => (hlater op hop).2) hkeys' hrep'
    rw [← registered_perm h.once hperm] at ht'
    exact ⟨_, s', t', hs', ht'⟩

end

/-- Numbers for types, requests without members and functions with a name. -/
abbrev NumberedOp : Type := Op (fun _ : Nat => Unit) (fun _ => Bool)

/-- An early execution takes the first id, and the registrations the next two. -/
theorem requests_route_early :
    ∃ s, ([.execute 2 (), .construct 1 true, .construct 0 false] : List NumberedOp).mapM Op.call
        .initial = .ok [none, none, none] s ∧
      (∃ s', (.execute 1 () : NumberedOp).call s = .ok (some ⟨1, true, ()⟩) s') ∧
      ∃ s', (.execute 2 () : NumberedOp).call s = .ok none s' := by
  have hprocess : Process {0, 1, 2}
      ([.execute 2 (), .construct 1 true, .construct 0 false] : List NumberedOp) :=
    ⟨by decide, by decide, by decide⟩
  obtain ⟨s, hrun, -, -, hexecute, -⟩ := requests_route hprocess
  refine ⟨s, hrun, ?_, ?_⟩
  · exact (hexecute 1 (by decide) ()).1 true (.head _)
  · exact (hexecute 2 (by decide) ()).2 (by decide)

/-- One registration for each of these types. -/
def constructAll (types : List Nat) : List NumberedOp := types.map fun i => .construct i true

/-- The types that are registered are those that were constructed. -/
theorem requests_constructAll (types : List Nat) :
    (registrations (constructAll types)).map RequestExecFn.request = types := by
  induction types with
  | nil => rfl
  | cons i types ih => exact congrArg (i :: ·) ih

/-- A full table, and one more type that is only executed: its id lies behind the table. -/
theorem execute_leaves_table :
    (registrations (constructAll (List.range MAX_REQUESTS))).map RequestExecFn.request
      = List.range MAX_REQUESTS ∧
    ∃ o s s', (constructAll (List.range MAX_REQUESTS)).mapM Op.call .initial = .ok o s ∧
      (.execute MAX_REQUESTS () : NumberedOp).call s = .error .undefined s' := by
  have htypes := requests_constructAll (List.range MAX_REQUESTS)
  refine ⟨htypes, ?_⟩
  generalize hops : constructAll (List.range MAX_REQUESTS) = ops at htypes ⊢
  have hprocess : Process (Finset.range MAX_REQUESTS) ops := by
    refine ⟨(Finset.card_range _).le, ?_, htypes ▸ List.nodup_range⟩
    intro op hop
    rw [← hops] at hop
    obtain ⟨i, hi, rfl⟩ := List.mem_map.mp hop
    exact Finset.mem_range.mpr (List.mem_range.mp hi)
  obtain ⟨s, hrun, -, hkeys⟩ := hprocess.run
  -- all slots are given out, so one more type is behind the table
  have hused : ∀ i ∈ Finset.range MAX_REQUESTS, (s.ids.id i).isSome := by
    intro i hi
    have hmem : (.construct i true : NumberedOp) ∈ ops := by
      rw [← hops]
      exact List.mem_map.mpr ⟨i, List.mem_range.mpr (Finset.mem_range.mp hi), rfl⟩
    exact (run_ids hrun).2.1 _ hmem
  have hnext := LazyIds.card_le_next hused
  rw [Finset.card_range] at hnext
  have hnone : s.ids.id MAX_REQUESTS = none := by
    cases hid : s.ids.id MAX_REQUESTS with
    | none => rfl
    | some i => exact absurd (Finset.mem_range.mp (hkeys _ i hid)) (Nat.lt_irrefl _)
  refine ⟨_, s, _, hrun, call_outside (.execute MAX_REQUESTS ()) ?_⟩
  show ¬ (intern MAX_REQUESTS s.ids).1 < MAX_REQUESTS
  rw [LazyIds.intern_of_none hnone]
  omega

/-! ## The commands of the client

  The three commands, registered as their handlers are. -/

section
open Client (CMClient Calling IConnection Command Event record execAnonLogon execLogoff
  execGetProductInfo)

/-- `AnonymousLogin`, `ClientLogoff` and `GetProductInfo` -/
inductive CommandType
  | anonymousLogin
  | clientLogoff
  | getProductInfo
  deriving DecidableEq

/-- The members of a command. -/
def CommandType.Members : CommandType → Type
  | .anonymousLogin | .clientLogoff => Unit
  | .getProductInfo => UInt32 × UInt64 × Int32 × UInt64

/-- The type a command is a value of. -/
def commandType : Command → CommandType
  | .anonymousLogin => .anonymousLogin
  | .clientLogoff => .clientLogoff
  | .getProductInfo .. => .getProductInfo

/-- Its members. -/
def members : (command : Command) → (commandType command).Members
  | .anonymousLogin | .clientLogoff => ()
  | .getProductInfo id steamid clientSessionid appToken => (id, steamid, clientSessionid, appToken)

/-- A function that can be registered for commands of the type. -/
abbrev ExecFn (C E : Type) (type : CommandType) : Type := type.Members → Calling C E Unit

variable {C E : Type} [IConnection C E] (p : Platform) (emit : Event → Calling C E Unit)

/-- `reg_logon`, `reg_logoff` and `reg_prod_info` -/
def commandRegistrations : List (RequestExecFn (ExecFn C E)) :=
  [⟨.anonymousLogin, fun _ => execAnonLogon p emit⟩,
   ⟨.clientLogoff, fun _ => execLogoff p⟩,
   ⟨.getProductInfo, fun (id, steamid, clientSessionid, appToken) =>
      execGetProductInfo p id steamid clientSessionid appToken⟩]

/-- **The client executes its commands** by the function that the router finds, in whatever order the
    handlers have been registered and whatever has been executed before. -/
theorem execute_command {ops : List (Op CommandType.Members (ExecFn C E))}
    (hperm : (commandRegistrations p emit).Perm (registrations ops)) :
    ∃ o s, ops.mapM Op.call .initial = .ok o s ∧ ∀ command, ∃ fn s',
      execute (commandType command) (members command) s
        = .ok (some ⟨commandType command, fn, members command⟩) s' ∧
      Client.execute p emit command = (do
        record (.executed command (← get).channelSecured)
        fn (members command)) := by
  have htypes : [CommandType.anonymousLogin, .clientLogoff, .getProductInfo].Nodup := by decide
  have hone : ((registrations ops).map RequestExecFn.request).Nodup :=
    ((hperm.map RequestExecFn.request).nodup_iff).mp htypes
  -- the three commands are all types there are, far fewer than there are slots
  have hall : ∀ type : CommandType, type ∈ ({.anonymousLogin, .clientLogoff, .getProductInfo} :
      Finset CommandType) := by
    intro type
    cases type <;> decide
  have hprocess : Process {.anonymousLogin, .clientLogoff, .getProductInfo} ops :=
    ⟨by decide, fun op _ => hall op.request, hone⟩
  obtain ⟨s, hrun, hrep, hkeys⟩ := hprocess.run
  refine ⟨_, s, hrun, fun command => ?_⟩
  have hroute : ∀ fn, ⟨commandType command, fn⟩ ∈ commandRegistrations p emit →
      ∃ s', execute (commandType command) (members command) s
        = .ok (some ⟨commandType command, fn, members command⟩) s' := by
    intro fn hfn
    obtain ⟨s', hcall⟩ := execute_represents hprocess.fits hkeys hrep (hall _) (members command)
    rw [(registered_eq_some_iff hone).mpr (hperm.mem_iff.mp hfn)] at hcall
    exact ⟨s', hcall⟩
  cases command with
  | anonymousLogin =>
    obtain ⟨s', hcall⟩ := hroute _ (.head _)
    exact ⟨_, s', hcall, rfl⟩
  | clientLogoff =>
    obtain ⟨s', hcall⟩ := hroute _ (.tail _ (.head _))
    exact ⟨_, s', hcall, rfl⟩
  | getProductInfo id steamid clientSessionid appToken =>
    obtain ⟨s', hcall⟩ := hroute _ (.tail _ (.tail _ (.head _)))
    exact ⟨_, s', hcall, rfl⟩

end

/-- One command is executed before the handlers are registered, the last of them first. -/
def latestFirst : List (Op CommandType.Members (ExecFn Net.Connection Net.Lookup)) :=
  .execute .clientLogoff () ::
    (commandRegistrations Client.plainPlatform (Client.emit Client.plainPlatform 8)).reverse.map
      fun f => .construct f.request f.fn

/-- The registrations in the other order, and a logoff. -/
theorem execute_command_latestFirst :
    ∃ o s, latestFirst.mapM Op.call .initial = .ok o s ∧ ∃ fn s',
      execute (commandType .clientLogoff) (members .clientLogoff) s
        = .ok (some ⟨commandType .clientLogoff, fn, members .clientLogoff⟩) s' := by
  have hperm : (commandRegistrations Client.plainPlatform (Client.emit Client.plainPlatform 8)).Perm
      (registrations latestFirst) := (List.reverse_perm _).symm
  obtain ⟨o, s, hrun, hexecute⟩ :=
    execute_command Client.plainPlatform (Client.emit Client.plainPlatform 8) hperm
  obtain ⟨fn, s', hfn, -⟩ := hexecute .clientLogoff
  exact ⟨o, s, hrun, fn, s', hfn⟩

end SteamMin.Dispatch
