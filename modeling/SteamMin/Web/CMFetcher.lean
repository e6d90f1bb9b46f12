/-
  THE SERVER DIRECTORY — `src/web/cmfetcher.cpp`.

  curl and the JSON library are outside: what they give back in one call is a `Directory`, with the
  document as it was parsed.  `fetch_cm_servers` empties `servers_` and appends the endpoints one by
  one; `std::stoi` is the conversion in its loop, and throws where it finds no number or one that is
  no `int`.  A state that is left by an exception keeps what was appended before it.

  `IsEndpoint` is what the directory means by `host:port`, and `fetchesAll_iff` says when the loop
  reads exactly that: `std::stoi` also takes blanks, a sign, and anything behind the digits.

  The list belongs to the object and outlives the call.  It is emptied only once a response has
  been parsed, so a call that fails before that leaves the servers of the last one, and a call
  that throws in the loop leaves those of this one that came before the entry it stumbled on.
-/
import SteamMin.Vdf.TextParser
import SteamMin.Net.TcpSteps
import Mathlib.Data.List.TakeWhile

namespace SteamMin.Web

open Vdf (isspace)

/-! ## The parsed document

  A `ctl::json` node answers every question: what is not there is an empty node, the size 0 or the
  empty string. -/

/-- A `ctl::json` node. -/
inductive Json
  /-- the node an access gives that finds nothing -/
  | fallback
  /-- `null`, a boolean or a number; nothing below tells them apart -/
  | scalar
  | string (str : Bytes)
  | array (items : List Json)
  | object (objmap : List (Bytes × Json))

/-- `operator[]` with a key -/
def Json.key (name : Bytes) : Json → Json
  | .object objmap => ((objmap.find? fun entry => entry.1 = name).map Prod.snd).getD .fallback
  | _ => .fallback

/-- `operator[]` with an index -/
def Json.item (no : Nat) : Json → Json
  | .array items => items[no]?.getD .fallback
  | _ => .fallback

/-- `size()`, which is 0 for what is no container. -/
def Json.size : Json → Nat
  | .array items => items.length
  | .object objmap => objmap.length
  | _ => 0

/-- A string, or the empty one. -/
def Json.str : Json → Bytes
  | .string str => str
  | _ => []

/-- What curl and `root.parse` do in one call. -/
structure Directory where
  /-- `curl_easy_init` gives a handle -/
  handle : Bool
  /-- `curl_easy_perform` gives `CURLE_OK` -/
  performed : Bool
  /-- the root of the response, if it can be parsed -/
  root : Option Json

/-! ## `std::stoi`

  It takes the number at the front and leaves the rest, so `"27017 "` is a number and so is
  `"27017x"`. -/

/-- `isdigit`, in the C locale. -/
def isdigit (c : Byte) : Bool := 0x30 ≤ c && c ≤ 0x39

/-- The number a string of digits stands for. -/
def digitsValue (digits : Bytes) : Nat :=
  digits.foldl (fun value d => 10 * value + (d.toNat - 0x30)) 0

/-- An optional sign, and what comes behind it. -/
def takeSign : Bytes → Int × Bytes
  | 0x2D :: s => (-1, s)
  | 0x2B :: s => (1, s)
  | s => (1, s)

/-- Blanks, a sign, and as many digits as there are; the rest is not looked at. -/
def stoi (str : Bytes) : Except Exn Int :=
  let (sign, s) := takeSign (str.dropWhile isspace)
  let digits := s.takeWhile isdigit
  if digits = [] then .error (.invalidArgument "stoi")
  else if sign * digitsValue digits < -2 ^ 31 ∨ 2 ^ 31 ≤ sign * digitsValue digits then
    .error (.outOfRange "stoi")
  else .ok (sign * digitsValue digits)

/-! ## The class

  The list is cleared as soon as the response is parsed.  An exception behind that point leaves it
  as far as it has been filled. -/

/-- The character between host and port. -/
def colon : Byte := 0x3A

/-- `CMFetcher` -/
structure CMFetcher where
  servers : List (Bytes × Int)

/-- The loop body, for one `endpoint`. -/
def addServer (endpoint : Bytes) : EStateM Exn CMFetcher Unit :=
  match endpoint.idxOf? colon with
  | none => pure ()
  | some pos => do
    let ip := endpoint.take pos
    let port ← Calls.lift (stoi (endpoint.drop (pos + 1)))
    modify fun f => { f with servers := f.servers ++ [(ip, port)] }

/-- `root["response"]["serverlist"]` -/
def Json.listNode (root : Json) : Json := (root.key (ascii "response")).key (ascii "serverlist")

/-- `fetch_cm_servers`: the list is cleared once the response is parsed, and filled entry by
    entry. -/
def fetchCmServers (web : Directory) : EStateM Exn CMFetcher Bool := do
  if !web.handle then return false
  if !web.performed then return false
  match web.root with
  | none => return false
  | some root =>
    modify fun f => { f with servers := [] }
    forM (List.range root.listNode.size) fun i =>
      addServer ((root.listNode.item i).key (ascii "endpoint")).str
    return !(← get).servers.isEmpty

/-- `get_servers()` -/
def CMFetcher.getServers (f : CMFetcher) : List (Bytes × Int) := f.servers

/-- The endpoints of the entries, in order. -/
def endpoints (root : Json) : List Bytes :=
  (List.range root.listNode.size).map fun i =>
    ((root.listNode.item i).key (ascii "endpoint")).str

/-! ## What an endpoint is

  The directory's meaning of an endpoint, without `stoi`. -/

/-- `host:port` with a decimal port. -/
def IsEndpoint (endpoint : Bytes) (server : Bytes × Int) : Prop :=
  ∃ port : Bytes, endpoint = server.1 ++ colon :: port ∧ colon ∉ server.1 ∧ port ≠ [] ∧
    (∀ d ∈ port, isdigit d = true) ∧ server.2 = digitsValue port ∧
    1 ≤ digitsValue port ∧ digitsValue port ≤ 65535

/-- The servers of a list of endpoints, in order; what is no endpoint is skipped. -/
inductive ServersOf : List Bytes → List (Bytes × Int) → Prop
  | nil : ServersOf [] []
  | listed {endpoint : Bytes} {server : Bytes × Int} {es : List Bytes}
      {servers : List (Bytes × Int)} : IsEndpoint endpoint server → ServersOf es servers →
      ServersOf (endpoint :: es) (server :: servers)
  | skipped {endpoint : Bytes} {es : List Bytes} {servers : List (Bytes × Int)} :
      (∀ server, ¬ IsEndpoint endpoint server) → ServersOf es servers →
      ServersOf (endpoint :: es) servers

/-- Where there is a colon, there is an endpoint. -/
def Clean (es : List Bytes) : Prop := ∀ e ∈ es, colon ∈ e → ∃ server, IsEndpoint e server

/-! ## One endpoint

  Where there is a colon, something is appended or thrown; where there is none, nothing
  happens. -/

/-- A host ends at the first colon, and digits begin with none of what `std::stoi` skips. -/
theorem isspace_of_isdigit {d : Byte} (h : isdigit d = true) : isspace d = false := by
  simp only [isdigit, Bool.and_eq_true, decide_eq_true_eq, UInt8.le_iff_toNat_le] at h
  have hlow : 0x30 ≤ d.toNat := h.1
  simp only [isspace, Bool.or_eq_false_iff, decide_eq_false_iff_not, Bool.and_eq_false_iff,
    UInt8.le_iff_toNat_le]
  refine ⟨?_, .inr ?_⟩
  · intro hblank
    rw [hblank] at hlow
    exact absurd hlow (by decide)
  · intro hle
    have hhigh : d.toNat ≤ 0x0D := hle
    omega

/-- A digit is no sign. -/
theorem takeSign_of_isdigit {d : Byte} (h : isdigit d = true) (s : Bytes) :
    takeSign (d :: s) = (1, d :: s) := by
  unfold takeSign
  split
  · rename_i heq
    cases heq
    exact absurd h (by decide)
  · rename_i heq
    cases heq
    exact absurd h (by decide)
  · rfl

/-- `stoi` reads a port. -/
theorem stoi_of_digits {port : Bytes} (hne : port ≠ []) (hdigits : ∀ d ∈ port, isdigit d = true)
    (hrange : digitsValue port ≤ 65535) : stoi port = .ok (digitsValue port) := by
  obtain ⟨d, s, rfl⟩ := List.exists_cons_of_ne_nil hne
  have hd : isdigit d = true := hdigits d List.mem_cons_self
  have hskip : (d :: s).dropWhile isspace = d :: s := by
    rw [List.dropWhile_cons_of_neg]
    simp [isspace_of_isdigit hd]
  have htake : (d :: s).takeWhile isdigit = d :: s := List.takeWhile_eq_self_iff.mpr hdigits
  simp only [stoi, hskip, takeSign_of_isdigit hd, htake, one_mul]
  rw [if_neg (by simp), if_neg (by omega)]

/-- An endpoint without a colon is skipped. -/
theorem addServer_no_colon {endpoint : Bytes} (h : colon ∉ endpoint) :
    addServer endpoint = pure () := by
  rw [addServer, List.idxOf?_eq_none_iff.mpr h]

/-- The code looks for the first colon. -/
theorem addServer_colon {host port : Bytes} (h : colon ∉ host) :
    addServer (host ++ colon :: port) = (do
      let number ← Calls.lift (stoi port)
      modify fun f => { f with servers := f.servers ++ [(host, number)] }) := by
  have hpos : (host ++ colon :: port).idxOf? colon = some host.length := by
    induction host with
    | nil => simp [List.idxOf?_cons]
    | cons c host ih =>
      rw [List.mem_cons, not_or] at h
      obtain ⟨hc, hhost⟩ := h
      simp [List.idxOf?_cons, ih hhost, Ne.symm hc]
  rw [addServer, hpos]
  simp

/-- Every endpoint without a colon is skipped, every other one is converted. -/
theorem colon_cases (endpoint : Bytes) :
    colon ∉ endpoint ∨ ∃ host port, endpoint = host ++ colon :: port ∧ colon ∉ host := by
  by_cases h : colon ∈ endpoint
  · obtain ⟨host, port, heq, hhost⟩ := List.eq_append_cons_of_mem h
    exact .inr ⟨host, port, heq, hhost⟩
  · exact .inl h

/-- An endpoint has its colon. -/
theorem IsEndpoint.mem_colon {endpoint : Bytes} {server : Bytes × Int}
    (h : IsEndpoint endpoint server) : colon ∈ endpoint := by
  obtain ⟨port, rfl, -⟩ := h
  simp

/-- An endpoint is added with its host and port. -/
theorem addServer_endpoint {endpoint : Bytes} {server : Bytes × Int}
    (h : IsEndpoint endpoint server) (f : CMFetcher) :
    addServer endpoint f = .ok () { servers := f.servers ++ [server] } := by
  obtain ⟨host, number⟩ := server
  obtain ⟨port, rfl, hhost, hne, hdigits, rfl, -, hrange⟩ := h
  rw [addServer_colon hhost, stoi_of_digits hne hdigits hrange]
  rfl

/-- A call that comes back has appended one server exactly where there is a colon. -/
theorem addServer_ok {endpoint : Bytes} {f f' : CMFetcher} (h : addServer endpoint f = .ok () f') :
    f'.servers.length = f.servers.length + [endpoint].countP (colon ∈ ·) := by
  rcases colon_cases endpoint with hnone | ⟨host, port, rfl, hhost⟩
  · rw [addServer_no_colon hnone] at h
    cases h
    simp [hnone]
  · rw [addServer_colon hhost] at h
    obtain ⟨number, f₁, hlift, h⟩ := Calls.bind_eq_ok h
    cases hstoi : stoi port with
    | error e =>
      rw [hstoi] at hlift
      cases hlift
    | ok value =>
      rw [hstoi] at hlift
      cases hlift
      cases h
      simp

/-! ## The loop

  Counting does it: a loop that came back has a server for each colon, and the list it should have
  has one for each endpoint. -/

/-- Every list has its servers. -/
theorem exists_serversOf (es : List Bytes) : ∃ servers, ServersOf es servers := by
  induction es with
  | nil => exact ⟨[], .nil⟩
  | cons e es ih =>
    obtain ⟨servers, hservers⟩ := ih
    by_cases hsome : ∃ server, IsEndpoint e server
    · obtain ⟨server, hserver⟩ := hsome
      exact ⟨server :: servers, .listed hserver hservers⟩
    · exact ⟨servers, .skipped (not_exists.mp hsome) hservers⟩

/-- Clean endpoints are appended as they are. -/
theorem forM_of_clean {es : List Bytes} {servers : List (Bytes × Int)} (h : ServersOf es servers)
    (hclean : Clean es) (f : CMFetcher) :
    forM es addServer f = .ok () { servers := f.servers ++ servers } := by
  induction h generalizing f with
  | nil => simp; rfl
  | @listed e server es servers hserver _ ih =>
    obtain ⟨-, hes⟩ := List.forall_mem_cons.mp hclean
    rw [List.forM_cons, Calls.bind_ok (addServer_endpoint hserver f), ih hes]
    simp
  | @skipped e es servers hnone _ ih =>
    obtain ⟨he, hes⟩ := List.forall_mem_cons.mp hclean
    have hcolon : colon ∉ e := by
      intro hcolon
      obtain ⟨server, hserver⟩ := he hcolon
      exact hnone server hserver
    rw [List.forM_cons, addServer_no_colon hcolon]
    exact ih hes f

/-- A loop that comes back has appended a server for each colon. -/
theorem forM_ok {es : List Bytes} {f f' : CMFetcher} (h : forM es addServer f = .ok () f') :
    f'.servers.length = f.servers.length + es.countP (colon ∈ ·) := by
  induction es generalizing f with
  | nil =>
    cases h
    rfl
  | cons e es ih =>
    rw [List.forM_cons] at h
    obtain ⟨u, f₁, hfirst, hrest⟩ := Calls.bind_eq_ok h
    have hone := addServer_ok hfirst
    have hmore := ih hrest
    rw [← List.singleton_append, List.countP_append]
    omega

/-- There are no more servers than colons, and as many only if all endpoints are clean. -/
theorem ServersOf.length_le {es : List Bytes} {servers : List (Bytes × Int)}
    (h : ServersOf es servers) :
    servers.length ≤ es.countP (colon ∈ ·) ∧
      (servers.length = es.countP (colon ∈ ·) → Clean es) := by
  induction h with
  | nil => simp [Clean]
  | @listed endpoint server es servers hserver _ ih =>
    obtain ⟨hle, hclean⟩ := ih
    have hcount : (endpoint :: es).countP (colon ∈ ·) = es.countP (colon ∈ ·) + 1 := by
      simp [hserver.mem_colon]
    rw [hcount, List.length_cons]
    refine ⟨by omega, fun heq => List.forall_mem_cons.mpr ⟨fun _ => ⟨server, hserver⟩, ?_⟩⟩
    exact hclean (by omega)
  | @skipped endpoint es servers hnone _ ih =>
    obtain ⟨hle, hclean⟩ := ih
    -- an entry with a colon that is skipped makes the list short for good
    by_cases hcolon : colon ∈ endpoint
    · have hcount : (endpoint :: es).countP (colon ∈ ·) = es.countP (colon ∈ ·) + 1 := by
        simp [hcolon]
      rw [hcount]
      exact ⟨by omega, fun heq => by omega⟩
    · have hcount : (endpoint :: es).countP (colon ∈ ·) = es.countP (colon ∈ ·) := by
        simp [hcolon]
      rw [hcount]
      refine ⟨hle, fun heq => List.forall_mem_cons.mpr ⟨fun h => absurd h hcolon, hclean heq⟩⟩

/-- So the loop reads what the endpoints say exactly when they are clean. -/
theorem forM_servers_iff {es : List Bytes} {servers : List (Bytes × Int)}
    (h : ServersOf es servers) :
    forM es addServer ⟨[]⟩ = .ok () ⟨servers⟩ ↔ Clean es := by
  constructor
  · intro hrun
    refine h.length_le.2 ?_
    have hlen := forM_ok hrun
    simpa using hlen
  · intro hclean
    exact forM_of_clean h hclean ⟨[]⟩

/-! ## One call

  Around the loop there is the response, which may fail to come, and the list of the call
  before. -/

section
variable {web : Directory} {f : CMFetcher} {root : Json}

/-- The response has come and could be parsed. -/
def Parsed (web : Directory) (root : Json) : Prop :=
  web.handle = true ∧ web.performed = true ∧ web.root = some root

/-- In an array each item is an entry. -/
theorem endpoints_of_array {items : List Json} (h : root.listNode = .array items) :
    endpoints root = items.map fun entry => (entry.key (ascii "endpoint")).str := by
  rw [endpoints, h]
  refine List.ext_getElem (by simp [Json.size]) ?_
  intro i hi hi'
  rw [List.length_map] at hi'
  simp [Json.item, hi']

/-- Without a parsed response the earlier list stays. -/
theorem fetchCmServers_unparsed (h : ∀ root, ¬ Parsed web root) :
    fetchCmServers web f = .ok false f := by
  obtain ⟨handle, performed, root⟩ := web
  cases handle with
  | false => rfl
  | true =>
    cases performed with
    | false => rfl
    | true =>
      cases root with
      | none => rfl
      | some root => exact absurd ⟨rfl, rfl, rfl⟩ (h root)

/-- With one the list begins anew. -/
theorem fetchCmServers_parsed (h : Parsed web root) :
    fetchCmServers web f = (do
      forM (endpoints root) addServer
      return !(← get).servers.isEmpty) ⟨[]⟩ := by
  obtain ⟨handle, performed, root⟩ := web
  obtain ⟨rfl, rfl, rfl⟩ := h
  rw [endpoints, List.forM_map]
  rfl

/-- Clean endpoints: the call returns, and whether there are any. -/
theorem fetchCmServers_clean (h : Parsed web root) {servers : List (Bytes × Int)}
    (hrun : forM (endpoints root) addServer ⟨[]⟩ = .ok () ⟨servers⟩) :
    fetchCmServers web f = .ok (!servers.isEmpty) ⟨servers⟩ := by
  rw [fetchCmServers_parsed h, Calls.bind_ok hrun]
  rfl

/-- The list is read as the directory means it, and a call that fails changes nothing. -/
def FetchesAll (web : Directory) (f : CMFetcher) : Prop :=
  (∀ root, Parsed web root → ∃ result servers, ServersOf (endpoints root) servers ∧
    fetchCmServers web f = .ok result ⟨servers⟩) ∧
  ∀ f', (fetchCmServers web f = .ok false f' ∨ ∃ e, fetchCmServers web f = .error e f') → f' = f

/-- No servers means no endpoint among the entries. -/
theorem ServersOf.eq_nil_iff {es : List Bytes} {servers : List (Bytes × Int)}
    (h : ServersOf es servers) :
    servers = [] ↔ ¬ ∃ e ∈ es, ∃ server, IsEndpoint e server := by
  induction h with
  | nil => simp
  | listed hserver _ _ =>
    simp only [List.mem_cons, exists_eq_or_imp, not_or, reduceCtorEq, false_iff]
    rintro ⟨hnone, -⟩
    exact hnone ⟨_, hserver⟩
  | skipped hnone _ ih => simp [ih, hnone]

/-- **Fetching the servers** does what the directory says exactly when every endpoint with a colon
    in it is one, and there is one at all or nothing to lose. -/
theorem fetchesAll_iff (web : Directory) (f : CMFetcher) :
    FetchesAll web f ↔ ∀ root, Parsed web root → Clean (endpoints root) ∧
      ((∃ e ∈ endpoints root, ∃ server, IsEndpoint e server) ∨ f.servers = []) := by
  constructor
  · rintro ⟨hread, hfails⟩ root hparsed
    obtain ⟨result, servers, hservers, hrun⟩ := hread root hparsed
    rw [fetchCmServers_parsed hparsed] at hrun
    obtain ⟨u, f₁, hloop, hrest⟩ := Calls.bind_eq_ok hrun
    cases hrest
    refine ⟨(forM_servers_iff hservers).mp hloop, ?_⟩
    by_cases hnil : servers = []
    · -- the call has returned false, so the list must be the one from before it
      subst hnil
      have hsame : CMFetcher.mk [] = f := hfails _ (.inl (fetchCmServers_clean hparsed hloop))
      exact .inr (by rw [← hsame])
    · have hsome := not_congr hservers.eq_nil_iff
      exact .inl (not_not.mp (hsome.mp hnil))
  · intro h
    -- a response that is not parsed is never touched
    by_cases hall : ∀ root, ¬ Parsed web root
    · have hrun : fetchCmServers web f = .ok false f := fetchCmServers_unparsed hall
      refine ⟨fun root hparsed => absurd hparsed (hall root), ?_⟩
      rintro f' (hfalse | ⟨e, herror⟩)
      · cases hrun.symm.trans hfalse
        rfl
      · cases hrun.symm.trans herror
    · obtain ⟨root, hparsed⟩ := not_forall_not.mp hall
      obtain ⟨hclean, hsome⟩ := h root hparsed
      obtain ⟨servers, hservers⟩ := exists_serversOf (endpoints root)
      have hrun := fetchCmServers_clean (f := f) hparsed ((forM_servers_iff hservers).mpr hclean)
      constructor
      · intro root' hparsed'
        obtain rfl : root = root' := Option.some.inj (hparsed.2.2.symm.trans hparsed'.2.2)
        exact ⟨_, servers, hservers, hrun⟩
      · rintro f' (hfalse | ⟨e, herror⟩)
        · rw [hrun] at hfalse
          injection hfalse with hempty hsame
          obtain rfl : servers = [] := by simpa using hempty
          rcases hsome with hexists | hnothing
          · exact absurd hexists (hservers.eq_nil_iff.mp rfl)
          · rw [← hsame, ← hnothing]
        · cases hrun.symm.trans herror

end

/-- A response with these endpoints in it. -/
def Directory.response (es : List Bytes) : Directory where
  handle := true
  performed := true
  root := some (.object [(ascii "response", .object [(ascii "serverlist",
    .array (es.map fun e => .object [(ascii "endpoint", .string e)]))])])

/-- A response with any entries. -/
theorem parsed_response (es : List Bytes) :
    ∃ root, Parsed (.response es) root ∧ endpoints root = es := by
  obtain ⟨root, hroot⟩ : ∃ root, (Directory.response es).root = some root := ⟨_, rfl⟩
  have hlist : root.listNode = .array (es.map fun e => .object [(ascii "endpoint", .string e)]) := by
    obtain rfl := Option.some.inj hroot
    simp [Json.listNode, Json.key]
  refine ⟨root, ⟨rfl, rfl, hroot⟩, ?_⟩
  rw [endpoints_of_array hlist]
  simp [Json.key, Json.str, Function.comp_def]

/-- An endpoint without a port, behind one that is right: the call throws, and the servers of the
    call before it are lost. -/
theorem fetchesAll_emptyPort : ¬ ∀ web f, FetchesAll web f := by
  intro h
  have hrun : fetchCmServers (.response [ascii "a:27017", ascii "b:"]) ⟨[(ascii "c", 27018)]⟩
      = .error (.invalidArgument "stoi") ⟨[(ascii "a", 27017)]⟩ := by
    obtain ⟨root, hparsed, hendpoints⟩ := parsed_response [ascii "a:27017", ascii "b:"]
    have hfirst : addServer (ascii "a:27017") ⟨[]⟩ = .ok () ⟨[(ascii "a", 27017)]⟩ := rfl
    have hsecond : addServer (ascii "b:") ⟨[(ascii "a", 27017)]⟩
        = .error (.invalidArgument "stoi") ⟨[(ascii "a", 27017)]⟩ := rfl
    rw [fetchCmServers_parsed hparsed, hendpoints, List.forM_cons, List.forM_cons]
    refine Calls.bind_error ?_
    rw [Calls.bind_ok hfirst, Calls.bind_error hsecond]
  have hsame := (h _ _).2 _ (.inr ⟨_, hrun⟩)
  exact absurd (congrArg CMFetcher.servers hsame) (by decide)

/-! ## The lookup of `network_connect`

  The only use that is made of the list: its first server is resolved. -/

/-- `network_connect` does not look at what `fetch_cm_servers` returns, only at the servers. -/
def CMFetcher.lookup (f : CMFetcher) (web : Directory) (resolve : Bytes × Int → Except Exn Unit) :
    Net.Lookup where
  servers := (Calls.outcome (fetchCmServers web f)).map fun _ =>
    (Calls.after (fetchCmServers web f)).getServers
  resolve := resolve

section
variable {web : Directory} {f : CMFetcher} {resolve : Bytes × Int → Except Exn Unit}

/-- Without a response the servers of the last call are tried again. -/
theorem lookup_unparsed (h : ∀ root, ¬ Parsed web root) :
    (f.lookup web resolve).servers = .ok f.getServers := by
  rw [CMFetcher.lookup, fetchCmServers_unparsed h]
  rfl

/-- With a clean one a server is found if there is a first one and it can be resolved. -/
theorem lookup_finds_iff {root : Json} {servers : List (Bytes × Int)} (hparsed : Parsed web root)
    (hservers : ServersOf (endpoints root) servers) (hclean : Clean (endpoints root)) :
    (f.lookup web resolve).Finds ↔
      ∃ server rest, servers = server :: rest ∧ resolve server = .ok () := by
  have hrun := fetchCmServers_clean (f := f) hparsed ((forM_servers_iff hservers).mpr hclean)
  have hlookup : (f.lookup web resolve).servers = .ok servers := by
    rw [CMFetcher.lookup, hrun]
    rfl
  constructor
  · rintro ⟨server, rest, hcons, hresolve⟩
    exact ⟨server, rest, Except.ok.inj (hlookup.symm.trans hcons), hresolve⟩
  · rintro ⟨server, rest, rfl, hresolve⟩
    exact ⟨server, rest, hlookup, hresolve⟩

end

end SteamMin.Web
