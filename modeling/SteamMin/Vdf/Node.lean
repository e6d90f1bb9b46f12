/-
  VDF TREES — `include/steamclient/utilities/vdf.hpp`.

  `Value` is the variant of the header, with an object's contents as a list of entries.  That one
  list type has two readings:

  * a DOCUMENT is any list of entries, in the order they are written and with repeated keys;
  * an `Object` is the `std::unordered_map` of the code: its entries are strictly sorted by key at
    every level (`Canonical`), so two objects are equal exactly when they hold the same values
    under the same keys (`Object.ext`).  The invariant is a field: an `Object` or `VDFNode` that is
    not canonical cannot be built.

  `Object.ofEntries` is the meaning of a document: assignments carried out in order, so that at
  every level the last entry for a key wins (`get_ofEntries`).
-/
import SteamMin.Basic
import SteamMin.Lib.KeyMap

namespace SteamMin.Vdf

/-- `std::variant<std::string, int32_t, uint64_t, float, Object>`; a float is its four bytes. -/
inductive Value
  | string (s : Bytes)
  | int32 (i : Int32)
  | uint64 (u : UInt64)
  | float (bits : UInt32)
  | object (entries : List (Bytes × Value))

/-- Entries in some order, keys possibly repeated. -/
abbrev Entries := List (Bytes × Value)

mutual

/-- Every object inside is strictly sorted by key. -/
def Value.Canonical : Value → Prop
  | .object es => KeyMap.Sorted es ∧ CanonicalEntries es
  | _ => True

/-- Every value of the list is canonical. -/
def CanonicalEntries : Entries → Prop
  | [] => True
  | (_, v) :: es => v.Canonical ∧ CanonicalEntries es

end

/-- A node: a variant whose objects are maps. -/
structure VDFNode where
  value : Value
  canonical : value.Canonical

/-- `std::unordered_map<std::string, VDFNode>`. -/
@[ext] structure Object where
  entries : Entries
  sorted : KeyMap.Sorted entries
  canonical : CanonicalEntries entries

/-! ## Nodes and the operations of the map -/

/-- What is found in well-formed entries is well formed. -/
theorem canonical_of_find {k : Bytes} {v : Value} :
    ∀ {es : Entries}, CanonicalEntries es → KeyMap.find k es = some v → v.Canonical
  | (k', v') :: es, h, hf => by
    rw [CanonicalEntries] at h
    rw [KeyMap.find] at hf
    split at hf
    · exact Option.some.inj hf ▸ h.1
    · exact canonical_of_find h.2 hf

/-- Inserting a well-formed value keeps the entries well formed. -/
theorem canonical_insert {k : Bytes} {v : Value} (hv : v.Canonical) :
    ∀ {es : Entries}, CanonicalEntries es → CanonicalEntries (KeyMap.insert k v es)
  | [], h => ⟨hv, h⟩
  | (k', v') :: es, h => by
    have htail := h
    rw [CanonicalEntries] at htail
    rw [KeyMap.insert]
    split
    · exact ⟨hv, h⟩
    · split
      · exact ⟨hv, htail.2⟩
      · exact ⟨htail.1, canonical_insert hv htail.2⟩

/-- The nodes whose variant holds a string or a number. -/
def VDFNode.string (s : Bytes) : VDFNode := ⟨.string s, trivial⟩
def VDFNode.int32 (i : Int32) : VDFNode := ⟨.int32 i, trivial⟩
def VDFNode.uint64 (u : UInt64) : VDFNode := ⟨.uint64 u, trivial⟩
def VDFNode.float (bits : UInt32) : VDFNode := ⟨.float bits, trivial⟩

/-- The node whose variant holds an object. -/
def VDFNode.object (o : Object) : VDFNode := ⟨.object o.entries, o.sorted, o.canonical⟩

/-- `Object obj;` -/
def Object.empty : Object := ⟨[], trivial, trivial⟩

/-- `obj[key].value = value` -/
def Object.set (o : Object) (key : Bytes) (node : VDFNode) : Object where
  entries := KeyMap.insert key node.value o.entries
  sorted := o.sorted.insert
  canonical := canonical_insert node.canonical o.canonical

/-- `obj.find(key)` -/
def Object.get (o : Object) (key : Bytes) : Option VDFNode :=
  match h : KeyMap.find key o.entries with
  | none => none
  | some v => some ⟨v, canonical_of_find o.canonical h⟩

/-- A lookup on the object is a lookup on its entries, with the invariant attached. -/
theorem Object.get_eq_some {o : Object} {k : Bytes} {n : VDFNode} :
    o.get k = some n ↔ KeyMap.find k o.entries = some n.value := by
  obtain ⟨v, hv⟩ := n
  unfold Object.get
  split
  · rename_i h
    simp [h]
  · rename_i w h
    constructor
    · intro hn
      injection hn with hn
      injection hn with hn
      rw [h, hn]
    · intro hw
      obtain rfl : w = v := Option.some.inj (h.symm.trans hw)
      rfl

/-- The same without the invariant. -/
theorem Object.get_map_value (o : Object) (k : Bytes) :
    (o.get k).map VDFNode.value = KeyMap.find k o.entries := by
  cases hg : o.get k with
  | some n => exact (Object.get_eq_some.mp hg).symm
  | none =>
    unfold Object.get at hg
    split at hg
    · rename_i h; exact h.symm
    · exact absurd hg (by simp)

/-- **Objects are maps**: equal as soon as every lookup agrees. -/
theorem Object.ext_get {o p : Object} (h : ∀ k, o.get k = p.get k) : o = p := by
  refine Object.ext (o.sorted.ext p.sorted fun k => ?_)
  rw [← o.get_map_value, ← p.get_map_value, h k]

/-! ## The meaning of a document -/

mutual

/-- The value a document value denotes: its objects as maps, the last entry for a key winning. -/
def Value.denote : Value → Value
  | .object es => .object (KeyMap.ofList (denoteEntries es))
  | v => v

/-- The denotations of a list of entries, in the same order. -/
def denoteEntries : Entries → Entries
  | [] => []
  | (k, v) :: es => (k, v.denote) :: denoteEntries es

end

/-- Inserting a list of well-formed values keeps the entries well formed. -/
theorem canonical_assign : ∀ {es m : Entries}, CanonicalEntries es → CanonicalEntries m →
    CanonicalEntries (KeyMap.assign m es)
  | [], _, _, hm => hm
  | (_, _) :: es, _, hes, hm => by
    rw [CanonicalEntries] at hes
    rw [KeyMap.assign_cons]
    exact canonical_assign hes.2 (canonical_insert hes.1 hm)

mutual

/-- What a written value denotes is well formed: sorted, with one entry a key, all the way
    down. -/
theorem Value.canonical_denote : ∀ v : Value, v.denote.Canonical
  | .string _ => trivial
  | .int32 _ => trivial
  | .uint64 _ => trivial
  | .float _ => trivial
  | .object es =>
    ⟨KeyMap.sorted_ofList _, canonical_assign (canonical_denoteEntries es) trivial⟩

/-- The same for the entries of one object. -/
theorem canonical_denoteEntries : ∀ es : Entries, CanonicalEntries (denoteEntries es)
  | [] => trivial
  | (_, v) :: es => ⟨v.canonical_denote, canonical_denoteEntries es⟩

end

/-- The node a document value denotes. -/
def VDFNode.ofValue (v : Value) : VDFNode := ⟨v.denote, v.canonical_denote⟩

/-- The assignments of a document, carried out on `o` in order. -/
def Object.assign (o : Object) : Entries → Object
  | [] => o
  | (k, v) :: es => (o.set k (.ofValue v)).assign es

/-- The object a document denotes. -/
def Object.ofEntries (es : Entries) : Object := Object.empty.assign es

/-- Setting keys on the object is inserting into its entries. -/
theorem Object.entries_assign : ∀ (es : Entries) (o : Object),
    (o.assign es).entries = KeyMap.assign o.entries (denoteEntries es)
  | [], _ => rfl
  | (k, v) :: es, o => Object.entries_assign es (o.set k (.ofValue v))

/-- The entries of a parsed object, as the parser's sequence of `set` leaves them. -/
theorem Object.entries_ofEntries (es : Entries) :
    (Object.ofEntries es).entries = KeyMap.ofList (denoteEntries es) :=
  Object.entries_assign es Object.empty

/-- A parser that goes on setting keys has set them all. -/
theorem Object.assign_append (es fs : Entries) : ∀ o : Object,
    o.assign (es ++ fs) = (o.assign es).assign fs := by
  induction es with
  | nil => intro o; rfl
  | cons e es ih => intro o; exact ih _

/-- A nested document denotes the object of its entries. -/
theorem VDFNode.ofValue_object (es : Entries) :
    VDFNode.ofValue (.object es) = .object (Object.ofEntries es) := by
  unfold VDFNode.ofValue VDFNode.object
  congr 1
  rw [Object.entries_ofEntries, Value.denote]

/-- Of several entries with one key the last is what the object has. -/
theorem findLast_denoteEntries (k : Bytes) : ∀ es : Entries,
    KeyMap.findLast k (denoteEntries es) = (KeyMap.findLast k es).map Value.denote
  | [] => rfl
  | (k', v) :: es => by
    rw [denoteEntries, KeyMap.findLast, KeyMap.findLast, findLast_denoteEntries k es]
    cases KeyMap.findLast k es with
    | some w => rfl
    | none => by_cases hk : k = k' <;> simp [hk]

/-- **The last entry for a key wins**, at the top level and, through `VDFNode.ofValue`, at every
    level below. -/
theorem Object.get_ofEntries (k : Bytes) (es : Entries) :
    (Object.ofEntries es).get k = (KeyMap.findLast k es).map VDFNode.ofValue := by
  have hfind : KeyMap.find k (Object.ofEntries es).entries
      = (KeyMap.findLast k es).map Value.denote := by
    rw [Object.entries_ofEntries, KeyMap.find_ofList, findLast_denoteEntries]
  cases hlast : KeyMap.findLast k es with
  | some v =>
    rw [hlast] at hfind
    exact Object.get_eq_some.mpr hfind
  | none =>
    rw [hlast, ← Object.get_map_value] at hfind
    exact Option.map_eq_none_iff.mp hfind

mutual

/-- A canonical value denotes itself. -/
theorem Value.denote_of_canonical : ∀ {v : Value}, v.Canonical → v.denote = v
  | .string _, _ => rfl
  | .int32 _, _ => rfl
  | .uint64 _, _ => rfl
  | .float _, _ => rfl
  | .object es, h => by
    rw [Value.Canonical] at h
    rw [Value.denote, denoteEntries_of_canonical h.2, KeyMap.ofList_of_sorted h.1]

/-- Well-formed entries denote themselves. -/
theorem denoteEntries_of_canonical : ∀ {es : Entries}, CanonicalEntries es →
    denoteEntries es = es
  | [], _ => rfl
  | (_, v) :: es, h => by
    rw [CanonicalEntries] at h
    rw [denoteEntries, Value.denote_of_canonical h.1, denoteEntries_of_canonical h.2]

end

end SteamMin.Vdf
