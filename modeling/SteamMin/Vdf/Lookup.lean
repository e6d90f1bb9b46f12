/-
  LOOKING THINGS UP — `VDFNode` of `include/steamclient/utilities/vdf.hpp`.

  A node is asked for a child (`get`), for what lies at the end of a path of keys (`get_path`), or for
  a value of a certain type under a key, with a default for all other cases (`get_string_or` and its
  siblings, which differ in the alternative of the variant only).

  For a parsed tree the question can be put to the document: `Value.lookup` walks through the entries
  as they were written, and takes the last one for its key at every level.  The two agree on every
  path (`getPath_ofValue`).

  What `stringify` prints is read back under the same paths, but as text: a number is a string then,
  and the getters for numbers are left with their defaults (`printed_lookup`).
-/
import SteamMin.Vdf.Stringify

namespace SteamMin.Vdf

/-! ## The accessors -/

/-- The entries of a well-formed object are sorted by key. -/
theorem sorted_of_canonical {es : Entries} (h : (Value.object es).Canonical) :
    KeyMap.Sorted es := h.1

/-- And well formed themselves. -/
theorem canonicalEntries_of_canonical {es : Entries} (h : (Value.object es).Canonical) :
    CanonicalEntries es := h.2

namespace VDFNode

/-- `std::get_if<Object>(&value)` -/
def objectIf : VDFNode → Option Object
  | ⟨.object entries, canonical⟩ =>
    some ⟨entries, sorted_of_canonical canonical, canonicalEntries_of_canonical canonical⟩
  | _ => none

/-- `std::get_if<std::string>(&value)` -/
def stringIf (n : VDFNode) : Option Bytes :=
  match n.value with
  | .string s => some s
  | _ => none

/-- `std::get_if<int32_t>(&value)` -/
def int32If (n : VDFNode) : Option Int32 :=
  match n.value with
  | .int32 i => some i
  | _ => none

/-- `std::get_if<uint64_t>(&value)` -/
def uint64If (n : VDFNode) : Option UInt64 :=
  match n.value with
  | .uint64 u => some u
  | _ => none

/-- `std::get_if<float>(&value)`, the bytes of the float. -/
def floatIf (n : VDFNode) : Option UInt32 :=
  match n.value with
  | .float bits => some bits
  | _ => none

/-- `get`: the entry of a key, or nothing when the node is no object. -/
def get (n : VDFNode) (key : Bytes) : Option VDFNode :=
  match n.objectIf with
  | some obj => obj.get key
  | none => none

/-- What the four getters share; `valueIf` is the alternative each asks for. -/
def getOr {α : Type} (valueIf : VDFNode → Option α) (n : VDFNode) (key : Bytes) (dflt : α) : α :=
  match n.get key with
  | some node => (valueIf node).getD dflt
  | none => dflt

/-- `get_string_or`; the other three differ in the alternative only. -/
def getStringOr : VDFNode → Bytes → Bytes → Bytes := getOr stringIf
def getIntOr : VDFNode → Bytes → Int32 → Int32 := getOr int32If
def getUint64Or : VDFNode → Bytes → UInt64 → UInt64 := getOr uint64If
def getFloatOr : VDFNode → Bytes → UInt32 → UInt32 := getOr floatIf

/-- `get_path`: the loop over the keys, with `current`. -/
def getPath (current : VDFNode) : List Bytes → Option VDFNode
  | [] => some current
  | key :: keys =>
    match current.objectIf with
    | none => none
    | some obj =>
      match obj.get key with
      | none => none
      | some node => node.getPath keys

/-! Small facts about them. -/

/-- On an object the lookup is that of the map. -/
@[simp] theorem get_object (o : Object) (key : Bytes) : (VDFNode.object o).get key = o.get key := rfl

/-- A path is followed child by child. -/
theorem getPath_cons (n : VDFNode) (key : Bytes) (keys : List Bytes) :
    n.getPath (key :: keys) = (n.get key).bind fun child => child.getPath keys := by
  rw [getPath, get]
  cases n.objectIf with
  | none => rfl
  | some obj =>
    dsimp only
    cases obj.get key with
    | none => rfl
    | some node => rfl

/-- A path of one key is a lookup. -/
theorem getPath_singleton (n : VDFNode) (key : Bytes) : n.getPath [key] = n.get key := by
  rw [getPath_cons]
  exact Option.bind_fun_some _

end VDFNode

/-! ## Looking into a document -/

/-- What stands at the end of a path in a document, the last entry for a key counting. -/
def Value.lookup : List Bytes → Value → Option Value
  | [], v => some v
  | key :: keys, .object es => (KeyMap.findLast key es).bind (Value.lookup keys)
  | _ :: _, _ => none

/-- Looking up in what a value denotes: of several entries with one key the last one counts. -/
theorem get_ofValue_object (es : Entries) (key : Bytes) :
    (VDFNode.ofValue (.object es)).get key = (KeyMap.findLast key es).map VDFNode.ofValue := by
  rw [VDFNode.ofValue_object, VDFNode.get_object, Object.get_ofEntries]

/-- **Paths lead to the same place** in a document and in the tree it denotes. -/
theorem getPath_ofValue (keys : List Bytes) : ∀ v : Value,
    (VDFNode.ofValue v).getPath keys = (v.lookup keys).map VDFNode.ofValue := by
  induction keys with
  | nil => intro v; rfl
  | cons key keys ih =>
    intro v
    rw [VDFNode.getPath_cons]
    cases v with
    | object es =>
      rw [get_ofValue_object, Value.lookup]
      cases KeyMap.findLast key es with
      | none => rfl
      | some w => exact ih w
    | string s => rfl
    | int32 i => rfl
    | uint64 u => rfl
    | float bits => rfl

/-! ## Looking into what was printed -/

section
variable (F : FloatText)

/-- The node with every leaf below it replaced by its text. -/
def VDFNode.textForm (n : VDFNode) : VDFNode :=
  ⟨n.value.textForm F, Value.canonical_textForm F n.canonical⟩

/-- The text of a leaf. -/
def VDFNode.textIf (n : VDFNode) : Option Bytes := (n.textForm F).stringIf

/-- Looking up commutes with taking the text form. -/
theorem find_textEntries (k : Bytes) (es : Entries) :
    KeyMap.find k (textEntries F es) = (KeyMap.find k es).map (Value.textForm F) := by
  induction es with
  | nil => rfl
  | cons e es ih =>
    rw [textEntries, KeyMap.find, KeyMap.find, ih]
    by_cases hk : k = e.1
    · rw [if_pos hk, if_pos hk]
      rfl
    · rw [if_neg hk, if_neg hk]

/-- The same for the map. -/
theorem Object.get_textForm (o : Object) (k : Bytes) :
    (o.textForm F).get k = (o.get k).map (VDFNode.textForm F) := by
  have hfind : KeyMap.find k (o.textForm F).entries = (KeyMap.find k o.entries).map _ :=
    find_textEntries F k o.entries
  rw [← o.get_map_value] at hfind
  cases hget : o.get k with
  | some n =>
    rw [hget] at hfind
    exact Object.get_eq_some.mpr hfind
  | none =>
    rw [hget, ← Object.get_map_value] at hfind
    exact Option.map_eq_none_iff.mp hfind

/-- Objects stay objects, and nothing else becomes one. -/
theorem VDFNode.get_textForm (n : VDFNode) (key : Bytes) :
    (n.textForm F).get key = (n.get key).map (VDFNode.textForm F) := by
  obtain ⟨v, hv⟩ := n
  cases v with
  | object es => exact Object.get_textForm F ⟨es, hv.1, hv.2⟩ key
  | string s => rfl
  | int32 i => rfl
  | uint64 u => rfl
  | float bits => rfl

/-- The same along a path, by induction on its keys. -/
theorem VDFNode.getPath_textForm (keys : List Bytes) : ∀ n : VDFNode,
    (n.textForm F).getPath keys = (n.getPath keys).map (VDFNode.textForm F) := by
  induction keys with
  | nil => intro n; rfl
  | cons key keys ih =>
    intro n
    rw [VDFNode.getPath_cons, VDFNode.getPath_cons, VDFNode.get_textForm]
    cases n.get key with
    | none => rfl
    | some child => exact ih child

/-- A leaf of the text form is a string. -/
theorem VDFNode.getOr_textForm {α : Type} {valueIf : VDFNode → Option α}
    (hvalue : ∀ n : VDFNode, valueIf (n.textForm F) = none) (n : VDFNode) (key : Bytes) (dflt : α) :
    getOr valueIf (n.textForm F) key dflt = dflt := by
  rw [getOr, VDFNode.get_textForm]
  cases n.get key with
  | none => rfl
  | some child =>
    show (valueIf (child.textForm F)).getD dflt = dflt
    rw [hvalue child]
    rfl

/-- `n` answers as the printed form of `m` does: with the texts of the leaves, and with no number. -/
structure VDFNode.SaysAsText (m n : VDFNode) : Prop where
  texts : ∀ key dflt, n.getStringOr key dflt = getOr (textIf F) m key dflt
  noInt32 : ∀ key dflt, n.getIntOr key dflt = dflt
  noUint64 : ∀ key dflt, n.getUint64Or key dflt = dflt
  noFloat : ∀ key dflt, n.getFloatOr key dflt = dflt

/-- So the getters see the text of what was there. -/
theorem VDFNode.saysAsText_textForm (m : VDFNode) : m.SaysAsText F (m.textForm F) where
  texts := by
    intro key dflt
    rw [getStringOr, getOr, getOr, VDFNode.get_textForm]
    cases m.get key with
    | none => rfl
    | some child => rfl
  noInt32 := getOr_textForm F (fun n => by rcases n with ⟨_ | _ | _ | _ | _, _⟩ <;> rfl) m
  noUint64 := getOr_textForm F (fun n => by rcases n with ⟨_ | _ | _ | _ | _, _⟩ <;> rfl) m
  noFloat := getOr_textForm F (fun n => by rcases n with ⟨_ | _ | _ | _ | _, _⟩ <;> rfl) m

/-- **What was printed is found again, as text**: where no key and no string of an object has a quote
    or a backslash, its printed form parses to a tree that has the same paths; and at the end of each
    path the texts of the leaves are found under their keys, but no number under any. -/
theorem printed_lookup {o : Object} (it : o.Iteration) (hclean : o.Clean) :
    ∃ o', parseText (stringify F it.order) = .ok o' ∧ ∀ keys,
      ((VDFNode.object o).getPath keys = none → (VDFNode.object o').getPath keys = none) ∧
      ∀ m, (VDFNode.object o).getPath keys = some m →
        ∃ n, (VDFNode.object o').getPath keys = some n ∧ m.SaysAsText F n := by
  refine ⟨o.textForm F, parseText_stringify F it hclean, fun keys => ?_⟩
  have hpath := VDFNode.getPath_textForm F keys (.object o)
  constructor
  · intro hnone
    rw [hnone] at hpath
    exact hpath
  · intro m hm
    rw [hm] at hpath
    exact ⟨m.textForm F, hpath, m.saysAsText_textForm F⟩

end

/-- An app with its number and its name. -/
def sampleApp : Object :=
  (Object.empty.set (ascii "appid") (.int32 440)).set (ascii "common")
    (.object (Object.empty.set (ascii "name") (.string (ascii "TF2"))))

/-- The text of zero, for all floats. -/
def zeroText : FloatText :=
  ⟨fun _ => ascii "0.000000", fun _ => ⟨by decide, by decide⟩⟩

/-- Its number is read back as a string. -/
theorem printed_lookup_app :
    ∃ o', parseText (stringify zeroText sampleApp.inOrder.order) = .ok o' ∧
      (VDFNode.object o').getStringOr (ascii "appid") [] = ascii "440" ∧
      (VDFNode.object o').getIntOr (ascii "appid") 0 = 0 := by
  have hclean : sampleApp.Clean := by
    refine (cleanEntries_iff _).mpr ?_
    decide +kernel
  obtain ⟨o', hrun, hpaths⟩ := printed_lookup zeroText sampleApp.inOrder hclean
  obtain ⟨n, hn, htext⟩ := (hpaths []).2 (.object sampleApp) rfl
  obtain rfl : VDFNode.object o' = n := Option.some.inj hn
  refine ⟨o', hrun, ?_, htext.noInt32 _ _⟩
  rw [htext.texts]
  rfl

end SteamMin.Vdf
