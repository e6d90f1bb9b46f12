/-
  THE PRINTER — `stringify` of `vdf.hpp` and `stringify_object` of `src/utils/vdf/vdf_text.cpp` —
  and what the parser makes of its output.

  An `unordered_map` is iterated in an order of its own: an `Iteration` of an object lists its
  entries in some order at every level, and the printer is a function of that list.  The decimal
  forms of the integers are `std::to_string`'s; the one of a float depends on the locale and on
  the language version, and is a parameter (`FloatText`) of which only the absence of quotes and
  backslashes is used.

  `stringify` puts keys and strings between quotes AS THEY ARE, while the parser reads `\` as an
  escape and `"` as the end.  So the round trip holds exactly for `Clean` objects:

  * a clean object prints a derivation of its own text form (`entryList_stringify`);
  * a text of the grammar has two backslashes for each backslash it denotes and one for each quote
    (`Doc.cost_le`), but the printer writes each backslash once and escapes nothing
    (`count_stringifyObject`); the count only comes out even when there are none of either.
-/
import SteamMin.Vdf.TextCorrect

namespace SteamMin.Vdf

/-! ## The text of a value -/

/-- Neither a quote nor a backslash. -/
def CleanStr (s : Bytes) : Prop := quote ∉ s ∧ backslash ∉ s

/-- `std::to_string(float)`, on the bytes of the float. -/
structure FloatText where
  text : UInt32 → Bytes
  clean : ∀ bits, CleanStr (text bits)

/-- `std::to_string(int32_t)` -/
def int32Text (i : Int32) : Bytes := ascii (toString i.toInt)

/-- `std::to_string(uint64_t)` -/
def uint64Text (u : UInt64) : Bytes := ascii (toString u.toNat)

variable (F : FloatText)

mutual

/-- The value with every leaf replaced by its text. -/
def Value.textForm : Value → Value
  | .string s => .string s
  | .int32 i => .string (int32Text i)
  | .uint64 u => .string (uint64Text u)
  | .float b => .string (F.text b)
  | .object es => .object (textEntries es)

/-- The text form, entry by entry. -/
def textEntries : Entries → Entries
  | [] => []
  | (k, v) :: es => (k, v.textForm) :: textEntries es

end

/-! ## The printer -/

/-- `pad + "\"" + key + "\" \"" + text + "\"\n"` -/
def leafLine (pad key text : Bytes) : Bytes :=
  pad ++ quote :: key ++ quote :: 0x20 :: quote :: text ++ [quote, newline]

/-- `std::string pad(indent, '\t')` -/
def padding (indent : Nat) : Bytes := List.replicate indent tab

mutual

/-- The body of the loop of `stringify_object`: what one entry adds to `out`. -/
def stringifyEntry (indent : Nat) (key : Bytes) : Value → Bytes
  | .object es =>
      padding indent ++ quote :: key ++ [quote, newline] ++
      (padding indent ++ [lbrace, newline]) ++
      stringifyObject (indent + 1) es ++
      (padding indent ++ [rbrace, newline])
  | .string s => leafLine (padding indent) key s
  | .int32 i => leafLine (padding indent) key (int32Text i)
  | .uint64 u => leafLine (padding indent) key (uint64Text u)
  | .float b => leafLine (padding indent) key (F.text b)

/-- `stringify_object`: what it adds to `out`, the entries taken in iteration order. -/
def stringifyObject (indent : Nat) : Entries → Bytes
  | [] => []
  | (k, v) :: es => stringifyEntry indent k v ++ stringifyObject indent es

end

/-- `stringify` -/
def stringify (order : Entries) : Bytes := stringifyObject F 0 order

mutual

/-- `Iterates v w`: `w` is `v` with the entries of every object listed in some order. -/
inductive Iterates : Value → Value → Prop
  | string (s : Bytes) : Iterates (.string s) (.string s)
  | int32 (i : Int32) : Iterates (.int32 i) (.int32 i)
  | uint64 (u : UInt64) : Iterates (.uint64 u) (.uint64 u)
  | float (b : UInt32) : Iterates (.float b) (.float b)
  | object {es ls : Entries} : IteratesAll es ls → Iterates (.object es) (.object ls)

/-- Each entry of the first list stands somewhere in the second. -/
inductive IteratesAll : Entries → Entries → Prop
  | nil : IteratesAll [] []
  | cons {k : Bytes} {v w : Value} {es l₁ l₂ : Entries} : Iterates v w →
      IteratesAll es (l₁ ++ l₂) → IteratesAll ((k, v) :: es) (l₁ ++ (k, w) :: l₂)

end

/-- An order in which a walk through the maps of `o` meets their entries. -/
structure Object.Iteration (o : Object) where
  order : Entries
  iterates : IteratesAll o.entries order

mutual

/-- The sorted order of the model is one of the orders an iteration may take. -/
theorem Iterates.refl : ∀ v : Value, Iterates v v
  | .string s => .string s
  | .int32 i => .int32 i
  | .uint64 u => .uint64 u
  | .float b => .float b
  | .object es => .object (IteratesAll.refl es)

/-- The same for the entries of one object. -/
theorem IteratesAll.refl : ∀ es : Entries, IteratesAll es es
  | [] => .nil
  | (k, v) :: es =>
    @IteratesAll.cons k v v es [] es (Iterates.refl v) (IteratesAll.refl es)

end

/-- The walk that meets the keys in order. -/
def Object.inOrder (o : Object) : o.Iteration := ⟨o.entries, .refl _⟩

/-! ## The text form of an object -/

/-- Taking the text form adds no key. -/
theorem mem_textEntries {e : Bytes × Value} : ∀ {es : Entries}, e ∈ textEntries F es →
    ∃ f ∈ es, f.1 = e.1
  | (k, v) :: es, h => by
    rw [textEntries] at h
    rcases List.mem_cons.mp h with rfl | h
    · exact ⟨(k, v), List.mem_cons_self, rfl⟩
    · obtain ⟨f, hf, hk⟩ := mem_textEntries h
      exact ⟨f, List.mem_cons_of_mem _ hf, hk⟩

/-- Taking the text form leaves the keys, so sorted entries stay sorted. -/
theorem sorted_textEntries : ∀ {es : Entries}, KeyMap.Sorted es →
    KeyMap.Sorted (textEntries F es)
  | [], _ => trivial
  | (k, v) :: es, h => by
    refine ⟨fun e he => ?_, sorted_textEntries h.2⟩
    obtain ⟨f, hf, hk⟩ := mem_textEntries F he
    exact hk ▸ h.1 f hf

mutual

/-- The text form of a well-formed value is well formed. -/
theorem Value.canonical_textForm : ∀ {v : Value}, v.Canonical → (v.textForm F).Canonical
  | .string _, _ => trivial
  | .int32 _, _ => trivial
  | .uint64 _, _ => trivial
  | .float _, _ => trivial
  | .object es, h => by
    rw [Value.Canonical] at h
    exact ⟨sorted_textEntries F h.1, canonical_textEntries h.2⟩

/-- The same for the entries of one object. -/
theorem canonical_textEntries : ∀ {es : Entries}, CanonicalEntries es →
    CanonicalEntries (textEntries F es)
  | [], _ => trivial
  | (k, v) :: es, h => by
    rw [CanonicalEntries] at h
    exact ⟨v.canonical_textForm h.1, canonical_textEntries h.2⟩

end

/-- The object with every leaf replaced by its text. -/
def Object.textForm (o : Object) : Object where
  entries := textEntries F o.entries
  sorted := sorted_textEntries F o.sorted
  canonical := canonical_textEntries F o.canonical

/-- The text form of a list is taken entry by entry, so it splits where the list does. -/
theorem textEntries_append (es fs : Entries) :
    textEntries F (es ++ fs) = textEntries F es ++ textEntries F fs := by
  induction es with
  | nil => rfl
  | cons e es ih =>
    obtain ⟨k, v⟩ := e
    rw [List.cons_append, textEntries, ih, textEntries, List.cons_append]

mutual

/-- An order for the value is an order for its text form: printing chooses the order once. -/
theorem Iterates.textForm : ∀ {v w : Value}, Iterates v w →
    Iterates (v.textForm F) (w.textForm F)
  | _, _, .string s => .string s
  | _, _, .int32 _ => .string _
  | _, _, .uint64 _ => .string _
  | _, _, .float _ => .string _
  | _, _, .object h => .object h.textEntries

/-- The same for the entries of one object. -/
theorem IteratesAll.textEntries : ∀ {es ls : Entries}, IteratesAll es ls →
    IteratesAll (SteamMin.Vdf.textEntries F es) (SteamMin.Vdf.textEntries F ls)
  | _, _, .nil => .nil
  | _, _, .cons hv hes => by
    rw [textEntries_append]
    refine .cons hv.textForm ?_
    rw [← textEntries_append]
    exact hes.textEntries

end

/-- An iteration visits no key that the object does not have. -/
theorem IteratesAll.key_mem {e : Bytes × Value} : ∀ {es ls : Entries}, IteratesAll es ls →
    e ∈ ls → ∃ f ∈ es, f.1 = e.1
  | _, _, .nil, h => absurd h List.not_mem_nil
  | _, _, @IteratesAll.cons k v w es l₁ l₂ hv hes, h => by
    rcases List.mem_append.mp h with h | h
    · obtain ⟨f, hf, hk⟩ := hes.key_mem (List.mem_append.mpr (Or.inl h))
      exact ⟨f, List.mem_cons_of_mem _ hf, hk⟩
    · rcases List.mem_cons.mp h with rfl | h
      · exact ⟨(k, v), List.mem_cons_self, rfl⟩
      · obtain ⟨f, hf, hk⟩ := hes.key_mem (List.mem_append.mpr (Or.inr h))
        exact ⟨f, List.mem_cons_of_mem _ hf, hk⟩

/-- Denotation is entry by entry. -/
theorem denoteEntries_append (es fs : Entries) :
    denoteEntries (es ++ fs) = denoteEntries es ++ denoteEntries fs := by
  induction es with
  | nil => rfl
  | cons e es ih =>
    obtain ⟨k, v⟩ := e
    rw [List.cons_append, denoteEntries, ih, denoteEntries, List.cons_append]

/-- Denotation adds no key. -/
theorem mem_denoteEntries {e : Bytes × Value} : ∀ {es : Entries}, e ∈ denoteEntries es →
    ∃ f ∈ es, f.1 = e.1
  | (k, v) :: es, h => by
    rw [denoteEntries] at h
    rcases List.mem_cons.mp h with rfl | h
    · exact ⟨(k, v), List.mem_cons_self, rfl⟩
    · obtain ⟨f, hf, hk⟩ := mem_denoteEntries h
      exact ⟨f, List.mem_cons_of_mem _ hf, hk⟩

mutual

/-- The order of iteration does not matter: a map listed in any order denotes the map. -/
theorem Iterates.denote : ∀ {v w : Value}, Iterates v w → v.Canonical → w.denote = v
  | _, _, .string _, _ => rfl
  | _, _, .int32 _, _ => rfl
  | _, _, .uint64 _, _ => rfl
  | _, _, .float _, _ => rfl
  | _, _, .object hes, h => by
    rw [Value.Canonical] at h
    rw [Value.denote, hes.ofList h.1 h.2]

/-- The point of the order being free: whatever order was printed, inserting the entries back in
    that order gives the object.  By induction on the iteration; the head is found in the middle of
    what is left. -/
theorem IteratesAll.ofList : ∀ {es ls : Entries}, IteratesAll es ls → KeyMap.Sorted es →
    CanonicalEntries es → KeyMap.ofList (denoteEntries ls) = es
  | _, _, .nil, _, _ => rfl
  | _, _, @IteratesAll.cons k v w es l₁ l₂ hv hes, hs, hc => by
    rw [CanonicalEntries] at hc
    have htail : KeyMap.ofList (denoteEntries (l₁ ++ l₂)) = es := hes.ofList hs.2 hc.2
    -- what comes behind the head in the iteration has other keys, since the head is the smallest
    have hne : ∀ e ∈ denoteEntries l₂, e.1 ≠ k := by
      intro e he
      obtain ⟨f, hf, hfk⟩ := mem_denoteEntries he
      obtain ⟨g, hg, hgk⟩ := hes.key_mem (List.mem_append.mpr (Or.inr hf))
      have hlt := hs.1 g hg
      rw [hgk, hfk] at hlt
      exact ne_of_gt hlt
    rw [denoteEntries_append] at htail
    calc KeyMap.ofList (denoteEntries (l₁ ++ (k, w) :: l₂))
        = KeyMap.assign (KeyMap.insert k v (KeyMap.ofList (denoteEntries l₁)))
            (denoteEntries l₂) := by
          rw [denoteEntries_append, denoteEntries, hv.denote hc.1, KeyMap.ofList,
            KeyMap.assign_append]
          rfl
      _ = KeyMap.insert k v (KeyMap.ofList (denoteEntries l₁ ++ denoteEntries l₂)) := by
          rw [KeyMap.assign_insert_comm v (KeyMap.sorted_ofList _) hne, KeyMap.ofList,
            KeyMap.ofList, KeyMap.assign_append]
      _ = (k, v) :: es := by rw [htail, KeyMap.insert_of_lt v hs.1]

end

/-- The text form of an order of iteration denotes the text form of the object. -/
theorem Object.ofEntries_textEntries {o : Object} (it : o.Iteration) :
    Object.ofEntries (textEntries F it.order) = o.textForm F := by
  refine Object.ext ?_
  rw [Object.entries_ofEntries]
  exact (it.iterates.textEntries F).ofList (o.textForm F).sorted (o.textForm F).canonical

/-! ## Clean objects -/

mutual

/-- Every key and every string inside is clean. -/
def Value.Clean : Value → Prop
  | .string s => CleanStr s
  | .object es => CleanEntries es
  | _ => True

/-- Clean keys and clean values all the way down. -/
def CleanEntries : Entries → Prop
  | [] => True
  | (k, v) :: es => CleanStr k ∧ v.Clean ∧ CleanEntries es

end

/-- No key and no string of `o` has a quote or a backslash. -/
def Object.Clean (o : Object) : Prop := CleanEntries o.entries

/-- Digits and signs need no escaping, so the text of a number is clean. -/
theorem cleanStr_ascii {s : String} (h : ∀ c ∈ s.toList, c.isDigit = true ∨ c = '-') :
    CleanStr (ascii s) := by
  have hbyte : ∀ b ∈ ascii s, b ≠ quote ∧ b ≠ backslash := by
    intro b hb
    obtain ⟨c, hc, rfl⟩ := List.mem_map.mp hb
    rcases h c hc with hd | rfl
    · have hlo : 48 ≤ c.toNat ∧ c.toNat ≤ 57 := by
        rw [Char.isDigit, Bool.and_eq_true, decide_eq_true_iff, decide_eq_true_iff] at hd
        exact ⟨UInt32.le_iff_toNat_le.mp hd.1, UInt32.le_iff_toNat_le.mp hd.2⟩
      constructor
      · intro he
        have hn : (UInt8.ofNat c.toNat).toNat = 34 := by rw [he]; rfl
        rw [UInt8.toNat_ofNat'] at hn
        omega
      · intro he
        have hn : (UInt8.ofNat c.toNat).toNat = 92 := by rw [he]; rfl
        rw [UInt8.toNat_ofNat'] at hn
        omega
    · exact ⟨by decide, by decide⟩
  exact ⟨fun hq => (hbyte quote hq).1 rfl, fun hb => (hbyte backslash hb).2 rfl⟩

/-- The decimal text of a number has digits only. -/
theorem isDigit_of_mem_repr {n : Nat} {c : Char} (h : c ∈ n.repr.toList) : c.isDigit = true := by
  rw [Nat.toList_repr] at h
  exact Nat.isDigit_of_mem_toDigits (by decide) (by decide) h

/-- A 64-bit number prints clean. -/
theorem cleanStr_uint64Text (u : UInt64) : CleanStr (uint64Text u) :=
  cleanStr_ascii fun _ hc => Or.inl (isDigit_of_mem_repr hc)

/-- A signed number prints clean, its sign included. -/
theorem cleanStr_int32Text (i : Int32) : CleanStr (int32Text i) := by
  refine cleanStr_ascii fun c hc => ?_
  rw [show toString i.toInt = i.toInt.repr from rfl, Int.repr_eq_if] at hc
  split at hc
  · exact Or.inl (isDigit_of_mem_repr hc)
  · rw [String.toList_append] at hc
    rcases List.mem_append.mp hc with hc | hc
    · exact Or.inr (List.mem_singleton.mp hc)
    · exact Or.inl (isDigit_of_mem_repr hc)

/-! ## A clean object prints its own derivation -/

/-- A clean string stands for itself between quotes: no character of it is escaped or
    closes it. -/
theorem Chars.of_clean {s : Bytes} (r : Bytes) : CleanStr s → Chars (s ++ r) s r := by
  induction s with
  | nil => intro _; exact .none r
  | cons c s ih =>
    rintro ⟨hq, hb⟩
    refine .plain ?_ ?_ (ih ⟨fun h => hq (List.mem_cons_of_mem _ h),
      fun h => hb (List.mem_cons_of_mem _ h)⟩)
    · exact fun h => hq (h ▸ List.mem_cons_self)
    · exact fun h => hb (h ▸ List.mem_cons_self)

/-- A clean string between quotes is a string of the grammar. -/
theorem Str.of_clean {s : Bytes} (h : CleanStr s) (r : Bytes) :
    Str (quote :: s ++ quote :: r) s r := ⟨s ++ quote :: r, rfl, .of_clean _ h⟩

/-- Indentation is white space, so it is a gap. -/
theorem gap_padding (indent : Nat) (r : Bytes) : Gap (padding indent ++ r) r := by
  induction indent with
  | zero => exact .none r
  | succ n ih => exact .space (by decide) ih

/-- Whitespace in front of a list of entries can be taken into it. -/
theorem EntryList.gap_left {s s₁ s₂ r : Bytes} {es : Entries} (hg : Gap s s₁) :
    EntryList s₁ es s₂ → Gap s₂ r → ∃ s', EntryList s es s' ∧ Gap s' r
  | .nil _, h => ⟨s, .nil s, hg.trans h⟩
  | .cons hg' he hes, h => ⟨s₂, .cons (hg.trans hg') he hes, h⟩

/-- A printed leaf line is an entry of the grammar, behind its indentation. -/
theorem entry_leafLine {k text : Bytes} (indent : Nat) (hk : CleanStr k) (ht : CleanStr text)
    (r : Bytes) : ∃ s, Gap (leafLine (padding indent) k text ++ r) s ∧
      Entry s (k, .string text) (newline :: r) := by
  refine ⟨_, ?_, .leaf (Str.of_clean hk (0x20 :: quote :: text ++ quote :: newline :: r))
    (.space (by decide) (.none _)) (Str.of_clean ht (newline :: r))⟩
  rw [show leafLine (padding indent) k text ++ r = padding indent ++ (quote :: k ++ quote ::
    (0x20 :: quote :: text ++ quote :: newline :: r)) by simp [leafLine]]
  exact gap_padding indent _

mutual

/-- The printer writes the grammar, for every value, indentation and text behind it; by recursion
    on the value, through its entries for an object. -/
theorem entry_stringify : ∀ {v : Value} {k : Bytes}, CleanStr k → v.Clean →
    ∀ (indent : Nat) (r : Bytes), ∃ s, Gap (stringifyEntry F indent k v ++ r) s ∧
      Entry s (k, v.textForm F) (newline :: r)
  | .string _, _, hk, hv, indent, r => entry_leafLine indent hk hv r
  | .int32 i, _, hk, _, indent, r => entry_leafLine indent hk (cleanStr_int32Text i) r
  | .uint64 u, _, hk, _, indent, r => entry_leafLine indent hk (cleanStr_uint64Text u) r
  | .float b, _, hk, _, indent, r => entry_leafLine indent hk (F.clean b) r
  | .object es, k, hk, hv, indent, r => by
    rw [Value.Clean] at hv
    obtain ⟨s, hes, hclose⟩ := entryList_stringify hv (indent + 1)
      (padding indent ++ rbrace :: newline :: r)
    obtain ⟨s', hes', hclose'⟩ := hes.gap_left (.space (c := newline) (by decide) (.none _))
      (hclose.trans (gap_padding indent _))
    refine ⟨_, ?_, .node (Str.of_clean hk (newline :: (padding indent ++ lbrace :: newline ::
      (stringifyObject F (indent + 1) es ++ (padding indent ++ rbrace :: newline :: r)))))
      (.space (by decide) (gap_padding indent _)) hes' hclose'⟩
    rw [show stringifyEntry F indent k (.object es) ++ r = padding indent ++ (quote :: k ++
      quote :: newline :: (padding indent ++ lbrace :: newline ::
      (stringifyObject F (indent + 1) es ++ (padding indent ++ rbrace :: newline :: r)))) by
      simp [stringifyEntry]]
    exact gap_padding indent _

/-- What the printer writes for clean entries is a derivation of their text form, up to the
    whitespace behind the last of them. -/
theorem entryList_stringify : ∀ {es : Entries}, CleanEntries es → ∀ (indent : Nat) (r : Bytes),
    ∃ s, EntryList (stringifyObject F indent es ++ r) (textEntries F es) s ∧ Gap s r
  | [], _, _, r => ⟨r, .nil r, .none r⟩
  | (k, v) :: es, h, indent, r => by
    rw [CleanEntries] at h
    obtain ⟨hk, hv, hes⟩ := h
    obtain ⟨s, hgap, hentry⟩ := entry_stringify hk hv indent (stringifyObject F indent es ++ r)
    obtain ⟨s₁, hrest, hend⟩ := entryList_stringify hes indent r
    obtain ⟨s₂, hrest', hend'⟩ := hrest.gap_left (.space (c := newline) (by decide) (.none _)) hend
    refine ⟨s₂, ?_, hend'⟩
    rw [stringifyObject, List.append_assoc]
    exact .cons hgap hentry hrest'

end

/-! ## Counting backslashes -/

mutual

/-- The sum of `f` over the keys and strings inside. -/
def Value.tally (f : Bytes → Nat) : Value → Nat
  | .string s => f s
  | .object es => tallyEntries f es
  | _ => 0

/-- The sum of a measure over the strings of all entries. -/
def tallyEntries (f : Bytes → Nat) : Entries → Nat
  | [] => 0
  | (k, v) :: es => f k + v.tally f + tallyEntries f es

end

/-- Backslashes in the text of a string that denotes `s`: two for a backslash, one for a quote. -/
def cost (s : Bytes) : Nat := 2 * s.count backslash + s.count quote

/-- Clean means: nothing to pay for. -/
theorem cleanStr_iff (s : Bytes) : CleanStr s ↔ cost s = 0 := by
  rw [CleanStr, ← List.count_eq_zero, ← List.count_eq_zero, cost]
  omega

/-- The measure of a list is the sum of the measures. -/
theorem tallyEntries_append (f : Bytes → Nat) (es fs : Entries) :
    tallyEntries f (es ++ fs) = tallyEntries f es + tallyEntries f fs := by
  induction es with
  | nil => exact (Nat.zero_add _).symm
  | cons e es ih =>
    obtain ⟨k, v⟩ := e
    rw [List.cons_append, tallyEntries, ih, tallyEntries]
    omega

/-- Inserting may replace an entry, so the measure grows by at most that of the new one. -/
theorem tally_insert_le (f : Bytes → Nat) (k : Bytes) (v : Value) : ∀ es : Entries,
    tallyEntries f (KeyMap.insert k v es) ≤ tallyEntries f es + (f k + v.tally f)
  | [] => by
    simp only [KeyMap.insert, tallyEntries]
    omega
  | (k', v') :: es => by
    have ih := tally_insert_le f k v es
    rw [KeyMap.insert, tallyEntries]
    split
    · simp only [tallyEntries]
      omega
    · split
      · simp only [tallyEntries]
        omega
      · simp only [tallyEntries]
        omega

/-- Inserting a whole list adds at most its measure. -/
theorem tally_assign_le (f : Bytes → Nat) : ∀ (es m : Entries),
    tallyEntries f (KeyMap.assign m es) ≤ tallyEntries f m + tallyEntries f es
  | [], _ => Nat.le_refl _
  | (k, v) :: es, m => by
    have h₁ := tally_assign_le f es (KeyMap.insert k v m)
    have h₂ := tally_insert_le f k v m
    rw [tallyEntries]
    show tallyEntries f (KeyMap.assign (KeyMap.insert k v m) es) ≤ _
    omega

mutual

/-- Overwritten entries are lost, so a denotation has at most the tally of its document. -/
theorem Value.tally_denote_le (f : Bytes → Nat) : ∀ v : Value, v.denote.tally f ≤ v.tally f
  | .string _ => Nat.le_refl _
  | .int32 _ => Nat.le_refl _
  | .uint64 _ => Nat.le_refl _
  | .float _ => Nat.le_refl _
  | .object es => by
    have h₁ := tally_assign_le f (denoteEntries es) []
    have h₂ := tally_denoteEntries_le f es
    rw [Value.denote, Value.tally, Value.tally]
    exact Nat.le_trans h₁ (by rw [tallyEntries]; omega)

/-- Denoting an object drops the entries that a later key replaces; the measure does not grow. -/
theorem tally_denoteEntries_le (f : Bytes → Nat) : ∀ es : Entries,
    tallyEntries f (denoteEntries es) ≤ tallyEntries f es
  | [] => Nat.le_refl _
  | (k, v) :: es => by
    have h₁ := v.tally_denote_le f
    have h₂ := tally_denoteEntries_le f es
    rw [denoteEntries, tallyEntries, tallyEntries]
    omega

end

/-- The same for the object that the entries denote. -/
theorem tally_ofEntries_le (f : Bytes → Nat) (es : Entries) :
    tallyEntries f (Object.ofEntries es).entries ≤ tallyEntries f es := by
  rw [Object.entries_ofEntries]
  have h₁ := tally_assign_le f (denoteEntries es) []
  have h₂ := tally_denoteEntries_le f es
  exact Nat.le_trans h₁ (by rw [tallyEntries]; omega)

mutual

/-- The order of an iteration does not change the measure. -/
theorem Iterates.tally_eq (f : Bytes → Nat) : ∀ {v w : Value}, Iterates v w →
    w.tally f = v.tally f
  | _, _, .string _ => rfl
  | _, _, .int32 _ => rfl
  | _, _, .uint64 _ => rfl
  | _, _, .float _ => rfl
  | _, _, .object hes => by rw [Value.tally, Value.tally, hes.tally_eq]

/-- The same for the entries of one object. -/
theorem IteratesAll.tally_eq (f : Bytes → Nat) : ∀ {es ls : Entries}, IteratesAll es ls →
    tallyEntries f ls = tallyEntries f es
  | _, _, .nil => rfl
  | _, _, .cons hv hes => by
    have h₁ := hv.tally_eq f
    have h₂ := hes.tally_eq f
    rw [tallyEntries_append] at h₂
    rw [tallyEntries_append, tallyEntries, tallyEntries]
    omega

end

mutual

/-- Numbers print as strings, so the text form may cost more, never less. -/
theorem Value.tally_le_textForm (f : Bytes → Nat) : ∀ v : Value,
    v.tally f ≤ (v.textForm F).tally f
  | .string _ => Nat.le_refl _
  | .int32 _ => Nat.zero_le _
  | .uint64 _ => Nat.zero_le _
  | .float _ => Nat.zero_le _
  | .object es => by
    rw [Value.textForm, Value.tally, Value.tally]
    exact tallyEntries_le_textEntries f es

/-- The same for the entries of one object. -/
theorem tallyEntries_le_textEntries (f : Bytes → Nat) : ∀ es : Entries,
    tallyEntries f es ≤ tallyEntries f (textEntries F es)
  | [] => Nat.le_refl _
  | (k, v) :: es => by
    have h₁ := v.tally_le_textForm f
    have h₂ := tallyEntries_le_textEntries f es
    rw [textEntries, tallyEntries, tallyEntries]
    omega

end

mutual

/-- The cost counts a backslash twice and a quote once, through the whole value. -/
theorem Value.tally_cost : ∀ v : Value,
    v.tally cost = 2 * v.tally (List.count backslash) + v.tally (List.count quote)
  | .string _ => rfl
  | .int32 _ => rfl
  | .uint64 _ => rfl
  | .float _ => rfl
  | .object es => by
    rw [Value.tally, Value.tally, Value.tally]
    exact tallyEntries_cost es

/-- The same for the entries of one object. -/
theorem tallyEntries_cost : ∀ es : Entries, tallyEntries cost es
    = 2 * tallyEntries (List.count backslash) es + tallyEntries (List.count quote) es
  | [] => rfl
  | (k, v) :: es => by
    have h₁ := v.tally_cost
    have h₂ := tallyEntries_cost es
    simp only [tallyEntries, cost]
    omega

end

mutual

/-- A value is clean when it costs nothing. -/
theorem Value.clean_iff : ∀ v : Value, v.Clean ↔ v.tally cost = 0
  | .string s => cleanStr_iff s
  | .int32 _ => iff_of_true trivial rfl
  | .uint64 _ => iff_of_true trivial rfl
  | .float _ => iff_of_true trivial rfl
  | .object es => by
    rw [Value.Clean, Value.tally]
    exact cleanEntries_iff es

/-- Clean entries are those that cost no backslash. -/
theorem cleanEntries_iff : ∀ es : Entries, CleanEntries es ↔ tallyEntries cost es = 0
  | [] => iff_of_true trivial rfl
  | (k, v) :: es => by
    rw [CleanEntries, cleanStr_iff, v.clean_iff, cleanEntries_iff es, tallyEntries]
    omega

end

/-! The grammar: what a text denotes costs no more backslashes than the text has. -/

/-- What one character adds to the cost. -/
theorem cost_cons (c : Byte) (s : Bytes) :
    cost (c :: s) = cost s + (if c = backslash then 2 else if c = quote then 1 else 0) := by
  by_cases hb : c = backslash
  · subst hb
    rw [cost, List.count_cons_self, List.count_cons_of_ne (by decide), if_pos rfl, cost]
    omega
  · rw [cost, List.count_cons_of_ne hb, if_neg hb]
    by_cases hq : c = quote
    · subst hq
      rw [List.count_cons_self, if_pos rfl, cost]
      omega
    · rw [List.count_cons_of_ne hq, if_neg hq, cost]
      omega

/-- An escape has a backslash of its own, and a second one if it denotes one. -/
theorem cost_unescape_le (n : Byte) (out : Bytes) :
    cost (unescape n :: out) ≤ cost out + 1 + (if n = backslash then 1 else 0) := by
  rw [cost_cons]
  by_cases hn : n = 'n'.toUInt8
  · subst hn
    rw [show unescape 'n'.toUInt8 = newline from rfl, if_neg (by decide), if_neg (by decide)]
    omega
  · by_cases ht : n = 't'.toUInt8
    · subst ht
      rw [show unescape 't'.toUInt8 = tab from rfl, if_neg (by decide), if_neg (by decide)]
      omega
    · rw [unescape, if_neg hn, if_neg ht]
      split
      · omega
      · split <;> omega

/-- Reading pays for what it produces: every escape in the source text spends a backslash, so the
    cost of what is read, together with the backslashes still ahead, never exceeds the backslashes
    of the text. -/
theorem Chars.cost_le {s out r : Bytes} (h : Chars s out r) :
    cost out + r.count backslash ≤ s.count backslash := by
  induction h with
  | none s => exact Nat.le_of_eq (Nat.zero_add _)
  | @plain c s out r hq hb _ ih =>
    rw [cost_cons, if_neg hb, if_neg hq, List.count_cons_of_ne hb]
    omega
  | @escape n s out r _ ih =>
    have hcost := cost_unescape_le n out
    rw [List.count_cons_self]
    by_cases hn : n = backslash
    · subst hn
      rw [if_pos rfl] at hcost
      rw [List.count_cons_self]
      omega
    · rw [if_neg hn] at hcost
      rw [List.count_cons_of_ne hn]
      omega

/-- The same for a quoted string. -/
theorem Str.cost_le {s out r : Bytes} (h : Str s out r) :
    cost out + r.count backslash ≤ s.count backslash := by
  obtain ⟨m, rfl, hm⟩ := h
  have := hm.cost_le
  rwa [List.count_cons_of_ne (by decide)] at this ⊢

/-- The same for a string that the end of the text closes. -/
theorem OpenStr.cost_le {s out : Bytes} (h : OpenStr s out) : cost out ≤ s.count backslash := by
  obtain ⟨m, rfl, hm⟩ := h
  have := hm.cost_le
  rw [List.count_cons_of_ne (by decide)]
  exact Nat.le_trans (Nat.le_add_right _ _) this

/-- A gap hides backslashes in comments and makes none. -/
theorem Gap.count_le {s r : Bytes} (h : Gap s r) : r.count backslash ≤ s.count backslash := by
  induction h with
  | none => exact Nat.le_refl _
  | space _ _ ih => exact Nat.le_trans ih List.count_le_count_cons
  | comment _ ih =>
    exact Nat.le_trans ih (Nat.le_trans ((List.dropWhile_sublist _).count_le backslash)
      (Nat.le_trans List.count_le_count_cons List.count_le_count_cons))

mutual

/-- The same for an entry, by recursion on its derivation. -/
theorem Entry.cost_le : ∀ {s r : Bytes} {e : Bytes × Value}, Entry s e r →
    cost e.1 + e.2.tally cost + r.count backslash ≤ s.count backslash
  | _, _, _, .leaf hk hg hv => by
    have h₁ := hk.cost_le
    have h₂ := hg.count_le
    have h₃ := hv.cost_le
    simp only [Value.tally]
    omega
  | _, _, _, .node hk hg hes hg' => by
    have h₁ := hk.cost_le
    have h₂ := hg.count_le
    have h₃ := hes.cost_le
    have h₄ := hg'.count_le
    rw [List.count_cons_of_ne (by decide)] at h₂ h₄
    simp only [Value.tally]
    omega

/-- The same for a list of entries. -/
theorem EntryList.cost_le : ∀ {s r : Bytes} {es : Entries}, EntryList s es r →
    tallyEntries cost es + r.count backslash ≤ s.count backslash
  | _, _, _, .nil s => Nat.le_of_eq (Nat.zero_add _)
  | _, _, _, .cons hg he hes => by
    have h₁ := hg.count_le
    have h₂ := he.cost_le
    have h₃ := hes.cost_le
    rw [tallyEntries]
    omega

end

/-- A document costs no more than the backslashes of its text.  The printer writes no more
    backslashes than the value has, so a value that is read back cannot cost anything: this is the
    converse direction. -/
theorem Doc.cost_le {t : Bytes} {es : Entries} : Doc t es →
    tallyEntries cost es ≤ t.count backslash
  | .closed hes _ => Nat.le_trans (Nat.le_add_right _ _) hes.cost_le
  | .lenient hes hg hk hg' hv => by
    have h₁ := hes.cost_le
    have h₂ := hg.count_le
    have h₃ := hk.cost_le
    have h₄ := hg'.count_le
    have h₅ := hv.cost_le
    rw [tallyEntries_append]
    simp only [tallyEntries, Value.tally]
    omega

/-! The printer: no backslashes but those of the keys and strings. -/

/-- Indentation has no backslash. -/
theorem count_padding (indent : Nat) : (padding indent).count backslash = 0 :=
  List.count_eq_zero.mpr fun h => absurd (List.eq_of_mem_replicate h) (by decide)

/-- A leaf line has the backslashes of its key and its text. -/
theorem count_leafLine (indent : Nat) (k text : Bytes) :
    (leafLine (padding indent) k text).count backslash
      = k.count backslash + text.count backslash := by
  simp only [leafLine, List.count_append, List.count_cons, count_padding, List.count_nil]
  simp only [show (quote == backslash) = false from rfl,
    show ((0x20 : Byte) == backslash) = false from rfl,
    show (newline == backslash) = false from rfl, Bool.false_eq_true, if_false]
  omega

/-- A clean string has no backslash. -/
theorem CleanStr.count_eq {s : Bytes} (h : CleanStr s) : s.count backslash = 0 :=
  List.count_eq_zero.mpr h.2

mutual

/-- The printer adds no backslash of its own: it escapes nothing. -/
theorem count_stringifyEntry : ∀ (v : Value) (k : Bytes) (indent : Nat),
    (stringifyEntry F indent k v).count backslash
      = k.count backslash + v.tally (List.count backslash)
  | .string s, k, indent => count_leafLine indent k s
  | .int32 i, k, indent => by
    rw [stringifyEntry, count_leafLine, (cleanStr_int32Text i).count_eq]
    rfl
  | .uint64 u, k, indent => by
    rw [stringifyEntry, count_leafLine, (cleanStr_uint64Text u).count_eq]
    rfl
  | .float b, k, indent => by
    rw [stringifyEntry, count_leafLine, (F.clean b).count_eq]
    rfl
  | .object es, k, indent => by
    have ih := count_stringifyObject es (indent + 1)
    simp only [stringifyEntry, List.count_append, List.count_cons, count_padding, List.count_nil,
      ih, Value.tally]
    simp only [show (quote == backslash) = false from rfl,
      show (lbrace == backslash) = false from rfl, show (rbrace == backslash) = false from rfl,
      show (newline == backslash) = false from rfl, Bool.false_eq_true, if_false]
    omega

/-- The same for the entries of one object. -/
theorem count_stringifyObject : ∀ (es : Entries) (indent : Nat),
    (stringifyObject F indent es).count backslash = tallyEntries (List.count backslash) es
  | [], _ => rfl
  | (k, v) :: es, indent => by
    have h₁ := count_stringifyEntry v k indent
    have h₂ := count_stringifyObject es indent
    rw [stringifyObject, tallyEntries, List.count_append]
    omega

end

/-! ## The round trip -/

/-- A clean object is read back in its text form, in whatever order it was printed. -/
theorem parseText_stringify {o : Object} (it : o.Iteration) (hclean : o.Clean) :
    parseText (stringify F it.order) = .ok (o.textForm F) := by
  have horder : CleanEntries it.order := by
    rw [cleanEntries_iff, it.iterates.tally_eq, ← cleanEntries_iff]
    exact hclean
  obtain ⟨s, hes, hend⟩ := entryList_stringify F horder 0 []
  rw [List.append_nil] at hes
  rw [show stringify F it.order = stringifyObject F 0 it.order from rfl,
    parseText_doc (.closed hes hend), Object.ofEntries_textEntries]

/-- A quote in a string is printed as it is, and ends the string for the parser. -/
theorem stringify_quote : ¬ ∀ (F : FloatText) (o : Object) (it : o.Iteration),
    parseText (stringify F it.order) = .ok (o.textForm F) := by
  intro h
  have hrun := h ⟨fun _ => [], fun _ => ⟨List.not_mem_nil, List.not_mem_nil⟩⟩
    (Object.empty.set (ascii "k") (.string (ascii "a\"b"))) (Object.inOrder _)
  nomatch hrun

/-- **The round trip**: in whatever order its maps are iterated, the printed object parses back to
    its text form exactly when no key and no string of it has a quote or a backslash. -/
theorem parseText_stringify_iff (o : Object) (it : o.Iteration) :
    parseText (stringify F it.order) = .ok (o.textForm F) ↔ o.Clean := by
  have hbytes : (stringify F it.order).count backslash
      = tallyEntries (List.count backslash) o.entries := by
    rw [stringify, count_stringifyObject, it.iterates.tally_eq]
  constructor
  · intro h
    rcases parseText_spec (stringify F it.order) with ⟨es, hrun, hdoc⟩ | ⟨hrun, -⟩ | ⟨_, hrun⟩
    · have hform : Object.ofEntries es = o.textForm F := Except.ok.inj (hrun.symm.trans h)
      -- what the text denotes costs no more backslashes than were printed
      have hle : tallyEntries cost o.entries ≤ tallyEntries (List.count backslash) o.entries :=
        calc tallyEntries cost o.entries
            ≤ tallyEntries cost (o.textForm F).entries := tallyEntries_le_textEntries F cost _
          _ ≤ tallyEntries cost es := hform ▸ tally_ofEntries_le cost es
          _ ≤ (stringify F it.order).count backslash := hdoc.cost_le
          _ = tallyEntries (List.count backslash) o.entries := hbytes
      have hcost := tallyEntries_cost o.entries
      exact (cleanEntries_iff o.entries).mpr (by omega)
    · nomatch hrun.symm.trans h
    · nomatch hrun.symm.trans h
  · exact parseText_stringify F it

end SteamMin.Vdf
