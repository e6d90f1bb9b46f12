/-
  `parse_text` IS ITS GRAMMAR.

  The evaluation lemmas of `TextGrammar` run the parser on a derivation; here every run is given
  one.  `ObjectRun`, `EntryRun` and `RootRun` list the ways a run can go: with a derivation of what
  was read, or past the end of a cut text, or into the one exception of the parser.  One induction
  on the fuel establishes each of them (`objectLoop_spec`, `parseLoop_spec`), and with it that the
  fuel is never spent.

  Main results:
  * `parseText_eq_ok_iff`   — `parse_text` returns `r` exactly on the texts that denote `r`;
  * `parseText_defined_iff` — it stays inside its input, and returns or throws, exactly off the cut
                              texts: `peek` and `consume` are not guarded after a key, after a
                              backslash, or in an object that is not closed.
-/
import SteamMin.Vdf.TextGrammar

namespace SteamMin.Vdf

namespace TextParser

/-! ## The root loop: evaluation

  What `TextGrammar` does for objects, for the loop that begins a document.  It differs from the
  loop of an object in its end, which is the end of the text and no brace. -/

/-- The loop ends where nothing solid is left. -/
theorem parseLoop_nil {p : TextParser} (h : p.skipWs.rest = []) (fuel : Nat) (root : Object) :
    parseLoop (fuel + 1) p root = .ok root := by
  rw [parseLoop]
  split
  · rfl
  · show (if p.skipWs.eof = true then _ else _) = _
    rw [if_pos (p.skipWs.eof_iff.mpr h)]

/-- In front of something solid the loop parses one entry and goes on. -/
theorem parseLoop_cons {p : TextParser} {c : Byte} {s : Bytes} (hr : p.skipWs.rest = c :: s)
    (fuel : Nat) (root : Object) :
    parseLoop (fuel + 1) p root =
      (p.skipWs.parseEntry (objectLoop fuel · .empty) root).bind fun (root, p) =>
        parseLoop fuel p root := by
  have heof : ¬ p.eof = true := by
    intro h
    have hle := p.length_skipWs_le
    rw [p.eof_iff.mp h, hr] at hle
    exact absurd hle (Nat.not_succ_le_zero _)
  rw [parseLoop, if_neg heof]
  show (if p.skipWs.eof = true then _ else _) = _
  rw [if_neg (by rw [eof_cons hr]; exact Bool.false_ne_true)]
  rfl

/-- The root loop steps over derived entries, storing what they denote. -/
theorem parseLoop_entries {s r : Bytes} {es : Entries} (h : EntryList s es r) {p : TextParser}
    (fuel : Nat) (root : Object) (hp : p.rest = s) (hf : s.length < fuel) :
    ∃ (p' : TextParser) (fuel' : Nat), p'.rest = r ∧ r.length < fuel' ∧
      parseLoop fuel p root = parseLoop fuel' p' (root.assign es) := by
  induction es generalizing s p fuel root with
  | nil =>
    cases h
    exact ⟨p, fuel, hp, hf, rfl⟩
  | cons e es ih =>
    obtain ⟨fuel, rfl⟩ : ∃ n, fuel = n + 1 := ⟨fuel - 1, by omega⟩
    cases h with
    | cons hg he hes =>
      obtain ⟨m, hm⟩ := he.head
      have hr := rest_skipWs (hp ▸ hg) he.solid
      have h₁ := hg.length_le
      have h₂ := he.length_lt
      obtain ⟨p₁, hentry, hp₁⟩ :=
        parseEntry_entry he fuel root (gap_of_rest hr) (by omega)
      obtain ⟨p', fuel', hp', hf', hloop⟩ :=
        ih hes fuel (root.set e.1 (.ofValue e.2)) hp₁ (by omega)
      refine ⟨p', fuel', hp', hf', ?_⟩
      rw [parseLoop_cons (hr.trans hm), hentry]
      exact hloop

/-- The parser on a derived document. -/
theorem parseLoop_doc {t : Bytes} {es : Entries} (h : Doc t es) {p : TextParser} {fuel : Nat}
    (root : Object) (hp : p.rest = t) (hf : t.length < fuel) :
    parseLoop fuel p root = .ok (root.assign es) := by
  cases h with
  | closed hes hg =>
    obtain ⟨p', fuel', hp', hf', heq⟩ := parseLoop_entries hes fuel root hp hf
    cases fuel' with
    | zero => exact absurd hf' (Nat.not_lt_zero _)
    | succ fuel' => rw [heq, parseLoop_nil (rest_skipWs (hp' ▸ hg) trivial)]
  | lenient hes hg hk hg' hv =>
    obtain ⟨p', fuel', hp', hf', heq⟩ := parseLoop_entries hes fuel root hp hf
    obtain ⟨m, hm⟩ := hk.head
    have hr := rest_skipWs (hp' ▸ hg) hk.solid
    have h₁ := hg.length_le
    have h₂ := hk.length_lt
    obtain ⟨fuel', rfl⟩ : ∃ n, fuel' = n + 2 := ⟨fuel' - 2, by omega⟩
    obtain ⟨p₂, hentry, hp₂⟩ := parseEntry_open (gap_of_rest hr) hk hg' hv
      (objectLoop (fuel' + 1) · .empty) (root.assign _)
    rw [heq, parseLoop_cons (hr.trans hm), hentry]
    show parseLoop (fuel' + 1) p₂ _ = _
    have hend : p₂.skipWs.rest = [] := rest_skipWs (hp₂ ▸ .none _) trivial
    rw [parseLoop_nil hend, Object.assign_append]
    rfl

/-! ## Cut texts: evaluation

  By recursion on the place where the text is cut.  Everything in front of it is read as usual;
  there the parser asks for a byte that is not there. -/

mutual

/-- An entry that is cut reads behind the input, by recursion on where it is cut. -/
theorem parseEntry_cut : ∀ {s : Bytes}, CutEntry s → ∀ {p : TextParser} {fuel : Nat}
    (obj : Object), Gap p.rest s → s.length ≤ fuel →
      p.parseEntry (objectLoop fuel · .empty) obj = .error .undefined
  | _, .keyEscape hk, p, fuel, obj, hp, _ => parseEntry_error (parseString_cut hp hk) _ obj
  | _, .keyOpen hk, p, fuel, obj, hp, _ => by
    obtain ⟨p₁, hkey, hp₁⟩ := parseString_open hp hk
    exact parseEntry_keyOnly hkey (rest_skipWs (hp₁ ▸ .none _) trivial) _ obj
  | _, .afterKey hk hg, p, fuel, obj, hp, _ => by
    obtain ⟨p₁, hkey, hp₁⟩ := parseString_str hp hk
    exact parseEntry_keyOnly hkey (rest_skipWs (hp₁ ▸ hg) trivial) _ obj
  | _, .valueEscape hk hg hv, p, fuel, obj, hp, _ => by
    obtain ⟨p₁, hkey, hp₁⟩ := parseString_str hp hk
    have hr := rest_skipWs (hp₁ ▸ hg) hv.solid
    obtain ⟨m, out, hm, -⟩ := id hv
    rw [parseEntry_string hkey (hr.trans hm) (by decide), parseString_cut (gap_of_rest hr) hv]
    rfl
  | _, .inObject hk hg ho, p, fuel, obj, hp, hf => by
    obtain ⟨hlen, p₂, hp₂, heq⟩ := parseEntry_node hp hk hg (objectLoop fuel · .empty) obj
    rw [heq, objectLoop_cut ho .empty hp₂ (by omega)]
    rfl

/-- The same for an object. -/
theorem objectLoop_cut : ∀ {s : Bytes}, CutObject s → ∀ {p : TextParser} {fuel : Nat}
    (obj : Object), p.rest = s → s.length < fuel →
      objectLoop fuel p obj = .error .undefined
  | _, .between hes hg, p, fuel, obj, hp, hf => by
    obtain ⟨p', fuel', hp', hf', heq⟩ := objectLoop_entries hes fuel obj hp hf
    obtain ⟨fuel', rfl⟩ : ∃ n, fuel' = n + 1 := ⟨fuel' - 1, by omega⟩
    rw [heq, objectLoop_nil (rest_skipWs (hp' ▸ hg) trivial)]
  | _, .inEntry hes hg hc, p, fuel, obj, hp, hf => by
    obtain ⟨p', fuel', hp', hf', heq⟩ := objectLoop_entries hes fuel obj hp hf
    obtain ⟨fuel', rfl⟩ : ∃ n, fuel' = n + 1 := ⟨fuel' - 1, by omega⟩
    obtain ⟨m, hm⟩ := hc.head
    have hr := rest_skipWs (hp' ▸ hg) (hm ▸ solid_quote m)
    have h₁ := hg.length_le
    rw [heq, objectLoop_cons (hr.trans hm) (by decide),
      parseEntry_cut hc _ (gap_of_rest hr) (by omega)]
    rfl
  | _, .valueOpen hes hg hk hg' hv, p, fuel, obj, hp, hf => by
    obtain ⟨p', fuel', hp', hf', heq⟩ := objectLoop_entries hes fuel obj hp hf
    obtain ⟨m, hm⟩ := hk.head
    have hr := rest_skipWs (hp' ▸ hg) hk.solid
    have h₁ := hg.length_le
    have h₂ := hk.length_lt
    obtain ⟨fuel', rfl⟩ : ∃ n, fuel' = n + 2 := ⟨fuel' - 2, by omega⟩
    obtain ⟨p₂, hentry, hp₂⟩ := parseEntry_open (gap_of_rest hr) hk hg' hv
      (objectLoop (fuel' + 1) · .empty) (obj.assign _)
    rw [heq, objectLoop_cons (hr.trans hm) (by decide), hentry]
    show objectLoop (fuel' + 1) p₂ _ = _
    exact objectLoop_nil (rest_skipWs (hp₂ ▸ .none _) trivial) _ _

end

/-- The same for the whole text. -/
theorem parseLoop_cut {t : Bytes} (h : CutText t) {p : TextParser} {fuel : Nat} (root : Object)
    (hp : p.rest = t) (hf : t.length < fuel) : parseLoop fuel p root = .error .undefined := by
  obtain ⟨es, s, s₁, hes, hg, hc⟩ := h
  obtain ⟨p', fuel', hp', hf', heq⟩ := parseLoop_entries hes fuel root hp hf
  obtain ⟨fuel', rfl⟩ : ∃ n, fuel' = n + 1 := ⟨fuel' - 1, by omega⟩
  obtain ⟨m, hm⟩ := hc.head
  have hr := rest_skipWs (hp' ▸ hg) (hm ▸ solid_quote m)
  have h₁ := hg.length_le
  rw [heq, parseLoop_cons (hr.trans hm), parseEntry_cut hc _ (gap_of_rest hr) (by omega)]
  rfl

/-! ## Every run

  The converse of evaluation.  A run is followed as the parser goes, and at each place where it
  branches the text in front of it decides which derivation is being built. -/

/-- How the parser goes on one entry that begins at `s`. -/
def EntryRun (run : Except Fault (Object × TextParser)) (obj : Object) (s : Bytes) : Prop :=
  (∃ e p', run = .ok (obj.set e.1 (.ofValue e.2), p') ∧ Entry s e p'.rest) ∨
  (∃ k v s₁ s₂ p', run = .ok (obj.set k (.string v), p') ∧ p'.rest = [] ∧
    Str s k s₁ ∧ Gap s₁ s₂ ∧ OpenStr s₂ v) ∨
  (run = .error .undefined ∧ CutEntry s) ∨
  ∃ what, run = runtimeError what

/-- How the object loop goes on `s`, with `obj` built so far. -/
def ObjectRun (run : Except Fault (Object × TextParser)) (obj : Object) (s : Bytes) : Prop :=
  (∃ es s' p', run = .ok (obj.assign es, p') ∧ EntryList s es s' ∧ Gap s' (rbrace :: p'.rest)) ∨
  (run = .error .undefined ∧ CutObject s) ∨
  ∃ what, run = runtimeError what

/-- How the root loop goes on `s`, with `root` built so far. -/
def RootRun (run : Except Fault Object) (root : Object) (s : Bytes) : Prop :=
  (∃ es, run = .ok (root.assign es) ∧ Doc s es) ∨
  (run = .error .undefined ∧ CutText s) ∨
  ∃ what, run = runtimeError what

/-- What an entry can do, given what objects behind the key can do: it ends as the grammar says,
    it is cut, or it throws where the grammar has no entry. -/
theorem parseEntry_spec {p : TextParser} {s : Bytes} {c : Byte} (fuel : Nat) (obj : Object)
    (hp : p.rest = c :: s) (hs : Solid (c :: s))
    (ih : ∀ q : TextParser, q.rest.length ≤ s.length →
      ObjectRun (objectLoop fuel q .empty) .empty q.rest) :
    EntryRun (p.parseEntry (objectLoop fuel · .empty) obj) obj (c :: s) := by
  have hskip : p.skipWs.rest = c :: s := rest_skipWs (gap_of_rest hp) hs
  -- four ways for the key: closed, run into the end, cut in an escape, or no key at all
  rcases p.parseString_spec with ⟨k, p₁, hkey, hstr⟩ | ⟨k, p₁, hkey, hstr, hp₁⟩ | ⟨hkey, hcut⟩ |
    ⟨what, hkey⟩
  · rw [hskip] at hstr
    have hgap := p₁.gap_skipWs
    cases hr : p₁.skipWs.rest with
    | nil =>
      rw [hr] at hgap
      exact Or.inr (Or.inr (Or.inl ⟨parseEntry_keyOnly hkey hr _ obj, .afterKey hstr hgap⟩))
    | cons d s₂ =>
      rw [hr] at hgap
      by_cases hd : d = lbrace
      · -- a nested object: whatever the recursive call did
        subst hd
        obtain ⟨p₂, hp₂, heq⟩ := parseEntry_object hkey hr (objectLoop fuel · .empty) obj
        have h₁ := hgap.length_le
        have h₂ := hstr.length_lt
        simp only [List.length_cons] at h₁ h₂
        rw [heq]
        rcases ih p₂ (by rw [hp₂]; omega) with ⟨es, s', p₃, hrun, hes, hclose⟩ | ⟨hrun, hcut⟩ |
          ⟨what, hrun⟩
        · rw [hp₂] at hes
          refine Or.inl ⟨(k, .object es), p₃, ?_, .node hstr hgap hes hclose⟩
          rw [hrun, VDFNode.ofValue_object]
          rfl
        · rw [hp₂] at hcut
          refine Or.inr (Or.inr (Or.inl ⟨?_, .inObject hstr hgap hcut⟩))
          rw [hrun]
          rfl
        · refine Or.inr (Or.inr (Or.inr ⟨what, ?_⟩))
          rw [hrun]
          rfl
      · -- a string value
        rw [parseEntry_string hkey hr hd]
        have hskip₂ : p₁.skipWs.skipWs.rest = d :: s₂ :=
          rest_skipWs (gap_of_rest hr) (hr ▸ p₁.solid_skipWs)
        rcases p₁.skipWs.parseString_spec with ⟨v, p₂, hval, hstr₂⟩ | ⟨v, p₂, hval, hstr₂, hp₂⟩ |
          ⟨hval, hcut⟩ | ⟨what, hval⟩
        · rw [hskip₂] at hstr₂
          exact Or.inl ⟨(k, .string v), p₂, by rw [hval]; rfl, .leaf hstr hgap hstr₂⟩
        · rw [hskip₂] at hstr₂
          exact Or.inr (Or.inl ⟨k, v, _, _, p₂, by rw [hval]; rfl, hp₂, hstr, hgap, hstr₂⟩)
        · rw [hskip₂] at hcut
          rcases hcut with hcut | hcut
          · exact absurd hcut (List.cons_ne_nil d s₂)
          · exact Or.inr (Or.inr (Or.inl ⟨by rw [hval]; rfl, .valueEscape hstr hgap hcut⟩))
        · exact Or.inr (Or.inr (Or.inr ⟨what, by rw [hval]; rfl⟩))
  · rw [hskip] at hstr
    refine Or.inr (Or.inr (Or.inl ⟨?_, .keyOpen hstr⟩))
    exact parseEntry_keyOnly hkey (rest_skipWs (hp₁ ▸ .none _) trivial) _ obj
  · rw [hskip] at hcut
    rcases hcut with hcut | hcut
    · exact absurd hcut (List.cons_ne_nil c s)
    · exact Or.inr (Or.inr (Or.inl ⟨parseEntry_error hkey _ obj, .keyEscape hcut⟩))
  · exact Or.inr (Or.inr (Or.inr ⟨what, parseEntry_error hkey _ obj⟩))

/-- **Every run of the object loop** is one of `ObjectRun`: fuel above the unread length is never
    spent.  One turn reads an entry, by the induction hypothesis for its nested object, and the
    induction hypothesis again is the rest of the loop. -/
theorem objectLoop_spec : ∀ (fuel : Nat) (p : TextParser) (obj : Object),
    p.rest.length < fuel → ObjectRun (objectLoop fuel p obj) obj p.rest := by
  intro fuel
  induction fuel with
  | zero => intro p obj h; exact absurd h (Nat.not_lt_zero _)
  | succ fuel ih =>
    intro p obj hf
    -- the fuel is worth a byte a turn, and every entry takes one
    have hgap := p.gap_skipWs
    cases hr : p.skipWs.rest with
    | nil =>
      rw [hr] at hgap
      exact Or.inr (Or.inl ⟨objectLoop_nil hr fuel obj, .between (.nil _) hgap⟩)
    | cons c s =>
      rw [hr] at hgap
      have hlen := hgap.length_le
      simp only [List.length_cons] at hlen
      by_cases hc : c = rbrace
      · subst hc
        obtain ⟨p', hclose, hp'⟩ := objectLoop_close hgap fuel obj
        exact Or.inl ⟨[], _, p', hclose, .nil _, hp'.symm ▸ hgap⟩
      · rw [objectLoop_cons hr hc]
        have hentry := parseEntry_spec fuel obj hr (hr ▸ p.solid_skipWs)
          (fun q hq => ih q .empty (by omega))
        -- four ways for the entry; only the first one lets the loop go on
        rcases hentry with ⟨e, p₁, hrun, he⟩ | ⟨k, v, s₁, s₂, p₁, hrun, hp₁, hk, hg', hv⟩ |
          ⟨hrun, hcut⟩ | ⟨what, hrun⟩
        · have h₁ := he.length_lt
          simp only [List.length_cons] at h₁
          have hrest := ih p₁ (obj.set e.1 (.ofValue e.2)) (by omega)
          rw [hrun]
          rcases hrest with ⟨es, s', p', hloop, hes, hclose⟩ | ⟨hloop, hcut⟩ | ⟨what, hloop⟩
          · exact Or.inl ⟨e :: es, s', p', hloop, .cons hgap he hes, hclose⟩
          · exact Or.inr (Or.inl ⟨hloop, hcut.cons hgap he⟩)
          · exact Or.inr (Or.inr ⟨what, hloop⟩)
        · -- the value ran into the end of the input, and the loop goes on there
          have h₁ := hk.length_lt
          simp only [List.length_cons] at h₁
          obtain ⟨fuel, rfl⟩ : ∃ n, fuel = n + 1 := ⟨fuel - 1, by omega⟩
          refine Or.inr (Or.inl ⟨?_, .valueOpen (.nil _) hgap hk hg' hv⟩)
          rw [hrun]
          exact objectLoop_nil (rest_skipWs (hp₁ ▸ .none _) trivial) fuel _
        · exact Or.inr (Or.inl ⟨by rw [hrun]; rfl, .inEntry (.nil _) hgap hcut⟩)
        · exact Or.inr (Or.inr ⟨what, by rw [hrun]; rfl⟩)

/-- **Every run of the root loop** is one of `RootRun`. -/
theorem parseLoop_spec : ∀ (fuel : Nat) (p : TextParser) (root : Object),
    p.rest.length < fuel → RootRun (parseLoop fuel p root) root p.rest := by
  intro fuel
  induction fuel with
  | zero => intro p root h; exact absurd h (Nat.not_lt_zero _)
  | succ fuel ih =>
    intro p root hf
    have hgap := p.gap_skipWs
    cases hr : p.skipWs.rest with
    | nil =>
      rw [hr] at hgap
      exact Or.inl ⟨[], parseLoop_nil hr fuel root, .closed (.nil _) hgap⟩
    | cons c s =>
      rw [hr] at hgap
      have hlen := hgap.length_le
      simp only [List.length_cons] at hlen
      rw [parseLoop_cons hr]
      have hentry := parseEntry_spec fuel root hr (hr ▸ p.solid_skipWs)
        (fun q hq => objectLoop_spec fuel q .empty (by omega))
      -- the same four ways at the top level, where the end of the text closes the loop
      rcases hentry with ⟨e, p₁, hrun, he⟩ | ⟨k, v, s₁, s₂, p₁, hrun, hp₁, hk, hg', hv⟩ |
        ⟨hrun, hcut⟩ | ⟨what, hrun⟩
      · have h₁ := he.length_lt
        simp only [List.length_cons] at h₁
        rw [hrun]
        rcases ih p₁ (root.set e.1 (.ofValue e.2)) (by omega) with ⟨es, hloop, hdoc⟩ |
          ⟨hloop, es, s', s'', hes, hg', hcut⟩ | ⟨what, hloop⟩
        · exact Or.inl ⟨e :: es, hloop, hdoc.cons hgap he⟩
        · exact Or.inr (Or.inl ⟨hloop, e :: es, s', s'', .cons hgap he hes, hg', hcut⟩)
        · exact Or.inr (Or.inr ⟨what, hloop⟩)
      · -- the leniency: the value ran into the end of the input, and so did the loop
        have h₁ := hk.length_lt
        simp only [List.length_cons] at h₁
        obtain ⟨fuel, rfl⟩ : ∃ n, fuel = n + 1 := ⟨fuel - 1, by omega⟩
        refine Or.inl ⟨[(k, .string v)], ?_, .lenient (.nil _) hgap hk hg' hv⟩
        rw [hrun]
        exact parseLoop_nil (rest_skipWs (hp₁ ▸ .none _) trivial) fuel _
      · exact Or.inr (Or.inl ⟨by rw [hrun]; rfl, [], _, _, .nil _, hgap, hcut⟩)
      · exact Or.inr (Or.inr ⟨what, by rw [hrun]; rfl⟩)

end TextParser

/-! ## `parse_text` -/

/-- One statement for every text; the two below are its cases. -/
theorem parseText_spec (t : Bytes) : TextParser.RootRun (parseText t) .empty t :=
  TextParser.parseLoop_spec (t.length + 1) ⟨t, 0⟩ .empty (Nat.lt_succ_self _)

/-- A document is parsed to the object it denotes. -/
theorem parseText_doc {t : Bytes} {es : Entries} (h : Doc t es) :
    parseText t = .ok (Object.ofEntries es) :=
  TextParser.parseLoop_doc h .empty rfl (Nat.lt_succ_self _)

/-- A cut text reads behind the input. -/
theorem parseText_cut {t : Bytes} (h : CutText t) : parseText t = .error .undefined :=
  TextParser.parseLoop_cut h .empty rfl (Nat.lt_succ_self _)

/-- A text that is accepted is a document. -/
theorem doc_of_parseText {t : Bytes} {r : Object} (h : parseText t = .ok r) :
    ∃ es, Doc t es ∧ r = Object.ofEntries es := by
  rcases parseText_spec t with ⟨es, hrun, hdoc⟩ | ⟨hrun, -⟩ | ⟨what, hrun⟩
  · exact ⟨es, hdoc, Except.ok.inj (h.symm.trans hrun)⟩
  · cases h.symm.trans hrun
  · cases h.symm.trans hrun

/-- **The parser is the grammar**: `parse_text` returns `r` exactly when the text is a document
    that denotes `r`. -/
theorem parseText_eq_ok_iff (t : Bytes) (r : Object) :
    parseText t = .ok r ↔ ∃ es, Doc t es ∧ Object.ofEntries es = r := by
  constructor
  · intro h
    rcases parseText_spec t with ⟨es, hrun, hdoc⟩ | ⟨hrun, -⟩ | ⟨what, hrun⟩
    · rw [h] at hrun
      exact ⟨es, hdoc, (Except.ok.inj hrun).symm⟩
    · rw [h] at hrun
      nomatch hrun
    · rw [h] at hrun
      nomatch hrun
  · rintro ⟨es, hdoc, rfl⟩
    exact parseText_doc hdoc

/-- A key with nothing behind it: the parser peeks at the byte after the last. -/
theorem parseText_keyOnly : ¬ ReturnsOrThrows (parseText (ascii "\"k\"")) := by
  rw [show parseText (ascii "\"k\"") = .error .undefined from rfl]
  exact not_returnsOrThrows_undefined

/-- **The parser's reads**: every `peek` and `consume` is inside the input, and the call returns or
    throws, exactly when the text is not cut off inside an entry. -/
theorem parseText_defined_iff (t : Bytes) : ReturnsOrThrows (parseText t) ↔ ¬ CutText t := by
  constructor
  · intro h hcut
    rw [parseText_cut hcut] at h
    exact not_returnsOrThrows_undefined h
  · intro h
    rcases parseText_spec t with ⟨es, hrun, -⟩ | ⟨-, hcut⟩ | ⟨what, hrun⟩
    · exact Or.inl ⟨_, hrun⟩
    · exact absurd hcut h
    · exact Or.inr ⟨what, hrun⟩

end SteamMin.Vdf
