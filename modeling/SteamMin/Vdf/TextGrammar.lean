/-
  THE TEXT GRAMMAR, and what the parser computes on it.

      doc    = (gap entry)* gap
      entry  = string gap ( string | '{' (gap entry)* gap '}' )
      string = '"' ( any byte but '"' and '\' | '\' any byte )* '"'
      gap    = any run of whitespace and `//` comments

  Each nonterminal is a relation between the text in front of it and the text behind it; `Str` and
  `Entries` also carry what they denote.  `Doc` is a whole text, with the one leniency of the code:
  the last value string of the top level may lack its closing quote.  `CutText` is the language of
  texts that stop where the parser still has a byte to read.

  1. A SCANNER is followed by what it leaves: `rest p` is the unread text.  `skipWs` passes over a
     gap and stops where none begins (`gap_skipWs`, `solid_skipWs`), and a gap that stops so is
     unique (`Gap.eq_of_solid`).
  2. EVALUATION: the parser run on a derivation.  The loops step over a derived stretch of text and
     arrive at themselves (`stringLoop_chars`, `objectLoop_entries`).

  The root loop, and that every run has a derivation behind it or stops in a cut text or throws, are
  in `SteamMin.Vdf.TextCorrect`.
-/
import SteamMin.Vdf.TextParser

namespace SteamMin.Vdf

/-! ## The grammar

  The format as relations between a text and what is left of it.  None of them mentions the parser.
  The lenient end and the cuts are there because the source has them. -/

/-- `Gap s r`: whitespace and comments lead from `s` to `r`.  A comment is `//` and everything up
    to the next newline or the end of the text. -/
inductive Gap : Bytes → Bytes → Prop
  | none (s : Bytes) : Gap s s
  | space {c : Byte} {s r : Bytes} : isspace c = true → Gap s r → Gap (c :: s) r
  | comment {s r : Bytes} : Gap (s.dropWhile (· != newline)) r → Gap (slash :: slash :: s) r

/-- `Chars s out r`: characters and escapes denoting `out` lead from `s` to `r`. -/
inductive Chars : Bytes → Bytes → Bytes → Prop
  | none (s : Bytes) : Chars s [] s
  | plain {c : Byte} {s out r : Bytes} : c ≠ quote → c ≠ backslash → Chars s out r →
      Chars (c :: s) (c :: out) r
  | escape {n : Byte} {s out r : Bytes} : Chars s out r →
      Chars (backslash :: n :: s) (unescape n :: out) r

/-- A string, closed by its quote. -/
def Str (s out r : Bytes) : Prop := ∃ m, s = quote :: m ∧ Chars m out (quote :: r)

/-- A string that runs into the end of the text. -/
def OpenStr (s out : Bytes) : Prop := ∃ m, s = quote :: m ∧ Chars m out []

/-- A string that ends in the middle of an escape. -/
def CutStr (s : Bytes) : Prop := ∃ m out, s = quote :: m ∧ Chars m out [backslash]

mutual

/-- One entry: a key, and a string or a nested object. -/
inductive Entry : Bytes → Bytes × Value → Bytes → Prop
  | leaf {s s₁ s₂ k v r : Bytes} : Str s k s₁ → Gap s₁ s₂ → Str s₂ v r →
      Entry s (k, .string v) r
  | node {s s₁ s₂ s₃ k r : Bytes} {es : Entries} : Str s k s₁ → Gap s₁ (lbrace :: s₂) →
      EntryList s₂ es s₃ → Gap s₃ (rbrace :: r) → Entry s (k, .object es) r

/-- Entries, each behind a gap. -/
inductive EntryList : Bytes → Entries → Bytes → Prop
  | nil (s : Bytes) : EntryList s [] s
  | cons {s s₁ s₂ r : Bytes} {e : Bytes × Value} {es : Entries} : Gap s s₁ → Entry s₁ e s₂ →
      EntryList s₂ es r → EntryList s (e :: es) r

end

/-- `Doc t es`: the text `t` is the document `es`.  In `lenient` the last value is not closed. -/
inductive Doc : Bytes → Entries → Prop
  | closed {t s : Bytes} {es : Entries} : EntryList t es s → Gap s [] → Doc t es
  | lenient {t s s₁ s₂ s₃ k v : Bytes} {es : Entries} : EntryList t es s → Gap s s₁ →
      Str s₁ k s₂ → Gap s₂ s₃ → OpenStr s₃ v → Doc t (es ++ [(k, .string v)])

mutual

/-- An entry cut off: in its key, behind its key, inside an escape, or inside its object. -/
inductive CutEntry : Bytes → Prop
  | keyEscape {s : Bytes} : CutStr s → CutEntry s
  | keyOpen {s k : Bytes} : OpenStr s k → CutEntry s
  | afterKey {s s₁ k : Bytes} : Str s k s₁ → Gap s₁ [] → CutEntry s
  | valueEscape {s s₁ s₂ k : Bytes} : Str s k s₁ → Gap s₁ s₂ → CutStr s₂ → CutEntry s
  | inObject {s s₁ s₂ k : Bytes} : Str s k s₁ → Gap s₁ (lbrace :: s₂) → CutObject s₂ → CutEntry s

/-- The inside of an object cut off: between entries, in an entry, or in its last value. -/
inductive CutObject : Bytes → Prop
  | between {s s₁ : Bytes} {es : Entries} : EntryList s es s₁ → Gap s₁ [] → CutObject s
  | inEntry {s s₁ s₂ : Bytes} {es : Entries} : EntryList s es s₁ → Gap s₁ s₂ → CutEntry s₂ →
      CutObject s
  | valueOpen {s s₁ s₂ s₃ s₄ k v : Bytes} {es : Entries} : EntryList s es s₁ → Gap s₁ s₂ →
      Str s₂ k s₃ → Gap s₃ s₄ → OpenStr s₄ v → CutObject s

end

/-- A text cut off inside an entry of the top level. -/
def CutText (t : Bytes) : Prop := ∃ es s s₁, EntryList t es s ∧ Gap s s₁ ∧ CutEntry s₁

/-- An entry in front does not heal an object that is cut further on. -/
theorem CutObject.cons {s s₁ s₂ : Bytes} {e : Bytes × Value} (hg : Gap s s₁)
    (he : Entry s₁ e s₂) : CutObject s₂ → CutObject s
  | .between hes h => .between (.cons hg he hes) h
  | .inEntry hes h hc => .inEntry (.cons hg he hes) h hc
  | .valueOpen hes h hk h' hv => .valueOpen (.cons hg he hes) h hk h' hv

/-- A document may begin with any entry. -/
theorem Doc.cons {s s₁ s₂ : Bytes} {e : Bytes × Value} {es : Entries} (hg : Gap s s₁)
    (he : Entry s₁ e s₂) : Doc s₂ es → Doc s (e :: es)
  | .closed hes h => .closed (.cons hg he hes) h
  | .lenient hes h hk h' hv => .lenient (.cons hg he hes) h hk h' hv

/-! ## Gaps

  A gap may be taken in several pieces; where it stops in front of something solid it is
  determined. -/

/-- No gap begins here. -/
def Solid : Bytes → Prop
  | [] => True
  | c :: s => isspace c = false ∧ ¬ (c = slash ∧ s.head? = some slash)

/-- A gap consumes. -/
theorem Gap.length_le {s r : Bytes} (h : Gap s r) : r.length ≤ s.length := by
  induction h with
  | none s => exact Nat.le_refl _
  | space _ _ ih => exact Nat.le_succ_of_le ih
  | comment _ ih =>
    rename_i s r _
    have hdrop : (s.dropWhile (· != newline)).length ≤ s.length :=
      (List.dropWhile_suffix _).length_le
    simp only [List.length_cons]
    omega

/-- A gap that stops where no gap begins is the longest one, so there is only one. -/
theorem Gap.eq_of_solid {s r r' : Bytes} (h : Gap s r) (h' : Gap s r') (hr : Solid r)
    (hr' : Solid r') : r = r' := by
  induction h with
  | none s =>
    cases h' with
    | none => rfl
    | space hc _ => rw [hr.1] at hc; exact absurd hc Bool.false_ne_true
    | comment _ => exact absurd ⟨rfl, rfl⟩ hr.2
  | space hc _ ih =>
    cases h' with
    | none => rw [hr'.1] at hc; exact absurd hc Bool.false_ne_true
    | space _ h' => exact ih h' hr
    | comment _ => exact absurd hc (by decide)
  | comment _ ih =>
    cases h' with
    | none => exact absurd ⟨rfl, rfl⟩ hr'.2
    | space hc _ => exact absurd hc (by decide)
    | comment h' => exact ih h' hr

/-- A run of white space in front belongs to the gap. -/
theorem Gap.of_dropWhile_isspace {r : Bytes} : ∀ {s : Bytes}, Gap (s.dropWhile isspace) r → Gap s r
  | [], h => h
  | c :: s, h => by
    rw [List.dropWhile_cons] at h
    split at h
    · rename_i hc
      exact .space hc (Gap.of_dropWhile_isspace h)
    · exact h

/-- Gaps compose, so skipping twice is skipping once. -/
theorem Gap.trans {s r r' : Bytes} (h : Gap s r) (h' : Gap r r') : Gap s r' := by
  induction h with
  | none => exact h'
  | space hc _ ih => exact .space hc (ih h')
  | comment _ ih => exact .comment (ih h')

/-! ## The scanner, by what it leaves

  The functions on cursors as functions on what is left, `rest`, which the grammar speaks of. -/

namespace TextParser

/-- The head of the rest is the byte under the cursor. -/
theorem head?_rest (p : TextParser) : p.rest.head? = p.input[p.pos]? := List.head?_drop

/-- Consuming takes the byte under the cursor. -/
theorem consume_cons {p : TextParser} {c : Byte} {s : Bytes} (h : p.rest = c :: s) :
    ∃ p' : TextParser, p.consume = .ok (c, p') ∧ p'.rest = s := by
  have hc : p.input[p.pos]? = some c := by rw [← p.head?_rest, h]; rfl
  refine ⟨{ p with pos := p.pos + 1 }, ?_, ?_⟩
  · rw [consume, hc]
  · show p.input.drop (p.pos + 1) = s
    rw [← List.drop_drop, show p.input.drop p.pos = c :: s from h]
    rfl

/-- At the end `consume` reads behind the input: undefined, as in the source. -/
theorem consume_nil {p : TextParser} (h : p.rest = []) : p.consume = .error .undefined := by
  have hc : p.input[p.pos]? = none := by rw [← p.head?_rest, h]; rfl
  rw [consume, hc]

/-- Looking at the byte under the cursor. -/
theorem peek_cons {p : TextParser} {c : Byte} {s : Bytes} (h : p.rest = c :: s) :
    p.peek = .ok c := by
  have hc : p.input[p.pos]? = some c := by rw [← p.head?_rest, h]; rfl
  rw [peek, hc]

/-- At the end `peek` reads behind the input as well. -/
theorem peek_nil {p : TextParser} (h : p.rest = []) : p.peek = .error .undefined := by
  have hc : p.input[p.pos]? = none := by rw [← p.head?_rest, h]; rfl
  rw [peek, hc]

/-- The end of the input is where nothing is left. -/
theorem eof_iff (p : TextParser) : p.eof = true ↔ p.rest = [] := by
  rw [eof, rest, decide_eq_true_iff, List.drop_eq_nil_iff]

/-- In front of a byte the parser is not at the end. -/
theorem eof_cons {p : TextParser} {c : Byte} {s : Bytes} (h : p.rest = c :: s) :
    p.eof = false := by
  rw [← Bool.not_eq_true, p.eof_iff, h]
  exact List.cons_ne_nil c s

/-- Skipping is dropping from what is left. -/
theorem rest_skipWhile (cond : Byte → Bool) (p : TextParser) :
    (p.skipWhile cond).rest = p.rest.dropWhile cond := by
  show p.input.drop (p.pos + _) = _
  rw [← List.drop_drop]
  show p.rest.drop (p.rest.takeWhile cond).length = _
  generalize p.rest = s
  induction s with
  | nil => rfl
  | cons c s ih =>
    rw [List.takeWhile_cons, List.dropWhile_cons]
    split
    · exact ih
    · rfl

/-- A comment begins with two slashes, both inside the input. -/
theorem atComment_iff (p : TextParser) :
    p.atComment = true ↔ ∃ s, p.rest = slash :: slash :: s := by
  have h0 : p.rest[0]? = p.input[p.pos]? := by rw [rest, List.getElem?_drop, Nat.add_zero]
  have h1 : p.rest[1]? = p.input[p.pos + 1]? := by rw [rest, List.getElem?_drop]
  rw [atComment, ← h0, ← h1, Bool.and_eq_true, decide_eq_true_iff, decide_eq_true_iff]
  constructor
  · rintro ⟨h0, h1⟩
    match hr : p.rest with
    | [] => rw [hr] at h0; exact absurd h0 (by simp)
    | [c] => rw [hr] at h1; exact absurd h1 (by simp)
    | c :: d :: s =>
      rw [hr] at h0 h1
      obtain rfl : c = slash := Option.some.inj h0
      obtain rfl : d = slash := Option.some.inj h1
      exact ⟨s, rfl⟩
  · rintro ⟨s, hr⟩
    rw [hr]
    exact ⟨rfl, rfl⟩

/-- One lemma for the skipping loop: it passes a gap and stops in front of something solid.  The
    fuel bounds what is left. -/
theorem skipWsFuel_spec : ∀ (fuel : Nat) (p : TextParser), p.rest.length < fuel →
    Gap p.rest (skipWsFuel fuel p).rest ∧ Solid (skipWsFuel fuel p).rest := by
  intro fuel
  induction fuel with
  | zero => intro p h; exact absurd h (Nat.not_lt_zero _)
  | succ fuel ih =>
    intro p h
    have hspace := p.rest_skipWhile isspace
    have hlen : (p.skipWhile isspace).rest.length ≤ p.rest.length := by
      rw [hspace]; exact (List.dropWhile_suffix _).length_le
    rw [skipWsFuel]
    by_cases hc : (p.skipWhile isspace).atComment = true
    · rw [if_pos hc]
      obtain ⟨s, hs⟩ := ((p.skipWhile isspace).atComment_iff).mp hc
      -- a comment: both slashes go with the rest of the line
      have hline : ((p.skipWhile isspace).skipWhile (· != newline)).rest
          = s.dropWhile (· != newline) := by
        rw [rest_skipWhile, hs, List.dropWhile_cons_of_pos (by decide),
          List.dropWhile_cons_of_pos (by decide)]
      have hshort : (s.dropWhile (· != newline)).length ≤ s.length :=
        (List.dropWhile_suffix _).length_le
      rw [hs, List.length_cons, List.length_cons] at hlen
      obtain ⟨hgap, hsolid⟩ := ih ((p.skipWhile isspace).skipWhile (· != newline))
        (by rw [hline]; omega)
      refine ⟨Gap.of_dropWhile_isspace ?_, hsolid⟩
      rw [hline] at hgap
      rw [← hspace, hs]
      exact .comment hgap
    -- no comment: what follows the white space is solid
    · rw [if_neg hc]
      refine ⟨Gap.of_dropWhile_isspace ?_, ?_⟩
      · rw [hspace]
        exact .none _
      · match hr : (p.skipWhile isspace).rest with
        | [] => trivial
        | c :: s =>
          refine ⟨?_, ?_⟩
          · rw [hspace] at hr
            have hhead := List.head?_dropWhile_not isspace p.rest
            rw [hr] at hhead
            simpa using hhead
          · rintro ⟨rfl, hs⟩
            obtain ⟨d, s, rfl⟩ : ∃ d s', s = d :: s' := by
              cases s with
              | nil => exact absurd hs (by simp)
              | cons d s => exact ⟨d, s, rfl⟩
            obtain rfl : d = slash := Option.some.inj hs
            exact hc ((p.skipWhile isspace).atComment_iff.mpr ⟨s, hr⟩)

/-- `skip_ws` passes over a gap ... -/
theorem gap_skipWs (p : TextParser) : Gap p.rest p.skipWs.rest :=
  (skipWsFuel_spec _ p (Nat.lt_succ_self _)).1

/-- ... and stops where no gap begins. -/
theorem solid_skipWs (p : TextParser) : Solid p.skipWs.rest :=
  (skipWsFuel_spec _ p (Nat.lt_succ_self _)).2

/-- Where a gap ends in front of something solid, skipping ends exactly there. -/
theorem rest_skipWs {p : TextParser} {s : Bytes} (h : Gap p.rest s) (hs : Solid s) :
    p.skipWs.rest = s :=
  p.gap_skipWs.eq_of_solid h p.solid_skipWs hs

/-- No gap at all is a gap. -/
theorem gap_of_rest {p : TextParser} {s : Bytes} (h : p.rest = s) : Gap p.rest s := h ▸ .none _

/-- Skipping consumes. -/
theorem length_skipWs_le (p : TextParser) : p.skipWs.rest.length ≤ p.rest.length :=
  p.gap_skipWs.length_le

end TextParser

/-- A quote is not white space and begins no comment. -/
theorem solid_quote (s : Bytes) : Solid (quote :: s) := ⟨by decide, fun h => absurd h.1 (by decide)⟩

/-- An opening brace is solid. -/
theorem solid_lbrace (s : Bytes) : Solid (lbrace :: s) :=
  ⟨by decide, fun h => absurd h.1 (by decide)⟩

/-- A closing brace is solid. -/
theorem solid_rbrace (s : Bytes) : Solid (rbrace :: s) :=
  ⟨by decide, fun h => absurd h.1 (by decide)⟩

/-- A string begins with its quote, closed or not. -/
theorem OpenStr.solid {s out : Bytes} (h : OpenStr s out) : Solid s := by
  obtain ⟨m, rfl, -⟩ := h
  exact solid_quote m

/-- A cut string begins with its quote. -/
theorem CutStr.solid {s : Bytes} (h : CutStr s) : Solid s := by
  obtain ⟨m, out, rfl, -⟩ := h
  exact solid_quote m

/-- A string begins with its quote. -/
theorem Str.solid {s out r : Bytes} (h : Str s out r) : Solid s := by
  obtain ⟨m, rfl, -⟩ := h
  exact solid_quote m

/-! ## Strings

  Each way a string can go on, and the result of `parse_string` for it. -/

/-- Reading characters consumes. -/
theorem Chars.length_le {s out r : Bytes} (h : Chars s out r) : r.length ≤ s.length := by
  induction h with
  | none => exact Nat.le_refl _
  | plain _ _ _ ih => exact Nat.le_succ_of_le ih
  | escape _ ih => exact Nat.le_succ_of_le (Nat.le_succ_of_le ih)

/-- Characters can always be read up to the end, a quote, or a backslash with nothing behind. -/
theorem chars_total : ∀ m : Bytes,
    ∃ out e, Chars m out e ∧ (e = [] ∨ e = [backslash] ∨ ∃ r, e = quote :: r)
  | [] => ⟨[], [], .none _, Or.inl rfl⟩
  | c :: s => by
    by_cases hq : c = quote
    · subst hq
      exact ⟨[], _, .none _, Or.inr (Or.inr ⟨s, rfl⟩)⟩
    · by_cases hb : c = backslash
      · subst hb
        match s with
        | [] => exact ⟨[], _, .none _, Or.inr (Or.inl rfl)⟩
        | n :: s =>
          obtain ⟨out, e, h, he⟩ := chars_total s
          exact ⟨unescape n :: out, e, .escape h, he⟩
      · obtain ⟨out, e, h, he⟩ := chars_total s
        exact ⟨c :: out, e, .plain hq hb h, he⟩

namespace TextParser

/-- At the end of the input the loop returns what it has: the lenient end of the source. -/
theorem stringLoop_nil {p : TextParser} (h : p.rest = []) (fuel : Nat) (acc : Bytes) :
    stringLoop fuel p acc = .ok (acc, p) := by
  cases fuel with
  | zero => rfl
  | succ fuel => rw [stringLoop, if_pos (p.eof_iff.mpr h)]

/-- One turn of the loop, inside the input. -/
theorem stringLoop_cons {p p' : TextParser} {c : Byte} {s : Bytes} (hs : p.rest = c :: s)
    (hc : p.consume = .ok (c, p')) (fuel : Nat) (acc : Bytes) :
    stringLoop (fuel + 1) p acc =
      if c = quote then .ok (acc, p')
      else if c = backslash then
        p'.consume.bind fun (n, p'') => stringLoop fuel p'' (acc ++ [unescape n])
      else stringLoop fuel p' (acc ++ [c]) := by
  rw [stringLoop, if_neg (by rw [eof_cons hs]; exact Bool.false_ne_true), hc]
  rfl

/-- The loop steps over characters, collecting what they denote. -/
theorem stringLoop_chars {m out e : Bytes} (h : Chars m out e) :
    ∀ {p : TextParser} {fuel : Nat} (acc : Bytes), p.rest = m → m.length ≤ fuel →
      ∃ (p' : TextParser) (fuel' : Nat), p'.rest = e ∧ e.length ≤ fuel' ∧
        stringLoop fuel p acc = stringLoop fuel' p' (acc ++ out) := by
  induction h with
  | none s =>
    intro p fuel acc hp hf
    exact ⟨p, fuel, hp, hf, by rw [List.append_nil]⟩
  | @plain c s out r hq hb _ ih =>
    intro p fuel acc hp hf
    cases fuel with
    | zero => exact absurd hf (Nat.not_succ_le_zero _)
    | succ fuel =>
      -- one character, one round
      obtain ⟨p₁, hc, hp₁⟩ := consume_cons hp
      obtain ⟨p', fuel', hp', hf', heq⟩ := ih (acc ++ [c]) hp₁ (Nat.le_of_succ_le_succ hf)
      refine ⟨p', fuel', hp', hf', ?_⟩
      rw [stringLoop_cons hp hc, if_neg hq, if_neg hb, heq, List.append_assoc]
      rfl
  | @escape n s out r _ ih =>
    intro p fuel acc hp hf
    cases fuel with
    | zero => exact absurd hf (Nat.not_succ_le_zero _)
    | succ fuel =>
      obtain ⟨p₁, hc, hp₁⟩ := consume_cons hp
      -- an escape takes two characters in one round, so fuel is left over
      obtain ⟨p₂, hn, hp₂⟩ := consume_cons hp₁
      obtain ⟨p', fuel', hp', hf', heq⟩ := ih (acc ++ [unescape n]) hp₂
        (Nat.le_of_succ_le (Nat.le_of_succ_le_succ hf))
      refine ⟨p', fuel', hp', hf', ?_⟩
      rw [stringLoop_cons hp hc, if_neg (by decide), if_pos rfl, hn]
      show stringLoop fuel p₂ _ = _
      rw [heq, List.append_assoc]
      rfl

/-- `parse_string` behind its gap, at an opening quote. -/
theorem parseString_quote {p : TextParser} {m : Bytes} (h : Gap p.rest (quote :: m)) :
    ∃ p' : TextParser, p'.rest = m ∧ p.parseString = stringLoop m.length p' [] := by
  obtain ⟨p', hc, hp'⟩ := consume_cons (rest_skipWs h (solid_quote m))
  refine ⟨p', hp', ?_⟩
  rw [parseString, hc, ← hp']
  rfl

/-- Behind its gap and its quote it takes characters, up to one that the loop looks at. -/
theorem parseString_chars {p : TextParser} {m out r : Bytes} {c : Byte}
    (hg : Gap p.rest (quote :: m)) (hm : Chars m out (c :: r)) :
    ∃ (p₁ p₂ : TextParser) (fuel : Nat), p₁.rest = c :: r ∧ p₁.consume = .ok (c, p₂) ∧
      p₂.rest = r ∧ p.parseString = stringLoop (fuel + 1) p₁ out := by
  obtain ⟨p₀, hp₀, heq⟩ := parseString_quote hg
  obtain ⟨p₁, fuel, hp₁, hf, heq₁⟩ := stringLoop_chars hm [] hp₀ (Nat.le_refl _)
  obtain ⟨p₂, hc, hp₂⟩ := consume_cons hp₁
  cases fuel with
  | zero => exact absurd hf (Nat.not_succ_le_zero _)
  | succ fuel => exact ⟨p₁, p₂, fuel, hp₁, hc, hp₂, by rw [heq, heq₁, List.nil_append]⟩

/-- A string of the grammar is parsed to what it denotes, behind any gap. -/
theorem parseString_str {p : TextParser} {s out r : Bytes} (hg : Gap p.rest s)
    (h : Str s out r) : ∃ p' : TextParser, p.parseString = .ok (out, p') ∧ p'.rest = r := by
  obtain ⟨m, rfl, hm⟩ := h
  obtain ⟨p₁, p₂, fuel, hp₁, hc, hp₂, heq⟩ := parseString_chars hg hm
  refine ⟨p₂, ?_, hp₂⟩
  rw [heq, stringLoop_cons hp₁ hc, if_pos rfl]

/-- A string that the end closes is parsed as well. -/
theorem parseString_open {p : TextParser} {s out : Bytes} (hg : Gap p.rest s)
    (h : OpenStr s out) : ∃ p' : TextParser, p.parseString = .ok (out, p') ∧ p'.rest = [] := by
  obtain ⟨m, rfl, hm⟩ := h
  obtain ⟨p₁, hp₁, heq⟩ := parseString_quote hg
  obtain ⟨p₂, fuel, hp₂, -, heq₂⟩ := stringLoop_chars hm [] hp₁ (Nat.le_refl _)
  exact ⟨p₂, by rw [heq, heq₂, stringLoop_nil hp₂]; rfl, hp₂⟩

/-- A string that ends inside an escape reads behind the input. -/
theorem parseString_cut {p : TextParser} {s : Bytes} (hg : Gap p.rest s) (h : CutStr s) :
    p.parseString = .error .undefined := by
  obtain ⟨m, out, rfl, hm⟩ := h
  obtain ⟨p₁, p₂, fuel, hp₁, hc, hp₂, heq⟩ := parseString_chars hg hm
  rw [heq, stringLoop_cons hp₁ hc, if_neg (by decide), if_pos rfl, consume_nil hp₂]
  rfl

/-- Every run of `parse_string`: a string, closed or not; a read past the end; an exception. -/
theorem parseString_spec (p : TextParser) :
    (∃ out p', p.parseString = .ok (out, p') ∧ Str p.skipWs.rest out p'.rest) ∨
    (∃ out p', p.parseString = .ok (out, p') ∧ OpenStr p.skipWs.rest out ∧ p'.rest = []) ∨
    (p.parseString = .error .undefined ∧ (p.skipWs.rest = [] ∨ CutStr p.skipWs.rest)) ∨
    (∃ what, p.parseString = runtimeError what) := by
  have hgap := p.gap_skipWs
  match hr : p.skipWs.rest with
  | [] =>
    refine Or.inr (Or.inr (Or.inl ⟨?_, Or.inl rfl⟩))
    rw [parseString, consume_nil hr]
    rfl
  | c :: m =>
    rw [hr] at hgap
    by_cases hq : c = quote
    · subst hq
      -- behind the quote the characters end at the end, in an escape, or at a quote
      obtain ⟨out, e, hm, rfl | rfl | ⟨r, rfl⟩⟩ := chars_total m
      · obtain ⟨p', heq, hp'⟩ := parseString_open hgap ⟨m, rfl, hm⟩
        exact Or.inr (Or.inl ⟨out, p', heq, ⟨m, rfl, hm⟩, hp'⟩)
      · have hcut : CutStr (quote :: m) := ⟨m, out, rfl, hm⟩
        exact Or.inr (Or.inr (Or.inl ⟨parseString_cut hgap hcut, Or.inr hcut⟩))
      · obtain ⟨p', heq, hp'⟩ := parseString_str hgap ⟨m, rfl, hm⟩
        exact Or.inl ⟨out, p', heq, m, rfl, by rw [hp']; exact hm⟩
    · refine Or.inr (Or.inr (Or.inr ⟨"Expected quote", ?_⟩))
      obtain ⟨p', hc, -⟩ := consume_cons hr
      rw [parseString, hc]
      show (if (c != quote) = true then _ else _) = _
      rw [if_pos (by simpa using hq)]

end TextParser

/-! ## Entries: evaluation

  From a derivation to the run of the parser: by recursion on the derivation, with fuel for the
  length of what is left. -/

/-- A string consumes both of its quotes. -/
theorem Str.length_lt {s out r : Bytes} (h : Str s out r) : r.length + 1 < s.length := by
  obtain ⟨m, rfl, hm⟩ := h
  have := hm.length_le
  simp only [List.length_cons] at this ⊢
  omega

/-- A string begins with a quote. -/
theorem Str.head {s out r : Bytes} (h : Str s out r) : ∃ m, s = quote :: m := by
  obtain ⟨m, hm, -⟩ := h
  exact ⟨m, hm⟩

/-- An entry begins with the quote of its key. -/
theorem Entry.head {s r : Bytes} {e : Bytes × Value} (h : Entry s e r) : ∃ m, s = quote :: m := by
  cases h with
  | leaf hk _ _ => exact hk.head
  | node hk _ _ _ => exact hk.head

/-- A cut entry begins with the quote of its key. -/
theorem CutEntry.head {s : Bytes} (h : CutEntry s) : ∃ m, s = quote :: m := by
  cases h with
  | keyEscape hk => obtain ⟨m, _, hm, -⟩ := hk; exact ⟨m, hm⟩
  | keyOpen hk => obtain ⟨m, hm, -⟩ := hk; exact ⟨m, hm⟩
  | afterKey hk _ => exact hk.head
  | valueEscape hk _ _ => exact hk.head
  | inObject hk _ _ => exact hk.head

/-- An entry begins with something solid. -/
theorem Entry.solid {s r : Bytes} {e : Bytes × Value} (h : Entry s e r) : Solid s := by
  obtain ⟨m, rfl⟩ := h.head
  exact solid_quote m

mutual

/-- An entry consumes, so the loop over entries ends; by recursion on the derivation. -/
theorem Entry.length_lt : ∀ {s r : Bytes} {e : Bytes × Value}, Entry s e r → r.length < s.length
  | _, _, _, .leaf hk hg hv => by
    have h₁ := hk.length_lt
    have h₂ := hg.length_le
    have h₃ := hv.length_lt
    omega
  | _, _, _, .node hk hg hes hg' => by
    have h₁ := hk.length_lt
    have h₂ := hg.length_le
    have h₃ := hes.length_le
    have h₄ := hg'.length_le
    simp only [List.length_cons] at h₂ h₄
    omega

/-- A list of entries consumes. -/
theorem EntryList.length_le : ∀ {s r : Bytes} {es : Entries}, EntryList s es r →
    r.length ≤ s.length
  | _, _, _, .nil s => Nat.le_refl _
  | _, _, _, .cons hg he hes => by
    have h₁ := hg.length_le
    have h₂ := he.length_lt
    have h₃ := hes.length_le
    omega

end

namespace TextParser

/-- Behind a key, anything but an opening brace is parsed as a string value. -/
theorem parseEntry_string {p p₁ : TextParser} {key s : Bytes} {c : Byte}
    (hkey : p.parseString = .ok (key, p₁)) (hr : p₁.skipWs.rest = c :: s) (hc : c ≠ lbrace)
    (f : TextParser → Except Fault (Object × TextParser)) (obj : Object) :
    p.parseEntry f obj =
      p₁.skipWs.parseString.bind fun (val, p) => .ok (obj.set key (.string val), p) := by
  rw [parseEntry, hkey]
  show (p₁.skipWs.peek.bind fun c => if c = lbrace then _ else _) = _
  rw [peek_cons hr]
  show (if c = lbrace then _ else _) = _
  rw [if_neg hc]
  rfl

/-- Behind a key, an opening brace is passed and an object is parsed. -/
theorem parseEntry_object {p p₁ : TextParser} {key s : Bytes}
    (hkey : p.parseString = .ok (key, p₁)) (hr : p₁.skipWs.rest = lbrace :: s)
    (f : TextParser → Except Fault (Object × TextParser)) (obj : Object) :
    ∃ p₂ : TextParser, p₂.rest = s ∧
      p.parseEntry f obj = (f p₂).bind fun (val, p) => .ok (obj.set key (.object val), p) := by
  obtain ⟨p₂, hc, hp₂⟩ := consume_cons hr
  refine ⟨p₂, hp₂, ?_⟩
  rw [parseEntry, hkey]
  show (p₁.skipWs.peek.bind fun c => if c = lbrace then _ else _) = _
  rw [peek_cons hr, hc]
  rfl

/-- A key and an opening brace, which take at least two bytes. -/
theorem parseEntry_node {p : TextParser} {s s₁ s₂ k : Bytes} (hp : Gap p.rest s) (hk : Str s k s₁)
    (hg : Gap s₁ (lbrace :: s₂)) (f : TextParser → Except Fault (Object × TextParser))
    (obj : Object) :
    s₂.length + 2 ≤ s.length ∧ ∃ p' : TextParser, p'.rest = s₂ ∧
      p.parseEntry f obj = (f p').bind fun (val, p) => .ok (obj.set k (.object val), p) := by
  obtain ⟨p₁, hkey, hp₁⟩ := parseString_str hp hk
  have h₁ := hk.length_lt
  have h₂ := hg.length_le
  simp only [List.length_cons] at h₂
  exact ⟨by omega, parseEntry_object hkey (rest_skipWs (hp₁ ▸ hg) (solid_lbrace _)) f obj⟩

/-- A key and a string that is not closed: the value is what is left. -/
theorem parseEntry_open {p : TextParser} {s s₁ s₂ k v : Bytes} (hp : Gap p.rest s)
    (hk : Str s k s₁) (hg : Gap s₁ s₂) (hv : OpenStr s₂ v)
    (f : TextParser → Except Fault (Object × TextParser)) (obj : Object) :
    ∃ p' : TextParser, p.parseEntry f obj = .ok (obj.set k (.string v), p') ∧ p'.rest = [] := by
  obtain ⟨p₁, hkey, hp₁⟩ := parseString_str hp hk
  obtain ⟨m, hm, -⟩ := id hv
  have hr := rest_skipWs (hp₁ ▸ hg) hv.solid
  obtain ⟨p₂, hval, hp₂⟩ := parseString_open (gap_of_rest hr) hv
  refine ⟨p₂, ?_, hp₂⟩
  rw [parseEntry_string hkey (hr.trans hm) (by decide), hval]
  rfl

/-- A key with nothing behind it: the parser looks at a byte that is not there. -/
theorem parseEntry_keyOnly {p p₁ : TextParser} {key : Bytes}
    (hkey : p.parseString = .ok (key, p₁)) (hr : p₁.skipWs.rest = [])
    (f : TextParser → Except Fault (Object × TextParser)) (obj : Object) :
    p.parseEntry f obj = .error .undefined := by
  rw [parseEntry, hkey]
  show (p₁.skipWs.peek.bind fun c => if c = lbrace then _ else _) = _
  rw [peek_nil hr]
  rfl

/-- A key that fails ends the entry. -/
theorem parseEntry_error {p : TextParser} {e : Fault} (hkey : p.parseString = .error e)
    (f : TextParser → Except Fault (Object × TextParser)) (obj : Object) :
    p.parseEntry f obj = .error e := by
  rw [parseEntry, hkey]
  rfl

/-- `parse_object` at a closing brace. -/
theorem objectLoop_close {p : TextParser} {r : Bytes} (h : Gap p.rest (rbrace :: r)) (fuel : Nat)
    (obj : Object) :
    ∃ p' : TextParser, objectLoop (fuel + 1) p obj = .ok (obj, p') ∧ p'.rest = r := by
  have hr := rest_skipWs h (solid_rbrace r)
  obtain ⟨p', hc, hp'⟩ := consume_cons hr
  refine ⟨p', ?_, hp'⟩
  rw [objectLoop]
  show (p.skipWs.peek.bind fun c => if c = rbrace then _ else _) = _
  rw [peek_cons hr, hc]
  rfl

/-- `parse_object` at the end of the input. -/
theorem objectLoop_nil {p : TextParser} (h : p.skipWs.rest = []) (fuel : Nat) (obj : Object) :
    objectLoop (fuel + 1) p obj = .error .undefined := by
  rw [objectLoop]
  show (p.skipWs.peek.bind fun c => if c = rbrace then _ else _) = _
  rw [peek_nil h]
  rfl

/-- `parse_object` anywhere else: one entry, and the loop again. -/
theorem objectLoop_cons {p : TextParser} {c : Byte} {s : Bytes} (hr : p.skipWs.rest = c :: s)
    (hc : c ≠ rbrace) (fuel : Nat) (obj : Object) :
    objectLoop (fuel + 1) p obj =
      (p.skipWs.parseEntry (objectLoop fuel · .empty) obj).bind fun (obj, p) =>
        objectLoop fuel p obj := by
  rw [objectLoop]
  show (p.skipWs.peek.bind fun c => if c = rbrace then _ else _) = _
  rw [peek_cons hr]
  show (if c = rbrace then _ else _) = _
  rw [if_neg hc]
  rfl

mutual

/-- The parser on a derived entry. -/
theorem parseEntry_entry : ∀ {s r : Bytes} {e : Bytes × Value}, Entry s e r →
    ∀ {p : TextParser} (fuel : Nat) (obj : Object), Gap p.rest s → s.length ≤ fuel →
      ∃ p' : TextParser, p.parseEntry (objectLoop fuel · .empty) obj
        = .ok (obj.set e.1 (.ofValue e.2), p') ∧ p'.rest = r
  | _, _, _, .leaf hk hg hv, p, fuel, obj, hp, _ => by
    -- a string value
    obtain ⟨p₁, hkey, hp₁⟩ := parseString_str hp hk
    obtain ⟨m, hm⟩ := hv.head
    have hr := rest_skipWs (hp₁ ▸ hg) hv.solid
    obtain ⟨p₂, hval, hp₂⟩ := parseString_str (gap_of_rest hr) hv
    refine ⟨p₂, ?_, hp₂⟩
    rw [parseEntry_string hkey (hr.trans hm) (by decide), hval]
    rfl
  | _, _, _, @Entry.node _ _ _ _ _ _ es hk hg hes hg', p, fuel, obj, hp, hf => by
    -- an object: the recursive call runs over its entries and stops at its brace
    obtain ⟨hlen, p₂, hp₂, heq⟩ := parseEntry_node hp hk hg (objectLoop fuel · .empty) obj
    obtain ⟨p₃, fuel', hp₃, hf', hloop⟩ :=
      objectLoop_entries hes fuel .empty hp₂ (by omega)
    cases fuel' with
    | zero => exact absurd hf' (Nat.not_lt_zero _)
    | succ fuel' =>
      obtain ⟨p₄, hclose, hp₄⟩ := objectLoop_close (hp₃ ▸ hg') fuel' (Object.empty.assign es)
      refine ⟨p₄, ?_, hp₄⟩
      rw [heq, hloop, hclose, VDFNode.ofValue_object]
      rfl

/-- The object loop steps over derived entries, storing what they denote. -/
theorem objectLoop_entries : ∀ {s r : Bytes} {es : Entries}, EntryList s es r →
    ∀ {p : TextParser} (fuel : Nat) (obj : Object), p.rest = s → s.length < fuel →
      ∃ (p' : TextParser) (fuel' : Nat), p'.rest = r ∧ r.length < fuel' ∧
        objectLoop fuel p obj = objectLoop fuel' p' (obj.assign es)
  | _, _, _, .nil _, p, fuel, obj, hp, hf => ⟨p, fuel, hp, hf, rfl⟩
  | _, _, _, .cons (e := e) hg he hes, p, fuel + 1, obj, hp, hf => by
    obtain ⟨m, hm⟩ := he.head
    have hr := rest_skipWs (hp ▸ hg) he.solid
    have h₁ := hg.length_le
    have h₂ := he.length_lt
    obtain ⟨p₁, hentry, hp₁⟩ :=
      parseEntry_entry he fuel obj (gap_of_rest hr) (by omega)
    obtain ⟨p', fuel', hp', hf', hloop⟩ :=
      objectLoop_entries hes fuel (obj.set e.1 (.ofValue e.2)) hp₁ (by omega)
    refine ⟨p', fuel', hp', hf', ?_⟩
    rw [objectLoop_cons (hr.trans hm) (by decide), hentry]
    exact hloop

end

end TextParser

end SteamMin.Vdf
