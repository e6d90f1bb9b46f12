/-
  THE BINARY PARSER MEETS ITS FORMAT.

  Everything is said of a cursor that stands before the bytes `rest` (`At data pos rest`), in a
  buffer of exactly `data.length` bytes:

  1. one lemma for each reader and each way its bytes can begin;
  2. `Within`: whatever the bytes, a call returns or throws `std::runtime_error`, and leaves the
     cursor between where it was and the end of the buffer;
  3. `objectLoop_entries`: the loop takes exactly the bytes of the entries it meets, so that a
     nested call hands the cursor back right behind its own end marker;
  4. `objectLoop_boundary`, `atBoundary_of_objectLoop`: on a document that was cut, the loop
     returns when the cut falls between two entries, and only then.
-/
import SteamMin.Vdf.BinaryParser
import SteamMin.Vdf.BinaryFormat

namespace SteamMin.Vdf
namespace BinaryParser

variable {α β : Type} {data : Bytes} {pos : Nat}

/-! ## The cursor

  A cursor is a number, and what the proofs need is what stands behind it.  `At data pos rest` has
  both, and the lemmas move them together. -/

/-- The cursor stands before `rest`, which ends the buffer. -/
structure At (data : Bytes) (pos : Nat) (rest : Bytes) : Prop where
  le : pos ≤ data.length
  drop_eq : data.drop pos = rest

/-- A cursor inside the buffer stands in front of what is left. -/
theorem At.here (h : pos ≤ data.length) : At data pos (data.drop pos) := ⟨h, rfl⟩

/-- What is in front of the cursor and what is behind it make up the buffer. -/
theorem At.length_eq {rest : Bytes} (h : At data pos rest) :
    pos + rest.length = data.length := by
  have hle := h.le
  rw [← h.drop_eq, List.length_drop]
  omega

/-- A cursor that passes `s` stands in front of the rest. -/
theorem At.advance {s rest : Bytes} (h : At data pos (s ++ rest)) :
    At data (pos + s.length) rest := by
  constructor
  · have hlen := h.length_eq
    rw [List.length_append] at hlen
    omega
  · rw [← List.drop_drop, h.drop_eq, List.drop_left]

/-- The same for one byte. -/
theorem At.next {c : Byte} {rest : Bytes} (h : At data pos (c :: rest)) :
    At data (pos + 1) rest :=
  At.advance (s := [c]) h

/-- Behind a type byte, a key and its NUL. -/
theorem At.behindKey {type : Byte} {k rest : Bytes} (h : At data pos (type :: k ++ 0 :: rest)) :
    At data (pos + k.length + 2) rest := by
  have hnext := (At.next h).advance.next
  rw [show pos + 1 + k.length + 1 = pos + k.length + 2 by omega] at hnext
  exact hnext

/-- In front of a byte the cursor is inside. -/
theorem At.lt {c : Byte} {rest : Bytes} (h : At data pos (c :: rest)) : pos < data.length := by
  have hlen := h.length_eq
  rw [List.length_cons] at hlen
  omega

/-- The byte under the cursor. -/
theorem At.getElem? {c : Byte} {rest : Bytes} (h : At data pos (c :: rest)) :
    data[pos]? = some c := by
  rw [← List.head?_drop, h.drop_eq]
  rfl

/-- Looking at the byte under the cursor does not move it. -/
theorem peek_eq {c : Byte} {rest : Bytes} (h : At data pos (c :: rest)) :
    peek data pos = .ok c pos := by
  rw [peek, Calls.get_bind, h.getElem?]
  rfl

/-! ## The readers

  Each reader is evaluated once for bytes that are there and once for bytes that are not. -/

/-- One turn of the loop, in front of a byte that is not NUL. -/
theorem cstringLoop_cons {c : Byte} {rest : Bytes} (h : At data pos (c :: rest)) (hc : c ≠ 0)
    (fuel : Nat) (s : Bytes) :
    cstringLoop data data.length (fuel + 1) s pos
      = cstringLoop data data.length fuel (s ++ [c]) (pos + 1) := by
  show (if pos < data.length then _ else _ : Reader Bytes) pos = _
  rw [if_pos h.lt, Calls.bind_ok (peek_eq h), if_pos (bne_iff_ne.mpr hc)]
  rfl

/-- The loop stops in front of the terminator; the caller passes it. -/
theorem cstringLoop_nul {rest : Bytes} (h : At data pos (0 :: rest)) (fuel : Nat) (s : Bytes) :
    cstringLoop data data.length (fuel + 1) s pos = .ok s pos := by
  show (if pos < data.length then _ else _ : Reader Bytes) pos = _
  rw [if_pos h.lt, Calls.bind_ok (peek_eq h)]
  rfl

/-- The loop stops at the end of the buffer as well: an open string is not refused here. -/
theorem cstringLoop_end (fuel : Nat) (s : Bytes) :
    cstringLoop data data.length fuel s data.length = .ok s data.length := by
  cases fuel with
  | zero => rfl
  | succ fuel =>
    show (if data.length < data.length then _ else _ : Reader Bytes) data.length = _
    rw [if_neg (Nat.lt_irrefl _)]
    rfl

/-- The loop collects a string up to its terminator, by induction on the string. -/
theorem cstringLoop_string (s rest : Bytes) (hs : 0 ∉ s) : ∀ {pos fuel : Nat} (acc : Bytes),
    At data pos (s ++ 0 :: rest) → s.length < fuel →
      cstringLoop data data.length fuel acc pos = .ok (acc ++ s) (pos + s.length) := by
  induction s with
  | nil =>
    intro pos fuel acc h hfuel
    obtain ⟨fuel, rfl⟩ := Nat.exists_eq_add_one_of_ne_zero (Nat.ne_zero_of_lt hfuel)
    rw [cstringLoop_nul h, List.append_nil]
    rfl
  | cons c s ih =>
    intro pos fuel acc h hfuel
    obtain ⟨fuel, rfl⟩ := Nat.exists_eq_add_one_of_ne_zero (Nat.ne_zero_of_lt hfuel)
    rw [List.mem_cons, not_or] at hs
    rw [List.length_cons] at hfuel ⊢
    rw [cstringLoop_cons h (Ne.symm hs.1), ih hs.2 _ h.next (by omega), List.append_assoc,
      show pos + 1 + s.length = pos + (s.length + 1) by omega]
    rfl

/-- Without a terminator the loop collects what is left. -/
theorem cstringLoop_open (s : Bytes) (hs : 0 ∉ s) : ∀ {pos : Nat} (fuel : Nat) (acc : Bytes),
    At data pos s → s.length ≤ fuel →
      cstringLoop data data.length fuel acc pos = .ok (acc ++ s) data.length := by
  induction s with
  | nil =>
    intro pos fuel acc h hfuel
    obtain rfl : pos = data.length := h.length_eq
    rw [cstringLoop_end, List.append_nil]
  | cons c s ih =>
    intro pos fuel acc h hfuel
    rw [List.mem_cons, not_or] at hs
    rw [List.length_cons] at hfuel
    obtain ⟨fuel, rfl⟩ := Nat.exists_eq_add_one_of_ne_zero (show fuel ≠ 0 by omega)
    rw [cstringLoop_cons h (Ne.symm hs.1), ih hs.2 _ _ h.next (by omega), List.append_assoc]
    rfl

/-- The string, and the cursor right behind its NUL. -/
theorem readCstring_string {s rest : Bytes} (hs : 0 ∉ s) (h : At data pos (s ++ 0 :: rest)) :
    readCstring data data.length pos = .ok s (pos + s.length + 1) := by
  have hlen := h.length_eq
  rw [List.length_append, List.length_cons] at hlen
  have hloop := cstringLoop_string s rest hs [] h (show s.length < data.length - pos by omega)
  show (cstringLoop data data.length (data.length - pos) [] >>= _ : Reader Bytes) pos = _
  rw [Calls.bind_ok hloop]
  show (if data.length ≤ pos + s.length then _ else _ : Reader Bytes) _ = _
  rw [if_neg (by omega)]
  rfl

/-- No NUL before the end of the buffer. -/
theorem readCstring_open {s : Bytes} (hs : 0 ∉ s) (h : At data pos s) :
    readCstring data data.length pos
      = .error (.throws (.runtimeError "Unexpected end of buffer while reading cstring"))
          data.length := by
  have hlen := h.length_eq
  have hloop := cstringLoop_open s hs (data.length - pos) [] h (by omega)
  show (cstringLoop data data.length (data.length - pos) [] >>= _ : Reader Bytes) pos = _
  rw [Calls.bind_ok hloop]
  show (if data.length ≤ data.length then _ else _ : Reader Bytes) _ = _
  rw [if_pos (Nat.le_refl _)]
  rfl

/-- A field of fixed width is copied out when it fits. -/
theorem readField_bytes {v rest : Bytes} (h : At data pos (v ++ rest)) (what : String) :
    readField data data.length v.length what pos = .ok v (pos + v.length) := by
  have hlen := h.length_eq
  rw [List.length_append] at hlen
  have hcopy : memcpy data v.length pos = .ok v pos := by
    show (if pos + v.length ≤ data.length then _ else _ : Reader Bytes) pos = _
    rw [if_pos (by omega), h.drop_eq, List.take_left]
    rfl
  show (if data.length < pos + v.length then _ else _ : Reader Bytes) pos = _
  rw [if_neg (by omega), Calls.bind_ok hcopy]
  rfl

/-- A field that does not fit throws, with the cursor where it was. -/
theorem readField_short {rest : Bytes} (h : At data pos rest) {n : Nat} (hn : rest.length < n)
    (what : String) :
    readField data data.length n what pos = .error (.throws (.runtimeError what)) pos := by
  have hlen := h.length_eq
  show (if data.length < pos + n then _ else _ : Reader Bytes) pos = _
  rw [if_pos (by omega)]
  rfl

/-! ## One turn of the object loop

  What the loop does next is decided by the byte under the cursor, or by there being none. -/

/-- The end of the buffer closes an object, as its end marker does. -/
theorem objectLoop_end (fuel : Nat) (obj : Object) :
    objectLoop data data.length (fuel + 1) obj data.length = .ok obj data.length := by
  show (if data.length < data.length then _ else _ : Reader Object) _ = _
  rw [if_neg (Nat.lt_irrefl _)]
  rfl

/-- The end marker closes an object and is passed. -/
theorem objectLoop_close {rest : Bytes} (h : At data pos (binEnd :: rest)) (fuel : Nat)
    (obj : Object) :
    objectLoop data data.length (fuel + 1) obj pos = .ok obj (pos + 1) := by
  show (if pos < data.length then _ else _ : Reader Object) pos = _
  rw [if_pos h.lt, Calls.bind_ok (peek_eq h)]
  rfl

/-- In front of a type byte the loop reads a key, a value by that type, and goes on. -/
theorem objectLoop_cons {type : Byte} {rest : Bytes} (h : At data pos (type :: rest))
    (htype : type ≠ binEnd) (fuel : Nat) (obj : Object) :
    objectLoop data data.length (fuel + 1) obj pos = (do
      let key ← readCstring data data.length
      let val ← readValue data data.length (objectLoop data data.length fuel .empty) type
      objectLoop data data.length fuel (obj.set key val) : Reader Object) (pos + 1) := by
  show (if pos < data.length then _ else _ : Reader Object) pos = _
  rw [if_pos h.lt, Calls.bind_ok (peek_eq h)]
  show (if type = 0x08 then _ else _ : Reader Object) (pos + 1) = _
  rw [if_neg (show ¬ type = 0x08 from htype)]

/-- The same, with the key read. -/
theorem objectLoop_entry {type : Byte} {k rest : Bytes}
    (h : At data pos (type :: k ++ 0 :: rest)) (htype : type ≠ binEnd) (hk : 0 ∉ k) (fuel : Nat)
    (obj : Object) :
    objectLoop data data.length (fuel + 1) obj pos = (do
      let val ← readValue data data.length (objectLoop data data.length fuel .empty) type
      objectLoop data data.length fuel (obj.set k val) : Reader Object) (pos + k.length + 2) := by
  rw [objectLoop_cons h htype, Calls.bind_ok (readCstring_string hk h.next),
    show pos + 1 + k.length + 1 = pos + k.length + 2 by omega]

/-! ## Any buffer: nothing but a result or a `std::runtime_error`

  Nothing is known of the bytes here.  `Within` follows the cursor only: it goes forward, stays in
  the buffer, and an exception is the parser's own. -/

/-- From `pos` the call returns or throws `std::runtime_error`, and the cursor ends up between
    `pos` and `size`.  As no call moves the cursor back, it never was beyond `size`. -/
def Within (size : Nat) (x : Reader α) (pos : Nat) : Prop :=
  ∃ pos', pos ≤ pos' ∧ pos' ≤ size ∧
    ((∃ a, x pos = .ok a pos') ∨ ∃ what, x pos = .error (.throws (.runtimeError what)) pos')

/-- A reader that returned with the cursor ahead and inside is safe. -/
theorem Within.of_ok {size pos' : Nat} {x : Reader α} {a : α} (h : x pos = .ok a pos')
    (hle : pos ≤ pos') (hsize : pos' ≤ size) : Within size x pos :=
  ⟨pos', hle, hsize, .inl ⟨a, h⟩⟩

/-- A reader that threw with the cursor inside is safe. -/
theorem Within.of_throw {size pos' : Nat} {x : Reader α} {what : String}
    (h : x pos = .error (.throws (.runtimeError what)) pos') (hle : pos ≤ pos')
    (hsize : pos' ≤ size) : Within size x pos :=
  ⟨pos', hle, hsize, .inr ⟨what, h⟩⟩

/-- Safety composes: the second reader starts where the first one left the cursor. -/
theorem Within.bind {size : Nat} {x : Reader α} {f : α → Reader β} (hx : Within size x pos)
    (hf : ∀ a pos', x pos = .ok a pos' → pos ≤ pos' → pos' ≤ size → Within size (f a) pos') :
    Within size (x >>= f) pos := by
  obtain ⟨pos', hle, hsize, ⟨a, hok⟩ | ⟨what, herr⟩⟩ := hx
  · obtain ⟨pos'', hle', hsize', hrun⟩ := hf a pos' hok hle hsize
    refine ⟨pos'', by omega, hsize', ?_⟩
    rw [Calls.bind_ok hok]
    exact hrun
  · exact .of_throw (Calls.bind_error herr) hle hsize

/-- Returning is safe wherever the cursor is inside. -/
theorem Within.pure {size : Nat} (a : α) (hsize : pos ≤ size) :
    Within size (Pure.pure a : Reader α) pos :=
  .of_ok (show EStateM.pure a pos = .ok a pos from rfl) (Nat.le_refl _) hsize

/-- Throwing is safe wherever the cursor is inside. -/
theorem Within.raise {size : Nat} (what : String) (hsize : pos ≤ size) :
    Within size (raise what : Reader α) pos := by
  have hrun : (BinaryParser.raise what : Reader α) pos
      = .error (.throws (.runtimeError what)) pos := rfl
  exact .of_throw hrun (Nat.le_refl _) hsize

/-- Reading a string never leaves the buffer, terminated or not. -/
theorem readCstring_within (h : pos ≤ data.length) :
    Within data.length (readCstring data data.length) pos := by
  have hat := At.here h
  by_cases hnul : 0 ∈ data.drop pos
  · obtain ⟨s, rest, hsplit, hs⟩ := List.eq_append_cons_of_mem hnul
    rw [hsplit] at hat
    have hlen := hat.length_eq
    rw [List.length_append, List.length_cons] at hlen
    exact .of_ok (readCstring_string hs hat) (by omega) (by omega)
  · exact .of_throw (readCstring_open hnul hat) h (Nat.le_refl _)

/-- Reading a field never leaves the buffer: the bound is checked before the copy. -/
theorem readField_within (h : pos ≤ data.length) (n : Nat) (what : String) :
    Within data.length (readField data data.length n what) pos := by
  have hat := At.here h
  by_cases hn : n ≤ (data.drop pos).length
  · have hlen : ((data.drop pos).take n).length = n := List.length_take_of_le hn
    rw [← List.take_append_drop n (data.drop pos)] at hat
    have hread := readField_bytes hat what
    have hbound := hat.length_eq
    rw [List.length_append] at hbound
    rw [hlen] at hread
    exact .of_ok hread (by omega) (by omega)
  · exact .of_throw (readField_short hat (by omega) what) (Nat.le_refl _) h

/-- Reading a value of any type is safe when reading an object is. -/
theorem readValue_within (h : pos ≤ data.length) {parseObject : Reader Object}
    (hparse : Within data.length parseObject pos) (type : Byte) :
    Within data.length (readValue data data.length parseObject type) pos := by
  unfold readValue
  split
  · exact hparse.bind fun _ _ _ _ hle => .pure _ hle
  · exact (readCstring_within h).bind fun _ _ _ _ hle => .pure _ hle
  · exact ((readField_within h _ _).bind fun _ _ _ _ hle => .pure _ hle).bind
      fun _ _ _ _ hle => .pure _ hle
  · exact ((readField_within h _ _).bind fun _ _ _ _ hle => .pure _ hle).bind
      fun _ _ _ _ hle => .pure _ hle
  · exact ((readField_within h _ _).bind fun _ _ _ _ hle => .pure _ hle).bind
      fun _ _ _ _ hle => .pure _ hle
  · exact .raise _ h

/-- The loop over an object is safe on every buffer.  The fuel bounds what is left, since every
    round passes at least the type byte. -/
theorem objectLoop_within (fuel : Nat) : ∀ {pos : Nat} (obj : Object), pos ≤ data.length →
    data.length - pos < fuel → Within data.length (objectLoop data data.length fuel obj) pos := by
  induction fuel with
  | zero => intro pos obj _ hfuel; omega
  | succ fuel ih =>
    intro pos obj hpos hfuel
    -- at the end the object is closed by the end of the buffer, in front of its marker by that
    cases hrest : data.drop pos with
    | nil =>
      obtain rfl : pos = data.length := by
        have hlen := (At.here hpos).length_eq
        rw [hrest] at hlen
        exact hlen
      exact .of_ok (objectLoop_end fuel obj) (Nat.le_refl _) (Nat.le_refl _)
    | cons type rest =>
      have hat : At data pos (type :: rest) := ⟨hpos, hrest⟩
      have hlt := hat.lt
      by_cases htype : type = binEnd
      · subst htype
        exact .of_ok (objectLoop_close hat fuel obj) (by omega) (by omega)
      · -- one byte is gone, which pays for the nested call and for the next turn
        have hturn : Within data.length (do
            let key ← readCstring data data.length
            let val ← readValue data data.length (objectLoop data data.length fuel .empty) type
            objectLoop data data.length fuel (obj.set key val)) (pos + 1) := by
          refine (readCstring_within (by omega)).bind fun key p _ hp hple => ?_
          refine (readValue_within hple (ih .empty hple (by omega)) type).bind
            fun val q _ hq hqle => ?_
          exact ih _ hqle (by omega)
        obtain ⟨pos', hle, hsize, hrun⟩ := hturn
        refine ⟨pos', by omega, hsize, ?_⟩
        rw [objectLoop_cons hat htype]
        exact hrun

/-! ## A whole document

  By recursion on the document, values and entries in turn.  What stands behind the document is
  arbitrary, which is what the recursion needs for the entries behind a nested one. -/

/-- The four bytes of a number are read back. -/
theorem readInt32_bytes {rest : Bytes} (i : Int32)
    (h : At data pos (LittleEndian.bytes 4 i.toUInt32.toNat ++ rest)) :
    readInt32 data data.length pos = .ok i (pos + 4) := by
  have hread := readField_bytes h "Binary VDF overflow (int32)"
  rw [LittleEndian.length_bytes] at hread
  show (readField data data.length 4 _ >>= _ : Reader Int32) pos = _
  rw [Calls.bind_ok hread, LittleEndian.word32_bytes]
  rfl

/-- The eight bytes of a number are read back. -/
theorem readUint64_bytes {rest : Bytes} (u : UInt64)
    (h : At data pos (LittleEndian.bytes 8 u.toNat ++ rest)) :
    readUint64 data data.length pos = .ok u (pos + 8) := by
  have hread := readField_bytes h "Binary VDF overflow (uint64)"
  rw [LittleEndian.length_bytes] at hread
  show (readField data data.length 8 _ >>= _ : Reader UInt64) pos = _
  rw [Calls.bind_ok hread, LittleEndian.word64_bytes]
  rfl

/-- The four bytes of a float are read back bit for bit. -/
theorem readFloat_bytes {rest : Bytes} (b : UInt32)
    (h : At data pos (LittleEndian.bytes 4 b.toNat ++ rest)) :
    readFloat data data.length pos = .ok b (pos + 4) := by
  have hread := readField_bytes h "Binary VDF overflow (float)"
  rw [LittleEndian.length_bytes] at hread
  show (readField data data.length 4 _ >>= _ : Reader UInt32) pos = _
  rw [Calls.bind_ok hread, LittleEndian.word32_bytes]
  rfl

mutual

/-- The payload of a value is read to its last byte. -/
theorem readValue_payload : ∀ (v : Value), v.NulFree → ∀ {pos fuel : Nat} {rest : Bytes},
    At data pos (v.payload ++ rest) → v.payload.length ≤ fuel →
      readValue data data.length (objectLoop data data.length fuel .empty) v.typeByte pos
        = .ok (.ofValue v) (pos + v.payload.length)
  | .string s, hv, pos, fuel, rest, h, _ => by
    have hat : At data pos (s ++ 0x00 :: rest) := by
      rw [Value.payload, List.append_assoc] at h
      exact h
    have hread := readCstring_string hv hat
    show (readCstring data data.length >>= _ : Reader VDFNode) pos = _
    rw [Calls.bind_ok hread, Value.payload, List.length_append]
    rfl
  | .int32 i, _, pos, fuel, rest, h, _ => by
    show (readInt32 data data.length >>= _ : Reader VDFNode) pos = _
    rw [Calls.bind_ok (readInt32_bytes i h), Value.payload, LittleEndian.length_bytes]
    rfl
  | .uint64 u, _, pos, fuel, rest, h, _ => by
    show (readUint64 data data.length >>= _ : Reader VDFNode) pos = _
    rw [Calls.bind_ok (readUint64_bytes u h), Value.payload, LittleEndian.length_bytes]
    rfl
  | .float b, _, pos, fuel, rest, h, _ => by
    show (readFloat data data.length >>= _ : Reader VDFNode) pos = _
    rw [Calls.bind_ok (readFloat_bytes b h), Value.payload, LittleEndian.length_bytes]
    rfl
  | .object es, hv, pos, fuel, rest, h, hfuel => by
    rw [Value.payload, List.append_assoc] at h
    rw [Value.payload, List.length_append, List.length_singleton] at hfuel
    -- the object is read by the induction over its entries, beginning with an empty one
    have hloop := objectLoop_entries es hv Object.empty h hfuel
    show (objectLoop data data.length fuel .empty >>= _ : Reader VDFNode) pos = _
    rw [Calls.bind_ok hloop, VDFNode.ofValue_object, Value.payload, List.length_append]
    rfl

/-- The loop carries out the assignments of the entries, and stops right behind the end marker. -/
theorem objectLoop_entries : ∀ (es : Entries), NulFreeEntries es → ∀ {pos fuel : Nat}
    {rest : Bytes} (obj : Object), At data pos (encodeEntries es ++ binEnd :: rest) →
      (encodeEntries es).length < fuel →
      objectLoop data data.length fuel obj pos
        = .ok (obj.assign es) (pos + (encodeEntries es).length + 1)
  | [], _, pos, fuel, rest, obj, h, hfuel => by
    obtain ⟨fuel, rfl⟩ := Nat.exists_eq_add_one_of_ne_zero (Nat.ne_zero_of_lt hfuel)
    exact objectLoop_close h fuel obj
  | (k, v) :: es, hes, pos, fuel, rest, obj, h, hfuel => by
    obtain ⟨hk, hv, hes⟩ := hes
    obtain ⟨fuel, rfl⟩ := Nat.exists_eq_add_one_of_ne_zero (Nat.ne_zero_of_lt hfuel)
    have hsize : (encodeEntries ((k, v) :: es)).length
        = k.length + 2 + v.payload.length + (encodeEntries es).length := by
      simp only [encodeEntries, List.length_append, List.length_cons]
      omega
    rw [hsize] at hfuel ⊢
    -- the type byte, the key and its NUL
    have hat : At data pos (v.typeByte :: k ++ 0 ::
        (v.payload ++ (encodeEntries es ++ binEnd :: rest))) := by
      simpa [encodeEntries, List.append_assoc] using h
    have hbody := hat.behindKey
    rw [objectLoop_entry hat (typeByte_ne_binEnd v) hk,
      Calls.bind_ok (readValue_payload v hv hbody (by omega)),
      objectLoop_entries es hes _ hbody.advance (by omega)]
    congr 1
    omega

end

/-! ## A document that was cut

  The payload of every value but an object has to be there to its last byte.  So a cut is
  noticed in a key, in a number or in a string, and not where the loop would look for the
  next type byte. -/

/-- A cut between two entries goes unnoticed: at the end of the buffer every open loop returns. -/
theorem objectLoop_boundary {es : Entries} {p : Bytes} (hcut : AtBoundary es p) :
    NulFreeEntries es → ∀ {pos fuel : Nat} (obj : Object), At data pos p → p.length < fuel →
      ∃ o, objectLoop data data.length fuel obj pos = .ok o data.length := by
  induction hcut with
  | stop es =>
    intro _ pos fuel obj h hfuel
    obtain ⟨fuel, rfl⟩ := Nat.exists_eq_add_one_of_ne_zero (Nat.ne_zero_of_lt hfuel)
    obtain rfl : pos = data.length := h.length_eq
    exact ⟨obj, objectLoop_end fuel obj⟩
  | @past k v es p _ ih =>
    intro hes pos fuel obj h hfuel
    obtain ⟨hk, hv, hes⟩ := hes
    obtain ⟨fuel, rfl⟩ := Nat.exists_eq_add_one_of_ne_zero (Nat.ne_zero_of_lt hfuel)
    simp only [encodeEntry, List.length_append, List.length_cons] at hfuel
    have hat : At data pos (v.typeByte :: k ++ 0 :: (v.payload ++ p)) := by
      simpa [encodeEntry, List.append_assoc] using h
    have hbody := hat.behindKey
    obtain ⟨o, ho⟩ := ih hes (obj.set k (.ofValue v)) hbody.advance (show p.length < fuel by omega)
    refine ⟨o, ?_⟩
    rw [objectLoop_entry hat (typeByte_ne_binEnd v) hk,
      Calls.bind_ok (readValue_payload v hv hbody (by omega)), ho]
  | @inside k es fs p _ ih =>
    intro hes pos fuel obj h hfuel
    obtain ⟨hk, hv, -⟩ := hes
    obtain ⟨fuel, rfl⟩ := Nat.exists_eq_add_one_of_ne_zero (Nat.ne_zero_of_lt hfuel)
    simp only [List.length_append, List.length_cons] at hfuel
    obtain ⟨o, ho⟩ := ih hv Object.empty h.behindKey (show p.length < fuel by omega)
    -- the nested loop has run to the end of the buffer, where the outer one returns as well
    have hval : readValue data data.length (objectLoop data data.length fuel .empty) 0x00
        (pos + k.length + 2) = .ok (.object o) data.length := by
      show (objectLoop data data.length fuel .empty >>= _ : Reader VDFNode) _ = _
      rw [Calls.bind_ok ho]
      rfl
    obtain ⟨fuel, rfl⟩ := Nat.exists_eq_add_one_of_ne_zero (show fuel ≠ 0 by omega)
    refine ⟨obj.set k (.object o), ?_⟩
    rw [objectLoop_entry h (by decide) hk, Calls.bind_ok hval, objectLoop_end]

/-- A reader of a number fails on fewer bytes than the number has. -/
theorem not_readField_ok {p : Bytes} (h : At data pos p) {n : Nat} (hn : p.length < n)
    {what : String} {f : Bytes → Reader β} {b : β} {pos' : Nat} :
    (readField data data.length n what >>= f) pos ≠ .ok b pos' := by
  rw [Calls.bind_error (readField_short h hn what)]
  exact nofun

/-- Behind a string without a terminator nothing returns: passing the terminator throws. -/
theorem not_readCstring_ok {p : Bytes} (h : At data pos p) (hp : 0 ∉ p) {f : Bytes → Reader β}
    {b : β} {pos' : Nat} : (readCstring data data.length >>= f) pos ≠ .ok b pos' := by
  rw [Calls.bind_error (readCstring_open hp h)]
  exact nofun

/-- A proper prefix of a NUL-terminated string has no NUL. -/
theorem nul_not_mem_of_cut {s p : Bytes} (hs : (0 : Byte) ∉ s) (hp : p <+: s ++ [0])
    (hne : p ≠ s ++ [0]) : 0 ∉ p := by
  rcases List.prefix_concat_iff.mp hp with h | h
  · exact absurd h hne
  · exact fun hmem => hs (h.subset hmem)

/-- A proper prefix is shorter. -/
theorem length_lt_of_cut {s p : Bytes} (hp : p <+: s) (hne : p ≠ s) : p.length < s.length :=
  lt_of_le_of_ne hp.length_le fun h => hne (hp.eq_of_length h)

mutual

/-- A value whose payload was cut is read only if it is an object, cut between two entries. -/
theorem atBoundary_of_readValue : ∀ (v : Value), v.NulFree → ∀ {pos pos' fuel : Nat} {p : Bytes}
    {n : VDFNode}, p <+: v.payload → p ≠ v.payload → At data pos p → p.length < fuel →
      readValue data data.length (objectLoop data data.length fuel .empty) v.typeByte pos
        = .ok n pos' →
      ∃ es, v = .object es ∧ AtBoundary es p
  | .string s, hv, _, _, _, p, _, hp, hne, h, _, hrun =>
    absurd hrun (not_readCstring_ok h (nul_not_mem_of_cut hv hp hne))
  | .int32 i, _, pos, _, _, p, _, hp, hne, h, _, hrun => by
    have hshort := length_lt_of_cut hp hne
    rw [Value.payload, LittleEndian.length_bytes] at hshort
    -- a number that was cut is too short for its field
    obtain ⟨_, _, hread, -⟩ := Calls.bind_eq_ok hrun
    exact absurd hread (not_readField_ok h hshort)
  | .uint64 u, _, pos, _, _, p, _, hp, hne, h, _, hrun => by
    have hshort := length_lt_of_cut hp hne
    rw [Value.payload, LittleEndian.length_bytes] at hshort
    obtain ⟨_, _, hread, -⟩ := Calls.bind_eq_ok hrun
    exact absurd hread (not_readField_ok h hshort)
  | .float b, _, pos, _, _, p, _, hp, hne, h, _, hrun => by
    have hshort := length_lt_of_cut hp hne
    rw [Value.payload, LittleEndian.length_bytes] at hshort
    obtain ⟨_, _, hread, -⟩ := Calls.bind_eq_ok hrun
    exact absurd hread (not_readField_ok h hshort)
  | .object es, hv, _, _, _, p, _, hp, hne, h, hfuel, hrun => by
    -- only an object may end with the buffer
    obtain ⟨o, _, hloop, -⟩ := Calls.bind_eq_ok hrun
    exact ⟨es, rfl, atBoundary_of_objectLoop es hv hp hne h hfuel hloop⟩

/-- Entries that were cut are read without complaint only if the cut falls between two of them. -/
theorem atBoundary_of_objectLoop : ∀ (es : Entries), NulFreeEntries es →
    ∀ {pos pos' fuel : Nat} {p : Bytes} {obj o : Object}, p <+: encodeEntries es ++ [binEnd] →
      p ≠ encodeEntries es ++ [binEnd] → At data pos p → p.length < fuel →
      objectLoop data data.length fuel obj pos = .ok o pos' → AtBoundary es p
  | [], _, _, _, _, p, _, _, hp, hne, _, _, _ => by
    rcases List.prefix_concat_iff.mp hp with h | h
    · exact absurd h hne
    · obtain rfl : p = [] := List.prefix_nil.mp h
      exact .stop []
  | (k, v) :: es, hes, pos, pos', fuel, p, obj, o, hp, hne, h, hfuel, hrun => by
    obtain ⟨hk, hv, hes⟩ := hes
    obtain ⟨fuel, rfl⟩ := Nat.exists_eq_add_one_of_ne_zero (Nat.ne_zero_of_lt hfuel)
    rw [encodeEntries_cons, List.append_assoc] at hp hne
    by_cases hwhole : encodeEntry k v <+: p
    · -- the cut falls behind the first entry
      obtain ⟨p, rfl⟩ := hwhole
      have hat : At data pos (v.typeByte :: k ++ 0 :: (v.payload ++ p)) := by
        simpa [encodeEntry, List.append_assoc] using h
      have hbody := hat.behindKey
      simp only [encodeEntry, List.length_append, List.length_cons] at hfuel
      rw [objectLoop_entry hat (typeByte_ne_binEnd v) hk,
        Calls.bind_ok (readValue_payload v hv hbody (by omega))] at hrun
      exact .past (atBoundary_of_objectLoop es hes ((List.prefix_append_right_inj _).mp hp)
        (fun heq => hne (heq ▸ rfl)) hbody.advance (by omega) hrun)
    · -- the cut falls inside the first entry
      have hpre : p <+: v.typeByte :: (k ++ 0 :: v.payload) :=
        (List.prefix_or_prefix_of_prefix hp (List.prefix_append _ _)).resolve_right hwhole
      have hpne : p ≠ v.typeByte :: (k ++ 0 :: v.payload) := fun heq =>
        hwhole (heq ▸ List.prefix_refl _)
      cases p with
      | nil => exact .stop _
      | cons type p =>
        obtain ⟨rfl, htail⟩ := List.cons_prefix_cons.mp hpre
        have hkey : k ++ 0 :: v.payload = k ++ [0] ++ v.payload := by simp
        rw [hkey] at htail hpne
        rw [List.length_cons] at hfuel
        -- behind the key the cut is one of the value
        by_cases hclosed : k ++ [0] <+: p
        · obtain ⟨p, rfl⟩ := hclosed
          have hat : At data pos (v.typeByte :: k ++ 0 :: p) := by
            simpa [List.append_assoc] using h
          rw [objectLoop_entry hat (typeByte_ne_binEnd v) hk] at hrun
          obtain ⟨n, q, hval, -⟩ := Calls.bind_eq_ok hrun
          rw [List.length_append] at hfuel
          obtain ⟨es', rfl, hcut⟩ := atBoundary_of_readValue v hv
            ((List.prefix_append_right_inj _).mp htail) (fun heq => hpne (heq ▸ rfl))
            hat.behindKey (by omega) hval
          rw [List.append_assoc]
          exact .inside hcut
        · -- not even the key is whole
          have hopen := (List.prefix_or_prefix_of_prefix htail
            (List.prefix_append _ _)).resolve_right hclosed
          have hnul := nul_not_mem_of_cut hk hopen fun heq =>
            hclosed (heq ▸ List.prefix_refl _)
          rw [objectLoop_cons h (typeByte_ne_binEnd v)] at hrun
          exact absurd hrun (not_readCstring_ok h.next hnul)

end

/-! ## A size that is smaller than the buffer

  Callers give a pointer and a size.  A size below that of the buffer makes the parser see a
  shorter buffer, so the theorems for whole buffers apply. -/

section
variable {size : Nat}

/-- Bytes behind the announced size do not matter where the cursor is inside it. -/
theorem peek_take {pos : Nat} (h : pos < size) : peek (data.take size) pos = peek data pos := by
  rw [peek, peek, Calls.get_bind, Calls.get_bind, List.getElem?_take_of_lt h]

/-- A copy inside the announced size does not see what follows. -/
theorem memcpy_take {n pos : Nat} (hsize : size ≤ data.length) (h : pos + n ≤ size) :
    memcpy (data.take size) n pos = memcpy data n pos := by
  show (if pos + n ≤ (data.take size).length then pure (((data.take size).drop pos).take n)
    else throw .undefined : Reader Bytes) pos
    = (if pos + n ≤ data.length then pure ((data.drop pos).take n)
    else throw .undefined : Reader Bytes) pos
  rw [List.length_take_of_le hsize, if_pos h, if_pos (h.trans hsize), List.drop_take,
    List.take_take, Nat.min_eq_left (by omega)]

/-- The loop over a string stops at the announced size. -/
theorem cstringLoop_take (fuel : Nat) : ∀ s,
    cstringLoop (data.take size) size fuel s = cstringLoop data size fuel s := by
  induction fuel with
  | zero => exact fun s => rfl
  | succ fuel ih =>
    intro s
    funext pos
    show (if pos < size then _ else _ : Reader Bytes) pos
      = (if pos < size then _ else _ : Reader Bytes) pos
    by_cases hpos : pos < size
    · rw [if_pos hpos, if_pos hpos]
      simp only [ih]
      exact Calls.bind_congr_of_eq (peek_take hpos)
    · rw [if_neg hpos, if_neg hpos]

/-- A string is read as if the buffer ended at the announced size. -/
theorem readCstring_take : readCstring (data.take size) size = readCstring data size := by
  rw [readCstring, readCstring]
  simp only [cstringLoop_take]

/-- A field is read as if the buffer ended at the announced size. -/
theorem readField_take (hsize : size ≤ data.length) (n : Nat) (what : String) :
    readField (data.take size) size n what = readField data size n what := by
  funext pos
  show (if size < pos + n then _ else _ : Reader Bytes) pos
    = (if size < pos + n then _ else _ : Reader Bytes) pos
  by_cases hpos : size < pos + n
  · rw [if_pos hpos, if_pos hpos]
  · rw [if_neg hpos, if_neg hpos]
    exact Calls.bind_congr_of_eq (memcpy_take hsize (by omega))

/-- A value is read as if the buffer ended at the announced size. -/
theorem readValue_take (hsize : size ≤ data.length) (parseObject : Reader Object) (type : Byte) :
    readValue (data.take size) size parseObject type = readValue data size parseObject type := by
  simp only [readValue, readInt32, readUint64, readFloat, readCstring_take, readField_take hsize]

/-- So an announced size below the buffer's is the same parser on a shorter buffer. -/
theorem objectLoop_take (hsize : size ≤ data.length) (fuel : Nat) : ∀ obj,
    objectLoop (data.take size) size fuel obj = objectLoop data size fuel obj := by
  induction fuel with
  | zero => exact fun obj => rfl
  | succ fuel ih =>
    intro obj
    funext pos
    show (if pos < size then _ else _ : Reader Object) pos
      = (if pos < size then _ else _ : Reader Object) pos
    by_cases hpos : pos < size
    · rw [if_pos hpos, if_pos hpos]
      simp only [ih, readCstring_take, readValue_take hsize]
      exact Calls.bind_congr_of_eq (peek_take hpos)
    · rw [if_neg hpos, if_neg hpos]

end

/-- No call of the parser leaves the buffer, from wherever in it the call starts. -/
structure CursorSafe (data : Bytes) : Prop where
  cstring : ∀ pos ≤ data.length, Within data.length (readCstring data data.length) pos
  int32 : ∀ pos ≤ data.length, Within data.length (readInt32 data data.length) pos
  uint64 : ∀ pos ≤ data.length, Within data.length (readUint64 data data.length) pos
  float : ∀ pos ≤ data.length, Within data.length (readFloat data data.length) pos
  object : ∀ pos ≤ data.length, Within data.length (parseObject data data.length) pos

theorem cursorSafe (data : Bytes) : CursorSafe data where
  cstring _ h := readCstring_within h
  int32 _ h := (readField_within h _ _).bind fun _ _ _ _ hle => .pure _ hle
  uint64 _ h := (readField_within h _ _).bind fun _ _ _ _ hle => .pure _ hle
  float _ h := (readField_within h _ _).bind fun _ _ _ _ hle => .pure _ hle
  object _ h := objectLoop_within _ _ h (by omega)

end BinaryParser

open BinaryParser

/-! ## `parse_binary` -/

/-- The entry point returns what the top-level object is. -/
theorem parseBinary_of_ok {data : Bytes} {size pos : Nat} {obj : Object}
    (h : parseObject data size 0 = .ok obj pos) : parseBinary data size = .ok obj := by
  rw [parseBinary, h]

/-- The entry point fails as the top-level object does. -/
theorem parseBinary_of_throw {data : Bytes} {size pos : Nat} {e : Fault}
    (h : parseObject data size 0 = .error e pos) : parseBinary data size = .error e := by
  rw [parseBinary, h]

/-- On any bytes at all the parser returns or throws. -/
theorem parseBinary_returnsOrThrows (data : Bytes) :
    ReturnsOrThrows (parseBinary data data.length) := by
  obtain ⟨_, -, -, ⟨o, hok⟩ | ⟨what, herr⟩⟩ := (cursorSafe data).object 0 (Nat.zero_le _)
  · exact .inl ⟨o, parseBinary_of_ok hok⟩
  · exact .inr ⟨what, parseBinary_of_throw herr⟩

/-- The size bounds what is read: what lies behind it makes no difference. -/
theorem parseBinary_take {data : Bytes} {size : Nat} (hsize : size ≤ data.length) :
    parseBinary (data.take size) size = parseBinary data size := by
  rw [parseBinary, parseBinary, parseObject, parseObject, objectLoop_take hsize]

/-- **The binary parser meets its format**: a document is read back with every value, the last
    entry for a key winning at every level, whatever follows its end marker; and on any bytes at
    all the parser returns or throws, with the cursor never beyond the end. -/
theorem parseBinary_spec :
    (∀ (d : BinDoc) (z : Bytes), parseBinary (d.encode ++ z) (d.encode ++ z).length
      = .ok (Object.ofEntries d.entries)) ∧
    (∀ data : Bytes, CursorSafe data ∧ ReturnsOrThrows (parseBinary data data.length)) := by
  constructor
  · intro d z
    have hat : At (d.encode ++ z) 0 (encodeEntries d.entries ++ binEnd :: z) := by
      refine ⟨Nat.zero_le _, ?_⟩
      rw [List.drop_zero, BinDoc.encode, List.append_assoc]
      rfl
    have hfuel : (encodeEntries d.entries).length < (d.encode ++ z).length + 1 := by
      rw [BinDoc.encode, List.length_append, List.length_append]
      omega
    exact parseBinary_of_ok (objectLoop_entries d.entries d.nulFree Object.empty hat hfuel)
  · intro data
    exact ⟨cursorSafe data, parseBinary_returnsOrThrows data⟩

/-- **Truncation**: a document that was cut is refused exactly when the cut does not fall between
    two entries, of the root or of a nested object. -/
theorem parseBinary_prefix_throws_iff (d : BinDoc) (p : Bytes) (hp : p <+: d.encode)
    (hne : p ≠ d.encode) :
    (∃ what, parseBinary p p.length = runtimeError what) ↔ ¬ AtBoundary d.entries p := by
  have hat : At p 0 p := ⟨Nat.zero_le _, List.drop_zero⟩
  constructor
  · rintro ⟨what, hthrow⟩ hcut
    obtain ⟨o, ho⟩ := objectLoop_boundary hcut d.nulFree Object.empty hat (Nat.lt_succ_self _)
    rw [parseBinary_of_ok ho] at hthrow
    nomatch hthrow
  · intro hcut
    obtain ⟨_, -, -, ⟨o, hok⟩ | ⟨what, herr⟩⟩ := (cursorSafe p).object 0 (Nat.zero_le _)
    · exact absurd (atBoundary_of_objectLoop d.entries d.nulFree hp hne hat
        (Nat.lt_succ_self _) hok) hcut
    · exact ⟨what, parseBinary_of_throw herr⟩

/-- A document of two numbers, `a` and `b`. -/
def twoNumbers : BinDoc where
  entries := [(ascii "a", .int32 1), (ascii "b", .int32 2)]
  nulFree := ⟨by decide, trivial, by decide, trivial, trivial⟩

/-- Cut inside the first number. -/
theorem parseBinary_cutNumber :
    (∃ what, parseBinary [0x02, 0x61, 0x00, 0x01] 4 = runtimeError what)
      ↔ ¬ AtBoundary twoNumbers.entries [0x02, 0x61, 0x00, 0x01] :=
  parseBinary_prefix_throws_iff twoNumbers [0x02, 0x61, 0x00, 0x01] (by decide) (by decide)

/-- Cut behind the first number, the document is returned without the second. -/
theorem parseBinary_cutBetween : ¬ ∀ (d : BinDoc) (p : Bytes), p <+: d.encode → p ≠ d.encode →
    ∃ what, parseBinary p p.length = runtimeError what := by
  intro h
  obtain ⟨what, hthrow⟩ := h twoNumbers [0x02, 0x61, 0x00, 0x01, 0x00, 0x00, 0x00]
    (by decide) (by decide)
  nomatch hthrow

end SteamMin.Vdf
