/-
  WHAT THE BINARY PARSER ACCEPTS.

  `parse_binary` does not insist on end markers: where the buffer ends, every loop that is still
  open returns what it has.  So two kinds of buffers are accepted: a whole document with anything
  behind it, and a document whose last end markers are missing (`Unclosed`).  Nothing else is: a
  buffer the parser accepts was written by the format (`parseBinary_eq_ok_iff`), and the object
  returned is the one the document denotes.

  The argument goes along the loop.  A turn that succeeds has taken a type byte, a key and a payload
  of that type (`readValue_reads`); a nested call leaves the cursor behind its end marker or at the
  end of the buffer, and in the second case there is no further turn.
-/
import SteamMin.Vdf.BinaryCorrect

namespace SteamMin.Vdf

/-! ## Documents without their last end markers -/

/-- `p` holds the entries, up to the end markers of the objects that are open where it ends. -/
inductive Unclosed : Entries → Bytes → Prop
  /-- nothing is open but the object of these entries -/
  | stop : Unclosed [] []
  /-- the first entry is whole -/
  | past {k : Bytes} {v : Value} {es : Entries} {p : Bytes} : Unclosed es p →
      Unclosed ((k, v) :: es) (encodeEntry k v ++ p)
  /-- the last entry is an object that is open as well -/
  | inside {k : Bytes} {es : Entries} {p : Bytes} : Unclosed es p →
      Unclosed [(k, .object es)] (0x00 :: k ++ 0x00 :: p)

namespace BinaryParser

variable {data : Bytes} {pos pos' : Nat}

/-! ## What a reader that succeeds has read

  The converse of the lemmas of `BinaryCorrect`: from the result back to the bytes. -/

/-- A string that was read stands in the buffer, with its terminator. -/
theorem readCstring_eq_ok {s : Bytes} (hpos : pos ≤ data.length)
    (h : readCstring data data.length pos = .ok s pos') :
    pos' ≤ data.length ∧ 0 ∉ s ∧ data.drop pos = s ++ 0 :: data.drop pos' := by
  have hat := At.here hpos
  by_cases hnul : 0 ∈ data.drop pos
  · obtain ⟨s', rest, hsplit, hs'⟩ := List.eq_append_cons_of_mem hnul
    rw [hsplit] at hat
    rw [readCstring_string hs' hat] at h
    injection h with hs hpos'
    subst hs hpos'
    have hbehind := hat.advance.next
    exact ⟨hbehind.le, hs', hbehind.drop_eq.symm ▸ hsplit⟩
  · rw [readCstring_open hnul hat] at h
    cases h

/-- So does a field. -/
theorem readField_eq_ok {n : Nat} {what : String} {v : Bytes} (hpos : pos ≤ data.length)
    (h : readField data data.length n what pos = .ok v pos') :
    pos' ≤ data.length ∧ v.length = n ∧ data.drop pos = v ++ data.drop pos' := by
  have hat := At.here hpos
  by_cases hn : n ≤ (data.drop pos).length
  · have hlen : ((data.drop pos).take n).length = n := List.length_take_of_le hn
    have hcut := List.take_append_drop n (data.drop pos)
    rw [← hcut] at hat
    have hread := readField_bytes hat what
    rw [hlen, h] at hread
    injection hread with hv hpos'
    subst hv hpos'
    have hbehind := hat.advance
    rw [hlen] at hbehind
    exact ⟨hbehind.le, hlen, hbehind.drop_eq.symm ▸ hcut.symm⟩
  · rw [readField_short hat (Nat.lt_of_not_le hn) what] at h
    cases h

/-- The entries read from `pos` to `pos'`: up to their end marker or to the end of the buffer. -/
structure ReadsEntries (data : Bytes) (pos : Nat) (es : Entries) (pos' : Nat) : Prop where
  le : pos' ≤ data.length
  nulFree : NulFreeEntries es
  bytes : data.drop pos = encodeEntries es ++ binEnd :: data.drop pos' ∨
    pos' = data.length ∧ Unclosed es (data.drop pos)

/-- The value read from `pos` to `pos'`. -/
structure ReadsValue (data : Bytes) (pos : Nat) (v : Value) (pos' : Nat) : Prop where
  le : pos' ≤ data.length
  nulFree : v.NulFree
  bytes : data.drop pos = v.payload ++ data.drop pos' ∨
    pos' = data.length ∧ ∃ es, v = .object es ∧ Unclosed es (data.drop pos)

/-- A number is made of the bytes it was read from. -/
theorem readNumber_eq_ok {α : Type} {n : Nat} {what : String} {f : Bytes → α} {a : α}
    (hpos : pos ≤ data.length)
    (h : (do let v ← readField data data.length n what; pure (f v) : Reader α) pos = .ok a pos') :
    ∃ v, v.length = n ∧ a = f v ∧ pos' ≤ data.length ∧ data.drop pos = v ++ data.drop pos' := by
  obtain ⟨v, p, hfield, hpure⟩ := Calls.bind_eq_ok h
  injection hpure with ha hp
  subst ha hp
  obtain ⟨hle, hlen, hbytes⟩ := readField_eq_ok hpos hfield
  exact ⟨v, hlen, rfl, hle, hbytes⟩

/-- A value of a type byte, if the recursive call reads entries. -/
theorem readValue_reads {parseObject : Reader Object} {type : Byte} {n : VDFNode}
    (hobject : ∀ o pos', parseObject pos = .ok o pos' →
      ∃ es, o = Object.ofEntries es ∧ ReadsEntries data pos es pos')
    (hpos : pos ≤ data.length)
    (h : readValue data data.length parseObject type pos = .ok n pos') :
    ∃ v : Value, v.typeByte = type ∧ n = .ofValue v ∧ ReadsValue data pos v pos' := by
  generalize hread : readValue data data.length parseObject type = read at h
  unfold readValue at hread
  split at hread <;> subst hread
  -- one case for each type byte; an object may be open, the others are whole
  case h_1 htype =>
    obtain ⟨o, p, hrun, hpure⟩ := Calls.bind_eq_ok h
    injection hpure with hn hp
    subst hn hp
    obtain ⟨es, rfl, hreads⟩ := hobject o p hrun
    refine ⟨.object es, UInt8.toNat_inj.mp htype.symm, (VDFNode.ofValue_object es).symm, hreads.le,
      hreads.nulFree, ?_⟩
    rcases hreads.bytes with hclosed | ⟨hend, hopen⟩
    · left
      rw [Value.payload, List.append_assoc]
      exact hclosed
    · exact .inr ⟨hend, es, rfl, hopen⟩
  case h_2 htype =>
    obtain ⟨s, p, hrun, hpure⟩ := Calls.bind_eq_ok h
    injection hpure with hn hp
    subst hn hp
    obtain ⟨hle, hs, hbytes⟩ := readCstring_eq_ok hpos hrun
    refine ⟨.string s, UInt8.toNat_inj.mp htype.symm, rfl, hle, hs, .inl ?_⟩
    rw [Value.payload, List.append_assoc]
    exact hbytes
  case h_3 htype =>
    obtain ⟨i, p, hrun, hpure⟩ := Calls.bind_eq_ok h
    injection hpure with hn hp
    subst hn hp
    obtain ⟨v, hlen, rfl, hle, hbytes⟩ := readNumber_eq_ok hpos hrun
    refine ⟨.int32 (LittleEndian.word32 v).toInt32, UInt8.toNat_inj.mp htype.symm, rfl, hle,
      trivial, .inl ?_⟩
    rw [Value.payload, UInt32.toUInt32_toInt32, LittleEndian.bytes_word32 hlen]
    exact hbytes
  case h_4 htype =>
    obtain ⟨b, p, hrun, hpure⟩ := Calls.bind_eq_ok h
    injection hpure with hn hp
    subst hn hp
    obtain ⟨v, hlen, rfl, hle, hbytes⟩ := readNumber_eq_ok hpos hrun
    refine ⟨.float (LittleEndian.word32 v), UInt8.toNat_inj.mp htype.symm, rfl, hle, trivial,
      .inl ?_⟩
    rw [Value.payload, LittleEndian.bytes_word32 hlen]
    exact hbytes
  case h_5 htype =>
    obtain ⟨u, p, hrun, hpure⟩ := Calls.bind_eq_ok h
    injection hpure with hn hp
    subst hn hp
    obtain ⟨v, hlen, rfl, hle, hbytes⟩ := readNumber_eq_ok hpos hrun
    refine ⟨.uint64 (LittleEndian.word64 v), UInt8.toNat_inj.mp htype.symm, rfl, hle, trivial,
      .inl ?_⟩
    rw [Value.payload, LittleEndian.bytes_word64 hlen]
    exact hbytes
  -- any other type byte throws
  case h_6 => cases h

/-! ## The loop

  By induction on the fuel.  A nested object that ends with the buffer leaves nothing for the loops
  around it, and their ends are missing as well. -/

/-- A whole entry in front of what the rest of the loop has read. -/
theorem ReadsEntries.entry {k : Bytes} {v : Value} {es : Entries} {p q : Nat} (hk : 0 ∉ k)
    (hbytes : data.drop pos = v.typeByte :: k ++ 0 :: data.drop p)
    (hvalue : data.drop p = v.payload ++ data.drop q) (hnul : v.NulFree)
    (hrest : ReadsEntries data q es pos') : ReadsEntries data pos ((k, v) :: es) pos' := by
  have hwhole : data.drop pos = encodeEntry k v ++ data.drop q := by
    rw [hbytes, hvalue, encodeEntry, List.append_assoc]
    rfl
  refine ⟨hrest.le, ⟨hk, hnul, hrest.nulFree⟩, ?_⟩
  rcases hrest.bytes with hclosed | ⟨hend, hopen⟩
  · left
    rw [hwhole, hclosed, encodeEntries_cons, List.append_assoc]
  · exact .inr ⟨hend, hwhole ▸ .past hopen⟩

/-- No entry begins at the end of the buffer. -/
theorem ReadsEntries.eq_nil {es : Entries} (h : ReadsEntries data data.length es pos') :
    es = [] ∧ pos' = data.length := by
  have hnil : data.drop data.length = [] := List.drop_length
  rcases h.bytes with hclosed | ⟨hend, hopen⟩
  · rw [hnil] at hclosed
    exact absurd hclosed.symm (by simp)
  · rw [hnil] at hopen
    generalize hp : ([] : Bytes) = p at hopen
    cases hopen with
    | stop => exact ⟨rfl, hend⟩
    | past => cases hp
    | inside => cases hp

/-- **The loop reads entries**: what it returns is what they denote. -/
theorem objectLoop_reads (fuel : Nat) : ∀ {pos pos' : Nat} (obj o : Object), pos ≤ data.length →
    objectLoop data data.length fuel obj pos = .ok o pos' →
      ∃ es, o = obj.assign es ∧ ReadsEntries data pos es pos' := by
  induction fuel with
  | zero => intro pos pos' obj o _ h; cases h
  | succ fuel ih =>
    intro pos pos' obj o hpos h
    cases hrest : data.drop pos with
    | nil =>
      obtain rfl : pos = data.length := by
        have hlen := (At.here hpos).length_eq
        rw [hrest] at hlen
        exact hlen
      rw [objectLoop_end] at h
      injection h with ho hpos'
      subst ho hpos'
      exact ⟨[], rfl, Nat.le_refl _, trivial, .inr ⟨rfl, hrest ▸ .stop⟩⟩
    | cons type rest =>
      have hat : At data pos (type :: rest) := ⟨hpos, hrest⟩
      by_cases htype : type = binEnd
      · subst htype
        rw [objectLoop_close hat] at h
        injection h with ho hpos'
        subst ho hpos'
        have hbehind := hat.next
        exact ⟨[], rfl, hbehind.le, trivial, .inl (hbehind.drop_eq.symm ▸ hrest)⟩
      -- one entry: its key, its value, and what the loop made of the rest
      · rw [objectLoop_cons hat htype] at h
        obtain ⟨k, p, hkey, h⟩ := Calls.bind_eq_ok h
        obtain ⟨n, q, hvalue, h⟩ := Calls.bind_eq_ok h
        obtain ⟨hp, hk, hkbytes⟩ := readCstring_eq_ok hat.next.le hkey
        obtain ⟨v, rfl, rfl, hv⟩ := readValue_reads (fun o p' => ih .empty o hp) hp hvalue
        obtain ⟨es, rfl, hes⟩ := ih _ o hv.le h
        have hbytes : data.drop pos = v.typeByte :: k ++ 0 :: data.drop p := by
          rw [hrest, ← hat.next.drop_eq, hkbytes]
          rfl
        refine ⟨(k, v) :: es, rfl, ?_⟩
        rcases hv.bytes with hwhole | ⟨rfl, fs, rfl, hopen⟩
        · exact .entry hk hbytes hwhole hv.nulFree hes
        · -- the nested object is open: the buffer is at its end, and so is this loop
          obtain ⟨rfl, rfl⟩ := hes.eq_nil
          refine ⟨hv.le, ⟨hk, hv.nulFree, trivial⟩, .inr ⟨rfl, ?_⟩⟩
          rw [hbytes]
          exact .inside hopen

/-- Entries whose last end markers are missing are read to the end of the buffer. -/
theorem objectLoop_unclosed {es : Entries} {p : Bytes} (hopen : Unclosed es p) :
    NulFreeEntries es → ∀ {pos fuel : Nat} (obj : Object), At data pos p → p.length < fuel →
      objectLoop data data.length fuel obj pos = .ok (obj.assign es) data.length := by
  induction hopen with
  | stop =>
    intro _ pos fuel obj h hfuel
    obtain ⟨fuel, rfl⟩ := Nat.exists_eq_add_one_of_ne_zero (Nat.ne_zero_of_lt hfuel)
    obtain rfl : pos = data.length := h.length_eq
    exact objectLoop_end fuel obj
  | @past k v es p _ ih =>
    intro hes pos fuel obj h hfuel
    obtain ⟨hk, hv, hes⟩ := hes
    obtain ⟨fuel, rfl⟩ := Nat.exists_eq_add_one_of_ne_zero (Nat.ne_zero_of_lt hfuel)
    simp only [encodeEntry, List.length_append, List.length_cons] at hfuel
    have hat : At data pos (v.typeByte :: k ++ 0 :: (v.payload ++ p)) := by
      simpa [encodeEntry, List.append_assoc] using h
    have hbody := hat.behindKey
    rw [objectLoop_entry hat (typeByte_ne_binEnd v) hk,
      Calls.bind_ok (readValue_payload v hv hbody (by omega)),
      ih hes (obj.set k (.ofValue v)) hbody.advance (show p.length < fuel by omega)]
    rfl
  | @inside k es p _ ih =>
    intro hes pos fuel obj h hfuel
    obtain ⟨hk, hv, -⟩ := hes
    obtain ⟨fuel, rfl⟩ := Nat.exists_eq_add_one_of_ne_zero (Nat.ne_zero_of_lt hfuel)
    simp only [List.length_append, List.length_cons] at hfuel
    -- the nested loop comes back at the end of the buffer
    have hnested := ih hv Object.empty h.behindKey (show p.length < fuel by omega)
    have hval : readValue data data.length (objectLoop data data.length fuel .empty) 0x00
        (pos + k.length + 2) = .ok (.ofValue (.object es)) data.length := by
      rw [VDFNode.ofValue_object]
      show (objectLoop data data.length fuel .empty >>= _ : Reader VDFNode) _ = _
      rw [Calls.bind_ok hnested]
      rfl
    -- so this one ends there too, in a round of its own
    obtain ⟨fuel, rfl⟩ := Nat.exists_eq_add_one_of_ne_zero (show fuel ≠ 0 by omega)
    rw [objectLoop_entry h (by decide) hk, Calls.bind_ok hval, objectLoop_end]
    rfl

end BinaryParser

/-! ## The parser

  A buffer may hold several documents only if they denote the same object, since the parser is a
  function. -/

open BinaryParser

/-- A document with anything behind it, or without its last end markers. -/
def BinDoc.WrittenIn (d : BinDoc) (data : Bytes) : Prop :=
  (∃ z, data = d.encode ++ z) ∨ Unclosed d.entries data

/-- A buffer that begins with a document is parsed to what it denotes. -/
theorem parseBinary_of_written {d : BinDoc} {data : Bytes} (h : d.WrittenIn data) :
    parseBinary data data.length = .ok (Object.ofEntries d.entries) := by
  have hat : At data 0 data := ⟨Nat.zero_le _, List.drop_zero⟩
  rcases h with ⟨z, hz⟩ | hopen
  · have hwhole : At data 0 (encodeEntries d.entries ++ binEnd :: z) := by
      rw [BinDoc.encode, List.append_assoc] at hz
      exact hz ▸ hat
    have hlen := hwhole.length_eq
    rw [List.length_append] at hlen
    exact parseBinary_of_ok
      (objectLoop_entries d.entries d.nulFree Object.empty hwhole (by omega))
  · exact parseBinary_of_ok (objectLoop_unclosed hopen d.nulFree Object.empty hat (by omega))

/-- And only such a buffer is parsed. -/
theorem written_of_parseBinary {data : Bytes} {o : Object}
    (h : parseBinary data data.length = .ok o) :
    ∃ d : BinDoc, d.WrittenIn data ∧ o = Object.ofEntries d.entries := by
  cases hrun : parseObject data data.length 0 with
  | error e pos =>
    rw [parseBinary_of_throw hrun] at h
    cases h
  | ok o' pos =>
    rw [parseBinary_of_ok hrun] at h
    obtain rfl : o' = o := Except.ok.inj h
    obtain ⟨es, rfl, hes⟩ := objectLoop_reads _ Object.empty o' (Nat.zero_le _) hrun
    have hbytes := hes.bytes
    rw [List.drop_zero] at hbytes
    refine ⟨⟨es, hes.nulFree⟩, ?_, rfl⟩
    rcases hbytes with hclosed | ⟨-, hopen⟩
    · refine .inl ⟨data.drop pos, ?_⟩
      rw [BinDoc.encode, List.append_assoc]
      exact hclosed
    · exact .inr hopen

/-- **What the binary parser accepts, and what it returns**: a buffer is accepted exactly when it
    is a document with anything behind it or a document whose last end markers are missing, and the
    object returned is the one the document denotes. -/
theorem parseBinary_eq_ok_iff (data : Bytes) (o : Object) :
    parseBinary data data.length = .ok o ↔
      ∃ d : BinDoc, ((∃ z, data = d.encode ++ z) ∨ Unclosed d.entries data) ∧
        o = Object.ofEntries d.entries := by
  constructor
  · exact written_of_parseBinary
  · rintro ⟨d, hwritten, rfl⟩
    exact parseBinary_of_written hwritten

end SteamMin.Vdf
