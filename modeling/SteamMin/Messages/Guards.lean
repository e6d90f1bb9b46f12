/-
  THE GUARDS OF THE READERS — `stream.hpp` and `msgbase.hpp`.

  Every read compares the end of what it wants with the size of the buffer, and the end is a sum of
  `size_t`.  The cursor may be anything: `Stream(input, offset)` and `Seek` check nothing.

  `ExactRead` says what a guard is for: inside the buffer the read succeeds, elsewhere it throws and
  the cursor stays.  A sized read is exact unless the end of its range comes out, modulo 2^64, as one
  that lies in the buffer (`WrapsInto`); then it reads what is not there.  `ReadByte` adds nothing and
  is always exact.  So is `ReadNullTermString`, which looks at no byte without a comparison of the
  cursor alone: what it consumes lies in the payload, and from behind the payload it consumes
  nothing.

  `ReadArray` has the guard too, and `reserve` behind it: what happens to an array whose end wraps
  is in `readArray_wrapsInto`.
-/
import SteamMin.Messages.TypedValues

namespace SteamMin.Messages

open MachineInt ReadBack

/-- Inside what there is to read the call succeeds and moves the cursor by `n`; elsewhere it throws
    and the cursor stays. -/
def ExactRead {σ α : Type} (cursor : σ → Nat) (inRange : σ → Nat → Prop) (x : EStateM Fault σ α)
    (n : Nat) (s : σ) : Prop :=
  (inRange s n → ∃ a s', x s = .ok a s' ∧ cursor s' = cursor s + n) ∧
  (¬ inRange s n → ∃ e s', x s = .error (.throws e) s' ∧ cursor s' = cursor s)

/-- The result may be converted. -/
theorem exactRead_map {σ α β : Type} {cursor : σ → Nat} {inRange : σ → Nat → Prop}
    {x : EStateM Fault σ α} {n : Nat} {s : σ} (g : α → β) :
    ExactRead cursor inRange (do pure (g (← x))) n s ↔ ExactRead cursor inRange x n s := by
  cases hx : x s with
  | ok a s' =>
    have hmap : (do pure (g (← x)) : EStateM Fault σ β) s = .ok (g a) s' := Calls.bind_ok hx
    simp [ExactRead, hx, hmap]
  | error f s' =>
    have hmap : (do pure (g (← x)) : EStateM Fault σ β) s = .error f s' := Calls.bind_error hx
    simp [ExactRead, hx, hmap]

/-! ## `Stream`

  The guard of a read adds the size to the cursor in a machine word.  What passes it although it
  leaves the buffer is a range whose end has wrapped around, and this is the whole difference. -/

namespace Stream

variable {s : Stream} {n : Nat}

/-- `n` bytes under the cursor lie in the buffer. -/
def InRange (s : Stream) (n : Nat) : Prop :=
  ∃ input, s.readBuffer = some input ∧ s.position + n ≤ input.length

/-- The guard lets a read of `n` bytes through. -/
def PassesGuard (s : Stream) (n : Nat) : Prop :=
  ∃ input, s.readBuffer = some input ∧ sizeT (s.position + n) ≤ input.length

/-- They leave the buffer, and their end wraps around to one inside. -/
def WrapsInto (s : Stream) (n : Nat) : Prop :=
  ∃ input, s.readBuffer = some input ∧ input.length < s.position + n ∧
    (s.position + n) % 2 ^ 64 ≤ input.length

/-- What lies in the buffer passes, and what passes although it does not has wrapped. -/
theorem passesGuard_iff : s.PassesGuard n ↔ s.InRange n ∨ s.WrapsInto n := by
  constructor
  · rintro ⟨input, hs, hpass⟩
    rcases Nat.lt_or_ge input.length (s.position + n) with hout | hin
    · exact .inr ⟨input, hs, hout, hpass⟩
    · exact .inl ⟨input, hs, hin⟩
  · rintro (⟨input, hs, hin⟩ | ⟨input, hs, -, hwrap⟩)
    · have hle := sizeT_le (s.position + n)
      exact ⟨input, hs, by omega⟩
    · exact ⟨input, hs, hwrap⟩

/-- A range inside the buffer does not wrap. -/
theorem not_wrapsInto_of_inRange (h : s.InRange n) : ¬ s.WrapsInto n := by
  rintro ⟨input, hs, hout, -⟩
  obtain ⟨input', hs', hin⟩ := h
  rw [hs] at hs'
  cases hs'
  omega

/-- A read that leaves the buffer is refused unless its end wraps. -/
theorem not_passesGuard (hout : ¬ s.InRange n) (hwrap : ¬ s.WrapsInto n) : ¬ s.PassesGuard n := by
  rw [passesGuard_iff]
  rintro (hin | h)
  · exact hout hin
  · exact hwrap h

/-- An end that is a `size_t` does not wrap. -/
theorem not_wrapsInto_of_lt (h : s.position + n < 2 ^ 64) : ¬ s.WrapsInto n := by
  rintro ⟨input, -, hout, hwrap⟩
  rw [Nat.mod_eq_of_lt h] at hwrap
  omega

/-! ### The three outcomes of a read -/

/-- A range inside the buffer is read, and the cursor passes it. -/
theorem readRange_inRange (h : s.InRange n) :
    ∃ field, readRange n s = .ok field { s with position := s.position + n } := by
  obtain ⟨readBuffer, buffer, position⟩ := s
  obtain ⟨input, rfl, hin⟩ := h
  have hguard : ¬ input.length < sizeT (position + n) := by
    have hle := sizeT_le (position + n)
    simp only at hin
    omega
  refine ⟨(input.drop position).take n, ?_⟩
  show (if input.length < sizeT (position + n) then raise "Stream underflow"
    else if position + n ≤ input.length then _ else throw .undefined : Streaming Bytes) _ = _
  rw [if_neg hguard, if_pos hin]
  rfl

/-- A range the guard refuses throws, and the cursor stays. -/
theorem readRange_refused (h : ¬ s.PassesGuard n) :
    ∃ what, readRange n s = .error (.throws (.runtimeError what)) s := by
  obtain ⟨readBuffer, buffer, position⟩ := s
  cases readBuffer with
  | none => exact ⟨_, rfl⟩
  | some input =>
    have hguard : input.length < sizeT (position + n) := by
      by_contra hpass
      exact h ⟨input, rfl, Nat.le_of_not_lt hpass⟩
    refine ⟨"Stream underflow", ?_⟩
    show (if input.length < sizeT (position + n) then raise "Stream underflow"
      else _ : Streaming Bytes) _ = _
    rw [if_pos hguard]
    rfl

/-- The guard does not see an end that has wrapped. -/
theorem readRange_wrapsInto (h : s.WrapsInto n) : readRange n s = .error .undefined s := by
  obtain ⟨readBuffer, buffer, position⟩ := s
  obtain ⟨input, rfl, hout, hwrap⟩ := h
  have hguard : ¬ input.length < sizeT (position + n) := Nat.not_lt_of_le hwrap
  have hin : ¬ position + n ≤ input.length := Nat.not_le_of_lt hout
  show (if input.length < sizeT (position + n) then raise "Stream underflow"
    else if position + n ≤ input.length then _ else throw .undefined : Streaming Bytes) _ = _
  rw [if_neg hguard, if_neg hin]
  rfl

/-- A read takes its range, leaves the buffer, or throws. -/
theorem readRange_cases (n : Nat) (s : Stream) :
    (∃ field, readRange n s = .ok field { s with position := s.position + n }) ∨
    readRange n s = .error .undefined s ∨
    ∃ what, readRange n s = .error (.throws (.runtimeError what)) s := by
  by_cases hpass : s.PassesGuard n
  · rcases passesGuard_iff.mp hpass with hin | hwrap
    · exact .inl (readRange_inRange hin)
    · exact .inr (.inl (readRange_wrapsInto hwrap))
  · exact .inr (.inr (readRange_refused hpass))

/-- **The reads of one range are exact** where their end does not wrap into the buffer. -/
theorem exactRead_readRange_iff :
    ExactRead position InRange (readRange n) n s ↔ ¬ s.WrapsInto n := by
  constructor
  · rintro ⟨-, hout⟩ hwrap
    obtain ⟨e, s', hthrows, -⟩ := hout fun hin => not_wrapsInto_of_inRange hin hwrap
    rw [readRange_wrapsInto hwrap] at hthrows
    cases hthrows
  · intro hwrap
    constructor
    · intro hin
      obtain ⟨field, hok⟩ := readRange_inRange hin
      exact ⟨field, _, hok, rfl⟩
    · intro hout
      obtain ⟨what, hthrows⟩ := readRange_refused (not_passesGuard hout hwrap)
      exact ⟨_, s, hthrows, rfl⟩

/-! ### Arrays -/

variable {t : IntType} {count : Nat}

/-- The same for a value. -/
theorem read_inRange (h : s.InRange t.size) :
    ∃ v, read t s = .ok v { s with position := s.position + t.size } := by
  obtain ⟨field, hok⟩ := readRange_inRange h
  exact ⟨t.assemble field, Calls.bind_ok hok⟩

/-- All the values lie in the buffer. -/
theorem times_read_inRange (h : s.InRange (t.size * count)) :
    ∃ vs, times count (read t) s = .ok vs { s with position := s.position + t.size * count } := by
  induction count generalizing s with
  | zero => exact ⟨[], rfl⟩
  | succ count ih =>
    obtain ⟨input, hs, hin⟩ := h
    rw [Nat.mul_succ] at hin
    obtain ⟨v, hfirst⟩ := read_inRange (t := t) (s := s) ⟨input, hs, by omega⟩
    have hrest : ({ s with position := s.position + t.size } : Stream).InRange (t.size * count) :=
      ⟨input, hs, by simp only; omega⟩
    obtain ⟨vs, hvs⟩ := ih hrest
    have hend : s.position + t.size * (count + 1) = s.position + t.size + t.size * count := by
      rw [Nat.mul_succ]
      omega
    refine ⟨v :: vs, ?_⟩
    rw [times_succ, Calls.bind_ok hfirst, Calls.bind_ok hvs, hend]
    rfl

/-- The first read decides. -/
theorem times_read_error {f : Fault} {s' : Stream} (h : read t s = .error f s') :
    times (count + 1) (read t) s = .error f s' := by
  rw [times_succ, Calls.bind_error h]

/-- An array the guard refuses throws; its size is computed modulo the machine word. -/
theorem readArray_refused (h : ¬ s.PassesGuard (t.size * count)) :
    ∃ what, readArray t count s = .error (.throws (.runtimeError what)) s := by
  obtain ⟨readBuffer, buffer, position⟩ := s
  cases readBuffer with
  | none => exact ⟨_, rfl⟩
  | some input =>
    have hguard : input.length < sizeT (position + t.size * count) := by
      by_contra hpass
      exact h ⟨input, rfl, Nat.le_of_not_lt hpass⟩
    refine ⟨"Stream underflow", ?_⟩
    show (if input.length < sizeT (position + t.size * count) then raise "Stream underflow"
      else _ : Streaming _) _ = _
    rw [if_pos hguard]
    rfl

/-- Behind the guard the array has to fit into a vector, and then it is read value by value. -/
theorem readArray_passed {input : Bytes} (hs : s.readBuffer = some input)
    (h : s.PassesGuard (t.size * count)) :
    readArray t count s = if maxSize input < t.size * count
      then .error (.throws (.lengthError "vector::reserve")) s else times count (read t) s := by
  obtain ⟨readBuffer, buffer, position⟩ := s
  obtain ⟨input', hs', hpass⟩ := h
  cases hs.symm.trans hs'
  cases hs
  show (if input.length < sizeT (position + t.size * count) then raise "Stream underflow"
    else if maxSize input < t.size * count then _ else _ : Streaming _) _ = _
  rw [if_neg (Nat.not_lt_of_le hpass)]
  split <;> rfl

/-- An array inside the buffer is read, and the cursor passes it. -/
theorem readArray_inRange (h : s.InRange (t.size * count)) :
    ∃ vs, readArray t count s = .ok vs { s with position := s.position + t.size * count } := by
  obtain ⟨input, hs, hin⟩ := id h
  obtain ⟨vs, hvs⟩ := times_read_inRange h
  have hroom : ¬ maxSize input < t.size * count := by
    rw [maxSize]
    omega
  exact ⟨vs, by rw [readArray_passed hs (passesGuard_iff.mpr (.inl h)), if_neg hroom, hvs]⟩

/-- Where its end does not wrap into the buffer, `ReadArray` is exact. -/
theorem exactRead_readArray (hwrap : ¬ s.WrapsInto (t.size * count)) :
    ExactRead position InRange (readArray t count) (t.size * count) s := by
  constructor
  · intro hin
    obtain ⟨vs, hok⟩ := readArray_inRange hin
    exact ⟨vs, _, hok, rfl⟩
  · intro hout
    obtain ⟨what, hthrows⟩ := readArray_refused (not_passesGuard hout hwrap)
    exact ⟨_, s, hthrows, rfl⟩

/-- An array whose end wraps has passed its guard.  One that no vector can hold is then refused by
    `reserve`, and of any other the first value lies behind the buffer: its read throws or leaves
    the buffer. -/
theorem readArray_wrapsInto {input : Bytes} (hs : s.readBuffer = some input)
    (hinput : input.length < 2 ^ 63) (hcount : 0 < count)
    (hwrap : s.WrapsInto (t.size * count)) :
    (2 ^ 63 ≤ t.size * count ∧
      readArray t count s = .error (.throws (.lengthError "vector::reserve")) s) ∨
    (t.size * count < 2 ^ 63 ∧ s.WrapsInto t.size ∧
      readArray t count s = .error .undefined s) ∨
    (t.size * count < 2 ^ 63 ∧ ¬ s.WrapsInto t.size ∧
      ∃ what, readArray t count s = .error (.throws (.runtimeError what)) s) := by
  have hmax : maxSize input = 2 ^ 63 - 1 := by
    rw [maxSize]
    omega
  have hpassed := readArray_passed hs (passesGuard_iff.mpr (.inr hwrap))
  rw [hmax] at hpassed
  rcases Nat.lt_or_ge (t.size * count) (2 ^ 63) with hsmall | hlarge
  · rw [if_neg (by omega)] at hpassed
    obtain ⟨rest, rfl⟩ : ∃ rest, count = rest + 1 := ⟨count - 1, by omega⟩
    -- the sum is at least 2^64, so the cursor is behind the buffer
    have hout : ¬ s.InRange t.size := by
      rintro ⟨input', hs', hin⟩
      cases hs.symm.trans hs'
      have hend : s.position + t.size * (rest + 1) < 2 ^ 64 := by omega
      exact not_wrapsInto_of_lt hend hwrap
    by_cases hfirst : s.WrapsInto t.size
    · refine .inr (.inl ⟨hsmall, hfirst, ?_⟩)
      rw [hpassed]
      exact times_read_error (Calls.bind_error (readRange_wrapsInto hfirst))
    · obtain ⟨what, hthrows⟩ := readRange_refused (not_passesGuard hout hfirst)
      refine .inr (.inr ⟨hsmall, hfirst, what, ?_⟩)
      rw [hpassed]
      exact times_read_error (Calls.bind_error hthrows)
  · rw [if_pos (by omega)] at hpassed
    exact .inl ⟨hlarge, hpassed⟩

end Stream

/-! ## `MsgBase`

  The readers of a message have the same guard, but for two: a byte is compared without a sum, and
  a string looks at the cursor before each byte. -/

namespace MsgBase

variable {order : ByteOrder} {t : IntType} {m : MsgBase} {n : Nat}

/-- `ReadValue<T>()` for a `T` of `size` bytes: what is copied into the value. -/
def readObject (size : Nat) : EStateM Fault MsgBase Bytes := do
  let m ← get
  if m.payload.length < sizeT (m.readPos + size) then readPastEnd
  else if m.readPos + size ≤ m.payload.length then
    set { m with readPos := m.readPos + size }
    pure ((m.payload.drop m.readPos).take size)
  else throw .undefined

/-- For an integer it is put together from these bytes. -/
theorem readValue_eq : readValue order t = (do pure (t.ofMemory order (← readObject t.size))) := by
  funext m
  show (if m.payload.length < sizeT (m.readPos + t.size) then readPastEnd
    else if m.readPos + t.size ≤ m.payload.length then _ else throw .undefined :
      EStateM Fault MsgBase t.Value) m
    = ((if m.payload.length < sizeT (m.readPos + t.size) then readPastEnd
      else if m.readPos + t.size ≤ m.payload.length then _ else throw .undefined :
        EStateM Fault MsgBase Bytes) >>= fun field => pure (t.ofMemory order field)) m
  split
  · rfl
  · split <;> rfl

/-- `n` bytes under the cursor lie in the payload. -/
def InRange (m : MsgBase) (n : Nat) : Prop := m.readPos + n ≤ m.payload.length

/-- They leave the payload, and their end wraps around to one inside. -/
def WrapsInto (m : MsgBase) (n : Nat) : Prop :=
  m.payload.length < m.readPos + n ∧ (m.readPos + n) % 2 ^ 64 ≤ m.payload.length

/-- Each of the `n` bytes under the cursor lies in the payload; of no bytes there is nothing to ask. -/
def BytesInRange (m : MsgBase) (n : Nat) : Prop := ∀ i < n, m.readPos + i < m.payload.length

/-- What `ReadNullTermString` consumes: up to the first zero byte, and the zero byte. -/
def stringSize (m : MsgBase) : Nat :=
  let n := ((m.payload.drop m.readPos).takeWhile (· ≠ 0)).length
  if m.readPos + n < m.payload.length then n + 1 else n

/-- **A value is read exactly** where its end does not wrap into the payload. -/
theorem exactRead_readObject_iff :
    ExactRead readPos InRange (readObject n) n m ↔ ¬ m.WrapsInto n := by
  have hrun : readObject n m = (if m.payload.length < sizeT (m.readPos + n) then readPastEnd
    else if m.readPos + n ≤ m.payload.length then
      (do set { m with readPos := m.readPos + n }
          pure ((m.payload.drop m.readPos).take n))
    else throw .undefined : EStateM Fault MsgBase Bytes) m := rfl
  have hle := sizeT_le (m.readPos + n)
  constructor
  -- an end that wraps around passes the guard and leaves the payload
  · rintro ⟨-, hout⟩ ⟨hend, hwrap⟩
    have hguard : ¬ m.payload.length < sizeT (m.readPos + n) := Nat.not_lt_of_le hwrap
    rw [if_neg hguard, if_neg (Nat.not_le_of_lt hend)] at hrun
    obtain ⟨e, m', hthrows, -⟩ := hout (Nat.not_le_of_lt hend)
    rw [hrun] at hthrows
    cases hthrows
  · intro hwrap
    constructor
    · intro hin
      rw [InRange] at hin
      rw [if_neg (by omega), if_pos hin] at hrun
      exact ⟨_, _, hrun, rfl⟩
    · intro hout
      have hguard : m.payload.length < sizeT (m.readPos + n) := by
        by_contra hpass
        exact hwrap ⟨Nat.lt_of_not_le hout, Nat.le_of_not_lt hpass⟩
      rw [if_pos hguard] at hrun
      exact ⟨_, m, hrun, rfl⟩

/-- A byte is compared without a sum. -/
theorem exactRead_readByte : ExactRead readPos InRange readByte 1 m := by
  obtain ⟨payload, pos⟩ := m
  constructor
  · intro hin
    have hget : payload[pos]? = some payload[pos] := List.getElem?_eq_getElem hin
    refine ⟨payload[pos], ⟨payload, pos + 1⟩, ?_, rfl⟩
    rw [readByte, Calls.get_bind]
    simp only [hget]
    rfl
  · intro hout
    have hget : payload[pos]? = none := List.getElem?_eq_none (Nat.le_of_not_lt hout)
    refine ⟨.outOfRange "Read past end", ⟨payload, pos⟩, ?_, rfl⟩
    rw [readByte, Calls.get_bind]
    simp only [hget]
    rfl

/-- **A string is read exactly**, wherever the cursor is: it returns, moves the cursor by the bytes
    it has consumed, and each of them lies in the payload. -/
theorem exactRead_readNullTermString :
    ExactRead readPos BytesInRange readNullTermString m.stringSize m := by
  let str := (m.payload.drop m.readPos).takeWhile (· ≠ 0)
  have hlen : str.length ≤ m.payload.length - m.readPos := by
    have htake := (List.takeWhile_prefix (· ≠ 0) (l := m.payload.drop m.readPos)).length_le
    rwa [List.length_drop] at htake
  have hsize : m.stringSize
      = if m.readPos + str.length < m.payload.length then str.length + 1 else str.length := rfl
  have hin : m.BytesInRange m.stringSize := by
    intro i hi
    rw [hsize] at hi
    split at hi
    · omega
    · omega
  -- the loop stops at the terminator or at the end, and passes the former
  have hstop : (if m.readPos + str.length < m.payload.length then m.readPos + str.length + 1
      else m.readPos + str.length) = m.readPos + m.stringSize := by
    rw [hsize]
    split
    · rfl
    · rfl
  have hrun : readNullTermString m = .ok str { m with readPos := m.readPos + m.stringSize } := by
    rw [← hstop]
    rfl
  exact ⟨fun _ => ⟨_, _, hrun, rfl⟩, fun hout => absurd hin hout⟩

end MsgBase

/-! ## All readers

  The two families side by side, with their conditions. -/

/-- **Which reads are guarded.**  In any state of a stream and of a message, for any size, count and
    type: each read of a stream is exact, and lets nothing pass that leaves the buffer, exactly when
    the end of its range does not wrap into the buffer; `ReadByte` is exact; `ReadValue` is where its
    end does not wrap; `ReadNullTermString` is exact. -/
theorem reads_guarded_iff (s : Stream) (m : MsgBase) :
    (∀ t : IntType, ExactRead Stream.position Stream.InRange (Stream.read t) t.size s
      ↔ ¬ s.WrapsInto t.size) ∧
    (∀ size, ExactRead Stream.position Stream.InRange (Stream.readInto size) size s
      ↔ ¬ s.WrapsInto size) ∧
    (∀ size, ExactRead Stream.position Stream.InRange (Stream.readBytes size) size s
      ↔ ¬ s.WrapsInto size) ∧
    (∀ (t : IntType) (count : Nat),
      (ExactRead Stream.position Stream.InRange (Stream.readArray t count) (t.size * count) s ∧
        (s.PassesGuard (t.size * count) → s.InRange (t.size * count)))
      ↔ ¬ s.WrapsInto (t.size * count)) ∧
    ExactRead MsgBase.readPos MsgBase.InRange MsgBase.readByte 1 m ∧
    (∀ size, ExactRead MsgBase.readPos MsgBase.InRange (MsgBase.readObject size) size m
      ↔ ¬ m.WrapsInto size) ∧
    (∀ (order : ByteOrder) (t : IntType),
      ExactRead MsgBase.readPos MsgBase.InRange (MsgBase.readValue order t) t.size m
      ↔ ¬ m.WrapsInto t.size) ∧
    ExactRead MsgBase.readPos MsgBase.BytesInRange MsgBase.readNullTermString m.stringSize m := by
  refine ⟨?_, ?_, ?_, ?_, MsgBase.exactRead_readByte, ?_, ?_, MsgBase.exactRead_readNullTermString⟩
  · intro t
    exact (exactRead_map t.assemble).trans Stream.exactRead_readRange_iff
  · intro size
    exact Stream.exactRead_readRange_iff
  · intro size
    exact Stream.exactRead_readRange_iff
  · intro t count
    constructor
    -- an array is special: a size that wraps around may still be caught behind the guard
    · rintro ⟨-, hpass⟩ hwrap
      exact Stream.not_wrapsInto_of_inRange
        (hpass (Stream.passesGuard_iff.mpr (.inr hwrap))) hwrap
    · intro hwrap
      refine ⟨Stream.exactRead_readArray hwrap, fun hpass => ?_⟩
      rcases Stream.passesGuard_iff.mp hpass with hin | h
      · exact hin
      · exact absurd h hwrap
  · intro size
    exact MsgBase.exactRead_readObject_iff
  · intro order t
    rw [MsgBase.readValue_eq]
    exact (exactRead_map _).trans MsgBase.exactRead_readObject_iff

/-- Four bytes with the cursor at the last `size_t`: the end of an `int32_t` comes out as 3.  From the
    start of the buffer 2^62 of them end at 0, and the guard lets them pass. -/
theorem reads_wrap :
    Stream.read .int32 (.reading [1, 2, 3, 4] (2 ^ 64 - 1))
      = .error .undefined (.reading [1, 2, 3, 4] (2 ^ 64 - 1)) ∧
    ¬ ExactRead Stream.position Stream.InRange (Stream.read .int32) 4
      (.reading [1, 2, 3, 4] (2 ^ 64 - 1)) ∧
    ((Stream.reading [1, 2, 3, 4] 0).PassesGuard (4 * 2 ^ 62) ∧
      ¬ (Stream.reading [1, 2, 3, 4] 0).InRange (4 * 2 ^ 62)) ∧
    ¬ ExactRead MsgBase.readPos MsgBase.InRange (MsgBase.readObject 4) 4
      (MsgBase.seek (2 ^ 64 - 1) ⟨[1, 2, 3, 4], 0⟩) := by
  have hwrap : (Stream.reading [1, 2, 3, 4] (2 ^ 64 - 1)).WrapsInto IntType.int32.size :=
    ⟨[1, 2, 3, 4], rfl, by decide, by decide⟩
  refine ⟨?_, ?_, ⟨⟨[1, 2, 3, 4], rfl, by decide⟩, ?_⟩, ?_⟩
  · exact Calls.bind_error (Stream.readRange_wrapsInto hwrap)
  · intro hexact
    exact Stream.exactRead_readRange_iff.mp ((exactRead_map _).mp hexact) hwrap
  · rintro ⟨input, hs, hin⟩
    cases hs
    exact absurd hin (by decide)
  · intro hexact
    exact MsgBase.exactRead_readObject_iff.mp hexact ⟨by decide, by decide⟩

end SteamMin.Messages
