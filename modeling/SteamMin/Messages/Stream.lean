/-
  STREAMS — `include/steamclient/utilities/stream.hpp`.

  A stream reads from a buffer it was given or writes to one of its own, never both.  The members
  are the fields of `Stream`; every operation is a call on it that may throw.

  A cursor is a `size_t`: sums of a cursor and a size are cut to 64 bits (`sizeT`) where the code
  compares them with the size of the buffer, and a read that the comparison lets through although
  it leaves the buffer is `Fault.undefined`.

  All reads share one guard, `readRange`.  The writes do not: `Write(const void*, size_t)` has none.

  A function that reads is described by three facts, and callers use no others: what it does when
  the bytes are there (`_reading`), what it throws when they are not (`_underflow`), and that on a
  buffer of real size nothing else happens (`_only_throws`).  For writes there is one notion,
  `Yields x data a`: on any stream to be written the call appends `data` and returns `a`.
-/
import SteamMin.Basic
import SteamMin.Lib.LittleEndian
import SteamMin.Lib.Calls

namespace SteamMin.Messages

/-- A value of `size_t`. -/
def sizeT (n : Nat) : Nat := n % 2 ^ 64

/-- Reducing modulo the machine word never grows. -/
theorem sizeT_le (n : Nat) : sizeT n ≤ n := Nat.mod_le _ _

/-- `Stream`: a buffer to read from, or one to write to, and the cursor. -/
structure Stream where
  /-- what the stream reads, if it was constructed for reading -/
  readBuffer : Option Bytes
  /-- what it has written -/
  buffer : Bytes
  position : Nat

/-- A call on a stream. -/
abbrev Streaming (α : Type) := EStateM Fault Stream α

namespace Stream

/-- `Stream()` -/
def writing : Stream := ⟨none, [], 0⟩

/-- `Stream(input, offset)` -/
def reading (input : Bytes) (offset : Nat) : Stream := ⟨some input, [], offset⟩

/-- `throw std::runtime_error(what)` -/
def raise {α : Type} (what : String) : Streaming α := throw (.throws (.runtimeError what))

/-! ## Reading -/

/-- The guard of every read and the `n` bytes it then takes. -/
def readRange (n : Nat) : Streaming Bytes := do
  let s ← get
  match s.readBuffer with
  | none => raise "Stream is in write mode"
  | some input =>
    if input.length < sizeT (s.position + n) then raise "Stream underflow"
    else if s.position + n ≤ input.length then
      set { s with position := s.position + n }
      pure ((input.drop s.position).take n)
    else throw .undefined

/-- `Read<int32_t>()`, as the 32-bit word. -/
def readInt32 : Streaming UInt32 := do
  let field ← readRange 4
  pure (LittleEndian.word32 field)

/-- `Read<int64_t>()`, as the 64-bit word. -/
def readInt64 : Streaming UInt64 := do
  let field ← readRange 8
  pure (LittleEndian.word64 field)

/-- `Read(out, size)`, with the bytes put into `out`. -/
def readInto (size : Nat) : Streaming Bytes := readRange size

/-! ## Writing -/

/-- What the guarded overloads of `Write` share. -/
def append (data : Bytes) : Streaming Unit := do
  let s ← get
  match s.readBuffer with
  | some _ => raise "Stream is in read mode"
  | none => set { s with buffer := s.buffer ++ data }

/-- `Write<T>(value)` for a `T` of four bytes. -/
def writeInt32 (value : UInt32) : Streaming Unit := append (LittleEndian.bytes 4 value.toNat)

/-- `Write<T>(value)` for a `T` of eight bytes. -/
def writeInt64 (value : UInt64) : Streaming Unit := append (LittleEndian.bytes 8 value.toNat)

/-- `Write(const byte*, size_t)` -/
def writeBytes (data : Bytes) : Streaming Unit := append data

/-- `Write(const void*, size_t)`, which does not ask for the mode. -/
def writeRaw (data : Bytes) : Streaming Unit :=
  modify fun s => { s with buffer := s.buffer ++ data }

/-- What a writer leaves in a new stream, and what it returns. -/
def wrote {α : Type} (x : Streaming α) : Except Fault (Bytes × α) :=
  match x writing with
  | .ok a s => .ok (s.buffer, a)
  | .error e _ => .error e

/-- What a writer leaves in a new stream. -/
def written {α : Type} (x : Streaming α) : Except Fault Bytes := (wrote x).map Prod.fst

/-! ## What the operations do -/

variable {input : Bytes} {offset n : Nat}

/-- A read inside the buffer succeeds. -/
theorem readRange_reading (h : offset + n ≤ input.length) :
    readRange n (reading input offset)
      = .ok ((input.drop offset).take n) (reading input (offset + n)) := by
  have hguard : ¬ input.length < sizeT (offset + n) := by
    have := sizeT_le (offset + n)
    omega
  show (if input.length < sizeT (offset + n) then raise "Stream underflow"
    else if offset + n ≤ input.length then _ else throw .undefined : Streaming Bytes) _ = _
  rw [if_neg hguard, if_pos h]
  rfl

/-- A read that leaves the buffer throws, as long as its end is a `size_t`. -/
theorem readRange_underflow (h : input.length < offset + n) (hsize : offset + n < 2 ^ 64) :
    readRange n (reading input offset)
      = .error (.throws (.runtimeError "Stream underflow")) (reading input offset) := by
  have hguard : input.length < sizeT (offset + n) := by
    rw [sizeT, Nat.mod_eq_of_lt hsize]
    exact h
  show (if input.length < sizeT (offset + n) then raise "Stream underflow"
    else _ : Streaming Bytes) _ = _
  rw [if_pos hguard]
  rfl

/-- A read that succeeds was inside the buffer. -/
theorem readRange_eq_ok {s s' : Stream} {field : Bytes} (h : readRange n s = .ok field s') :
    ∃ input, s.readBuffer = some input ∧ s.position + n ≤ input.length ∧
      field = (input.drop s.position).take n ∧ s' = { s with position := s.position + n } := by
  obtain ⟨readBuffer, buffer, position⟩ := s
  rw [readRange, Calls.get_bind] at h
  cases readBuffer with
  | none => cases h
  | some input =>
    simp only at h
    split at h
    · cases h
    · split at h
      · rename_i hinside
        cases h
        exact ⟨input, rfl, hinside, rfl, rfl⟩
      · cases h

/-- Every read ends. -/
theorem failsOnly_readRange (n : Nat) : Calls.FailsOnly (· ≠ Fault.diverges) (readRange n) := by
  intro s fault s' h
  obtain ⟨readBuffer, buffer, position⟩ := s
  rw [readRange, Calls.get_bind] at h
  cases readBuffer with
  | none =>
    cases h
    simp
  | some input =>
    simp only at h
    split at h
    · cases h
      simp
    · split at h
      · cases h
      · cases h
        simp

/-- Reading a word ends. -/
theorem failsOnly_readInt32 : Calls.FailsOnly (· ≠ Fault.diverges) readInt32 :=
  Calls.failsOnly_bind (failsOnly_readRange 4) fun _ => Calls.failsOnly_pure _

/-- So does reading two. -/
theorem failsOnly_readInt64 : Calls.FailsOnly (· ≠ Fault.diverges) readInt64 :=
  Calls.failsOnly_bind (failsOnly_readRange 8) fun _ => Calls.failsOnly_pure _

/-- A word that is there is read. -/
theorem readInt32_reading (h : offset + 4 ≤ input.length) :
    readInt32 (reading input offset)
      = .ok (LittleEndian.word32 ((input.drop offset).take 4)) (reading input (offset + 4)) :=
  Calls.bind_ok (readRange_reading h)

/-- Two that are there are read. -/
theorem readInt64_reading (h : offset + 8 ≤ input.length) :
    readInt64 (reading input offset)
      = .ok (LittleEndian.word64 ((input.drop offset).take 8)) (reading input (offset + 8)) :=
  Calls.bind_ok (readRange_reading h)

/-- The same for the typed reads. -/
theorem readInt32_underflow (h : input.length < offset + 4) (hsize : offset + 4 < 2 ^ 64) :
    readInt32 (reading input offset)
      = .error (.throws (.runtimeError "Stream underflow")) (reading input offset) :=
  Calls.bind_error (readRange_underflow h hsize)

/-- Two that are not there throw, and the cursor stays. -/
theorem readInt64_underflow (h : input.length < offset + 8) (hsize : offset + 8 < 2 ^ 64) :
    readInt64 (reading input offset)
      = .error (.throws (.runtimeError "Stream underflow")) (reading input offset) :=
  Calls.bind_error (readRange_underflow h hsize)

/-- As long as its end is a `size_t`, a read that fails throws. -/
theorem readRange_only_throws {fault : Fault} {s : Stream} (hsize : offset + n < 2 ^ 64)
    (h : readRange n (reading input offset) = .error fault s) : ∃ e, fault = .throws e := by
  by_cases hinside : offset + n ≤ input.length
  · cases (readRange_reading hinside).symm.trans h
  · cases (readRange_underflow (by omega) hsize).symm.trans h
    exact ⟨_, rfl⟩

/-- A word that is not read throws: no undefined behaviour on a buffer of real size. -/
theorem readInt32_only_throws {fault : Fault} {s : Stream} (hsize : offset + 4 < 2 ^ 64)
    (h : readInt32 (reading input offset) = .error fault s) : ∃ e, fault = .throws e := by
  rcases Calls.bind_eq_error h with hrange | ⟨field, s', -, hpure⟩
  · exact readRange_only_throws hsize hrange
  · cases hpure

/-- A stream in write mode that holds `buffer`. -/
def holding (buffer : Bytes) : Stream := ⟨none, buffer, 0⟩

/-- The writer `x` appends `data`, whatever the stream holds already, and returns `a`. -/
def Yields {α : Type} (x : Streaming α) (data : Bytes) (a : α) : Prop :=
  ∀ buffer, x (holding buffer) = .ok a (holding (buffer ++ data))

/-- The writer `x` appends `data`, and has nothing to return. -/
abbrev Appends (x : Streaming Unit) (data : Bytes) : Prop := Yields x data ()

/-- Returning writes nothing. -/
theorem yields_pure {α : Type} (a : α) : Yields (pure a) [] a := by
  intro buffer
  rw [List.append_nil]
  rfl

/-- What comes behind a writer may use what it has returned. -/
theorem Yields.bind {α β : Type} {x : Streaming α} {f : α → Streaming β} {data data' : Bytes}
    {a : α} {b : β} (hx : Yields x data a) (hf : Yields (f a) data' b) :
    Yields (x >>= f) (data ++ data') b := by
  intro buffer
  rw [Calls.bind_ok (hx buffer), hf, List.append_assoc]

/-- `append` appends. -/
theorem appends_append (data : Bytes) : Appends (append data) data := fun _ => rfl

/-- So does `Write(const void*, size_t)`. -/
theorem appends_writeRaw (data : Bytes) : Appends (writeRaw data) data := fun _ => rfl

/-- Two writes, the second one behind the first. -/
theorem Yields.seq {x y : Streaming Unit} {data data' : Bytes} (hx : Appends x data)
    (hy : Appends y data') : Appends (do x; y) (data ++ data') := hx.bind hy

/-- One writer for each element of a list. -/
theorem appends_forM {α : Type} {f : α → Streaming Unit} {g : α → Bytes} {as : List α}
    (h : ∀ a ∈ as, Appends (f a) (g a)) : Appends (forM as f) (as.flatMap g) := by
  induction as with
  | nil =>
    intro buffer
    simp
    rfl
  | cons a as ih =>
    obtain ⟨ha, has⟩ := List.forall_mem_cons.mp h
    rw [List.forM_cons, List.flatMap_cons]
    exact ha.seq (ih has)

/-- From a new stream the writer leaves just what it appends. -/
theorem Yields.wrote {α : Type} {x : Streaming α} {data : Bytes} {a : α} (hx : Yields x data a) :
    wrote x = .ok (data, a) := by
  have hrun : x writing = .ok a (holding data) := hx []
  rw [Stream.wrote, hrun]
  rfl

/-- On a new stream, what was written is the buffer. -/
theorem Yields.written {α : Type} {x : Streaming α} {data : Bytes} {a : α} (hx : Yields x data a) :
    written x = .ok data := by
  rw [Stream.written, hx.wrote]
  rfl

/-- An exception behind a writer is the exception of the whole. -/
theorem Yields.wrote_raise {α β : Type} {x : Streaming α} {data : Bytes} {a : α}
    (hx : Yields x data a) (what : String) :
    Stream.wrote (x >>= fun _ => (raise what : Streaming β)) = runtimeError what := by
  have hrun : x writing = .ok a (holding data) := hx []
  rw [Stream.wrote, Calls.bind_ok hrun]
  rfl

end Stream

end SteamMin.Messages
