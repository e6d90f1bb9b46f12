/-
  THE MODES OF A STREAM — `include/steamclient/utilities/stream.hpp`.

  A stream reads or writes, and which of the two is decided when it is constructed.  The class has no
  type for it: each overload asks `readBuffer` for itself, and each sequence of operations is one run
  of `step`.

  * `Disciplined` — a read-mode stream throws at every write, a write-mode stream at every read, and
    an operation that throws has changed nothing;
  * `Unwritten` — a read-mode stream has no bytes of its own.

  `Write(const void*, size_t)` does not ask, so the discipline holds of exactly the runs that do not
  call it in read mode (`modes_disciplined_iff`).  A pointer to anything but `byte` goes to that
  overload, the `char*` of a string among them.

  A run ends where a read leaves its buffer (`Guards.lean`); memory is taken to suffice.
-/
import SteamMin.Messages.Guards
import SteamMin.Lib.Runs

namespace SteamMin.Messages

open MachineInt ReadBack
open Runs (EveryState EveryStep everyState_and_everyStep_iff everyState_of_invariant)

namespace Stream

/-- `MoveBuffer()`, which leaves an empty vector behind. -/
def moveBuffer : Streaming Bytes := do
  let s ← get
  set { s with buffer := [] }
  pure s.buffer

/-- What a pointer that is written from points to. -/
inductive Pointee
  | byte
  | other
  deriving DecidableEq

/-- `Write(data, size)`: the overload for `const byte*` is chosen for that type only, any other
    pointer is converted to `const void*`. -/
def writePointer : Pointee → Bytes → Streaming Unit
  | .byte, data => writeBytes data
  | .other, data => writeRaw data

/-! ## Operations and runs

  All calls on a stream, as one type, and what the discipline asks of one of them. -/

/-- A call on a stream. -/
inductive Op
  /-- `Write<T>(value)` -/
  | write (t : IntType) (value : t.Value)
  /-- `Write(const std::vector<byte>&)` -/
  | writeVector (data : Bytes)
  /-- `Write(data, size)` -/
  | writePointer (pointee : Pointee) (data : Bytes)
  /-- `Read<T>()` -/
  | read (t : IntType)
  /-- `Read(out, size)` -/
  | readInto (size : Nat)
  /-- `ReadBytes(size)` -/
  | readBytes (size : Nat)
  /-- `ReadArray<T>(count)` -/
  | readArray (t : IntType) (count : Nat)
  /-- `MoveBuffer()` -/
  | moveBuffer
  /-- `Position()`, `Length()` and `GetBuffer()`, which are `const` -/
  | observe

namespace Op

/-- The call, without what it returns. -/
def call : Op → Streaming Unit
  | .write t value => Stream.write t value
  | .writeVector data => append data
  | .writePointer pointee data => Stream.writePointer pointee data
  | .read t => do let _ ← Stream.read t
  | .readInto size => do let _ ← Stream.readInto size
  | .readBytes size => do let _ ← Stream.readBytes size
  | .readArray t count => do let _ ← Stream.readArray t count
  | .moveBuffer => do let _ ← Stream.moveBuffer
  | .observe => pure ()

/-- The calls for a stream that was constructed to be written. -/
def writes : Op → Bool
  | .write .. | .writeVector _ | .writePointer .. => true
  | _ => false

/-- The calls for a stream that was constructed to be read. -/
def reads : Op → Bool
  | .read _ | .readInto _ | .readBytes _ | .readArray .. => true
  | _ => false

/-- The calls of `Write(const void*, size_t)`. -/
def untyped : Op → Bool
  | .writePointer .other _ => true
  | _ => false

end Op

/-- An operation that returns or throws leaves a state; one that reads outside the buffer does not. -/
def step (s : Stream) (op : Op) : Option Stream :=
  match op.call s with
  | .ok _ s' => some s'
  | .error (.throws _) s' => some s'
  | .error _ _ => none

/-- What the stream reads is a vector, and a vector has less than 2^63 bytes. -/
def Fits (s : Stream) : Prop := ∀ input, s.readBuffer = some input → input.length < 2 ^ 63

/-- A stream as a constructor leaves it. -/
inductive Constructed : Stream → Prop
  | writing : Constructed writing
  | reading {input : Bytes} (offset : Nat) : input.length < 2 ^ 63 →
      Constructed (reading input offset)

/-- A read-mode stream has no bytes of its own. -/
def Unwritten (s : Stream) : Prop := s.readBuffer.isSome → s.buffer = []

/-- The operation keeps to the mode of the stream, and changes nothing if it throws. -/
structure Disciplined (s : Stream) (op : Op) : Prop where
  readMode : s.readBuffer.isSome → op.writes → ∃ e, op.call s = .error (.throws e) s
  writeMode : s.readBuffer = none → op.reads → ∃ e, op.call s = .error (.throws e) s
  throws : ∀ e s', op.call s = .error (.throws e) s' → s' = s

/-! ## What an operation leaves as it was

  The reads, for which it is all but the cursor. -/

variable {s s' : Stream} {op : Op} {e : Exn}

/-- The buffers of a stream, which a read does not touch. -/
def buffers (s : Stream) : Option Bytes × Bytes := (s.readBuffer, s.buffer)

/-- A call that leaves the buffers alone, however it ends. -/
abbrev KeepsBuffers {α : Type} (x : Streaming α) : Prop :=
  Calls.Refines (fun _ _ => False) buffers x

/-- Reading changes the cursor only. -/
theorem KeepsBuffers.buffers_eq {α : Type} {x : Streaming α} (h : KeepsBuffers x) (s : Stream) :
    buffers (Calls.after (x s)) = buffers s := by
  have hrun := h s
  generalize buffers (Calls.after (x s)) = after at hrun
  induction hrun with
  | refl => rfl
  | tail _ hstep => nomatch hstep

/-- A range is read without touching the buffers. -/
theorem keepsBuffers_readRange (n : Nat) : KeepsBuffers (readRange n) := by
  refine Calls.refines_of_view_eq fun s => ?_
  rcases readRange_cases n s with ⟨field, hok⟩ | hundefined | ⟨what, hthrows⟩
  · rw [hok]
    rfl
  · rw [hundefined]
    rfl
  · rw [hthrows]
    rfl

/-- So is a value. -/
theorem keepsBuffers_read (t : IntType) : KeepsBuffers (read t) :=
  Calls.refines_bind (keepsBuffers_readRange t.size) fun _ => Calls.refines_pure _

/-- So is an array. -/
theorem keepsBuffers_readArray (t : IntType) (count : Nat) : KeepsBuffers (readArray t count) := by
  intro s
  by_cases hpass : s.PassesGuard (t.size * count)
  · obtain ⟨input, hs, -⟩ := id hpass
    rw [readArray_passed hs hpass]
    split
    · exact .refl
    · exact refines_times (keepsBuffers_read t) count s
  · obtain ⟨what, hthrows⟩ := readArray_refused hpass
    rw [hthrows]
    exact .refl

/-- No read touches the buffers. -/
theorem keepsBuffers_of_reads (h : op.reads) : KeepsBuffers op.call := by
  have hdiscard : ∀ {α : Type} {x : Streaming α}, KeepsBuffers x → KeepsBuffers (do let _ ← x) :=
    fun hx => Calls.refines_bind hx fun _ => Calls.refines_pure _
  cases op with
  | read t => exact hdiscard (keepsBuffers_read t)
  | readInto size => exact hdiscard (keepsBuffers_readRange size)
  | readBytes size => exact hdiscard (keepsBuffers_readRange size)
  | readArray t count => exact hdiscard (keepsBuffers_readArray t count)
  | _ => nomatch h

/-! ## What is left when an operation throws

  Each call checks before it changes anything, except that an array is read value by value; its
  guard has looked at all of it. -/

/-- A read that throws leaves the stream as it was. -/
theorem readRange_throws {n : Nat} (h : readRange n s = .error (.throws e) s') : s' = s := by
  rcases readRange_cases n s with ⟨field, hok⟩ | hundefined | ⟨what, hthrows⟩
  · rw [hok] at h
    nomatch h
  · rw [hundefined] at h
    nomatch h
  · rw [hthrows] at h
    cases h
    rfl

/-- `ReadArray` throws before its first value or not at all. -/
theorem readArray_throws {t : IntType} {count : Nat} (hfits : Fits s)
    (h : readArray t count s = .error (.throws e) s') : s' = s := by
  by_cases hpass : s.PassesGuard (t.size * count)
  · rcases passesGuard_iff.mp hpass with hin | hwrap
    -- inside the buffer nothing throws
    · obtain ⟨vs, hok⟩ := readArray_inRange hin
      rw [hok] at h
      nomatch h
    · obtain ⟨input, hs, -⟩ := id hpass
      rcases Nat.eq_zero_or_pos count with rfl | hcount
      · rw [readArray_passed hs hpass, Nat.mul_zero, if_neg (Nat.not_lt_zero _)] at h
        nomatch h
      -- of the three ends behind a wrapped size, one is undefined behaviour and no exception
      · rcases readArray_wrapsInto hs (hfits input hs) hcount hwrap with
          ⟨-, hthrows⟩ | ⟨-, -, hundefined⟩ | ⟨-, -, what, hthrows⟩
        · rw [hthrows] at h
          cases h
          rfl
        · rw [hundefined] at h
          nomatch h
        · rw [hthrows] at h
          cases h
          rfl
  · obtain ⟨what, hthrows⟩ := readArray_refused hpass
    rw [hthrows] at h
    cases h
    rfl

/-- The exception of a call whose result is converted is the exception of the call. -/
theorem map_eq_error {α β : Type} {x : Streaming α} {f : Fault} (g : α → β)
    (h : (do pure (g (← x)) : Streaming β) s = .error f s') : x s = .error f s' := by
  cases hx : x s with
  | ok a s'' => nomatch (Calls.bind_ok hx).symm.trans h
  | error f' s'' =>
    cases (Calls.bind_error hx).symm.trans h
    rfl

/-- Dropping a result drops no error. -/
theorem discard_eq_error {α : Type} {x : Streaming α} {f : Fault}
    (h : (do let _ ← x : Streaming Unit) s = .error f s') : x s = .error f s' :=
  map_eq_error (fun _ => ()) h

/-- Writing on a stream to be read is refused. -/
theorem append_reading {input : Bytes} (hs : s.readBuffer = some input) (data : Bytes) :
    append data s = .error (.throws (.runtimeError "Stream is in read mode")) s := by
  obtain ⟨readBuffer, buffer, position⟩ := s
  cases hs
  rfl

/-- On a stream to be written the bytes are appended. -/
theorem append_writing (hs : s.readBuffer = none) (data : Bytes) :
    append data s = .ok () { s with buffer := s.buffer ++ data } := by
  obtain ⟨readBuffer, buffer, position⟩ := s
  cases hs
  rfl

/-- A write that throws leaves the stream as it was. -/
theorem append_throws {data : Bytes} (h : append data s = .error (.throws e) s') : s' = s := by
  cases hs : s.readBuffer with
  | none =>
    rw [append_writing hs] at h
    nomatch h
  | some input =>
    rw [append_reading hs] at h
    cases h
    rfl

/-- **Nothing is left half done**: an operation that throws leaves the stream as it was. -/
theorem call_throws (hfits : Fits s) (h : op.call s = .error (.throws e) s') : s' = s := by
  cases op with
  | write t value => exact append_throws h
  | writeVector data => exact append_throws h
  | writePointer pointee data =>
    cases pointee with
    | byte => exact append_throws h
    | other => nomatch h
  | read t => exact readRange_throws (map_eq_error t.assemble (discard_eq_error h))
  | readInto size => exact readRange_throws (discard_eq_error h)
  | readBytes size => exact readRange_throws (discard_eq_error h)
  | readArray t count => exact readArray_throws hfits (discard_eq_error h)
  | moveBuffer => nomatch h
  | observe => nomatch h

/-! ## The modes

  The mode is fixed by the constructor and never changes.  The one call that does not ask for it is
  the overload for `const void*`. -/

/-- In read mode every write throws, but for the overload that does not ask. -/
theorem call_write_reading {input : Bytes} (hs : s.readBuffer = some input) (hw : op.writes)
    (hu : op.untyped = false) : ∃ e, op.call s = .error (.throws e) s := by
  cases op with
  | write t value => exact ⟨_, append_reading hs _⟩
  | writeVector data => exact ⟨_, append_reading hs _⟩
  | writePointer pointee data =>
    cases pointee with
    | byte => exact ⟨_, append_reading hs _⟩
    | other => nomatch hu
  | _ => nomatch hw

/-- In write mode every read throws. -/
theorem call_read_writing (hs : s.readBuffer = none) (hr : op.reads) :
    ∃ e, op.call s = .error (.throws e) s := by
  have hnone : ∀ n, ¬ s.PassesGuard n := by
    rintro n ⟨input, hs', -⟩
    nomatch hs.symm.trans hs'
  have hrange : ∀ n, ∃ e, (do let _ ← readRange n : Streaming Unit) s = .error (.throws e) s := by
    intro n
    obtain ⟨what, hthrows⟩ := readRange_refused (hnone n)
    exact ⟨_, Calls.bind_error hthrows⟩
  cases op with
  | read t =>
    obtain ⟨what, hthrows⟩ := readRange_refused (hnone t.size)
    exact ⟨_, Calls.bind_error (Calls.bind_error hthrows)⟩
  | readInto size => exact hrange size
  | readBytes size => exact hrange size
  | readArray t count =>
    obtain ⟨what, hthrows⟩ := readArray_refused (hnone (t.size * count))
    exact ⟨_, Calls.bind_error hthrows⟩
  | _ => nomatch hr

/-- The overload for `const void*` never throws. -/
theorem call_untyped (hu : op.untyped) : ∃ s', op.call s = .ok () s' := by
  cases op with
  | writePointer pointee data =>
    cases pointee with
    | byte => nomatch hu
    | other => exact ⟨_, rfl⟩
  | _ => nomatch hu

/-- A call that may be made leaves the state behind it, thrown or not. -/
theorem step_eq_some (h : step s op = some s') : s' = Calls.after (op.call s) := by
  rw [step] at h
  split at h
  · rename_i hcall
    cases h
    rw [hcall]
    rfl
  · rename_i hcall
    cases h
    rw [hcall]
    rfl
  · nomatch h

/-- The mode is for ever. -/
theorem readBuffer_step (h : step s op = some s') : s'.readBuffer = s.readBuffer := by
  have happend : ∀ data, (Calls.after (append data s)).readBuffer = s.readBuffer := by
    intro data
    cases hs : s.readBuffer with
    | none =>
      rw [append_writing hs]
      exact hs
    | some input =>
      rw [append_reading hs]
      exact hs
  rw [step_eq_some h]
  -- reads change the cursor only, and every write is an append
  by_cases hr : op.reads
  · exact congrArg Prod.fst ((keepsBuffers_of_reads hr).buffers_eq s)
  · cases op with
    | write t value => exact happend _
    | writeVector data => exact happend data
    | writePointer pointee data =>
      cases pointee with
      | byte => exact happend data
      | other => rfl
    | moveBuffer => rfl
    | observe => rfl
    | _ => exact absurd rfl hr

/-- Without the untyped overload a read-mode stream stays without bytes of its own. -/
theorem unwritten_step (h₀ : Unwritten s) (hu : s.readBuffer.isSome → op.untyped = false)
    (h : step s op = some s') : Unwritten s' := by
  intro hmode
  rw [readBuffer_step h] at hmode
  obtain ⟨input, hs⟩ := Option.isSome_iff_exists.mp hmode
  rw [step_eq_some h]
  by_cases hr : op.reads
  · exact (congrArg Prod.snd ((keepsBuffers_of_reads hr).buffers_eq s)).trans (h₀ hmode)
  by_cases hw : op.writes
  · obtain ⟨e, hthrows⟩ := call_write_reading hs hw (hu hmode)
    rw [hthrows]
    exact h₀ hmode
  · cases op with
    | moveBuffer => rfl
    | observe => exact h₀ hmode
    | _ => first | exact absurd rfl hr | exact absurd rfl hw

/-- **An operation is disciplined** unless it writes through an untyped pointer in read mode. -/
theorem disciplined_iff (hfits : Fits s) :
    Disciplined s op ↔ (s.readBuffer.isSome → op.untyped = false) := by
  constructor
  · intro h hmode
    cases hu : op.untyped with
    | false => rfl
    | true =>
      have hw : op.writes := by
        cases op with
        | writePointer => rfl
        | _ => nomatch hu
      obtain ⟨e, hthrows⟩ := h.readMode hmode hw
      obtain ⟨s', hok⟩ := call_untyped (s := s) hu
      rw [hok] at hthrows
      nomatch hthrows
  · intro h
    refine ⟨fun hmode hw => ?_, call_read_writing, fun e s' => call_throws hfits⟩
    obtain ⟨input, hs⟩ := Option.isSome_iff_exists.mp hmode
    exact call_write_reading hs hw (h hmode)

/-- What a new stream reads is a vector. -/
theorem Constructed.fits {s₀ : Stream} (h₀ : Constructed s₀) : Fits s₀ := by
  intro input hs
  cases h₀ with
  | writing => nomatch hs
  | reading offset hinput =>
    cases hs
    exact hinput

/-- Nothing has been written to a stream that is to be read. -/
theorem Constructed.unwritten {s₀ : Stream} (h₀ : Constructed s₀) : Unwritten s₀ := by
  intro _
  cases h₀ <;> rfl

/-- No call puts another buffer in its place. -/
theorem fits_step (hfits : Fits s) (h : step s op = some s') : Fits s' :=
  fun input hs => hfits input ((readBuffer_step h).symm.trans hs)

/-- One step keeps the invariants and is disciplined exactly under the condition. -/
theorem step_disciplined_iff (h₀ : Fits s ∧ Unwritten s) (h : step s op = some s') :
    (Fits s' ∧ Unwritten s') ∧ Disciplined s op ↔ (s.readBuffer.isSome → op.untyped = false) := by
  obtain ⟨hfits, hu⟩ := h₀
  constructor
  · rintro ⟨-, hd⟩
    exact (disciplined_iff hfits).mp hd
  · intro hc
    exact ⟨⟨fits_step hfits h, unwritten_step hu hc h⟩, (disciplined_iff hfits).mpr hc⟩

/-- **The mode discipline.**  In a run of operations on a stream, from its construction, every
    operation is disciplined and a read-mode stream never has bytes of its own, exactly when no
    untyped pointer is written to a read-mode stream. -/
theorem modes_disciplined_iff {s₀ : Stream} (h₀ : Constructed s₀) (ops : List Op) :
    (EveryState step Unwritten s₀ ops ∧ EveryStep step (fun s op _ => Disciplined s op) s₀ ops)
      ↔ EveryStep step (fun s op _ => s.readBuffer.isSome → op.untyped = false) s₀ ops := by
  have hfits : EveryState step Fits s₀ ops :=
    everyState_of_invariant (fun _ _ _ => fits_step) h₀.fits ops
  have hstates : EveryState step Unwritten s₀ ops
      ↔ EveryState step (fun s => Fits s ∧ Unwritten s) s₀ ops :=
    Runs.EveryState.congr fun l₁ l₂ s₁ heq hrun =>
      ⟨fun h => ⟨hfits l₁ l₂ s₁ heq hrun, h⟩, And.right⟩
  rw [hstates]
  exact everyState_and_everyStep_iff (fun _ _ _ => step_disciplined_iff)
    ⟨h₀.fits, h₀.unwritten⟩ ops

/-- A reader that is written to by value and through a byte pointer, in between its reads. -/
theorem modes_disciplined_reading :
    EveryState step Unwritten (reading [0x54, 0x45, 0x53, 0x54] 0)
      [.write .uint32 123, .read .uint16, .writePointer .byte [1], .readArray .uint16 2] ∧
    EveryStep step (fun s op _ => Disciplined s op) (reading [0x54, 0x45, 0x53, 0x54] 0)
      [.write .uint32 123, .read .uint16, .writePointer .byte [1], .readArray .uint16 2] := by
  refine (modes_disciplined_iff (.reading 0 (by decide)) _).mpr ?_
  intro l₁ op l₂ s₁ s₂ heq _ _ _
  have hmem : op ∈ l₁ ++ op :: l₂ := by simp
  rw [← heq] at hmem
  exact (by decide : ∀ op ∈ [Op.write .uint32 123, .read .uint16, .writePointer .byte [1],
    .readArray .uint16 2], op.untyped = false) op hmem

/-- A string is written to a reader: it does not throw, and the reader then has its bytes. -/
theorem untyped_write_reading :
    step (reading [0x54] 0) (.writePointer .other (ascii "ab"))
      = some ⟨some [0x54], ascii "ab", 0⟩ ∧
    ¬ (EveryState step Unwritten (reading [0x54] 0) [.writePointer .other (ascii "ab")] ∧
      EveryStep step (fun s op _ => Disciplined s op) (reading [0x54] 0)
        [.writePointer .other (ascii "ab")]) := by
  refine ⟨rfl, ?_⟩
  rintro ⟨hstates, -⟩
  have hlast : Unwritten ⟨some [0x54], ascii "ab", 0⟩ := hstates.last rfl
  exact absurd (hlast rfl) (by decide)

end Stream

end SteamMin.Messages
