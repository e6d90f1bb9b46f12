/-
  BYTES AND FAULTS: the vocabulary shared by every layer of the model.

  A buffer is a `List` of bytes; `char`, `unsigned char` and `uint8_t` are all the same byte here.
  A C++ call has three ways to end: it returns, it throws (`Exn`, one constructor for each
  exception type the code throws or lets through), or it does something the language leaves
  undefined.  The last is the outcome `Fault.undefined`; everywhere below it stands for a read
  outside the buffer.  `Fault.diverges` is the model's own: the recursion bound of a
  fuel-supplied definition is spent.  Theorems show where it cannot happen.

  Undefined behaviour is an outcome and not an excuse: a theorem that says a call returns or
  throws has excluded it, and one that allows it says on which inputs it happens.  The same holds
  for `Fault.diverges`, which stands for a call that does not come back.
-/
import Mathlib.Order.Lattice
import Mathlib.Data.List.Lex

namespace SteamMin

/-- `unsigned char` -/
abbrev Byte := UInt8

/-- `std::vector<unsigned char>` and `std::string`, whose characters are bytes. -/
abbrev Bytes := List Byte

/-- Bytes in numeric order; `List` then orders byte strings lexicographically. -/
instance instLinearOrderByte : LinearOrder UInt8 where
  le_refl := UInt8.le_refl
  le_trans _ _ _ := UInt8.le_trans
  le_antisymm _ _ := UInt8.le_antisymm
  le_total := UInt8.le_total
  lt_iff_le_not_ge a b := by
    rw [UInt8.not_le]
    exact ⟨fun h => ⟨UInt8.le_of_lt h, h⟩, And.right⟩
  toDecidableLE := inferInstance
  toDecidableLT := inferInstance
  toDecidableEq := inferInstance

/-- The bytes of an ASCII string literal. -/
def ascii (s : String) : Bytes := s.toList.map fun c => UInt8.ofNat c.toNat

/-- The exceptions of the code and of the standard library calls it makes. -/
inductive Exn
  /-- `std::runtime_error` -/
  | runtimeError (what : String)
  /-- `std::out_of_range` -/
  | outOfRange (what : String)
  /-- `std::invalid_argument` -/
  | invalidArgument (what : String)
  /-- `std::length_error` -/
  | lengthError (what : String)
  /-- `std::bad_variant_access` -/
  | badVariantAccess
  /-- a `CryptoPP::Exception` -/
  | cryptoPP (what : String)
  deriving DecidableEq, Repr

/-- How a call can end without returning. -/
inductive Fault
  /-- an exception leaves the call -/
  | throws (e : Exn)
  /-- undefined behaviour: a read outside the buffer -/
  | undefined
  /-- the recursion bound of the model is spent -/
  | diverges
  deriving DecidableEq, Repr

/-- `throw std::runtime_error(what)` -/
def runtimeError {α : Type} (what : String) : Except Fault α :=
  .error (.throws (.runtimeError what))

/-- The call returned, or threw `std::runtime_error`; nothing else happened. -/
def ReturnsOrThrows {α : Type} (r : Except Fault α) : Prop :=
  (∃ a, r = .ok a) ∨ ∃ what, r = runtimeError what

/-- Undefined behaviour is neither. -/
theorem not_returnsOrThrows_undefined {α : Type} :
    ¬ ReturnsOrThrows (.error .undefined : Except Fault α) := by
  rintro (⟨a, h⟩ | ⟨what, h⟩) <;> nomatch h

end SteamMin
