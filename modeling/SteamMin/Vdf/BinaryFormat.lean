/-
  THE BINARY FORMAT, as a document is written.

  An entry is its type byte, its key, `0x00` and its payload: numbers little-endian, strings closed
  by `0x00`, nested entries closed by `0x08`.  The root is closed by `0x08` as well.  Keys and
  strings cannot hold a NUL; `BinDoc` is a document with that proof.

  `AtBoundary es p` singles out the places where a document can be cut without the parser noticing:
  `p` ends between two entries of the root or of a nested object.  No 0x08 has to follow.

  The parser checks only that what it needs next is there.  It stops at an end marker and equally
  at the end of the buffer, so a document that lost its tail between two entries reads as a
  shorter document.  `AtBoundary` is an inductive predicate with one constructor for each way to
  get to such a place: stop here, step over an entry, or go into the entries of a nested object.
-/
import SteamMin.Vdf.Node
import SteamMin.Lib.LittleEndian

namespace SteamMin.Vdf

/-! ## Documents and their encoding -/

mutual

/-- No key and no string inside holds a NUL. -/
def Value.NulFree : Value → Prop
  | .string s => 0x00 ∉ s
  | .object es => NulFreeEntries es
  | _ => True

/-- No key and no string of the entries has a terminator inside. -/
def NulFreeEntries : Entries → Prop
  | [] => True
  | (k, v) :: es => 0x00 ∉ k ∧ v.NulFree ∧ NulFreeEntries es

end

/-- A document that has a binary form: any order, any repetition, no NUL. -/
structure BinDoc where
  entries : Entries
  nulFree : NulFreeEntries entries

/-- The byte that says what an entry holds. -/
def Value.typeByte : Value → Byte
  | .object _ => 0x00
  | .string _ => 0x01
  | .int32 _ => 0x02
  | .float _ => 0x03
  | .uint64 _ => 0x07

/-- The byte that closes an object. -/
def binEnd : Byte := 0x08

mutual

/-- What stands behind the key. -/
def Value.payload : Value → Bytes
  | .string s => s ++ [0x00]
  | .int32 i => LittleEndian.bytes 4 i.toUInt32.toNat
  | .float b => LittleEndian.bytes 4 b.toNat
  | .uint64 u => LittleEndian.bytes 8 u.toNat
  | .object es => encodeEntries es ++ [binEnd]

/-- The entries, one behind the other. -/
def encodeEntries : Entries → Bytes
  | [] => []
  | (k, v) :: es => (v.typeByte :: k ++ 0x00 :: v.payload) ++ encodeEntries es

end

/-- One entry. -/
def encodeEntry (k : Bytes) (v : Value) : Bytes := v.typeByte :: k ++ 0x00 :: v.payload

/-- The entries and the end marker of the document. -/
def BinDoc.encode (d : BinDoc) : Bytes := encodeEntries d.entries ++ [binEnd]

/-- Entries are written one behind the other. -/
theorem encodeEntries_cons (k : Bytes) (v : Value) (es : Entries) :
    encodeEntries ((k, v) :: es) = encodeEntry k v ++ encodeEntries es := rfl

/-- No value is announced by the end marker, so the loop does not stop at one. -/
theorem typeByte_ne_binEnd (v : Value) : v.typeByte ≠ binEnd := by
  cases v <;> simp [Value.typeByte, binEnd]

/-! ## Cuts between entries -/

/-- `p` ends where a type byte or an end marker should follow. -/
inductive AtBoundary : Entries → Bytes → Prop
  /-- nothing of the entries is left -/
  | stop (es : Entries) : AtBoundary es []
  /-- the first entry is whole -/
  | past {k : Bytes} {v : Value} {es : Entries} {p : Bytes} : AtBoundary es p →
      AtBoundary ((k, v) :: es) (encodeEntry k v ++ p)
  /-- the cut falls inside the nested object of the first entry -/
  | inside {k : Bytes} {es fs : Entries} {p : Bytes} : AtBoundary es p →
      AtBoundary ((k, .object es) :: fs) (0x00 :: k ++ 0x00 :: p)

end SteamMin.Vdf
