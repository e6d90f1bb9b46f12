/-
  THE BINARY PARSER — `src/utils/vdf/vdf_bin.cpp`.

  The readers share the cursor `size_t& pos`; they are written in the state monad whose state is
  `pos`, so the cursor stands where it was left also when a call ends in an exception.  `data` is
  the region the pointer points to and `size` the size the caller states; the two are separate
  because nothing in the code ties them together.  A read outside the region is
  `Fault.undefined`.  Sums of a cursor and a field width are taken in `Nat`: a cursor within a
  buffer never comes near the end of `size_t`.

  The loop of `read_cstring` gets one unit of fuel for each byte before `size`, so spent fuel is
  its own exit `pos >= size`.  `parse_object` ends in `Fault.diverges` when its fuel is spent,
  which never happens (`SteamMin.Vdf.BinaryCorrect`).
-/
import SteamMin.Vdf.Node
import SteamMin.Lib.LittleEndian
import SteamMin.Lib.Calls

namespace SteamMin.Vdf

/-- A call that moves the cursor. -/
abbrev Reader (α : Type) := EStateM Fault Nat α

namespace BinaryParser

variable (data : Bytes) (size : Nat)

/-- `throw std::runtime_error(what)` -/
def raise {α : Type} (what : String) : Reader α := throw (.throws (.runtimeError what))

/-- `data[pos]` -/
def peek : Reader Byte := do
  match data[← get]? with
  | some c => pure c
  | none => throw .undefined

/-- `pos += n` -/
def advance (n : Nat) : Reader Unit := modify (· + n)

/-- `while (pos < size && data[pos] != 0) s.push_back(data[pos++]);` -/
def cstringLoop : Nat → Bytes → Reader Bytes
  | 0, s => pure s
  | fuel + 1, s => do
    if (← get) < size then
      let c ← peek data
      if c != 0 then
        advance 1
        cstringLoop fuel (s ++ [c])
      else pure s
    else pure s

/-- `read_cstring`: the loop, and the terminator passed or the exception. -/
def readCstring : Reader Bytes := do
  let s ← cstringLoop data size (size - (← get)) []
  if size ≤ (← get) then
    raise "Unexpected end of buffer while reading cstring"
  else
    advance 1
    pure s

/-- `std::memcpy(&v, data + pos, n)` -/
def memcpy (n : Nat) : Reader Bytes := do
  let pos ← get
  if pos + n ≤ data.length then pure ((data.drop pos).take n) else throw .undefined

/-- What `read_int32`, `read_uint64` and `read_float` share: the bytes of an `n`-byte value. -/
def readField (n : Nat) (what : String) : Reader Bytes := do
  if size < (← get) + n then raise what
  else
    let v ← memcpy data n
    advance n
    pure v

/-- Four bytes copied into an `int32_t`. -/
def readInt32 : Reader Int32 := do
  let v ← readField data size 4 "Binary VDF overflow (int32)"
  pure (LittleEndian.word32 v).toInt32

/-- Eight bytes copied into a `uint64_t`. -/
def readUint64 : Reader UInt64 := do
  let v ← readField data size 8 "Binary VDF overflow (uint64)"
  pure (LittleEndian.word64 v)

/-- A float is its four bytes. -/
def readFloat : Reader UInt32 := do
  let v ← readField data size 4 "Binary VDF overflow (float)"
  pure (LittleEndian.word32 v)

/-- The `switch` of `parse_object`; `parseObject` is the recursive call. -/
def readValue (parseObject : Reader Object) (type : Byte) : Reader VDFNode :=
  match type.toNat with
  | 0x00 => return .object (← parseObject)
  | 0x01 => return .string (← readCstring data size)
  | 0x02 => return .int32 (← readInt32 data size)
  | 0x03 => return .float (← readFloat data size)
  | 0x07 => return .uint64 (← readUint64 data size)
  | _ => raise "Unknown binary VDF type"

/-- The loop of `parse_object`, with the object built so far. -/
def objectLoop : Nat → Object → Reader Object
  | 0, _ => throw .diverges
  | fuel + 1, obj => do
    if (← get) < size then
      let type ← peek data
      advance 1
      if type = 0x08 then pure obj
      else
        let key ← readCstring data size
        let val ← readValue data size (objectLoop fuel .empty) type
        objectLoop fuel (obj.set key val)
    else pure obj

/-- `parse_object`: every turn of the loop and every nested call takes at least one byte. -/
def parseObject : Reader Object := objectLoop data size (size + 1) .empty

end BinaryParser

/-- `parse_binary` -/
def parseBinary (data : Bytes) (size : Nat) : Except Fault Object :=
  match BinaryParser.parseObject data size 0 with
  | .ok obj _ => .ok obj
  | .error e _ => .error e

end SteamMin.Vdf
