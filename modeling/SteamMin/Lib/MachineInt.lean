/-
  MACHINE INTEGERS AND THEIR BYTES.

  `IntType` are the signed and unsigned integers of 1, 2, 4 and 8 bytes of C++; a value is its bits.
  Two ways to turn a value into bytes and back:

  * with shifts (`shiftBytes`, `assemble`), where every operand is promoted first: what is narrower
    than `int` becomes an `int`, with its sign if it has one, `>>` of a signed type repeats the sign
    bit, and the result is cut to the type it is stored in;
  * by its memory (`memory`, `ofMemory`), in the byte order of the host.

  Either is inverse to itself on every host (`assemble_shiftBytes`, `ofMemory_memory`), and on a
  little-endian host they write the same bytes (`memory_little`).
-/
import SteamMin.Lib.LittleEndian
import Mathlib.Data.List.Basic

namespace MachineInt

/-- The fixed-width integers of the language, signed and unsigned. -/
inductive IntType
  | int8
  | uint8
  | int16
  | uint16
  | int32
  | uint32
  | int64
  | uint64
  deriving DecidableEq

/-- The byte order of a host. -/
inductive ByteOrder
  | little
  | big
  deriving DecidableEq

namespace IntType

/-- `sizeof` -/
def size : IntType → Nat
  | .int8 | .uint8 => 1
  | .int16 | .uint16 => 2
  | .int32 | .uint32 => 4
  | .int64 | .uint64 => 8

/-- Which of them have a sign. -/
def signed : IntType → Bool
  | .int8 | .int16 | .int32 | .int64 => true
  | .uint8 | .uint16 | .uint32 | .uint64 => false

/-- In bits. -/
abbrev width (t : IntType) : Nat := 8 * t.size

/-- The bits of a value. -/
abbrev Value (t : IntType) : Type := BitVec t.width

/-! ## Arithmetic -/

/-- The type an operand is promoted to has at least the width of `int`. -/
def promotedWidth (t : IntType) : Nat := max t.width 32

/-- It is signed also where it is wider than the type, as `int` holds all its values then. -/
def promotedSigned (t : IntType) : Bool := t.signed || t.width < 32

/-- Integer promotion: narrow types are extended to the width of `int`, by their sign. -/
def promote (t : IntType) (v : t.Value) : BitVec t.promotedWidth :=
  if t.signed then v.signExtend t.promotedWidth else v.setWidth t.promotedWidth

/-- `x >> n` -/
def shiftRight (t : IntType) (x : BitVec t.promotedWidth) (n : Nat) : BitVec t.promotedWidth :=
  if t.promotedSigned then x.sshiftRight n else x >>> n

/-- `static_cast<unsigned char>((v >> (8 * i)) & 0xFF)` -/
def byteAt (t : IntType) (v : t.Value) (i : Nat) : UInt8 :=
  UInt8.ofBitVec ((t.shiftRight (t.promote v) (8 * i) &&& BitVec.ofNat _ 0xFF).setWidth 8)

/-- `value |= static_cast<T>(b) << (8 * i)` -/
def orByte (t : IntType) (value : t.Value) (b : UInt8) (i : Nat) : t.Value :=
  (t.promote value ||| t.promote (b.toBitVec.setWidth t.width) <<< (8 * i)).setWidth t.width

/-! ## With shifts -/

/-- The bytes of a value, low ones first. -/
def shiftBytes (t : IntType) (v : t.Value) : List UInt8 := (List.range t.size).map (t.byteAt v)

/-- The value that is put together from its bytes. -/
def assemble (t : IntType) (bs : List UInt8) : t.Value :=
  bs.zipIdx.foldl (fun value b => t.orByte value b.1 b.2) 0

/-! ## By memory -/

/-- The bytes of an object, as they lie in memory. -/
def memory (order : ByteOrder) (t : IntType) (v : t.Value) : List UInt8 :=
  match order with
  | .little => LittleEndian.bytes t.size v.toNat
  | .big => (LittleEndian.bytes t.size v.toNat).reverse

/-- The object that has these bytes in memory. -/
def ofMemory (order : ByteOrder) (t : IntType) (bs : List UInt8) : t.Value :=
  match order with
  | .little => BitVec.ofNat _ (LittleEndian.value bs)
  | .big => BitVec.ofNat _ (LittleEndian.value bs.reverse)

/-! ## Promotion keeps the bits -/

variable {t : IntType}

/-- Promotion never narrows. -/
theorem width_le_promotedWidth (t : IntType) : t.width ≤ t.promotedWidth := Nat.le_max_left _ _

/-- Promotion keeps the bits of the value. -/
theorem getLsbD_promote (v : t.Value) {i : Nat} (h : i < t.width) :
    (t.promote v).getLsbD i = v.getLsbD i := by
  have hwide := t.width_le_promotedWidth
  have hi : i < t.promotedWidth := by omega
  unfold promote
  split
  · rw [BitVec.getLsbD_signExtend]
    simp [h, hi]
  · simp [hi]

/-- Converting back gives the value. -/
theorem setWidth_promote (v : t.Value) : (t.promote v).setWidth t.width = v := by
  refine BitVec.eq_of_getLsbD_eq fun i hi => ?_
  rw [BitVec.getLsbD_setWidth, getLsbD_promote v hi]
  simp [hi]

/-- Inside the value both shifts give its bits. -/
theorem getLsbD_shiftRight (v : t.Value) {n i : Nat} (h : n + i < t.width) :
    (t.shiftRight (t.promote v) n).getLsbD i = v.getLsbD (n + i) := by
  have hwide := t.width_le_promotedWidth
  have hi : n + i < t.promotedWidth := by omega
  have hlow : ¬ t.promotedWidth ≤ i := by omega
  unfold shiftRight
  split
  · rw [BitVec.getLsbD_sshiftRight, getLsbD_promote v h]
    simp [hi, hlow]
  · rw [BitVec.getLsbD_ushiftRight, getLsbD_promote v h]

/-! ## Bytes and shifts -/

/-- The bytes of a value by shifting and masking are its digits to the base 256, signed or not:
    the mask takes away what the sign was shifted into. -/
theorem byteAt_eq (v : t.Value) {i : Nat} (h : i < t.size) :
    t.byteAt v i = UInt8.ofNat (v.toNat / 256 ^ i) := by
  apply UInt8.toBitVec_inj.mp
  refine BitVec.eq_of_getLsbD_eq fun j hj => ?_
  have hinside : 8 * i + j < t.width := by
    show 8 * i + j < 8 * t.size
    omega
  have hpow : (256 : Nat) ^ i = 2 ^ (8 * i) := by
    rw [show 256 = 2 ^ 8 from rfl, pow_mul]
  have hwide := t.width_le_promotedWidth
  have hmask : (BitVec.ofNat t.promotedWidth 0xFF).getLsbD j = true := by
    have hj' : j < t.promotedWidth := by omega
    rw [BitVec.getLsbD_ofNat, Nat.testBit_two_pow_sub_one (n := 8)]
    simp [hj, hj']
  show ((t.shiftRight (t.promote v) (8 * i) &&& BitVec.ofNat _ 0xFF).setWidth 8).getLsbD j
    = (BitVec.ofNat 8 (v.toNat / 256 ^ i)).getLsbD j
  rw [BitVec.getLsbD_setWidth, BitVec.getLsbD_and, getLsbD_shiftRight v hinside, hmask,
    BitVec.getLsbD_ofNat, hpow, Nat.testBit_div_two_pow]
  simp [BitVec.getLsbD, Nat.add_comm]

/-- **The shifted bytes** are the low bytes of the number. -/
theorem shiftBytes_eq (v : t.Value) : t.shiftBytes v = LittleEndian.bytes t.size v.toNat := by
  rw [LittleEndian.bytes_eq_map]
  refine List.map_congr_left fun i hi => ?_
  exact byteAt_eq v (List.mem_range.mp hi)

/-- The bytes of a natural number that fits. -/
theorem shiftBytes_ofNat {n : Nat} (h : n < 2 ^ t.width) :
    t.shiftBytes (BitVec.ofNat _ n) = LittleEndian.bytes t.size n := by
  rw [shiftBytes_eq, BitVec.toNat_ofNat, Nat.mod_eq_of_lt h]

/-- As many bytes as the type has. -/
@[simp] theorem length_shiftBytes (v : t.Value) : (t.shiftBytes v).length = t.size := by
  simp [shiftBytes]

/-- One more byte: the bits of the others and its own do not meet. -/
theorem toNat_orByte {value : t.Value} {b : UInt8} {i : Nat} (hvalue : value.toNat < 256 ^ i)
    (hi : i < t.size) : (t.orByte value b i).toNat = value.toNat + 256 ^ i * b.toNat := by
  have hpow : (256 : Nat) ^ i = 2 ^ (8 * i) := by
    rw [show 256 = 2 ^ 8 from rfl, pow_mul]
  have hb := b.toNat_lt
  have hsize : 256 ^ i * b.toNat < 2 ^ t.width := by
    calc 256 ^ i * b.toNat < 256 ^ i * 256 := by
          exact Nat.mul_lt_mul_of_pos_left hb (Nat.pow_pos (by decide))
      _ = 256 ^ (i + 1) := (pow_succ _ _).symm
      _ ≤ 256 ^ t.size := Nat.pow_le_pow_right (by decide) hi
      _ = 2 ^ t.width := by rw [show 256 = 2 ^ 8 from rfl, ← pow_mul]
  have hbyte : b.toNat < 2 ^ t.width := by
    have hone := Nat.le_mul_of_pos_left b.toNat (show 0 < 256 ^ i from Nat.pow_pos (by decide))
    omega
  have hvalue' : value.toNat < 2 ^ (8 * i) := by
    rw [← hpow]
    exact hvalue
  have hshift : b.toNat <<< (8 * i) < 2 ^ t.width := by
    rw [Nat.shiftLeft_eq, ← hpow, Nat.mul_comm]
    exact hsize
  rw [orByte, BitVec.setWidth_or, setWidth_promote,
    BitVec.setWidth_shiftLeft_of_le t.width_le_promotedWidth, setWidth_promote, BitVec.toNat_or,
    BitVec.toNat_shiftLeft, BitVec.toNat_setWidth, UInt8.toNat_toBitVec, Nat.mod_eq_of_lt hbyte,
    Nat.mod_eq_of_lt hshift, LittleEndian.or_shiftLeft hvalue', ← hpow, Nat.mul_comm]

/-- The loop from its `i`-th round on: what was assembled, and the other bytes above it. -/
theorem toNat_assemble_from (bs : List UInt8) {value : t.Value} {i : Nat}
    (hvalue : value.toNat < 256 ^ i) (hsize : i + bs.length ≤ t.size) :
    ((bs.zipIdx i).foldl (fun value b => t.orByte value b.1 b.2) value).toNat
      = value.toNat + 256 ^ i * LittleEndian.value bs := by
  induction bs generalizing value i with
  | nil => simp [LittleEndian.value]
  | cons b bs ih =>
    rw [List.length_cons] at hsize
    have hi : i < t.size := by omega
    have hone := toNat_orByte (b := b) hvalue hi
    have hb := b.toNat_lt
    have hnext : (t.orByte value b i).toNat < 256 ^ (i + 1) := by
      rw [hone, pow_succ]
      have hle : 256 ^ i * b.toNat ≤ 256 ^ i * 255 := Nat.mul_le_mul_left _ (by omega)
      omega
    rw [List.zipIdx_cons, List.foldl_cons, ih hnext (by omega), hone, LittleEndian.value, pow_succ]
    ring

/-- **The assembled value** is the number in the bytes. -/
theorem toNat_assemble {bs : List UInt8} (h : bs.length = t.size) :
    (t.assemble bs).toNat = LittleEndian.value bs := by
  have hzero : (0 : t.Value).toNat < 256 ^ 0 := by simp
  rw [assemble, toNat_assemble_from bs hzero (by omega)]
  simp

/-- Putting bytes together by shifting and `|=` is reading them to the base 256. -/
theorem assemble_eq {bs : List UInt8} (h : bs.length = t.size) :
    t.assemble bs = BitVec.ofNat _ (LittleEndian.value bs) := by
  rw [← toNat_assemble h, BitVec.ofNat_toNat, BitVec.setWidth_eq]

/-- A value is determined by its bytes. -/
theorem ofNat_toNat_value (v : t.Value) :
    BitVec.ofNat t.width (LittleEndian.value (LittleEndian.bytes t.size v.toNat)) = v := by
  have hlt : v.toNat < 256 ^ t.size := by
    rw [show 256 = 2 ^ 8 from rfl, ← pow_mul]
    exact v.isLt
  rw [LittleEndian.value_bytes_of_lt hlt, BitVec.ofNat_toNat, BitVec.setWidth_eq]

/-- What was written with shifts is read with shifts. -/
theorem assemble_shiftBytes (v : t.Value) : t.assemble (t.shiftBytes v) = v := by
  rw [assemble_eq (length_shiftBytes v), shiftBytes_eq, ofNat_toNat_value]

/-! ## Memory -/

/-- The representation of a value has the size of its type, in either order. -/
@[simp] theorem length_memory (order : ByteOrder) (v : t.Value) :
    (t.memory order v).length = t.size := by
  cases order <;> simp [memory]

/-- An object is copied through its memory. -/
theorem ofMemory_memory (order : ByteOrder) (v : t.Value) :
    t.ofMemory order (t.memory order v) = v := by
  cases order with
  | little => exact ofNat_toNat_value v
  | big =>
    rw [memory, ofMemory, List.reverse_reverse]
    exact ofNat_toNat_value v

/-- On a little-endian host the two ways write the same bytes. -/
theorem memory_little (v : t.Value) : t.memory .little v = t.shiftBytes v :=
  (shiftBytes_eq v).symm

end IntType

end MachineInt
