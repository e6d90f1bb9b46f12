/-
  LITTLE-ENDIAN NUMBERS.

  A `w`-byte field holds a natural number below `256 ^ w`, least significant byte first.

  * `bytes w n` — the field that holds `n` (its high part is dropped when it does not fit);
  * `value bs`  — the number a field holds.

  A field of the right width holds the number that was put into it (`value_bytes_of_lt`).
  The last section reads the machine words of 4 and 8 bytes, for which nothing is ever dropped.

  Every number of the wire goes through these two functions: lengths and types of frames, words of
  headers and bodies, the numbers of binary documents, the checksum of the handshake.  The modules
  above them use the round trip, the width of a field, and the bound on its value.
-/
import Mathlib.Tactic.Ring
import Mathlib.Data.Nat.Basic

namespace LittleEndian

/-- The `w` low bytes of `n`. -/
def bytes : Nat → Nat → List UInt8
  | 0, _ => []
  | w + 1, n => UInt8.ofNat n :: bytes w (n / 256)

/-- The number held by a field. -/
def value : List UInt8 → Nat
  | [] => 0
  | b :: bs => b.toNat + 256 * value bs

/-- The width is the length. -/
@[simp] theorem length_bytes (w : Nat) : ∀ n, (bytes w n).length = w := by
  induction w with
  | zero => intro n; rfl
  | succ w ih => intro n; rw [bytes, List.length_cons, ih]

/-- Reading back is reducing modulo what the width can hold. -/
theorem value_bytes (w : Nat) : ∀ n, value (bytes w n) = n % 256 ^ w := by
  induction w with
  | zero => intro n; rw [bytes, value, pow_zero, Nat.mod_one]
  | succ w ih =>
    intro n
    have hlow : (UInt8.ofNat n).toNat = n % 256 := UInt8.toNat_ofNat'
    rw [bytes, value, ih, hlow, pow_succ', Nat.mod_mul]

/-- A number that fits is read back. -/
theorem value_bytes_of_lt {w n : Nat} (h : n < 256 ^ w) : value (bytes w n) = n := by
  rw [value_bytes, Nat.mod_eq_of_lt h]

/-- The value of some bytes fits their width. -/
theorem value_lt (bs : List UInt8) : value bs < 256 ^ bs.length := by
  induction bs with
  | nil => exact Nat.one_pos
  | cons b bs ih =>
    have hb := b.toNat_lt
    rw [value, List.length_cons, pow_succ']
    omega

/-- A field is made of the number it holds. -/
theorem bytes_value (bs : List UInt8) : bytes bs.length (value bs) = bs := by
  induction bs with
  | nil => rfl
  | cons b bs ih =>
    have hb := b.toNat_lt
    have hlow : UInt8.ofNat (b.toNat + 256 * value bs) = b := by
      apply UInt8.toNat_inj.mp
      rw [UInt8.toNat_ofNat']
      omega
    rw [value, List.length_cons, bytes, hlow,
      show (b.toNat + 256 * value bs) / 256 = value bs by omega, ih]

/-- The `i`-th byte is the `i`-th digit. -/
theorem bytes_eq_map (w n : Nat) :
    bytes w n = (List.range w).map fun i => UInt8.ofNat (n / 256 ^ i) := by
  induction w generalizing n with
  | zero => rfl
  | succ w ih =>
    rw [bytes, ih, List.range_succ_eq_map]
    simp [pow_succ', Nat.div_div_eq_div_mul]

/-! ## Machine words -/

/-- The word in a 4-byte field. -/
def word32 (bs : List UInt8) : UInt32 := UInt32.ofNat (value bs)

/-- The word in an 8-byte field. -/
def word64 (bs : List UInt8) : UInt64 := UInt64.ofNat (value bs)

/-- A 32-bit word is read back from its bytes. -/
theorem word32_bytes (v : UInt32) : word32 (bytes 4 v.toNat) = v := by
  rw [word32, value_bytes_of_lt (show v.toNat < 256 ^ 4 from v.toNat_lt), UInt32.ofNat_toNat]

/-- The four bytes of a word. -/
theorem bytes_word32 {bs : List UInt8} (h : bs.length = 4) : bytes 4 (word32 bs).toNat = bs := by
  have hlt : value bs < 2 ^ 32 := by
    have hvalue := value_lt bs
    rwa [h] at hvalue
  rw [word32, UInt32.toNat_ofNat_of_lt' hlt, ← h, bytes_value]

/-- A 64-bit word is read back from its bytes. -/
theorem word64_bytes (v : UInt64) : word64 (bytes 8 v.toNat) = v := by
  rw [word64, value_bytes_of_lt (show v.toNat < 256 ^ 8 from v.toNat_lt), UInt64.ofNat_toNat]

/-- The eight bytes of a word. -/
theorem bytes_word64 {bs : List UInt8} (h : bs.length = 8) : bytes 8 (word64 bs).toNat = bs := by
  have hlt : value bs < 2 ^ 64 := by
    have hvalue := value_lt bs
    rwa [h] at hvalue
  rw [word64, UInt64.toNat_ofNat_of_lt' hlt, ← h, bytes_value]

/-- Bits above the others are added to them. -/
theorem or_shiftLeft {low k : Nat} (h : low < 2 ^ k) (high : Nat) :
    low ||| high <<< k = low + high * 2 ^ k := by
  rw [Nat.or_comm, ← Nat.shiftLeft_add_eq_or_of_lt h, Nat.shiftLeft_eq, Nat.add_comm]

/-- The word that is assembled from four bytes with shifts. -/
theorem word32_eq_or (a b c d : UInt8) :
    a.toUInt32 ||| (b.toUInt32 <<< 8) ||| (c.toUInt32 <<< 16) ||| (d.toUInt32 <<< 24)
      = word32 [a, b, c, d] := by
  have ha := a.toNat_lt
  have hb := b.toNat_lt
  have hc := c.toNat_lt
  have hd := d.toNat_lt
  -- no byte is shifted out of the word
  have hshift : ∀ (x : UInt8) (k : UInt32), x.toNat * 2 ^ k.toNat < 2 ^ 32 → k.toNat < 32 →
      (x.toUInt32 <<< k).toNat = x.toNat <<< k.toNat := by
    intro x k hx hk
    rw [UInt32.toNat_shiftLeft, UInt8.toNat_toUInt32, Nat.mod_eq_of_lt hk, Nat.mod_eq_of_lt]
    rw [Nat.shiftLeft_eq]
    exact hx
  apply UInt32.toNat_inj.mp
  rw [UInt32.toNat_or, UInt32.toNat_or, UInt32.toNat_or,
    hshift b 8 (show b.toNat * 2 ^ 8 < 2 ^ 32 by omega) (by decide),
    hshift c 16 (show c.toNat * 2 ^ 16 < 2 ^ 32 by omega) (by decide),
    hshift d 24 (show d.toNat * 2 ^ 24 < 2 ^ 32 by omega) (by decide), UInt8.toNat_toUInt32]
  show a.toNat ||| b.toNat <<< 8 ||| c.toNat <<< 16 ||| d.toNat <<< 24 = _
  rw [or_shiftLeft (show a.toNat < 2 ^ 8 from ha),
    or_shiftLeft (show a.toNat + b.toNat * 2 ^ 8 < 2 ^ 16 by omega),
    or_shiftLeft (show a.toNat + b.toNat * 2 ^ 8 + c.toNat * 2 ^ 16 < 2 ^ 24 by omega), word32,
    UInt32.toNat_ofNat']
  simp only [value]
  omega

end LittleEndian
