/-
  BLOCK MODES: a cipher on blocks, and the texts of any length one makes of it.

  A `Cipher` permutes the lists of length `n` and can mask one list with another.  `chain` encrypts
  block after block, each masked with the one before (cipher block chaining); `unchain` undoes it.
  A `Padding` writes a length at the end of a text and fills its last block with it.

  **The result** (`cbcDecrypt_eq_some_iff`): padding and chaining together lose nothing and leave no
  slack, so what is accepted is exactly what can be written.

  A mask is any family of involutions, so the chain is that of exclusive or and of any other
  self-inverse combination.  The length of a padding is written in every byte of it; a text that
  ends on a block boundary gets a whole block, which is why unpadding never has to guess.
-/
import Mathlib.Data.List.Basic
import Mathlib.Logic.Equiv.Basic

namespace BlockMode

/-! ## Ciphers -/

/-- A permutation of the blocks of length `n`, and a way to mask letters. -/
structure Cipher (α : Type) (n : Nat) where
  mask : α → α → α
  mask_mask : ∀ a b, mask a (mask a b) = b
  encrypt : List α → List α
  decrypt : List α → List α
  length_encrypt : ∀ block, block.length = n → (encrypt block).length = n
  length_decrypt : ∀ block, block.length = n → (decrypt block).length = n
  decrypt_encrypt : ∀ block, block.length = n → decrypt (encrypt block) = block
  encrypt_decrypt : ∀ block, block.length = n → encrypt (decrypt block) = block

namespace Cipher

variable {α : Type} {n : Nat} (c : Cipher α n)

/-- Letter by letter. -/
def maskBlock (iv block : List α) : List α := List.zipWith c.mask iv block

/-- Masking keeps the length of a block. -/
theorem length_maskBlock {iv block : List α} (hiv : iv.length = n) (hblock : block.length = n) :
    (c.maskBlock iv block).length = n := by
  rw [maskBlock, List.length_zipWith, hiv, hblock, Nat.min_self]

/-- Masking twice with one block undoes it. -/
theorem maskBlock_maskBlock (iv block : List α) (h : iv.length = block.length) :
    c.maskBlock iv (c.maskBlock iv block) = block := by
  induction iv generalizing block with
  | nil =>
    rw [List.length_nil] at h
    rw [List.eq_nil_of_length_eq_zero h.symm]
    rfl
  | cons a iv ih =>
    cases block with
    | nil => cases h
    | cons b block =>
      have htail := ih block (Nat.succ.inj h)
      show c.mask a (c.mask a b) :: c.maskBlock iv (c.maskBlock iv block) = b :: block
      rw [c.mask_mask, htail]

/-! ## Chaining -/

/-- `k` blocks of `data`, each masked with the block written before, the first with `iv`. -/
def chain : Nat → List α → List α → List α
  | 0, _, _ => []
  | k + 1, iv, data =>
    let block := c.encrypt (c.maskBlock iv (data.take n))
    block ++ chain k block (data.drop n)

/-- `k` blocks of `data`, each masked with the block read before, the first with `iv`. -/
def unchain : Nat → List α → List α → List α
  | 0, _, _ => []
  | k + 1, iv, data =>
    c.maskBlock iv (c.decrypt (data.take n)) ++ unchain k (data.take n) (data.drop n)

section
variable {k : Nat} {iv data : List α}

/-- A text of `k + 1` blocks is one block and `k` more. -/
theorem length_blocks (h : data.length = (k + 1) * n) :
    (data.take n).length = n ∧ (data.drop n).length = k * n := by
  rw [Nat.succ_mul] at h
  rw [List.length_take, List.length_drop]
  omega

/-- The cipher text has a block for every block of data. -/
theorem length_chain (hiv : iv.length = n) (hdata : data.length = k * n) :
    (c.chain k iv data).length = k * n := by
  induction k generalizing iv data with
  | zero =>
    rw [Nat.zero_mul]
    rfl
  | succ k ih =>
    obtain ⟨htake, hdrop⟩ := length_blocks hdata
    have hblock := c.length_encrypt _ (c.length_maskBlock hiv htake)
    rw [chain, List.length_append, hblock, ih hblock hdrop, Nat.succ_mul, Nat.add_comm]

/-- So has the plain text. -/
theorem length_unchain (hiv : iv.length = n) (hdata : data.length = k * n) :
    (c.unchain k iv data).length = k * n := by
  induction k generalizing iv data with
  | zero =>
    rw [Nat.zero_mul]
    rfl
  | succ k ih =>
    obtain ⟨htake, hdrop⟩ := length_blocks hdata
    have hblock := c.length_maskBlock hiv (c.length_decrypt _ htake)
    rw [unchain, List.length_append, hblock, ih htake hdrop, Nat.succ_mul, Nat.add_comm]

/-- Deciphering undoes enciphering, by induction on the blocks with the previous cipher block as
    state. -/
theorem unchain_chain (hiv : iv.length = n) (hdata : data.length = k * n) :
    c.unchain k iv (c.chain k iv data) = data := by
  induction k generalizing iv data with
  | zero =>
    rw [Nat.zero_mul] at hdata
    rw [List.eq_nil_of_length_eq_zero hdata]
    rfl
  | succ k ih =>
    obtain ⟨htake, hdrop⟩ := length_blocks hdata
    have hmasked := c.length_maskBlock hiv htake
    have hblock := c.length_encrypt _ hmasked
    rw [chain, unchain, List.take_left' hblock, List.drop_left' hblock, ih hblock hdrop,
      c.decrypt_encrypt _ hmasked, c.maskBlock_maskBlock _ _ (hiv.trans htake.symm),
      List.take_append_drop]

/-- And the other way round, so a chain is a bijection for every vector. -/
theorem chain_unchain (hiv : iv.length = n) (hdata : data.length = k * n) :
    c.chain k iv (c.unchain k iv data) = data := by
  induction k generalizing iv data with
  | zero =>
    rw [Nat.zero_mul] at hdata
    rw [List.eq_nil_of_length_eq_zero hdata]
    rfl
  | succ k ih =>
    obtain ⟨htake, hdrop⟩ := length_blocks hdata
    have hdecrypted := c.length_decrypt _ htake
    have hblock := c.length_maskBlock hiv hdecrypted
    rw [unchain, chain, List.take_left' hblock, List.drop_left' hblock,
      c.maskBlock_maskBlock _ _ (hiv.trans hdecrypted.symm), c.encrypt_decrypt _ htake,
      ih htake hdrop, List.take_append_drop]

end

/-! ## Permutations -/

/-- Exchange each pair of blocks. -/
def exchange [DecidableEq α] : List (List α × List α) → Equiv.Perm (List α)
  | [] => Equiv.refl _
  | pair :: pairs => (exchange pairs).trans (Equiv.swap pair.1 pair.2)

/-- Exchanging blocks for blocks keeps the length. -/
theorem length_exchange [DecidableEq α] {pairs : List (List α × List α)}
    (h : ∀ pair ∈ pairs, pair.1.length = n ∧ pair.2.length = n) (block : List α)
    (hblock : block.length = n) : (exchange pairs block).length = n := by
  induction pairs with
  | nil => exact hblock
  | cons pair pairs ih =>
    have hrest := ih fun p hp => h p (List.mem_cons_of_mem _ hp)
    obtain ⟨hfst, hsnd⟩ := h pair List.mem_cons_self
    rw [exchange, Equiv.trans_apply, Equiv.swap_apply_def]
    split
    · exact hsnd
    · split
      · exact hfst
      · exact hrest

/-- And back. -/
theorem length_exchange_symm [DecidableEq α] {pairs : List (List α × List α)}
    (h : ∀ pair ∈ pairs, pair.1.length = n ∧ pair.2.length = n) (block : List α)
    (hblock : block.length = n) : ((exchange pairs).symm block).length = n := by
  induction pairs generalizing block with
  | nil => exact hblock
  | cons pair pairs ih =>
    obtain ⟨hfst, hsnd⟩ := h pair List.mem_cons_self
    rw [exchange, Equiv.symm_trans_apply, Equiv.symm_swap]
    apply ih fun p hp => h p (List.mem_cons_of_mem _ hp)
    rw [Equiv.swap_apply_def]
    split
    · exact hsnd
    · split
      · exact hfst
      · exact hblock

/-- The cipher that exchanges some blocks. -/
def exchanging [DecidableEq α] (mask : α → α → α) (hmask : ∀ a b, mask a (mask a b) = b)
    (pairs : List (List α × List α))
    (h : ∀ pair ∈ pairs, pair.1.length = n ∧ pair.2.length = n) : Cipher α n where
  mask := mask
  mask_mask := hmask
  encrypt := exchange pairs
  decrypt := (exchange pairs).symm
  length_encrypt := length_exchange h
  length_decrypt := length_exchange_symm h
  decrypt_encrypt block _ := (exchange pairs).symm_apply_apply block
  encrypt_decrypt block _ := (exchange pairs).apply_symm_apply block

end Cipher

/-! ## Padding -/

/-- Letters for the numbers up to `n`. -/
structure Padding (α : Type) (n : Nat) where
  code : Nat → α
  number : α → Nat
  number_code : ∀ k, k ≤ n → number (code k) = k

namespace Padding

variable {α : Type} {n : Nat} (q : Padding α n)

/-- Fill the last block of `text`, or add one, with the number of letters added. -/
def pad (text : List α) : List α :=
  text ++ List.replicate (n - text.length % n) (q.code (n - text.length % n))

variable [DecidableEq α]

/-- Take off what the last letter says, if it is there. -/
def unpad (data : List α) : Option (List α) :=
  data.getLast?.bind fun last =>
    let k := q.number last
    if 0 < k ∧ k ≤ n ∧ n ∣ data.length ∧
        data.drop (data.length - k) = List.replicate k (q.code k) then
      some (data.take (data.length - k))
    else none

/-- Up to the next block there is only one length. -/
theorem fill_eq {k len : Nat} (hpos : 0 < k) (hle : k ≤ n) (hdvd : n ∣ len + k) :
    n - len % n = k := by
  have hmod := Nat.mod_lt len (Nat.lt_of_lt_of_le hpos hle)
  rw [← Nat.div_add_mod len n, Nat.add_assoc] at hdvd
  obtain ⟨m, hm⟩ := (Nat.dvd_add_right (Nat.dvd_mul_right n (len / n))).mp hdvd
  -- more than no block, and less than two
  rcases m with _ | _ | m
  · omega
  · omega
  · have htwo : n * 2 ≤ n * (m + 1 + 1) := Nat.mul_le_mul_left n (by omega)
    omega

omit [DecidableEq α] in
/-- Padding fills up to whole blocks and adds one where nothing is missing. -/
theorem length_pad (hn : 0 < n) (text : List α) :
    (q.pad text).length = (text.length / n + 1) * n := by
  have hdiv := Nat.div_add_mod' text.length n
  have hmod := Nat.mod_lt text.length hn
  rw [pad, List.length_append, List.length_replicate, Nat.succ_mul]
  omega

/-- **What can be unpadded is exactly what is padded.** -/
theorem unpad_eq_some_iff (hn : 0 < n) {data text : List α} :
    q.unpad data = some text ↔ data = q.pad text := by
  constructor
  · intro h
    obtain ⟨last, -, h⟩ := Option.bind_eq_some_iff.mp h
    dsimp only at h
    split at h
    · rename_i hpadded
      obtain ⟨hpos, hle, hdvd, hdrop⟩ := hpadded
      obtain rfl := Option.some.inj h
      have hlen := congrArg List.length hdrop
      rw [List.length_drop, List.length_replicate] at hlen
      -- the number is the one that fills the block
      have hk : n - (data.take (data.length - q.number last)).length % n = q.number last := by
        apply fill_eq hpos hle
        rw [List.length_take, Nat.min_eq_left (Nat.sub_le _ _)]
        rwa [show data.length - q.number last + q.number last = data.length by omega]
      rw [pad, hk, ← hdrop, List.take_append_drop]
    · cases h
  · rintro rfl
    have hmod := Nat.mod_lt text.length hn
    have hpos : 0 < n - text.length % n := by omega
    have hlast : (q.pad text).getLast? = some (q.code (n - text.length % n)) := by
      rw [pad, List.getLast?_append, List.getLast?_replicate, if_neg (by omega)]
      rfl
    rw [unpad, hlast, Option.bind_some, q.number_code _ (Nat.sub_le _ _)]
    have hlen : (q.pad text).length - (n - text.length % n) = text.length := by
      rw [pad, List.length_append, List.length_replicate, Nat.add_sub_cancel]
    have hdvd : n ∣ (q.pad text).length := ⟨text.length / n + 1, by
      rw [q.length_pad hn, Nat.mul_comm]⟩
    have hdrop : (q.pad text).drop text.length = List.replicate (n - text.length % n)
        (q.code (n - text.length % n)) := by
      rw [pad, List.drop_left]
    dsimp only
    rw [hlen, if_pos ⟨hpos, Nat.sub_le _ _, hdvd, hdrop⟩, pad, List.take_left]

end Padding

/-! ## Both together -/

section
variable {α : Type} {n : Nat} (c : Cipher α n) (q : Padding α n)

/-- Cipher block chaining of a padded text. -/
def cbcEncrypt (iv text : List α) : List α := c.chain (text.length / n + 1) iv (q.pad text)

/-- Deciphering with the padding checked: nothing for data that is not made of whole blocks or
    ends in no padding. -/
def cbcDecrypt [DecidableEq α] (iv data : List α) : Option (List α) :=
  if n ∣ data.length then q.unpad (c.unchain (data.length / n) iv data) else none

/-- The size of a cipher text, one block more than the whole blocks of the text. -/
theorem length_cbcEncrypt (hn : 0 < n) {iv : List α} (hiv : iv.length = n) (text : List α) :
    (cbcEncrypt c q iv text).length = (text.length / n + 1) * n :=
  c.length_chain hiv (q.length_pad hn text)

/-- **Decryption accepts exactly the image of encryption.** -/
theorem cbcDecrypt_eq_some_iff [DecidableEq α] (hn : 0 < n) {iv : List α} (hiv : iv.length = n)
    {data text : List α} :
    cbcDecrypt c q iv data = some text ↔ data = cbcEncrypt c q iv text := by
  constructor
  · intro h
    rw [cbcDecrypt] at h
    split at h
    · rename_i hdvd
      have hlen : data.length = data.length / n * n := (Nat.div_mul_cancel hdvd).symm
      have hpadded := (q.unpad_eq_some_iff hn).mp h
      -- as many blocks were read as the padded text has
      have hblocks : data.length / n = text.length / n + 1 := by
        have hsame := congrArg List.length hpadded
        rw [c.length_unchain hiv hlen, q.length_pad hn] at hsame
        exact Nat.eq_of_mul_eq_mul_right hn hsame
      rw [cbcEncrypt, ← hpadded, ← hblocks, c.chain_unchain hiv hlen]
    · cases h
  · rintro rfl
    have hlen := length_cbcEncrypt c q hn hiv text
    rw [cbcDecrypt, if_pos ⟨text.length / n + 1, by rw [hlen, Nat.mul_comm]⟩, hlen,
      Nat.mul_div_cancel _ hn, cbcEncrypt, c.unchain_chain hiv (q.length_pad hn text)]
    exact (q.unpad_eq_some_iff hn).mpr rfl

end

end BlockMode
