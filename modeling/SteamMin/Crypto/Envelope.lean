/-
  THE ENVELOPE IS A CODE WITHOUT SLACK.

  Encryption and decryption are written separately: the one computes the HMAC before there is a
  ciphertext, the other after; both cut the IV at the same two places, and the length of the output
  is computed apart from what is written to it.

  What the code relies on is `CryptoPP.Lawful`: AES permutes the blocks, CBC with PKCS padding
  accepts exactly what it writes, HMAC-SHA1 has twenty bytes.  Any permutation of the blocks with
  the CBC mode and the padding of `SteamMin.Lib.BlockMode` is like that (`lawful_ofCipher`).

  * `symmetricEncryptHmacIv_eq` — what is written, byte by byte;
  * `envelope_exact` — decryption accepts exactly that, and gives back what was sealed.

  That the two are exact inverses takes more than a round trip in each direction: an input that
  opens has to be the one that sealing would have produced with the three random bytes found in
  its vector.  This is where the check of the hash comes in (`eq_envelope_of_decrypt`).
-/
import SteamMin.Crypto.EncryptionManager
import SteamMin.Lib.BlockMode

namespace SteamMin.Crypto

/-! ## What is assumed of Crypto++

  Under a key of 32 bytes, decryption and encryption are inverse to each other, and outputs have
  their documented sizes.  Any block cipher, in the modes of the general theory, gives such a
  library. -/

/-- The ciphers under 32-byte keys, and the digest. -/
structure CryptoPP.Lawful (c : CryptoPP) : Prop where
  length_ecbEncrypt : ∀ key block, key.length = 32 → block.length = 16 →
    (c.ecbEncrypt key block).length = 16
  length_ecbDecrypt : ∀ key block, key.length = 32 → block.length = 16 →
    (c.ecbDecrypt key block).length = 16
  ecbDecrypt_ecbEncrypt : ∀ key block, key.length = 32 → block.length = 16 →
    c.ecbDecrypt key (c.ecbEncrypt key block) = block
  ecbEncrypt_ecbDecrypt : ∀ key block, key.length = 32 → block.length = 16 →
    c.ecbEncrypt key (c.ecbDecrypt key block) = block
  length_cbcEncrypt : ∀ key iv text, key.length = 32 → iv.length = 16 →
    (c.cbcEncrypt key iv text).length = (text.length / 16 + 1) * 16
  cbcDecrypt_eq_ok_iff : ∀ key iv data text, key.length = 32 → iv.length = 16 →
    (c.cbcDecrypt key iv data = .ok text ↔ data = c.cbcEncrypt key iv text)
  length_hmacSha1 : ∀ key data, (c.hmacSha1 key data).length = 20

/-- PKCS padding of 16-byte blocks. -/
def pkcs : BlockMode.Padding Byte 16 where
  code := UInt8.ofNat
  number := UInt8.toNat
  number_code k hk := by
    rw [UInt8.toNat_ofNat']
    omega

/-- Bytes are masked with exclusive or. -/
theorem xor_xor_byte (a b : Byte) : a ^^^ (a ^^^ b) = b := by
  rw [← UInt8.xor_assoc, UInt8.xor_self, UInt8.zero_xor]

/-- The modes of a block cipher, and a digest. -/
def CryptoPP.ofCipher (cipher : Bytes → BlockMode.Cipher Byte 16) (hmacSha1 : Bytes → Bytes → Bytes)
    (crc32 : Bytes → UInt32)
    (rsaesOaepSha : Bytes → Bytes → RandomPool → Except String Bytes × RandomPool)
    (gunzip : Bytes → Except String Bytes) : CryptoPP where
  ecbEncrypt key data := (cipher key).encrypt data
  ecbDecrypt key data := (cipher key).decrypt data
  cbcEncrypt key iv text := BlockMode.cbcEncrypt (cipher key) pkcs iv text
  cbcDecrypt key iv data := (BlockMode.cbcDecrypt (cipher key) pkcs iv data).elim
    (.error "StreamTransformationFilter: invalid PKCS #7 block padding found") .ok
  hmacSha1 := hmacSha1
  crc32 := crc32
  rsaesOaepSha := rsaesOaepSha
  gunzip := gunzip

/-- Every block cipher with padding and any functions of the right sizes make a lawful library. -/
theorem lawful_ofCipher {cipher : Bytes → BlockMode.Cipher Byte 16}
    {hmacSha1 : Bytes → Bytes → Bytes} (hhmac : ∀ key data, (hmacSha1 key data).length = 20)
    (crc32 : Bytes → UInt32)
    (rsaesOaepSha : Bytes → Bytes → RandomPool → Except String Bytes × RandomPool)
    (gunzip : Bytes → Except String Bytes) :
    (CryptoPP.ofCipher cipher hmacSha1 crc32 rsaesOaepSha gunzip).Lawful where
  length_ecbEncrypt key block _ := (cipher key).length_encrypt block
  length_ecbDecrypt key block _ := (cipher key).length_decrypt block
  ecbDecrypt_ecbEncrypt key block _ := (cipher key).decrypt_encrypt block
  ecbEncrypt_ecbDecrypt key block _ := (cipher key).encrypt_decrypt block
  length_cbcEncrypt key iv text _ hiv :=
    BlockMode.length_cbcEncrypt (cipher key) pkcs (by decide) hiv text
  cbcDecrypt_eq_ok_iff key iv data text _ hiv := by
    have hiff : BlockMode.cbcDecrypt (cipher key) pkcs iv data = some text ↔
        data = BlockMode.cbcEncrypt (cipher key) pkcs iv text :=
      BlockMode.cbcDecrypt_eq_some_iff (cipher key) pkcs (by decide) hiv
    refine Iff.trans ?_ hiff
    show (BlockMode.cbcDecrypt (cipher key) pkcs iv data).elim (Except.error _) Except.ok
      = Except.ok text ↔ _
    cases BlockMode.cbcDecrypt (cipher key) pkcs iv data with
    | some text' =>
      rw [Option.elim_some, Except.ok.injEq, Option.some.injEq]
    | none => exact iff_of_false (fun h => by cases h) (fun h => by cases h)
  length_hmacSha1 := hhmac

/-- A pool that gives out `random`. -/
def RandomPool.giving (random : Bytes) : RandomPool where
  tape i := random.getD i 0

namespace Helpers

variable {c : CryptoPP} {key secret : Bytes}

/-! ## What is written

  The output of `symmetric_encrypt_hmac_iv` as one expression: the enciphered vector, and behind
  it the cipher text. -/

/-- The IV over a plaintext and three random bytes. -/
def ivOf (c : CryptoPP) (secret text random : Bytes) : Bytes :=
  (c.hmacSha1 secret (random ++ text)).take HASH_LENGTH ++ random

/-- An encrypted frame. -/
def envelope (c : CryptoPP) (key secret text random : Bytes) : Bytes :=
  c.ecbEncrypt key (ivOf c secret text random) ++ c.cbcEncrypt key (ivOf c secret text random) text

/-- A vector is one block. -/
theorem length_ivOf (hc : c.Lawful) {random : Bytes} (hrandom : random.length = IV_RAND_LENGTH)
    (text : Bytes) : (ivOf c secret text random).length = IV_LENGTH := by
  rw [ivOf, List.length_append, List.length_take, hc.length_hmacSha1, hrandom]
  rfl

/-- Its last bytes are the random ones. -/
theorem drop_ivOf (hc : c.Lawful) (text random : Bytes) :
    (ivOf c secret text random).drop HASH_LENGTH = random := by
  rw [ivOf, List.drop_left']
  rw [List.length_take, hc.length_hmacSha1]
  rfl

/-- A copy that fits. -/
theorem memcpy_eq {dst src : Bytes} {offset : Nat} (h : offset + src.length ≤ dst.length) :
    memcpy dst offset src
      = .ok (dst.take offset ++ src ++ dst.drop (offset + src.length)) := if_pos h

/-- What `generate_iv` returns, and what it leaves of the pool. -/
theorem generateIv_eq (hc : c.Lawful) (text : Bytes) (pool : RandomPool) :
    generateIv c text secret pool
      = .ok (ivOf c secret text ((List.range IV_RAND_LENGTH).map pool.tape))
          ⟨fun i => pool.tape (IV_RAND_LENGTH + i)⟩ := by
  have hrandom : ((List.range IV_RAND_LENGTH).map pool.tape).length = IV_RAND_LENGTH := by
    rw [List.length_map, List.length_range]
  have hblock : RandomPool.generateBlock IV_RAND_LENGTH pool
      = .ok ((List.range IV_RAND_LENGTH).map pool.tape)
        ⟨fun i => pool.tape (IV_RAND_LENGTH + i)⟩ := rfl
  rw [generateIv, Calls.bind_ok hblock]
  generalize (List.range IV_RAND_LENGTH).map pool.tape = random at hrandom ⊢
  -- the random bytes go to the end of the IV
  have hend : memcpy (List.replicate IV_LENGTH 0) HASH_LENGTH random
      = .ok (List.replicate HASH_LENGTH 0 ++ random) := by
    rw [memcpy_eq (by rw [hrandom]; decide), hrandom]
    exact congrArg Except.ok (List.append_nil _)
  have hzeros : (List.replicate HASH_LENGTH (0 : Byte)).length = HASH_LENGTH :=
    List.length_replicate
  rw [Calls.bind_ok (Calls.lift_ok hend _)]
  -- and the digest over them to its front
  have hdigest : hmacOf c text (List.replicate HASH_LENGTH 0 ++ random) secret
      = c.hmacSha1 secret (random ++ text) := by
    rw [hmacOf, List.drop_left' hzeros, List.take_of_length_le (Nat.le_of_eq hrandom)]
  have hlen : ((c.hmacSha1 secret (random ++ text)).take HASH_LENGTH).length = HASH_LENGTH := by
    rw [List.length_take, hc.length_hmacSha1]
    rfl
  rw [hdigest]
  apply Calls.lift_ok
  rw [memcpy_eq (by rw [hlen, List.length_append, hzeros]; omega), hlen, List.take_zero,
    List.nil_append, Nat.zero_add, List.drop_left' hzeros, ivOf]

/-- **What encryption writes**: nothing is copied past the end of the output, and the output is
    written to its end. -/
theorem symmetricEncryptHmacIv_eq (hc : c.Lawful) (hkey : key.length = 32) (text : Bytes)
    (pool : RandomPool) :
    symmetricEncryptHmacIv c text key secret pool
      = .ok (envelope c key secret text ((List.range IV_RAND_LENGTH).map pool.tape))
          ⟨fun i => pool.tape (IV_RAND_LENGTH + i)⟩ := by
  have hrandom : ((List.range IV_RAND_LENGTH).map pool.tape).length = IV_RAND_LENGTH := by
    rw [List.length_map, List.length_range]
  rw [symmetricEncryptHmacIv, Calls.bind_ok (generateIv_eq hc text pool)]
  generalize (List.range IV_RAND_LENGTH).map pool.tape = random at hrandom ⊢
  have hiv : (ivOf c secret text random).length = IV_LENGTH := length_ivOf hc hrandom text
  rw [envelope]
  generalize ivOf c secret text random = iv at hiv ⊢
  have hfirst : (c.ecbEncrypt key iv).length = IV_LENGTH := hc.length_ecbEncrypt key iv hkey hiv
  have hcipher := hc.length_cbcEncrypt key iv text hkey hiv
  have hzeros : (List.replicate (calculateMaxEncryptedLength text.length) (0 : Byte)).length
      = IV_LENGTH + (c.cbcEncrypt key iv text).length := by
    rw [List.length_replicate, hcipher, ← Nat.add_div_right _ (by decide)]
    rfl
  generalize List.replicate (calculateMaxEncryptedLength text.length) (0 : Byte) = output
    at hzeros ⊢
  -- the IV fills the first block of the output
  have hfront : memcpy output 0 ((c.ecbEncrypt key iv).take IV_LENGTH)
      = .ok (c.ecbEncrypt key iv ++ output.drop IV_LENGTH) := by
    rw [List.take_of_length_le (Nat.le_of_eq hfirst), memcpy_eq (by omega), hfirst]
    rfl
  rw [Calls.bind_ok (Calls.lift_ok hfront _)]
  -- and the ciphertext the rest
  have hrest : memcpy (c.ecbEncrypt key iv ++ output.drop IV_LENGTH) IV_LENGTH
      (c.cbcEncrypt key iv text) = .ok (c.ecbEncrypt key iv ++ c.cbcEncrypt key iv text) := by
    have hlen : (c.ecbEncrypt key iv ++ output.drop IV_LENGTH).length
        = IV_LENGTH + (c.cbcEncrypt key iv text).length := by
      rw [List.length_append, hfirst, List.length_drop, hzeros, Nat.add_sub_cancel_left]
    rw [memcpy_eq (Nat.le_of_eq hlen.symm), List.take_left' hfirst, ← hlen, List.drop_length,
      List.append_nil]
  rw [Calls.bind_ok (Calls.lift_ok hrest _)]
  have hwhole : (c.ecbEncrypt key iv ++ c.cbcEncrypt key iv text).take
      (IV_LENGTH + (c.cbcEncrypt key iv text).length)
      = c.ecbEncrypt key iv ++ c.cbcEncrypt key iv text := by
    apply List.take_of_length_le
    rw [List.length_append, hfirst]
  rw [hwhole]
  rfl

/-! ## What is accepted

  Decryption checks the digest in the vector against the plain text it has recovered, so it
  accepts the envelopes and nothing else. -/

/-- The IV of an encrypted frame, as the receiver sees it. -/
def openedIv (c : CryptoPP) (key input : Bytes) : Bytes := c.ecbDecrypt key (input.take IV_LENGTH)

/-- The opened vector is one block. -/
theorem length_openedIv (hc : c.Lawful) (hkey : key.length = 32) {input : Bytes}
    (hinput : IV_LENGTH ≤ input.length) : (openedIv c key input).length = IV_LENGTH :=
  hc.length_ecbDecrypt key _ hkey (List.length_take_of_le hinput)

/-- A sink of the right size takes everything. -/
theorem arraySink_eq {size : Nat} {data : Bytes} (h : data.length = size) :
    arraySink size data = data := by
  rw [arraySink, List.take_of_length_le (Nat.le_of_eq h), h, Nat.sub_self]
  exact List.append_nil data

/-- The receiver recomputes the digest under the random end of the IV. -/
theorem hmacOf_eq {iv : Bytes} (hiv : iv.length = IV_LENGTH) (text : Bytes) :
    hmacOf c text iv secret = c.hmacSha1 secret (iv.drop HASH_LENGTH ++ text) := by
  rw [hmacOf, List.take_of_length_le]
  rw [List.length_drop, hiv]
  decide

/-- An IV is valid for one plaintext: the one it was made over. -/
theorem validateIv_iff {iv : Bytes} (hiv : iv.length = IV_LENGTH) (text : Bytes) :
    validateIv c text iv secret = true ↔ iv = ivOf c secret text (iv.drop HASH_LENGTH) := by
  rw [validateIv, decide_eq_true_iff, hmacOf_eq hiv, ivOf]
  constructor
  · intro h
    rw [h, List.take_append_drop]
  · intro h
    refine List.append_cancel_right (Eq.trans h.symm ?_)
    exact (List.take_append_drop HASH_LENGTH iv).symm

/-- Opening succeeds exactly on whole envelopes whose text has the vector's hash. -/
theorem symmetricDecryptHmacIv_eq_ok (hc : c.Lawful) (hkey : key.length = 32) {input text : Bytes} :
    symmetricDecryptHmacIv c input key secret = .ok text ↔
      IV_LENGTH ≤ input.length ∧
      c.cbcDecrypt key (openedIv c key input) (input.drop IV_LENGTH) = .ok text ∧
      validateIv c text (openedIv c key input) secret = true := by
  rw [symmetricDecryptHmacIv]
  -- the three checks in their order: length, padding, hash
  by_cases hlen : input.length < IV_LENGTH
  · rw [if_pos hlen]
    exact iff_of_false (fun h => by cases h) (fun h => absurd hlen (Nat.not_lt.mpr h.1))
  · have hle := Nat.le_of_not_lt hlen
    rw [if_neg hlen, show c.ecbDecrypt key (input.take IV_LENGTH) = openedIv c key input from rfl,
      arraySink_eq (length_openedIv hc hkey hle)]
    dsimp only
    cases c.cbcDecrypt key (openedIv c key input) (input.drop IV_LENGTH) with
    | error what => exact iff_of_false (fun h => by cases h) (fun h => by cases h.2.1)
    | ok plaintext =>
      dsimp only
      by_cases hvalid : validateIv c plaintext (openedIv c key input) secret = true
      · rw [hvalid, Bool.not_true, if_neg Bool.false_ne_true]
        constructor
        · intro h
          obtain rfl := Except.ok.inj h
          exact ⟨hle, rfl, hvalid⟩
        · rintro ⟨-, heq, -⟩
          rw [Except.ok.inj heq]
      · rw [Bool.not_eq_true] at hvalid
        rw [hvalid]
        refine iff_of_false (fun h => by cases h) ?_
        rintro ⟨-, heq, htrue⟩
        obtain rfl := Except.ok.inj heq
        cases hvalid.symm.trans htrue

/-- The envelope begins with the enciphered vector. -/
theorem take_envelope (hc : c.Lawful) (hkey : key.length = 32) {random : Bytes}
    (hrandom : random.length = IV_RAND_LENGTH) (text : Bytes) :
    (envelope c key secret text random).take IV_LENGTH
      = c.ecbEncrypt key (ivOf c secret text random) :=
  List.take_left' (hc.length_ecbEncrypt key _ hkey (length_ivOf hc hrandom text))

/-- The cipher text stands behind it. -/
theorem drop_envelope (hc : c.Lawful) (hkey : key.length = 32) {random : Bytes}
    (hrandom : random.length = IV_RAND_LENGTH) (text : Bytes) :
    (envelope c key secret text random).drop IV_LENGTH
      = c.cbcEncrypt key (ivOf c secret text random) text :=
  List.drop_left' (hc.length_ecbEncrypt key _ hkey (length_ivOf hc hrandom text))

/-- The receiver sees the IV the sender made. -/
theorem openedIv_envelope (hc : c.Lawful) (hkey : key.length = 32) {random : Bytes}
    (hrandom : random.length = IV_RAND_LENGTH) (text : Bytes) :
    openedIv c key (envelope c key secret text random) = ivOf c secret text random := by
  rw [openedIv, take_envelope hc hkey hrandom,
    hc.ecbDecrypt_ecbEncrypt key _ hkey (length_ivOf hc hrandom text)]

/-- The size is the one announced for the plain text. -/
theorem length_envelope (hc : c.Lawful) (hkey : key.length = 32) {random : Bytes}
    (hrandom : random.length = IV_RAND_LENGTH) (text : Bytes) :
    (envelope c key secret text random).length = calculateMaxEncryptedLength text.length := by
  have hiv : (ivOf c secret text random).length = IV_LENGTH := length_ivOf hc hrandom text
  rw [envelope, List.length_append, hc.length_ecbEncrypt key _ hkey hiv,
    hc.length_cbcEncrypt key _ text hkey hiv, ← Nat.add_div_right _ (by decide)]
  rfl

/-- What was sealed is given back. -/
theorem symmetricDecryptHmacIv_envelope (hc : c.Lawful) (hkey : key.length = 32) {random : Bytes}
    (hrandom : random.length = IV_RAND_LENGTH) (text : Bytes) :
    symmetricDecryptHmacIv c (envelope c key secret text random) key secret = .ok text := by
  have hiv : (ivOf c secret text random).length = IV_LENGTH := length_ivOf hc hrandom text
  apply (symmetricDecryptHmacIv_eq_ok hc hkey).mpr
  rw [openedIv_envelope hc hkey hrandom, drop_envelope hc hkey hrandom]
  refine ⟨?_, ?_, ?_⟩
  · rw [length_envelope hc hkey hrandom]
    exact Nat.le_add_right IV_LENGTH _
  · exact (hc.cbcDecrypt_eq_ok_iff key _ _ text hkey hiv).mpr rfl
  · rw [validateIv_iff hiv, drop_ivOf hc]

/-- What is accepted was sealed, under the random bytes the receiver sees. -/
theorem eq_envelope_of_decrypt (hc : c.Lawful) (hkey : key.length = 32) {input text : Bytes}
    (h : symmetricDecryptHmacIv c input key secret = .ok text) :
    ((openedIv c key input).drop HASH_LENGTH).length = IV_RAND_LENGTH ∧
      input = envelope c key secret text ((openedIv c key input).drop HASH_LENGTH) := by
  obtain ⟨hle, hcbc, hvalid⟩ := (symmetricDecryptHmacIv_eq_ok hc hkey).mp h
  have hiv := length_openedIv hc hkey hle
  refine ⟨by rw [List.length_drop, hiv]; rfl, ?_⟩
  have hfirst : c.ecbEncrypt key (openedIv c key input) = input.take IV_LENGTH :=
    hc.ecbEncrypt_ecbDecrypt key _ hkey (List.length_take_of_le hle)
  have hrest : input.drop IV_LENGTH = c.cbcEncrypt key (openedIv c key input) text :=
    (hc.cbcDecrypt_eq_ok_iff key _ _ text hkey hiv).mp hcbc
  rw [envelope, ← (validateIv_iff hiv text).mp hvalid, hfirst, ← hrest, List.take_append_drop]

/-! ## The two together

  Sealing and opening are inverse to each other, for each choice of the three random bytes. -/

/-- `symmetric_encrypt_hmac_iv` with the output `random` of the pool. -/
def encryptWith (c : CryptoPP) (key secret text random : Bytes) : Except Fault Bytes :=
  Calls.outcome (symmetricEncryptHmacIv c text key secret (.giving random))

/-- A pool that begins with the given bytes. -/
theorem map_tape_giving {random : Bytes} (hrandom : random.length = IV_RAND_LENGTH) :
    (List.range IV_RAND_LENGTH).map (RandomPool.giving random).tape = random := by
  apply List.ext_getElem
  · rw [List.length_map, List.length_range, hrandom]
  · intro i h₁ h₂
    rw [List.getElem_map, List.getElem_range]
    exact (List.getElem_eq_getD 0).symm

/-- Sealing with given random bytes. -/
theorem encryptWith_eq (hc : c.Lawful) (hkey : key.length = 32) {random : Bytes}
    (hrandom : random.length = IV_RAND_LENGTH) (text : Bytes) :
    encryptWith c key secret text random = .ok (envelope c key secret text random) := by
  rw [encryptWith, symmetricEncryptHmacIv_eq hc hkey, map_tape_giving hrandom]
  rfl

/-- **The envelope is exact**: it has the computed length, no copy leaves the output, decryption
    gives back what was sealed and accepts nothing else, and no two seals are the same. -/
theorem envelope_exact (hc : c.Lawful) (hkey : key.length = 32) (secret : Bytes) :
    (∀ text random, random.length = 3 → ∃ output,
      encryptWith c key secret text random = .ok output ∧
      output.length = calculateMaxEncryptedLength text.length ∧
      symmetricDecryptHmacIv c output key secret = .ok text) ∧
    (∀ input text, symmetricDecryptHmacIv c input key secret = .ok text →
      ((c.ecbDecrypt key (input.take 16)).drop 13).length = 3 ∧
      encryptWith c key secret text ((c.ecbDecrypt key (input.take 16)).drop 13) = .ok input) ∧
    (∀ text random text' random', random.length = 3 → random'.length = 3 →
      encryptWith c key secret text random = encryptWith c key secret text' random' →
      text = text' ∧ random = random') := by
  refine ⟨?_, ?_, ?_⟩
  · intro text random hrandom
    exact ⟨_, encryptWith_eq hc hkey hrandom text, length_envelope hc hkey hrandom text,
      symmetricDecryptHmacIv_envelope hc hkey hrandom text⟩
  · intro input text h
    obtain ⟨hrandom, heq⟩ := eq_envelope_of_decrypt hc hkey h
    refine ⟨hrandom, (encryptWith_eq hc hkey hrandom text).trans ?_⟩
    exact congrArg Except.ok heq.symm
  · intro text random text' random' hrandom hrandom' h
    rw [encryptWith_eq hc hkey hrandom, encryptWith_eq hc hkey hrandom'] at h
    have hsame := Except.ok.inj h
    constructor
    -- two envelopes that are equal open alike, and have the same vector
    · have hopen : symmetricDecryptHmacIv c (envelope c key secret text random) key secret
          = .ok text := symmetricDecryptHmacIv_envelope hc hkey hrandom text
      rw [hsame, symmetricDecryptHmacIv_envelope hc hkey hrandom'] at hopen
      exact (Except.ok.inj hopen).symm
    · have hiv : openedIv c key (envelope c key secret text random) = ivOf c secret text random :=
        openedIv_envelope hc hkey hrandom text
      rw [hsame, openedIv_envelope hc hkey hrandom'] at hiv
      rw [← drop_ivOf hc text random, ← hiv, drop_ivOf hc]

end Helpers

/-! ## Two frames under one key

  A library that knows the blocks of two envelopes, for the runs that need one on the wire. -/

/-- The session key that a pool of the bytes 0, 1, 2, … gives. -/
def sampleKey : Bytes := (List.range 32).map UInt8.ofNat

/-- Its first half. -/
def sampleSecret : Bytes := sampleKey.take 16

/-- A ChannelEncryptResult whose result is 2. -/
def refusal : Bytes :=
  [25, 5, 0, 0, 255, 255, 255, 255, 255, 255, 255, 255, 255, 255, 255, 255, 255, 255, 255, 255, 2,
   0, 0, 0]

/-- AES under the sample key, on the blocks of `refusalFrame` and of `emptyFrame`. -/
def sampleBlocks : List (Bytes × Bytes) :=
  [([16, 152, 160, 226, 235, 195, 114, 128, 114, 72, 137, 53, 179, 1, 2, 3],
    [22, 29, 143, 245, 234, 96, 234, 2, 243, 108, 229, 72, 68, 190, 56, 6]),
   ([9, 157, 160, 226, 20, 60, 141, 127, 141, 183, 118, 202, 76, 254, 253, 252],
    [102, 131, 219, 56, 184, 162, 114, 67, 127, 17, 130, 230, 21, 87, 183, 183]),
   ([153, 124, 36, 199, 186, 162, 114, 67, 119, 25, 138, 238, 29, 95, 191, 191],
    [171, 57, 50, 48, 56, 5, 246, 125, 124, 110, 26, 6, 209, 82, 180, 49]),
   ([94, 192, 19, 113, 36, 114, 189, 154, 153, 44, 179, 114, 16, 1, 2, 3],
    [125, 126, 186, 172, 204, 243, 70, 42, 82, 29, 248, 187, 221, 174, 92, 105]),
   ([78, 208, 3, 97, 52, 98, 173, 138, 137, 60, 163, 98, 0, 17, 18, 19],
    [136, 250, 36, 103, 250, 190, 205, 252, 80, 101, 143, 198, 121, 229, 23, 59])]

/-- RSA under Steam's key, of the sample key and sixteen bytes 7. -/
def sampleResponse : Bytes :=
  [24, 135, 183, 145, 189, 221, 192, 205, 184, 147, 202, 244, 136, 180, 237, 37, 82, 101, 78, 113,
   72, 229, 219, 182, 215, 14, 209, 121, 91, 94, 133, 33, 241, 210, 106, 182, 61, 177, 180, 190,
   166, 134, 145, 111, 138, 145, 182, 226, 127, 168, 226, 37, 45, 188, 80, 38, 133, 161, 113, 200,
   195, 47, 247, 74, 73, 4, 203, 197, 139, 215, 144, 119, 18, 92, 119, 103, 35, 15, 224, 208, 223,
   216, 43, 44, 92, 251, 136, 54, 51, 164, 189, 55, 39, 226, 93, 13, 101, 231, 124, 193, 225, 155,
   129, 108, 196, 29, 154, 170, 178, 204, 169, 90, 227, 203, 159, 83, 166, 63, 181, 75, 172, 166,
   129, 149, 163, 255, 78, 141]

/-- What Crypto++ computes for these. -/
def sampleCryptoPP : CryptoPP := .ofCipher
  (fun key => .exchanging (· ^^^ ·) xor_xor_byte (if key = sampleKey then sampleBlocks else []) <| by
    split
    · decide
    · exact fun _ h => absurd h List.not_mem_nil)
  (fun key data =>
    if key = sampleSecret ∧ data = [1, 2, 3] ++ refusal then
      [16, 152, 160, 226, 235, 195, 114, 128, 114, 72, 137, 53, 179, 154, 170, 251, 12, 198, 189,
       104]
    else if key = sampleSecret ∧ data = [1, 2, 3] then
      [94, 192, 19, 113, 36, 114, 189, 154, 153, 44, 179, 114, 16, 187, 83, 112, 12, 177, 175, 140]
    else List.replicate 20 0)
  (fun data => if data = sampleResponse then 0xBC141DB4 else 0)
  (fun key data pool =>
    if key = STEAM_PUBLIC_KEY_DER ∧ data = sampleKey ++ List.replicate 16 7 then
      (.ok sampleResponse, ⟨fun i => pool.tape (20 + i)⟩)
    else (.error "not computed", pool))
  (fun _ => .error "not a gzip stream")

/-- The sample library is lawful. -/
theorem lawful_sampleCryptoPP : sampleCryptoPP.Lawful := by
  apply lawful_ofCipher
  intro key data
  split
  · rfl
  · split
    · rfl
    · exact List.length_replicate

/-- The one block that RSA computes there. -/
theorem rsaesOaepSha_sample {data : Bytes} (pool : RandomPool)
    (hdata : data = sampleKey ++ List.replicate 16 7) :
    sampleCryptoPP.rsaesOaepSha STEAM_PUBLIC_KEY_DER data pool
      = (.ok sampleResponse, ⟨fun i => pool.tape (20 + i)⟩) := by
  rw [sampleCryptoPP, CryptoPP.ofCipher]
  dsimp only
  rw [if_pos ⟨rfl, hdata⟩]

/-- `refusal` under the sample key, with the random bytes 1, 2, 3. -/
def refusalFrame : Bytes :=
  [22, 29, 143, 245, 234, 96, 234, 2, 243, 108, 229, 72, 68, 190, 56, 6, 102, 131, 219, 56, 184,
   162, 114, 67, 127, 17, 130, 230, 21, 87, 183, 183, 171, 57, 50, 48, 56, 5, 246, 125, 124, 110,
   26, 6, 209, 82, 180, 49]

/-- No plaintext at all, with the same. -/
def emptyFrame : Bytes :=
  [125, 126, 186, 172, 204, 243, 70, 42, 82, 29, 248, 187, 221, 174, 92, 105, 136, 250, 36, 103,
   250, 190, 205, 252, 80, 101, 143, 198, 121, 229, 23, 59]

namespace Helpers

/-- The envelope of the empty message. -/
theorem envelope_exact_empty :
    (∃ output, encryptWith sampleCryptoPP sampleKey sampleSecret [] [1, 2, 3] = .ok output ∧
      output.length = 32 ∧
      symmetricDecryptHmacIv sampleCryptoPP output sampleKey sampleSecret = .ok []) ∧
    encryptWith sampleCryptoPP sampleKey sampleSecret refusal [1, 2, 3] = .ok refusalFrame := by
  have hkey : sampleKey.length = 32 := rfl
  have hexact := envelope_exact lawful_sampleCryptoPP hkey sampleSecret
  refine ⟨hexact.1 [] [1, 2, 3] rfl, ?_⟩
  exact (hexact.2.1 refusalFrame refusal (by decide +kernel)).2

example : encryptWith sampleCryptoPP sampleKey sampleSecret [] [1, 2, 3] = .ok emptyFrame := by
  decide +kernel

end Helpers

end SteamMin.Crypto
