/-
  THE ENVELOPE OF A SECURED CHANNEL — `src/crypto/helpers.cpp`, `include/.../crypto/helpers.hpp`.

  An encrypted frame is the IV, encrypted as one block, and the plaintext in CBC mode under that
  IV.  The IV carries 13 bytes of an HMAC over three random bytes and the plaintext, then the three
  random bytes.

  The primitives of Crypto++ are a parameter (`CryptoPP`); what the two functions around them do
  with buffers and offsets is the code's own.  The random pool is a tape of bytes still to come.

  Both functions are written out with their offsets, copies and checks, so that an offset that
  left its buffer would show as `Fault.undefined`.  None does; that is part of
  `SteamMin.Crypto.Envelope`, as is the theorem that the one opens exactly what the other seals.
-/
import SteamMin.Messages.Stream

namespace SteamMin.Crypto

/-- `AutoSeededRandomPool`: the bytes it will give out. -/
structure RandomPool where
  tape : Nat → Byte

/-- `GenerateBlock(buffer, n)` -/
def RandomPool.generateBlock (n : Nat) : EStateM Fault RandomPool Bytes := do
  let pool ← get
  set (RandomPool.mk fun i => pool.tape (n + i))
  pure ((List.range n).map pool.tape)

/-- What the code uses of Crypto++. -/
structure CryptoPP where
  /-- `ECB_Mode<AES>::Encryption` without padding: key, data -/
  ecbEncrypt : Bytes → Bytes → Bytes
  /-- `ECB_Mode<AES>::Decryption` without padding: key, data -/
  ecbDecrypt : Bytes → Bytes → Bytes
  /-- `CBC_Mode<AES>::Encryption` with PKCS padding: key, IV, data -/
  cbcEncrypt : Bytes → Bytes → Bytes → Bytes
  /-- `CBC_Mode<AES>::Decryption` with PKCS padding: key, IV, data; or the text of its exception -/
  cbcDecrypt : Bytes → Bytes → Bytes → Except String Bytes
  /-- `HMAC<SHA1>`: key, data -/
  hmacSha1 : Bytes → Bytes → Bytes
  /-- `CRC32` -/
  crc32 : Bytes → UInt32
  /-- `RSAES_OAEP_SHA_Encryptor`: encoded public key, data -/
  rsaesOaepSha : Bytes → Bytes → RandomPool → Except String Bytes × RandomPool
  /-- `Gunzip` -/
  gunzip : Bytes → Except String Bytes

namespace Helpers

def IV_LENGTH : Nat := 16
def IV_RAND_LENGTH : Nat := 3
def BLOCK_SIZE : Nat := 16
def HASH_LENGTH : Nat := IV_LENGTH - IV_RAND_LENGTH

/-- The enciphered vector, and the cipher text with its padding. -/
def calculateMaxEncryptedLength (plaintextLen : Nat) : Nat :=
  IV_LENGTH + (plaintextLen + BLOCK_SIZE) / BLOCK_SIZE * BLOCK_SIZE

/-- The checksum, little endian. -/
def crcToVector (crc : UInt32) : Bytes := LittleEndian.bytes 4 crc.toNat

/-- `std::memcpy(dst + offset, src, src.size())`, which must stay inside `dst`. -/
def memcpy (dst : Bytes) (offset : Nat) (src : Bytes) : Except Fault Bytes :=
  if offset + src.length ≤ dst.length then
    .ok (dst.take offset ++ src ++ dst.drop (offset + src.length))
  else .error .undefined

/-- What an `ArraySink` of `size` bytes, all zero before, takes from `data`. -/
def arraySink (size : Nat) (data : Bytes) : Bytes :=
  data.take size ++ List.replicate (size - data.length) 0

variable (c : CryptoPP)

/-- `crc32_hash(data)` -/
def crc32Hash (data : Bytes) : UInt32 := c.crc32 data

/-- `rsa_encrypt_oaep_sha1(pub_key_der, plaintext)` -/
def rsaEncryptOaepSha1 (pubKeyDer plaintext : Bytes) : EStateM Fault RandomPool Bytes := fun pool =>
  match c.rsaesOaepSha pubKeyDer plaintext pool with
  | (.ok ciphertext, pool) => .ok ciphertext pool
  | (.error what, pool) => .error (.throws (.cryptoPP what)) pool

/-- The HMAC of the random end of an IV and a plaintext. -/
def hmacOf (plaintext iv hmacSecret : Bytes) : Bytes :=
  let hmacBuffer := (iv.drop HASH_LENGTH).take IV_RAND_LENGTH ++ plaintext
  c.hmacSha1 hmacSecret hmacBuffer

/-- `generate_iv`, which fills the 16 bytes of `iv`. -/
def generateIv (plaintext hmacSecret : Bytes) : EStateM Fault RandomPool Bytes := do
  let iv := List.replicate IV_LENGTH 0
  let random ← RandomPool.generateBlock IV_RAND_LENGTH
  let iv ← Calls.lift (memcpy iv HASH_LENGTH random)
  let digest := hmacOf c plaintext iv hmacSecret
  Calls.lift (memcpy iv 0 (digest.take HASH_LENGTH))

/-- The hash in the vector is that of its random bytes and the text. -/
def validateIv (plaintext iv hmacSecret : Bytes) : Bool :=
  (hmacOf c plaintext iv hmacSecret).take HASH_LENGTH = iv.take HASH_LENGTH

/-- `symmetric_encrypt_hmac_iv`: the vector is made from the text, enciphered alone, and used for
    the text. -/
def symmetricEncryptHmacIv (plaintext sessionKey hmacSecret : Bytes) :
    EStateM Fault RandomPool Bytes := do
  let iv ← generateIv c plaintext hmacSecret
  let output := List.replicate (calculateMaxEncryptedLength plaintext.length) 0
  let output ← Calls.lift (memcpy output 0 ((c.ecbEncrypt sessionKey iv).take IV_LENGTH))
  let offset := IV_LENGTH
  let cipher := c.cbcEncrypt sessionKey iv plaintext
  let output ← Calls.lift (memcpy output offset cipher)
  pure (output.take (offset + cipher.length))

/-- `symmetric_decrypt_hmac_iv`: the vector is opened first, and checked against the text it
    opens. -/
def symmetricDecryptHmacIv (input sessionKey hmacSecret : Bytes) : Except Fault Bytes :=
  if input.length < IV_LENGTH then runtimeError "Invalid encrypted data"
  else
    let iv := arraySink IV_LENGTH (c.ecbDecrypt sessionKey (input.take IV_LENGTH))
    match c.cbcDecrypt sessionKey iv (input.drop IV_LENGTH) with
    | .error what => .error (.throws (.cryptoPP what))
    | .ok plaintext =>
      if !validateIv c plaintext iv hmacSecret then
        runtimeError "HMAC from server did not match computed HMAC."
      else .ok plaintext

/-! ## How they fail -/

/-- A copy fails by undefined behaviour only. -/
theorem failsOnly_memcpy (dst : Bytes) (offset : Nat) (src : Bytes) :
    Calls.FailsOnly (· = Fault.undefined) (Calls.lift (memcpy dst offset src) :
      EStateM Fault RandomPool Bytes) := by
  refine Calls.failsOnly_lift fun e h => ?_
  rw [memcpy] at h
  split at h
  · nomatch h
  · exact (Except.error.inj h).symm

/-- Drawing never fails. -/
theorem failsOnly_generateBlock {P : Fault → Prop} (n : Nat) :
    Calls.FailsOnly P (RandomPool.generateBlock n) := by
  intro pool e pool' h
  nomatch h

/-- The encryption throws nothing; at worst a copy leaves its buffer. -/
theorem failsOnly_symmetricEncryptHmacIv (plaintext sessionKey hmacSecret : Bytes) :
    Calls.FailsOnly (· = Fault.undefined)
      (symmetricEncryptHmacIv c plaintext sessionKey hmacSecret) := by
  have hiv : Calls.FailsOnly (· = Fault.undefined) (generateIv c plaintext hmacSecret) := by
    refine Calls.failsOnly_bind (failsOnly_generateBlock _) fun random => ?_
    refine Calls.failsOnly_bind (failsOnly_memcpy _ _ _) fun iv => ?_
    exact failsOnly_memcpy _ _ _
  refine Calls.failsOnly_bind hiv fun iv => ?_
  refine Calls.failsOnly_bind (failsOnly_memcpy _ _ _) fun output => ?_
  refine Calls.failsOnly_bind (failsOnly_memcpy _ _ _) fun output => ?_
  exact Calls.failsOnly_pure _

/-- The other way round, RSA only throws. -/
theorem failsOnly_rsaEncryptOaepSha1 (pubKeyDer plaintext : Bytes) :
    Calls.FailsOnly (∃ e, · = Fault.throws e) (rsaEncryptOaepSha1 c pubKeyDer plaintext) := by
  intro pool e pool' h
  rw [rsaEncryptOaepSha1] at h
  split at h
  · nomatch h
  · cases h
    exact ⟨_, rfl⟩

end Helpers

end SteamMin.Crypto
