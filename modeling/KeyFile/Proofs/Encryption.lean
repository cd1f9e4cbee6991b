import KeyFile.Container
import KeyFile.Proofs.Encoding.Decryption
import KeyFile.Proofs.Encoding.Structures

/-!
# Encrypted keys open

What a scheme encrypts under a password it decrypts again under that password, for each digest and
cipher and every salt, count of iterations and initialization vector that is accepted. So an
encrypted key reads as the key itself does, even where that fails.
-/
namespace KeyFile

open Asn1 Crypto

theorem PasswordScheme.decrypt_encrypt {scheme : PasswordScheme}
    (block : scheme.iv.length = scheme.cipher.blockSize) (password message : Bytes) :
    scheme.decrypt password (scheme.encrypt password message) = .ok message := by
  have positive := scheme.cipher.blockSize_pos
  have length : (scheme.encrypt password message).length =
      (pad scheme.cipher.blockSize message).length :=
    scheme.cipher.length_encrypt _ message block
  have whole : scheme.cipher.blockSize ∣ (scheme.encrypt password message).length :=
    length ▸ dvd_length_pad positive message
  have filled : scheme.encrypt password message ≠ [] := by
    apply List.ne_nil_of_length_pos
    have longer := length_lt_length_pad positive message
    omega
  -- Both sides derive the same key.
  have padded : scheme.cipher.decryptPadded (scheme.key password) scheme.iv
      (scheme.encrypt password message) = pad scheme.cipher.blockSize message :=
    scheme.cipher.decryptPadded_encrypt _ message block
  rw [decrypt_eq_ok_iff block, padded]
  exact ⟨filled, whole, padded_pad positive message⟩

/-- A key is found again, with the outcome that it has, in its encryption under one password. -/
theorem encrypted_reads_as_plain {algorithm : AlgorithmIdentifier} {scheme : PasswordScheme}
    {info : PrivateKeyInfo} (accepted : PasswordScheme.ofAlgorithm algorithm = .ok scheme)
    (sound : info.algorithm.Sound) (fits : info.encode.length < 2 ^ 64) (password : Bytes) :
    (Container.encrypted ⟨algorithm, scheme.encrypt password info.encode⟩).toPrivateKey
        (some password) = info.toPrivateKey := by
  have opened : EncryptedKeyInfo.decrypt ⟨algorithm, scheme.encrypt password info.encode⟩ password =
      .ok info := by
    rw [EncryptedKeyInfo.decrypt, EncryptedKeyInfo.scheme, Outcome.bind_of_ok accepted,
      Outcome.bind_of_ok (PasswordScheme.decrypt_encrypt (PasswordScheme.length_iv accepted) ..),
      PrivateKeyInfo.decode_encode sound fits]
    rfl
  rw [Container.toPrivateKey, EncryptedKeyInfo.toPrivateKey, EncryptedKeyInfo.scheme,
    Outcome.bind_of_ok accepted]
  exact Outcome.bind_of_ok opened

/-- Triple DES under the most iterations of HMAC-SHA-512, with the key length written down. -/
def slowScheme : PasswordScheme where
  derivation := ⟨[1, 2, 3], 4294967295, some 24, .sha512⟩
  cipher := .tripleDes
  iv := [0, 1, 2, 3, 4, 5, 6, 7]

def slowAlgorithm : AlgorithmIdentifier :=
  ⟨PasswordScheme.identifier, some (Element.encode (.sequence
    [AlgorithmIdentifier.element ⟨PasswordScheme.derivationIdentifier,
        some (Element.sequence [.octetString [1, 2, 3], .word 4294967295, .word 24,
          AlgorithmIdentifier.element ⟨PasswordScheme.digestIdentifier .sha512, none⟩]).encode⟩,
      AlgorithmIdentifier.element ⟨PasswordScheme.cipherIdentifier .tripleDes,
        some (Element.octetString [0, 1, 2, 3, 4, 5, 6, 7]).encode⟩]))⟩

/-- An Ed25519 key one octet short. -/
def shortSeed : PrivateKeyInfo where
  version := .v1
  algorithm := ⟨(Algorithm.raw .ed25519).identifier, none⟩
  privateKey := (Element.octetString (List.replicate 31 7)).encode
  attributes := none
  publicKey := none

theorem shortSeed_stays_short :
    (PasswordScheme.ofAlgorithm slowAlgorithm = .ok slowScheme ∧ shortSeed.algorithm.Sound ∧
        shortSeed.encode.length < 2 ^ 64) ∧
      (Container.encrypted ⟨slowAlgorithm, slowScheme.encrypt [112] shortSeed.encode⟩).toPrivateKey
        (some [112]) = shortSeed.toPrivateKey := by
  have accepted : PasswordScheme.ofAlgorithm slowAlgorithm = .ok slowScheme :=
    Outcome.toOption_eq_some.mp (by decide +kernel)
  have sound : shortSeed.algorithm.Sound := fun _ member => absurd member (Option.not_mem_none _)
  have fits : shortSeed.encode.length < 2 ^ 64 := by decide +kernel
  exact ⟨⟨accepted, sound, fits⟩, encrypted_reads_as_plain accepted sound fits [112]⟩

end KeyFile
