import KeyFile.Proofs.Encryption

/-!
# Decryption fails in one way

A wrong password gives octets of any kind, and what is wrong with these says nothing. So beyond the
parameters there is one error. The decrypted octets either end in padding or they do not, and the
message either is a key or it is not; whichever it is, the failure is the same. That the cipher
cannot be set up never comes up, since the parameters have been checked for it.
-/
namespace KeyFile

open Crypto

namespace EncryptedKeyInfo

variable {info : EncryptedKeyInfo} {scheme : PasswordScheme} {password : Bytes} {e : Error}

/-- Parameters that are refused are refused under every password, and in the same way. -/
theorem decrypt_of_scheme_error (refused : info.scheme = .error e) :
    info.decrypt password = .error e := by
  rw [decrypt, refused]
  rfl

/-- The decrypted message is decoded as a key, and this is the key within. -/
theorem decrypt_eq_ok_iff (accepted : info.scheme = .ok scheme) {inner : PrivateKeyInfo} :
    info.decrypt password = .ok inner ↔ ∃ message,
      scheme.decrypt password info.data = .ok message ∧
        PrivateKeyInfo.decode message = .ok inner := by
  rw [decrypt, Outcome.bind_of_ok accepted]
  simp only [Outcome.bind_eq_ok, Outcome.mapError_eq_ok]

theorem decrypt_eq_error (accepted : info.scheme = .ok scheme)
    (fault : info.decrypt password = .error e) : e = .decryptionFailed := by
  rw [decrypt, Outcome.bind_of_ok accepted] at fault
  -- Either the padding does not come out, or what stands before it is no key.
  cases decrypted : scheme.decrypt password info.data with
  | error failed =>
    rw [decrypted] at fault
    cases fault
    exact PasswordScheme.decrypt_eq_error (PasswordScheme.length_iv accepted) decrypted
  | ok message =>
    rw [decrypted, Outcome.bind_of_ok rfl] at fault
    obtain ⟨cause, -, rfl⟩ := Outcome.mapError_eq_error.mp fault
    rfl

end EncryptedKeyInfo

/-- Under an accepted scheme exactly the whole blocks that decrypt to a padded message are
decrypted, and everything else is one failure; the cipher can always be set up. For an encrypted key
this stays the only failure beyond its parameters, whose own error is reported whatever the password
is. -/
theorem decryption_fails_one_way :
    (∀ algorithm scheme, PasswordScheme.ofAlgorithm algorithm = .ok scheme →
      ∀ password octets,
        (∀ message, scheme.decrypt password octets = .ok message ↔
          octets ≠ [] ∧ scheme.cipher.blockSize ∣ octets.length ∧
            Padded scheme.cipher.blockSize message
              (scheme.cipher.decryptPadded (scheme.key password) scheme.iv octets)) ∧
        (∀ e, scheme.decrypt password octets = .error e → e = .decryptionFailed) ∧
        scheme.cipher.Fits (scheme.key password) scheme.iv) ∧
    (∀ (info : EncryptedKeyInfo) password e, info.scheme = .error e →
      info.decrypt password = .error e) ∧
    ∀ (info : EncryptedKeyInfo) password scheme, info.scheme = .ok scheme →
      (∀ inner, info.decrypt password = .ok inner ↔ ∃ message,
        scheme.decrypt password info.data = .ok message ∧
          PrivateKeyInfo.decode message = .ok inner) ∧
      ∀ e, info.decrypt password = .error e → e = .decryptionFailed := by
  refine ⟨?_, fun _ _ _ => EncryptedKeyInfo.decrypt_of_scheme_error, ?_⟩
  · intro algorithm scheme accepted password octets
    have block := PasswordScheme.length_iv accepted
    exact ⟨fun _ => PasswordScheme.decrypt_eq_ok_iff block,
      fun _ => PasswordScheme.decrypt_eq_error block, PasswordScheme.fits_key block password⟩
  · intro info password scheme accepted
    exact ⟨fun _ => EncryptedKeyInfo.decrypt_eq_ok_iff accepted,
      fun _ => EncryptedKeyInfo.decrypt_eq_error accepted⟩

/-- What is encrypted comes back, and a part of a block does not. -/
theorem slowScheme_fails_one_way :
    (PasswordScheme.ofAlgorithm slowAlgorithm = .ok slowScheme ∧
      ∃ e, EncryptedKeyInfo.scheme ⟨⟨PasswordScheme.identifier, none⟩, []⟩ = .error e) ∧
    (slowScheme.encrypt [112] shortSeed.encode ≠ [] ∧
      slowScheme.cipher.blockSize ∣ (slowScheme.encrypt [112] shortSeed.encode).length) ∧
    EncryptedKeyInfo.decrypt ⟨slowAlgorithm, slowScheme.encrypt [112] shortSeed.encode⟩ [112] =
      .ok shortSeed ∧
    EncryptedKeyInfo.decrypt ⟨slowAlgorithm, [1, 2, 3]⟩ [112] = .error .decryptionFailed ∧
    EncryptedKeyInfo.decrypt ⟨⟨PasswordScheme.identifier, none⟩, []⟩ [112] =
      .error (.malformedKey .schemeWithoutParameters) := by
  obtain ⟨blocks, refused, keys⟩ := decryption_fails_one_way
  have accepted : PasswordScheme.ofAlgorithm slowAlgorithm = .ok slowScheme :=
    Outcome.toOption_eq_some.mp (by decide +kernel)
  have stated (data : Bytes) : EncryptedKeyInfo.scheme ⟨slowAlgorithm, data⟩ = .ok slowScheme :=
    accepted
  have opened := PasswordScheme.decrypt_encrypt (PasswordScheme.length_iv accepted) [112]
    shortSeed.encode
  obtain ⟨filled, whole, -⟩ := ((blocks _ _ accepted [112] _).1 _).mp opened
  have unnamed : EncryptedKeyInfo.scheme ⟨⟨PasswordScheme.identifier, none⟩, []⟩ =
      .error (.malformedKey .schemeWithoutParameters) := rfl
  refine ⟨⟨accepted, _, unnamed⟩, ⟨filled, whole⟩, ?_, ?_, refused _ _ _ unnamed⟩
  · have decoded : PrivateKeyInfo.decode shortSeed.encode = .ok shortSeed :=
      PrivateKeyInfo.decode_encode nofun (by decide +kernel)
    exact ((keys _ [112] _ (stated _)).1 shortSeed).mpr ⟨_, opened, decoded⟩
  · cases failed : EncryptedKeyInfo.decrypt ⟨slowAlgorithm, [1, 2, 3]⟩ [112] with
    | error e => rw [(keys _ [112] _ (stated _)).2 e failed]
    | ok inner =>
      -- Three octets are no whole block of eight.
      obtain ⟨message, decrypted, -⟩ := ((keys _ [112] _ (stated _)).1 inner).mp failed
      obtain ⟨-, whole, -⟩ := ((blocks _ _ accepted [112] _).1 message).mp decrypted
      exact absurd whole (by decide)

end KeyFile
