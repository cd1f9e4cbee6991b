import KeyFile.Encoding.EncryptedKeyInfo
import KeyFile.Proofs.Asn1.DottedText
import KeyFile.Proofs.Crypto.Chaining
import KeyFile.Proofs.Crypto.Digests
import KeyFile.Proofs.Outcomes

/-!
# What decryption gives

An accepted scheme is put together from checked parts: its key and its initialization vector have
the lengths that the cipher needs, so only the padding can fail. A decrypted message is hardly
longer than what was encrypted: each decrypted block is cut to the length of the block before it, of
which the first is the initialization vector.
-/
namespace KeyFile

open Crypto

namespace Crypto

theorem length_unchain_le (decrypt : Bytes → Bytes) (before : Bytes) (blocks : List Bytes) :
    (unchain decrypt before blocks).flatten.length ≤ before.length + blocks.flatten.length := by
  induction blocks generalizing before with
  | nil => simp [unchain]
  | cons block rest ih =>
    have later := ih block
    simp only [unchain, List.flatten_cons, List.length_append, Bytes.length_xor]
    omega

theorem Cipher.length_decryptPadded_le (cipher : Cipher) (key iv octets : Bytes) :
    (cipher.decryptPadded key iv octets).length ≤ iv.length + octets.length := by
  have chained := length_unchain_le (cipher.schedule key).decryptBlock iv
    (pieces cipher.blockSize octets)
  rwa [flatten_pieces cipher.blockSize_pos] at chained

end Crypto

namespace PasswordScheme

/-! ## Names that are not known -/

theorem derivationOf_of_other {algorithm : AlgorithmIdentifier}
    (other : algorithm.identifier ≠ derivationIdentifier) :
    derivationOf algorithm = .error (.unsupported (.keyDerivation algorithm.identifier)) := by
  rw [derivationOf, if_pos (mt Asn1.ObjectIdentifier.text_injective other)]

theorem ofAlgorithm_of_other {algorithm : AlgorithmIdentifier}
    (other : algorithm.identifier ≠ identifier) :
    ofAlgorithm algorithm = .error (.unsupported (.encryptionScheme algorithm.identifier)) := by
  rw [ofAlgorithm, if_pos (mt Asn1.ObjectIdentifier.text_injective other)]

/-! ## Accepted schemes -/

/-- A scheme is put together from the two parts of its parameters, each with its own parameters. -/
structure Composed (algorithm derivationPart cipherPart : AlgorithmIdentifier)
    (scheme : PasswordScheme) : Prop where
  identifier : algorithm.identifier = identifier
  parts : ∃ octets, algorithm.effectiveParameters = some octets ∧
    decodeSequence fields octets = .ok (derivationPart, cipherPart)
  derivation : derivationOf derivationPart = .ok scheme.derivation
  cipher : cipher? cipherPart.identifier = some scheme.cipher
  vector : vectorOf cipherPart = .ok scheme.iv
  blockSize : scheme.iv.length = scheme.cipher.blockSize
  keyLength : ∀ length ∈ scheme.derivation.keyLength, length = scheme.cipher.keyLength

theorem ofAlgorithm_eq_ok_iff {algorithm : AlgorithmIdentifier} {scheme : PasswordScheme} :
    ofAlgorithm algorithm = .ok scheme ↔
      ∃ derivationPart cipherPart, Composed algorithm derivationPart cipherPart scheme := by
  constructor
  · intro done
    unfold ofAlgorithm at done
    split at done
    · cases done
    next named =>
      split at done
      · cases done
      next octets given =>
        obtain ⟨⟨derivationPart, cipherPart⟩, parts, done⟩ := Outcome.bind_eq_ok.mp done
        obtain ⟨derivation, derived, done⟩ := Outcome.bind_eq_ok.mp done
        simp only at done
        split at done
        · cases done
        next cipher known =>
          obtain ⟨iv, vector, done⟩ := Outcome.bind_eq_ok.mp done
          obtain ⟨block, done⟩ := Outcome.unless_eq_ok.mp done
          -- A key length that is written down is checked once more before the scheme is given.
          have kept : (∀ length ∈ derivation.keyLength, length = cipher.keyLength) ∧
              ⟨derivation, cipher, iv⟩ = scheme := by
            split at done
            next length stated =>
              obtain ⟨same, done⟩ := Outcome.unless_eq_ok.mp done
              refine ⟨?_, Outcome.pure_eq_ok.mp done⟩
              rw [stated]
              rintro _ ⟨⟩
              exact Decidable.not_not.mp same
            next absent =>
              refine ⟨?_, Outcome.pure_eq_ok.mp done⟩
              rw [absent]
              nofun
          obtain ⟨length, rfl⟩ := kept
          have named := Asn1.ObjectIdentifier.text_injective (Decidable.not_not.mp named)
          exact ⟨derivationPart, cipherPart, named, ⟨octets, given, parts⟩, derived, known, vector,
            Decidable.not_not.mp block, length⟩
  · rintro ⟨derivationPart, cipherPart, named, ⟨octets, given, parts⟩, derived, known, vector,
      block, length⟩
    have named : ¬ algorithm.identifier.text ≠ PasswordScheme.identifier.text :=
      Decidable.not_not.mpr (congrArg _ named)
    unfold ofAlgorithm
    rw [if_neg named, given]
    refine Outcome.bind_eq_ok.mpr ⟨_, parts, Outcome.bind_eq_ok.mpr ⟨_, derived, ?_⟩⟩
    simp only [known]
    refine Outcome.bind_eq_ok.mpr ⟨_, vector,
      Outcome.unless_eq_ok.mpr ⟨Decidable.not_not.mpr block, ?_⟩⟩
    split
    next stated => exact Outcome.unless_eq_ok.mpr ⟨Decidable.not_not.mpr (length _ stated), rfl⟩
    next => rfl

/-- The initialization vector of an accepted scheme is one block. -/
theorem length_iv {algorithm : AlgorithmIdentifier} {scheme : PasswordScheme}
    (done : ofAlgorithm algorithm = .ok scheme) : scheme.iv.length = scheme.cipher.blockSize := by
  obtain ⟨_, _, composed⟩ := ofAlgorithm_eq_ok_iff.mp done
  exact composed.blockSize

/-! ## Decryption -/

section Decryption

variable {scheme : PasswordScheme} {password octets message : Bytes}

/-- The derived key always has the length that the cipher needs. -/
theorem length_key (scheme : PasswordScheme) (password : Bytes) :
    (scheme.key password).length = scheme.cipher.keyLength :=
  length_deriveKey ..

/-- So the cipher can always be set up. -/
theorem fits_key (block : scheme.iv.length = scheme.cipher.blockSize) (password : Bytes) :
    scheme.cipher.Fits (scheme.key password) scheme.iv :=
  ⟨scheme.length_key password, block⟩

/-- Decryption succeeds exactly on whole blocks that end, when they are decrypted, with octets that
tell their own number. -/
theorem decrypt_eq_ok_iff (block : scheme.iv.length = scheme.cipher.blockSize) :
    scheme.decrypt password octets = .ok message ↔
      octets ≠ [] ∧ scheme.cipher.blockSize ∣ octets.length ∧
        Padded scheme.cipher.blockSize message
          (scheme.cipher.decryptPadded (scheme.key password) scheme.iv octets) := by
  have few := scheme.cipher.blockSize_le
  rw [← unpad_eq_some_iff (by omega), Nat.dvd_iff_mod_eq_zero, ← and_assoc]
  unfold decrypt
  split
  next refused =>
    constructor
    · nofun
    · rintro ⟨⟨filled, whole⟩, -⟩
      exact absurd whole (refused.resolve_left filled)
  next whole =>
    rw [not_or, Decidable.not_not] at whole
    simp only [fits_key block, not_true_eq_false, if_false, whole, ne_eq, not_false_eq_true,
      and_self, true_and]
    split
    next found => rw [found, Except.ok.injEq, Option.some.injEq]
    next missing => rw [missing]; simp only [reduceCtorEq]

/-- Whatever goes wrong, there is one error for it. -/
theorem decrypt_eq_error (block : scheme.iv.length = scheme.cipher.blockSize) {e : Error}
    (fault : scheme.decrypt password octets = .error e) : e = .decryptionFailed := by
  unfold decrypt at fault
  split at fault
  · cases fault
    rfl
  · simp only [fits_key block, not_true_eq_false, if_false] at fault
    split at fault
    · cases fault
    · cases fault
      rfl

theorem length_of_decrypt (block : scheme.iv.length = scheme.cipher.blockSize)
    (done : scheme.decrypt password octets = .ok message) :
    message.length ≤ scheme.iv.length + octets.length := by
  obtain ⟨-, -, count, -, -, padded⟩ := (decrypt_eq_ok_iff block).mp done
  have chained := scheme.cipher.length_decryptPadded_le (scheme.key password) scheme.iv octets
  rw [padded, List.length_append] at chained
  omega

end Decryption

end PasswordScheme

/-- A key within an encrypted one has been decoded from octets that are hardly more. -/
theorem EncryptedKeyInfo.decrypt_ok {info : EncryptedKeyInfo} {password : Bytes}
    {inner : PrivateKeyInfo} (done : info.decrypt password = .ok inner) :
    ∃ octets, PrivateKeyInfo.decode octets = .ok inner ∧
      octets.length ≤ info.data.length + 16 := by
  obtain ⟨scheme, accepted, done⟩ := Outcome.bind_eq_ok.mp done
  obtain ⟨octets, decrypted, done⟩ := Outcome.bind_eq_ok.mp done
  have block := PasswordScheme.length_iv accepted
  have few := scheme.cipher.blockSize_le
  have length := PasswordScheme.length_of_decrypt block decrypted
  exact ⟨octets, Outcome.mapError_eq_ok.mp done, by omega⟩

end KeyFile
