import KeyFile.Crypto.Digest
import KeyFile.Encoding.AlgorithmIdentifier

/-!
# Encryption under a password

The parameters of an algorithm identifier that names PBES2: how a key is derived from a password,
and which cipher uses it with which initialization vector. Only parameters that the cipher can use
are accepted, so decryption fails for one reason only, that the padding does not come out.
-/
namespace KeyFile

open Asn1 Crypto

/-- How a key is derived from a password. -/
structure KeyDerivation where
  salt : Bytes
  iterations : Nat
  keyLength : Option Nat
  digest : Digest
  deriving DecidableEq, Repr

structure PasswordScheme where
  derivation : KeyDerivation
  cipher : Cipher
  iv : Bytes
  deriving DecidableEq, Repr

namespace PasswordScheme

/-! ## Identifiers -/

/-- PBES2 itself. -/
def identifier : ObjectIdentifier := { arcs := [1, 2, 840, 113549, 1, 5, 13] }

/-- The key derivation PBKDF2. -/
def derivationIdentifier : ObjectIdentifier := { arcs := [1, 2, 840, 113549, 1, 5, 12] }

def digestIdentifier : Digest → ObjectIdentifier
  | .sha1 => { arcs := [1, 2, 840, 113549, 2, 7] }
  | .sha224 => { arcs := [1, 2, 840, 113549, 2, 8] }
  | .sha256 => { arcs := [1, 2, 840, 113549, 2, 9] }
  | .sha384 => { arcs := [1, 2, 840, 113549, 2, 10] }
  | .sha512 => { arcs := [1, 2, 840, 113549, 2, 11] }

def cipherIdentifier : Cipher → ObjectIdentifier
  | .aes128 => { arcs := [2, 16, 840, 1, 101, 3, 4, 1, 2] }
  | .aes192 => { arcs := [2, 16, 840, 1, 101, 3, 4, 1, 22] }
  | .aes256 => { arcs := [2, 16, 840, 1, 101, 3, 4, 1, 42] }
  | .tripleDes => { arcs := [1, 2, 840, 113549, 3, 7] }

/-- The keyed digest of that identifier. -/
def digest? (identifier : ObjectIdentifier) : Option Digest :=
  [Digest.sha1, .sha224, .sha256, .sha384, .sha512].find? fun digest =>
    (digestIdentifier digest).text = identifier.text

/-- The cipher of that identifier. -/
def cipher? (identifier : ObjectIdentifier) : Option Cipher :=
  [Cipher.aes128, .aes192, .aes256, .tripleDes].find? fun cipher =>
    (cipherIdentifier cipher).text = identifier.text

/-! ## Reading parameters -/

/-- Reads the salt, which has to stand there itself. -/
def readSalt : Read Error Bytes := do
  if (← (peekTag : Read Asn1.Error _)) = some .sequence then throw (.unsupported .saltSource)
  readOctetString

/-- Reads the count of iterations, which has to be positive and to fit in 32 bits. -/
def readIterations : Read Error Nat := do
  let count ← readWord
  if count = 0 ∨ UInt32.size ≤ count.toNat then throw (.malformedKey (.iterationCount count))
  return count.toNat

def readKeyLength : Read Error (Option Nat) := do
  if (← (peekTag : Read Asn1.Error _)) = some .integer then
    return some (← readWord).toNat
  else
    return none

/-- Reads the keyed digest; HMAC-SHA-1 is meant where none is named. -/
def readDigest : Read Error Digest := do
  match ← (peekTag : Read Asn1.Error _) with
  | none => return .sha1
  | some _ =>
    let algorithm ← AlgorithmIdentifier.read
    match digest? algorithm.identifier with
    | some digest => return digest
    | none => throw (.unsupported (.keyedDigest algorithm.identifier))

/-- Reads what stands in the sequence of parameters of the key derivation. -/
def derivationFields : Read Error KeyDerivation := do
  let salt ← readSalt
  let iterations ← readIterations
  let keyLength ← readKeyLength
  let digest ← readDigest
  finish
  return ⟨salt, iterations, keyLength, digest⟩

def derivationOf (algorithm : AlgorithmIdentifier) : Except Error KeyDerivation :=
  if algorithm.identifier.text ≠ derivationIdentifier.text then
    .error (.unsupported (.keyDerivation algorithm.identifier))
  else
    match algorithm.effectiveParameters with
    | none => .error (.malformedKey .derivationWithoutParameters)
    | some parameters => decodeSequence derivationFields parameters

/-- Reads the two parts of the parameters. -/
def fields : Read Error (AlgorithmIdentifier × AlgorithmIdentifier) := do
  let derivation ← AlgorithmIdentifier.read
  let cipher ← AlgorithmIdentifier.read
  finish
  return (derivation, cipher)

/-- The initialization vector of a cipher. -/
def vectorOf (algorithm : AlgorithmIdentifier) : Except Error Bytes :=
  match algorithm.effectiveParameters with
  | none => .error (.malformedKey .cipherWithoutVector)
  | some parameters => decodeOnly readOctetString parameters

/-- The scheme that an algorithm identifier describes. -/
def ofAlgorithm (algorithm : AlgorithmIdentifier) : Except Error PasswordScheme :=
  if algorithm.identifier.text ≠ identifier.text then
    .error (.unsupported (.encryptionScheme algorithm.identifier))
  else
    match algorithm.effectiveParameters with
    | none => .error (.malformedKey .schemeWithoutParameters)
    | some parameters => do
      let (derivationPart, cipherPart) ← decodeSequence fields parameters
      let derivation ← derivationOf derivationPart
      match cipher? cipherPart.identifier with
      | none => throw (.unsupported (.cipher cipherPart.identifier))
      | some cipher =>
        let iv ← vectorOf cipherPart
        if iv.length ≠ cipher.blockSize then
          throw (.malformedKey (.vectorLength cipher iv.length))
        -- A key length that is written down has to be the one that the cipher needs anyway.
        match derivation.keyLength with
        | some length =>
          if length ≠ cipher.keyLength then throw (.malformedKey (.keyLength length cipher))
        | none => pure ()
        return ⟨derivation, cipher, iv⟩

/-! ## Encryption and decryption -/

/-- The key of the cipher. -/
def key (scheme : PasswordScheme) (password : Bytes) : Bytes :=
  deriveKey scheme.derivation.digest password scheme.derivation.salt
    scheme.derivation.iterations scheme.cipher.keyLength

/-- Encrypts under the key that PBKDF2 derives for the cipher, as the scheme states. -/
def encrypt (scheme : PasswordScheme) (password message : Bytes) : Bytes :=
  let key := deriveKey scheme.derivation.digest password scheme.derivation.salt
    scheme.derivation.iterations scheme.cipher.keyLength
  scheme.cipher.encrypt key scheme.iv message

/-- Octets that are no whole number of blocks are refused before any key is derived. -/
def decrypt (scheme : PasswordScheme) (password octets : Bytes) : Except Error Bytes :=
  if octets = [] ∨ octets.length % scheme.cipher.blockSize ≠ 0 then .error .decryptionFailed
  else
    let key := scheme.key password
    if ¬ scheme.cipher.Fits key scheme.iv then .error (.malformedKey (.cipherLengths scheme.cipher))
    else
      match unpad? scheme.cipher.blockSize (scheme.cipher.decryptPadded key scheme.iv octets) with
      | some message => .ok message
      | none => .error .decryptionFailed

end PasswordScheme

end KeyFile
