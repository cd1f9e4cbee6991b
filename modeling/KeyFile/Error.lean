import KeyFile.Asn1.Read
import KeyFile.Crypto.Cipher
import KeyFile.Key.PrivateKey
import KeyFile.Pem.Scan

/-!
# Why a key cannot be read

A text may hold no key; its armor or its elements may be broken; the elements may be sound but say
nothing that makes a key; or they may ask for something that is not supported. A read of elements
within a larger one reports its faults as broken elements.
-/
namespace KeyFile

open Asn1 (ObjectIdentifier Read)

/-- What makes sound elements no key. -/
inductive Defect where
  | rsaVersion (version : UInt64)
  | ecVersion (version : UInt64)
  | dsaWithoutParameters
  | ecWithoutParameters
  /-- A key that names no curve, and is not within anything that does. -/
  | ecWithoutCurve
  | implicitCurve
  | curveMismatch (outer inner : Curve)
  | scalarLength (length : Nat) (curve : Curve)
  | seedLength (kind : RawKind) (length : Nat)
  | schemeWithoutParameters
  | derivationWithoutParameters
  | iterationCount (count : UInt64)
  | cipherWithoutVector
  | vectorLength (cipher : Crypto.Cipher) (length : Nat)
  | keyLength (length : Nat) (cipher : Crypto.Cipher)
  /-- What the cipher cannot be set up with. -/
  | cipherLengths (cipher : Crypto.Cipher)
  deriving DecidableEq, Repr

def Defect.message : Defect → String
  | .rsaVersion version => s!"RSAPrivateKey version must be 0 or 1, got {version.toNat}"
  | .ecVersion version => s!"ECPrivateKey version must be 1, got {version.toNat}"
  | .dsaWithoutParameters => "DSA key without domain parameters"
  | .ecWithoutParameters => "EC key without curve parameters"
  | .ecWithoutCurve => "EC private key without curve parameters"
  | .implicitCurve => "implicitly defined curve parameters"
  | .curveMismatch outer inner => s!"curve mismatch: {outer.name} and {inner.name}"
  | .scalarLength length curve => s!"{length} byte private key for {curve.name}"
  | .seedLength kind length =>
    s!"{kind.name} private key must be {kind.length} bytes, got {length}"
  | .schemeWithoutParameters => "PBES2 without parameters"
  | .derivationWithoutParameters => "PBKDF2 without parameters"
  | .iterationCount count => s!"PBKDF2 iteration count {count.toNat} out of range"
  | .cipherWithoutVector => "cipher without IV"
  | .vectorLength cipher length =>
    s!"{cipher.name} needs a {cipher.blockSize} byte IV, got {length}"
  | .keyLength length cipher => s!"PBKDF2 key length {length} does not match {cipher.name}"
  | .cipherLengths cipher => s!"invalid key or IV length for {cipher.name}"

/-- What is recognized but not supported. -/
inductive Unsupported where
  | algorithm (identifier : ObjectIdentifier)
  | curve (identifier : ObjectIdentifier)
  | explicitCurve
  /-- A DSA key in an encoding of its own. -/
  | traditionalDsa
  /-- A payload that is encrypted as its armor headers tell. -/
  | legacyEncryption (label : Pem.Label)
  | multiPrimeRsa
  | version (number : UInt64)
  | encryptionScheme (identifier : ObjectIdentifier)
  | keyDerivation (identifier : ObjectIdentifier)
  | saltSource
  | keyedDigest (identifier : ObjectIdentifier)
  | cipher (identifier : ObjectIdentifier)
  deriving DecidableEq, Repr

def Unsupported.message : Unsupported → String
  | .algorithm identifier => s!"unknown key algorithm {String.ofList identifier.text}"
  | .curve identifier => s!"unknown elliptic curve {String.ofList identifier.text}"
  | .explicitCurve => "explicit elliptic curve parameters"
  | .traditionalDsa => "DSA keys in the traditional format"
  | .legacyEncryption label => s!"legacy OpenSSL encryption of {String.ofList label.text}"
  | .multiPrimeRsa => "multi-prime RSA keys"
  | .version number => s!"version {number.toNat}"
  | .encryptionScheme identifier => s!"encryption scheme {String.ofList identifier.text}"
  | .keyDerivation identifier => s!"key derivation function {String.ofList identifier.text}"
  | .saltSource => "PBKDF2 salt from an algorithm identifier"
  | .keyedDigest identifier => s!"pseudo-random function {String.ofList identifier.text}"
  | .cipher identifier => s!"cipher {String.ofList identifier.text}"

inductive Error where
  | noKeyFound
  | malformedPem (cause : Pem.Error)
  | malformedDer (cause : Asn1.Error)
  | malformedKey (cause : Defect)
  | unsupported (cause : Unsupported)
  | passwordRequired
  | decryptionFailed
  deriving DecidableEq, Repr

/-- The message of the fault that lies behind this one. -/
def Error.causeMessage? : Error → Option String
  | .malformedPem cause => some cause.message
  | .malformedDer cause => some cause.message
  | .unsupported cause => some cause.message
  | _ => none

def Error.message : Error → String
  | .noKeyFound => "no PEM encoded private key found"
  | .malformedPem cause => s!"malformed PEM input: {cause.message}"
  | .malformedDer cause => s!"malformed DER: {cause.message}"
  | .malformedKey cause => s!"malformed private key: {cause.message}"
  | .unsupported cause => s!"Unrecognized private key format: {cause.message}"
  | .passwordRequired => "a password is required to decrypt the private key"
  | .decryptionFailed => "failed to decrypt the private key"

/-- A read of elements is a read of a part of a key. -/
instance : MonadLift (Read Asn1.Error) (Read Error) where
  monadLift read := read.mapError .malformedDer

/-- The version that a number names, where zero and one are the versions that there are. -/
def versionOf {Version : Type} (zero one : Version) (refused : Error) (number : UInt64) :
    Except Error Version :=
  if number = 0 then .ok zero
  else if number = 1 then .ok one
  else .error refused

/-- Reads octets with nothing left over. -/
def decodeOnly {α : Type} (read : Read Asn1.Error α) (octets : Bytes) : Except Error α :=
  (read.only.decode octets).mapError .malformedDer

/-- Reads octets as one sequence, with nothing after it; `fields` reads its content. -/
def decodeSequence {α : Type} (fields : Read Error α) (octets : Bytes) : Except Error α :=
  Read.decode (do
    let content ← Asn1.readSequence.only
    Read.inside content fields) octets

end KeyFile
