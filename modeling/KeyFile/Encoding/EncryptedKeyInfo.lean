import KeyFile.Encoding.PasswordScheme
import KeyFile.Encoding.PrivateKeyInfo

/-!
# Encrypted keys

An algorithm identifier that says how the key is encrypted, and the encrypted octets. A wrong
password decrypts to anything at all, so whatever goes wrong with the decrypted octets is a failure
of the decryption.
-/
namespace KeyFile

open Asn1

structure EncryptedKeyInfo where
  algorithm : AlgorithmIdentifier
  data : Bytes
  deriving DecidableEq, Repr

namespace EncryptedKeyInfo

/-- Reads what stands in the sequence. -/
def fields : Read Error EncryptedKeyInfo := do
  let algorithm ← AlgorithmIdentifier.read
  let data ← readOctetString
  finish
  return ⟨algorithm, data⟩

def decode (octets : Bytes) : Except Error EncryptedKeyInfo :=
  decodeSequence fields octets

def element (info : EncryptedKeyInfo) : Element :=
  .sequence [info.algorithm.element, .octetString info.data]

def encode (info : EncryptedKeyInfo) : Bytes :=
  info.element.encode

def scheme (info : EncryptedKeyInfo) : Except Error PasswordScheme :=
  PasswordScheme.ofAlgorithm info.algorithm

def decrypt (info : EncryptedKeyInfo) (password : Bytes) : Except Error PrivateKeyInfo := do
  let scheme ← info.scheme
  let octets ← scheme.decrypt password info.data
  (PrivateKeyInfo.decode octets).mapError fun _ => .decryptionFailed

/-- The private key within. A scheme that is not supported is reported even without a password. -/
def toPrivateKey (info : EncryptedKeyInfo) (password : Option Bytes) : Except Error PrivateKey := do
  let _ ← info.scheme
  match password with
  | none => throw .passwordRequired
  | some password =>
    let inner ← info.decrypt password
    inner.toPrivateKey

end EncryptedKeyInfo

end KeyFile
