import KeyFile.Error
import KeyFile.Asn1.Element

/-!
# RSA keys as sequences of integers

A version and the eight numbers of the key. A version of one announces more than two primes, which
is not supported.
-/
namespace KeyFile

open Asn1

inductive RsaVersion where
  | twoPrime
  | multiPrime
  deriving DecidableEq, Repr

def RsaVersion.ofWord (version : UInt64) : Except Error RsaVersion :=
  versionOf .twoPrime .multiPrime (.malformedKey (.rsaVersion version)) version

namespace RsaKey

/-- Reads what stands in the sequence. -/
def fields : Read Error RsaKey := do
  let version ← RsaVersion.ofWord (← readWord)
  if version = .multiPrime then throw (.unsupported .multiPrimeRsa)
  let modulus ← readUnsigned
  let publicExponent ← readUnsigned
  let privateExponent ← readUnsigned
  let prime1 ← readUnsigned
  let prime2 ← readUnsigned
  let exponent1 ← readUnsigned
  let exponent2 ← readUnsigned
  let coefficient ← readUnsigned
  finish
  return ⟨modulus, publicExponent, privateExponent, prime1, prime2, exponent1, exponent2,
    coefficient⟩

def decode (octets : Bytes) : Except Error RsaKey :=
  decodeSequence fields octets

def element (key : RsaKey) : Element :=
  .sequence ([0, key.modulus, key.publicExponent, key.privateExponent, key.prime1, key.prime2,
    key.exponent1, key.exponent2, key.coefficient].map Element.unsigned)

def encode (key : RsaKey) : Bytes :=
  key.element.encode

end RsaKey

end KeyFile
