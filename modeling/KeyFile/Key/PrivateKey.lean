import KeyFile.Key.Algorithm
import KeyFile.Key.Curve

/-!
# Private keys

A private key holds what its file says about the key itself, and nothing of how the file says it, so
that files in different encodings can be compared by their keys.
-/
namespace KeyFile

/-- An RSA key of two primes. -/
structure RsaKey where
  modulus : Nat
  publicExponent : Nat
  privateExponent : Nat
  prime1 : Nat
  prime2 : Nat
  exponent1 : Nat
  exponent2 : Nat
  coefficient : Nat
  deriving DecidableEq, Repr

/-- A DSA key with its domain parameters. -/
structure DsaKey where
  p : Nat
  q : Nat
  g : Nat
  x : Nat
  deriving DecidableEq, Repr

inductive PrivateKey where
  | rsa (key : RsaKey)
  /-- The parameters of the padding are kept as the element that states them. -/
  | rsaPss (key : RsaKey) (parameters : Option Bytes)
  | dsa (key : DsaKey)
  | ec (curve : Curve) (scalar : Bytes) (publicKey : Option Bytes)
  | raw (kind : RawKind) (seed : Bytes) (publicKey : Option Bytes)
  deriving DecidableEq, Repr

namespace PrivateKey

def algorithm : PrivateKey → Algorithm
  | .rsa _ => .rsa
  | .rsaPss _ _ => .rsaPss
  | .dsa _ => .dsa
  | .ec _ _ _ => .ec
  | .raw kind _ _ => .raw kind

/-- The curve of an elliptic curve key. -/
def curve? : PrivateKey → Option Curve
  | .ec curve _ _ => some curve
  | _ => none

/-- The numbers of an RSA key, whatever its padding. -/
def rsaKey? : PrivateKey → Option RsaKey
  | .rsa key | .rsaPss key _ => some key
  | _ => none

/-- The size in bits. -/
def size : PrivateKey → Nat
  | .rsa key | .rsaPss key _ => BigEndian.bitLength key.modulus
  | .dsa key => BigEndian.bitLength key.p
  | .ec curve _ _ => curve.fieldSize
  | .raw kind _ _ => kind.bits

/-- The octets of the public key, if the file held them. -/
def publicKey? : PrivateKey → Option Bytes
  | .ec _ _ publicKey | .raw _ _ publicKey => publicKey
  | _ => none

end PrivateKey

end KeyFile
