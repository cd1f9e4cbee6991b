import KeyFile.Crypto.Sha1
import KeyFile.Crypto.Sha2

/-!
# Digests, keyed digests and derived keys

The five digests under one name, the keyed digest HMAC over any of them, and the key derivation
PBKDF2, which repeats a keyed digest of a salt.
-/
namespace KeyFile.Crypto

inductive Digest where
  | sha1
  | sha224
  | sha256
  | sha384
  | sha512
  deriving DecidableEq, Repr

namespace Digest

/-- How many octets a digest has. -/
def size : Digest → Nat
  | .sha1 => 20
  | .sha224 => 28
  | .sha256 => 32
  | .sha384 => 48
  | .sha512 => 64

/-- How many octets are taken in at a time. -/
def blockSize : Digest → Nat
  | .sha1 | .sha224 | .sha256 => 64
  | .sha384 | .sha512 => 128

def hash : Digest → Bytes → Bytes
  | .sha1 => Sha1.hash
  | .sha224 => Sha2.sha224
  | .sha256 => Sha2.sha256
  | .sha384 => Sha2.sha384
  | .sha512 => Sha2.sha512

/-- A key of one block: a longer key is hashed first, and zeros fill it up. -/
def blockKey (digest : Digest) (key : Bytes) : Bytes :=
  let short := if digest.blockSize < key.length then digest.hash key else key
  short ++ List.replicate (digest.blockSize - short.length) 0

/-- The keyed digest HMAC of a message, under a key of one block. -/
def keyedBlock (digest : Digest) (key message : Bytes) : Bytes :=
  digest.hash (key.map (fun octet => octet ^^^ 0x5c) ++
    digest.hash (key.map (fun octet => octet ^^^ 0x36) ++ message))

end Digest

/-! ## Derived keys -/

/-- Adds `count` further terms to a sum, each the function applied to the one before. -/
def addTerms (function : Bytes → Bytes) : Nat → Bytes → Bytes → Bytes
  | 0, _, sum => sum
  | count + 1, term, sum =>
    let next := function term
    addTerms function count next (Bytes.xor sum next)

/-- The sum of the terms for the piece of that number, counted from one. -/
def derivedPiece (function : Bytes → Bytes) (salt : Bytes) (iterations index : Nat) : Bytes :=
  let first := function (salt ++ BigEndian.octets 4 index)
  addTerms function (iterations - 1) first first

/-- The key that PBKDF2 derives from a password with the keyed digest. -/
def deriveKey (digest : Digest) (password salt : Bytes) (iterations length : Nat) : Bytes :=
  let key := digest.blockKey password
  let count := (length + digest.size - 1) / digest.size
  ((List.range count).flatMap fun index =>
    derivedPiece (digest.keyedBlock key) salt iterations (index + 1)).take length

end KeyFile.Crypto
