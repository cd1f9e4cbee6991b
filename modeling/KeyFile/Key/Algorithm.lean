import KeyFile.Asn1.ObjectIdentifier

/-!
# Key algorithms

The eight algorithms that a key may name, with their object identifiers, and the six families that
are shown to users. Four of the algorithms have keys that are octets of one fixed length.
-/
namespace KeyFile

open Asn1 (ObjectIdentifier)

/-- The families of key algorithms. -/
inductive Family where
  | rsa
  /-- RSA restricted to signatures with probabilistic padding. -/
  | rsaPss
  | dsa
  | ec
  /-- Signatures over Edwards curves. -/
  | edDsa
  /-- Key agreement over Montgomery curves. -/
  | xdh
  deriving DecidableEq, Repr

def Family.name : Family → String
  | .rsa => "RSA"
  | .rsaPss => "RSASSA-PSS"
  | .dsa => "DSA"
  | .ec => "EC"
  | .edDsa => "EdDSA"
  | .xdh => "XDH"

/-- The algorithms whose private keys are octets of one fixed length. -/
inductive RawKind where
  | ed25519
  | ed448
  | x25519
  | x448
  deriving DecidableEq, Repr

namespace RawKind

def name : RawKind → String
  | .ed25519 => "Ed25519"
  | .ed448 => "Ed448"
  | .x25519 => "X25519"
  | .x448 => "X448"

/-- The size of a key, as it is shown to users. -/
def bits : RawKind → Nat
  | .ed25519 | .x25519 => 256
  | .ed448 | .x448 => 448

/-- The octets of a private key. -/
def length : RawKind → Nat
  | .ed25519 | .x25519 => 32
  | .ed448 => 57
  | .x448 => 56

end RawKind

inductive Algorithm where
  | rsa
  | rsaPss
  | dsa
  | ec
  | raw (kind : RawKind)
  deriving DecidableEq, Repr

namespace Algorithm

def all : List Algorithm :=
  [.rsa, .rsaPss, .dsa, .ec, .raw .ed25519, .raw .ed448, .raw .x25519, .raw .x448]

def identifier : Algorithm → ObjectIdentifier
  | .rsa => { arcs := [1, 2, 840, 113549, 1, 1, 1] }
  | .rsaPss => { arcs := [1, 2, 840, 113549, 1, 1, 10] }
  | .dsa => { arcs := [1, 2, 840, 10040, 4, 1] }
  | .ec => { arcs := [1, 2, 840, 10045, 2, 1] }
  | .raw .x25519 => { arcs := [1, 3, 101, 110] }
  | .raw .x448 => { arcs := [1, 3, 101, 111] }
  | .raw .ed25519 => { arcs := [1, 3, 101, 112] }
  | .raw .ed448 => { arcs := [1, 3, 101, 113] }

def family : Algorithm → Family
  | .rsa => .rsa
  | .rsaPss => .rsaPss
  | .dsa => .dsa
  | .ec => .ec
  | .raw .ed25519 | .raw .ed448 => .edDsa
  | .raw .x25519 | .raw .x448 => .xdh

/-- The algorithm of that identifier, which is compared with the listed ones by its text. -/
def ofIdentifier? (identifier : ObjectIdentifier) : Option Algorithm :=
  all.find? fun algorithm => algorithm.identifier.text = identifier.text

end Algorithm

end KeyFile
