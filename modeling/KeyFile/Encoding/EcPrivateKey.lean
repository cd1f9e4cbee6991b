import KeyFile.Error
import KeyFile.Asn1.Element

/-!
# Elliptic curve keys

A private scalar, optionally with the choice of a curve and with the public key. The curve may also
be named by what the key is part of; then both have to agree.
-/
namespace KeyFile

open Asn1

/-- How a curve is chosen. -/
inductive CurveChoice where
  | named (identifier : ObjectIdentifier)
  /-- Inherited from somewhere else. -/
  | implicit
  /-- Domain parameters, kept as one element. -/
  | explicit (element : Bytes)
  deriving DecidableEq, Repr

namespace CurveChoice

def read : Read Asn1.Error CurveChoice := do
  match ← peekTag with
  | some .objectIdentifier => return .named (← readObjectIdentifier)
  | some .null =>
    readNull
    return .implicit
  | some .sequence => return .explicit (← readElement)
  | some actual => throw (.unexpectedTag .objectIdentifier actual)
  | none => throw .unexpectedEnd

/-- The chosen curve; only named curves are supported. -/
def resolve : CurveChoice → Except Error Curve
  | .named identifier =>
    match Curve.ofIdentifier? identifier with
    | some curve => .ok curve
    | none => .error (.unsupported (.curve identifier))
  | .implicit => .error (.malformedKey .implicitCurve)
  | .explicit _ => .error (.unsupported .explicitCurve)

def element : CurveChoice → Element
  | .named identifier => .objectIdentifier identifier
  | .implicit => .null
  | .explicit octets => .encoded octets

end CurveChoice

structure EcPrivateKey where
  scalar : Bytes
  parameters : Option CurveChoice
  publicKey : Option BitString
  deriving DecidableEq, Repr

namespace EcPrivateKey

/-- Reads an explicit wrapper, if it is there; `read` has to take all of its content. -/
def readWrapped {α : Type} (slot : UInt8) (read : Read Asn1.Error α) :
    Read Asn1.Error (Option α) := do
  match ← readOptionalExplicit slot with
  | none => return none
  | some content => return some (← Read.inside content read.only)

/-- Reads what stands in the sequence. -/
def fields : Read Error EcPrivateKey := do
  let version ← readWord
  if version ≠ 1 then throw (.malformedKey (.ecVersion version))
  let scalar ← readOctetString
  let parameters ← readWrapped 0 CurveChoice.read
  let publicKey ← readWrapped 1 readBitString
  finish
  return ⟨scalar, parameters, publicKey⟩

def decode (octets : Bytes) : Except Error EcPrivateKey :=
  decodeSequence fields octets

def element (key : EcPrivateKey) : Element :=
  .sequence ([.word 1, .octetString key.scalar] ++
    key.parameters.toList.map (fun choice => .explicit 0 [choice.element]) ++
    key.publicKey.toList.map (fun bits => .explicit 1 [.bitString bits]))

def encode (key : EcPrivateKey) : Bytes :=
  key.element.encode

/-- The curve of a key within something that names `outer`. -/
def curve (outer : Option Curve) (key : EcPrivateKey) : Except Error Curve := do
  let inner ← key.parameters.mapM CurveChoice.resolve
  match outer, inner with
  | some outer, some inner =>
    if outer = inner then return outer
    else throw (.malformedKey (.curveMismatch outer inner))
  | some curve, none => return curve
  | none, some curve => return curve
  | none, none => throw (.malformedKey .ecWithoutCurve)

/-- The private key, within something that names the curve `outer`. -/
def toPrivateKey (outer : Option Curve) (key : EcPrivateKey) : Except Error PrivateKey := do
  let curve ← key.curve outer
  if key.scalar.length = 0 ∨ curve.scalarLength < key.scalar.length then
    throw (.malformedKey (.scalarLength key.scalar.length curve))
  return .ec curve key.scalar (key.publicKey.map (·.data))

end EcPrivateKey

end KeyFile
