import KeyFile.Error
import KeyFile.Asn1.Element

/-!
# Algorithm identifiers

An object identifier with optional parameters, which are kept as one whole element for whoever knows
what they mean. Absent parameters and NULL parameters mean the same.
-/
namespace KeyFile

open Asn1

structure AlgorithmIdentifier where
  identifier : ObjectIdentifier
  parameters : Option Bytes
  deriving DecidableEq, Repr

namespace AlgorithmIdentifier

/-- Reads what stands in the sequence. -/
def fields : Read Asn1.Error AlgorithmIdentifier := do
  let identifier ← readObjectIdentifier
  match ← peekTag with
  | none => return ⟨identifier, none⟩
  | some _ =>
    let parameters ← readElement
    finish
    return ⟨identifier, some parameters⟩

def read : Read Asn1.Error AlgorithmIdentifier := do
  let content ← readSequence
  Read.inside content fields

def decode (octets : Bytes) : Except Error AlgorithmIdentifier :=
  decodeOnly read octets

def element (algorithm : AlgorithmIdentifier) : Element :=
  .sequence (.objectIdentifier algorithm.identifier ::
    algorithm.parameters.toList.map Element.encoded)

def encode (algorithm : AlgorithmIdentifier) : Bytes :=
  algorithm.element.encode

/-- The parameters, unless they are absent or begin with the tag of NULL. -/
def effectiveParameters (algorithm : AlgorithmIdentifier) : Option Bytes :=
  algorithm.parameters.filter fun octets => octets.head?.map Tag.ofOctet ≠ some .null

/-- The object identifier that the parameters consist of, if they begin as one. -/
def parameterIdentifier (algorithm : AlgorithmIdentifier) :
    Except Error (Option ObjectIdentifier) :=
  match algorithm.effectiveParameters with
  | none => .ok none
  | some octets =>
    if octets.head?.map Tag.ofOctet = some .objectIdentifier then
      some <$> decodeOnly readObjectIdentifier octets
    else .ok none

end AlgorithmIdentifier

end KeyFile
