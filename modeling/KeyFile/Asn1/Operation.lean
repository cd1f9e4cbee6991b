import KeyFile.Asn1.Read

/-!
# The reads as one family

`Operation` names the twelve reads of one element, and `Operation.run` performs the named one, so
that what holds of every read can be said once.
-/
namespace KeyFile.Asn1

inductive Operation where
  | any
  | element
  | integer
  | unsigned
  | word
  | octetString
  | bitString
  | null
  | objectIdentifier
  | sequence
  | explicit (slot : UInt8)
  | optionalExplicit (slot : UInt8)
  deriving DecidableEq, Repr

/-- What a read gives. -/
inductive Value where
  | tagged (tag : Tag) (content : Bytes)
  | octets (octets : Bytes)
  | number (value : Nat)
  | word (value : UInt64)
  | bits (bits : BitString)
  | null
  | identifier (identifier : ObjectIdentifier)
  /-- The content of a sequence or wrapper, to be read on its own. -/
  | inner (content : Bytes)
  /-- The optional wrapper is not there. -/
  | absent
  deriving DecidableEq, Repr

def Operation.run : Operation → Read Error Value
  | .any => do
    let (tag, content) ← readAny
    return .tagged tag content
  | .element => Value.octets <$> readElement
  | .integer => Value.octets <$> readInteger
  | .unsigned => Value.number <$> readUnsigned
  | .word => Value.word <$> readWord
  | .octetString => Value.octets <$> readOctetString
  | .bitString => Value.bits <$> readBitString
  | .null => do
    readNull
    return .null
  | .objectIdentifier => Value.identifier <$> readObjectIdentifier
  | .sequence => Value.inner <$> readSequence
  | .explicit slot => Value.inner <$> readExplicit slot
  | .optionalExplicit slot => do
    match ← readOptionalExplicit slot with
    | none => return .absent
    | some content => return .inner content

end KeyFile.Asn1
