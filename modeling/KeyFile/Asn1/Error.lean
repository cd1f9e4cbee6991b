import KeyFile.Asn1.BitString
import KeyFile.Asn1.Tag
import KeyFile.Asn1.ObjectIdentifier

/-!
# Faults of encoded elements

The causes for which octets are not the element that was asked for. The first six leave the octets
unread; the faults of a content come after the element has been read.
-/
namespace KeyFile.Asn1

inductive Error where
  | unexpectedEnd
  | unexpectedTag (expected actual : Tag)
  | highTagNumber
  | indefiniteLength
  | lengthTooLong
  | truncated (declared remaining : Nat)
  | emptyInteger
  | negativeInteger
  | integerOverflow
  | invalidNull
  | invalidBitString (cause : BitString.Error)
  | invalidObjectIdentifier (cause : ObjectIdentifier.Error)
  | trailingData (count : Nat)
  deriving DecidableEq, Repr

def Error.message : Error → String
  | .unexpectedEnd => "unexpected end of input"
  | .unexpectedTag expected actual =>
    s!"unexpected tag: expected {expected.name}, got {actual.name}"
  | .highTagNumber => "high tag number form is not supported"
  | .indefiniteLength => "indefinite length is not allowed in DER"
  | .lengthTooLong => "length field is too long"
  | .truncated declared remaining =>
    s!"declared length {declared} exceeds remaining {remaining} bytes"
  | .emptyInteger => "INTEGER has no content"
  | .negativeInteger => "negative INTEGER where an unsigned value is required"
  | .integerOverflow => "INTEGER does not fit in 64 bits"
  | .invalidNull => "NULL must have no content"
  | .invalidBitString cause => s!"invalid BIT STRING: {cause.message}"
  | .invalidObjectIdentifier cause => s!"invalid object identifier: {cause.message}"
  | .trailingData count => s!"{count} trailing bytes after the last element"

end KeyFile.Asn1
