import KeyFile.Asn1.Read

/-!
# Element trees

What is written is a list of element trees: numbers, strings, identifiers, sequences and explicit
wrappers, beside octets that are encoded already. `Element.encode` writes a tree with the shortest
lengths and the shortest integers. `Shape` is a tree without its values; reading along a shape gives
the values back.
-/
namespace KeyFile.Asn1

inductive Element where
  /-- A number of any size. -/
  | unsigned (value : Nat)
  /-- A number of 64 bits. -/
  | word (value : UInt64)
  | octetString (octets : Bytes)
  | bitString (bits : BitString)
  | null
  | objectIdentifier (identifier : ObjectIdentifier)
  /-- Any tag around any content. -/
  | tagged (tag : Tag) (content : Bytes)
  /-- Octets that are encoded already. -/
  | encoded (octets : Bytes)
  | sequence (elements : List Element)
  /-- An explicit `[slot]` wrapper. -/
  | explicit (slot : UInt8) (elements : List Element)

/-- The shortest two's complement form of a number: one octet for zero, and a zero octet in front
of one whose high bit is set. -/
def integerContent (value : Nat) : Bytes :=
  match BigEndian.ofNat value with
  | [] => [0]
  | first :: rest => if first < 0x80 then first :: rest else 0 :: first :: rest

mutual

def Element.encode : Element → Bytes
  | .unsigned value => element .integer (integerContent value)
  | .word value => element .integer (integerContent value.toNat)
  | .octetString octets => element .octetString octets
  | .bitString bits => element .bitString bits.content
  | .null => element .null []
  | .objectIdentifier identifier => element .objectIdentifier identifier.contents
  | .tagged tag content => element tag content
  | .encoded octets => octets
  | .sequence elements => element .sequence (encodeAll elements)
  | .explicit slot elements => element (.explicit slot) (encodeAll elements)

/-- The elements one after another. -/
def encodeAll : List Element → Bytes
  | [] => []
  | first :: rest => first.encode ++ encodeAll rest

end

/-- A tree without its values. -/
inductive Shape where
  | unsigned
  | word
  | octetString
  | bitString
  | null
  | objectIdentifier
  | tagged (tag : Tag)
  | encoded
  | sequence (shapes : List Shape)
  | explicit (slot : UInt8) (shapes : List Shape)

mutual

def Element.shape : Element → Shape
  | .unsigned _ => .unsigned
  | .word _ => .word
  | .octetString _ => .octetString
  | .bitString _ => .bitString
  | .null => .null
  | .objectIdentifier _ => .objectIdentifier
  | .tagged tag _ => .tagged tag
  | .encoded _ => .encoded
  | .sequence elements => .sequence (shapes elements)
  | .explicit slot elements => .explicit slot (shapes elements)

def shapes : List Element → List Shape
  | [] => []
  | first :: rest => first.shape :: shapes rest

end

mutual

/-- Reads one element of the given shape; sequences and wrappers are read to their end. -/
def Shape.read : Shape → Read Error Element
  | .unsigned => Element.unsigned <$> readUnsigned
  | .word => Element.word <$> readWord
  | .octetString => Element.octetString <$> readOctetString
  | .bitString => Element.bitString <$> readBitString
  | .null => do readNull; return .null
  | .objectIdentifier => Element.objectIdentifier <$> readObjectIdentifier
  | .tagged tag => Element.tagged tag <$> readContent tag
  | .encoded => Element.encoded <$> readElement
  | .sequence shapes => do
    let content ← readSequence
    Element.sequence <$> Read.inside content (readAll shapes)
  | .explicit slot shapes => do
    let content ← readExplicit slot
    Element.explicit slot <$> Read.inside content (readAll shapes)

/-- Reads elements of the given shapes, and nothing after them. -/
def readAll : List Shape → Read Error (List Element)
  | [] => do finish; return []
  | first :: rest => do
    let element ← first.read
    let elements ← readAll rest
    return element :: elements

end

end KeyFile.Asn1
