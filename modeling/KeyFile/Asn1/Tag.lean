import KeyFile.Bytes.Hex

/-!
# Tags

A tag says what kind of element follows. Key structures use seven universal tags and context tags
`[slot]`; every other identifier octet is kept as it is. `Tag.ofOctet` reads an identifier octet
and `Tag.octet` writes it.
-/
namespace KeyFile.Asn1

inductive Tag where
  | integer
  | bitString
  | octetString
  | null
  | objectIdentifier
  | sequence
  | set
  /-- A context tag; only the five low bits of the slot are ever written. -/
  | contextSpecific (slot : UInt8) (constructed : Bool)
  | other (octet : UInt8)
  deriving DecidableEq, Repr

namespace Tag

/-- The tag of an explicit `[slot]` wrapper, which is constructed. -/
def explicit (slot : UInt8) : Tag :=
  .contextSpecific slot true

def ofOctet (octet : UInt8) : Tag :=
  if octet = 0x02 then .integer
  else if octet = 0x03 then .bitString
  else if octet = 0x04 then .octetString
  else if octet = 0x05 then .null
  else if octet = 0x06 then .objectIdentifier
  else if octet = 0x30 then .sequence
  else if octet = 0x31 then .set
  else if octet &&& 0xc0 = 0x80 then .contextSpecific (octet &&& 0x1f) (octet &&& 0x20 ≠ 0)
  else .other octet

def octet : Tag → UInt8
  | .integer => 0x02
  | .bitString => 0x03
  | .octetString => 0x04
  | .null => 0x05
  | .objectIdentifier => 0x06
  | .sequence => 0x30
  | .set => 0x31
  | .contextSpecific slot constructed =>
    0x80 ||| (if constructed then 0x20 else 0) ||| (slot &&& 0x1f)
  | .other octet => octet

/-- The name of a tag in messages. -/
def name : Tag → String
  | .integer => "INTEGER"
  | .bitString => "BIT STRING"
  | .octetString => "OCTET STRING"
  | .null => "NULL"
  | .objectIdentifier => "OBJECT IDENTIFIER"
  | .sequence => "SEQUENCE"
  | .set => "SET"
  | .contextSpecific slot _ => s!"[{slot.toNat}]"
  | .other octet => s!"tag 0x{Hex.text [octet]}"

end Tag

end KeyFile.Asn1
