import KeyFile.Asn1.Error

/-!
# Element headers

An element is an identifier octet, a length and as many content octets. Reading accepts the short
length form and the long form with up to eight octets, leading zeros included, provided that the
content is there; writing uses the shortest form. The octets are judged in the order in which they
stand, and the content last.
-/
namespace KeyFile.Asn1

/-- The shortest length field. -/
def lengthOctets (length : Nat) : Bytes :=
  if length < 0x80 then [UInt8.ofNat length]
  else
    let octets := BigEndian.ofNat length
    UInt8.ofNat (0x80 + octets.length) :: octets

/-- Reads a length field, and gives the octets after it. -/
def readLength : Bytes → Except Error (Nat × Bytes)
  | [] => .error .unexpectedEnd
  | first :: rest =>
    if first < 0x80 then .ok (first.toNat, rest)
    else if first = 0x80 then .error .indefiniteLength
    else
      let count := first.toNat - 0x80
      if 8 < count then .error .lengthTooLong
      else if rest.length < count then .error .unexpectedEnd
      else .ok ((BigEndian.toWord (rest.take count)).toNat, rest.drop count)

/-- Reads a header, and gives the octets after it, which hold the whole content. -/
def readHeader : Bytes → Except Error (Tag × Nat × Bytes)
  | [] => .error .unexpectedEnd
  | first :: rest =>
    if first &&& 0x1f = 0x1f then .error .highTagNumber
    else do
      let (length, rest) ← readLength rest
      if rest.length < length then throw (.truncated length rest.length)
      return (Tag.ofOctet first, length, rest)

/-- Writes an element. -/
def element (tag : Tag) (content : Bytes) : Bytes :=
  tag.octet :: (lengthOctets content.length ++ content)

end KeyFile.Asn1
