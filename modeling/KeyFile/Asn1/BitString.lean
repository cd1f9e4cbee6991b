import KeyFile.Bytes

/-!
# Bit strings

The content of a bit string is an octet that tells how many bits of the last octet are unused, and
then the octets.
-/
namespace KeyFile.Asn1

structure BitString where
  unusedBits : UInt8
  data : Bytes
  deriving DecidableEq, Repr

namespace BitString

/-- What is wrong with the content of a bit string. -/
inductive Error where
  | missingUnusedBits
  | unusedBits (count : UInt8)
  deriving DecidableEq, Repr

def Error.message : Error → String
  | .missingUnusedBits => "missing unused bits octet"
  | .unusedBits count => s!"{count.toNat} unused bits"

/-- At most seven bits are unused, and none when there are no octets. -/
def Valid (bits : BitString) : Prop :=
  bits.unusedBits ≤ 7 ∧ (bits.data = [] → bits.unusedBits = 0)

instance (bits : BitString) : Decidable bits.Valid :=
  inferInstanceAs (Decidable (_ ∧ _))

def content (bits : BitString) : Bytes :=
  bits.unusedBits :: bits.data

/-- Splits a content without judging the unused bits. -/
def ofContent : Bytes → Except Error BitString
  | [] => .error .missingUnusedBits
  | unused :: data => .ok ⟨unused, data⟩

/-- Splits a content that is valid. -/
def ofValidContent (octets : Bytes) : Except Error BitString := do
  let bits ← ofContent octets
  if bits.Valid then return bits else throw (.unusedBits bits.unusedBits)

end BitString

end KeyFile.Asn1
