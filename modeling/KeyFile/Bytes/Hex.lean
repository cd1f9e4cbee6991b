import KeyFile.Bytes

/-!
# Hexadecimal text

Two lower-case digits for each octet, the higher four bits first.
-/
namespace KeyFile.Hex

/-- Two digits for one octet. -/
def octet (value : UInt8) : List Char :=
  [Nat.digitChar (value.toNat / 16), Nat.digitChar (value.toNat % 16)]

/-- Two digits for each octet. -/
def text (bytes : Bytes) : String :=
  String.ofList (bytes.flatMap octet)

end KeyFile.Hex
