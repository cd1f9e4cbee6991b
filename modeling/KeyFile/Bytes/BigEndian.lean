import KeyFile.Bytes

/-!
# Numbers as octets, most significant first

`toNat` reads any octet string as a number, `toInt` as one in two's complement, and `toWord` keeps
only the low 64 bits of it. `octets` writes the low octets of a number in a fixed width, and `ofNat`
writes a number in the fewest octets, none for zero.
-/
namespace KeyFile.BigEndian

/-- The number that octets spell, most significant first. -/
def toNat (bytes : Bytes) : Nat :=
  bytes.foldl (fun value octet => value * 256 + octet.toNat) 0

/-- The number that octets spell in two's complement: the first bit counts negatively. -/
def toInt (bytes : Bytes) : Int :=
  match bytes with
  | [] => 0
  | first :: _ =>
    if first < 0x80 then toNat bytes
    else toNat bytes - (1 <<< (8 * bytes.length) : Nat)

/-- The number that octets spell, in 64 bits; the bits that are shifted out of these are lost. -/
def toWord (bytes : Bytes) : UInt64 :=
  bytes.foldl (fun value octet => value <<< 8 ||| octet.toUInt64) 0

/-- The low `width` octets of a number. -/
def octets : Nat → Nat → Bytes
  | 0, _ => []
  | width + 1, number => octets width (number / 256) ++ [UInt8.ofNat number]

/-- How many binary digits a number has; zero has none. -/
def bitLength (number : Nat) : Nat :=
  if number = 0 then 0 else number.log2 + 1

/-- The fewest octets that spell a number. -/
def ofNat (number : Nat) : Bytes :=
  octets ((bitLength number + 7) / 8) number

@[simp] theorem toNat_nil : toNat [] = 0 := rfl

theorem toNat_append_singleton (bytes : Bytes) (octet : UInt8) :
    toNat (bytes ++ [octet]) = toNat bytes * 256 + octet.toNat := by
  simp [toNat]

theorem toWord_append_singleton (bytes : Bytes) (octet : UInt8) :
    toWord (bytes ++ [octet]) = toWord bytes <<< 8 ||| octet.toUInt64 := by
  simp [toWord]

end KeyFile.BigEndian
