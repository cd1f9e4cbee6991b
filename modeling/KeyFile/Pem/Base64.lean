import KeyFile.Bytes.BigEndian

/-!
# Base64

Groups of three octets are written as four symbols of six bits, and a shorter last group is filled
up with padding. Reading is strict: the padding has to be there, and the bits of the last symbol
that carry no octet have to be zero, so each octet string has exactly one written form. Faults name
the offset in the written form.
-/
namespace KeyFile.Base64

/-- Why octets are no base64 form. -/
inductive Error where
  /-- An octet that may not stand where it stands. -/
  | invalidSymbol (octet : UInt8) (offset : Nat)
  /-- The last group has too few symbols to carry an octet; its symbols end at `offset`. -/
  | invalidLength (offset : Nat)
  /-- The last symbol has bits that carry no octet and are not zero. -/
  | invalidLastSymbol (octet : UInt8) (offset : Nat)
  | invalidPadding
  deriving DecidableEq, Repr

def Error.message : Error → String
  | .invalidSymbol octet offset => s!"Invalid symbol {octet.toNat}, offset {offset}."
  | .invalidLength offset => s!"Invalid input length: {offset}"
  | .invalidLastSymbol octet offset => s!"Invalid last symbol {octet.toNat}, offset {offset}."
  | .invalidPadding => "Invalid padding"

/-- The equals sign. -/
def pad : UInt8 := 61

/-- The symbol of a six-bit value: capitals, small letters, digits, plus and slash. -/
def symbol (value : Nat) : UInt8 :=
  if value < 26 then UInt8.ofNat (65 + value)
  else if value < 52 then UInt8.ofNat (71 + value)
  else if value < 62 then UInt8.ofNat (value - 4)
  else if value = 62 then 43
  else 47

/-- The six-bit value of a symbol. -/
def value? (octet : UInt8) : Option Nat :=
  if 65 ≤ octet ∧ octet ≤ 90 then some (octet.toNat - 65)
  else if 97 ≤ octet ∧ octet ≤ 122 then some (octet.toNat - 71)
  else if 48 ≤ octet ∧ octet ≤ 57 then some (octet.toNat + 4)
  else if octet = 43 then some 62
  else if octet = 47 then some 63
  else none

/-! ## Writing -/

/-- The symbols of the low `width` groups of six bits. -/
def symbols : Nat → Nat → Bytes
  | 0, _ => []
  | width + 1, number => symbols width (number / 64) ++ [symbol (number % 64)]

def encode : Bytes → Bytes
  | [] => []
  | [a] => symbols 2 (BigEndian.toNat [a] * 16) ++ [pad, pad]
  | [a, b] => symbols 3 (BigEndian.toNat [a, b] * 4) ++ [pad]
  | a :: b :: c :: rest => symbols 4 (BigEndian.toNat [a, b, c]) ++ encode rest

/-! ## Reading -/

/-- The number spelled by six-bit values, most significant first. -/
def number (values : List Nat) : Nat :=
  values.foldl (fun total value => total * 64 + value) 0

/-- Reads symbols only; `offset` octets stand before them. -/
def readSymbols (offset : Nat) : Bytes → Except Error (List Nat)
  | [] => .ok []
  | octet :: rest =>
    match value? octet with
    | none => .error (.invalidSymbol octet offset)
    | some value => (value :: ·) <$> readSymbols (offset + 1) rest

/-- Reads symbols and then padding: the values, and how much padding there is. Padding may begin at
the third place of a group, and only padding follows it. -/
def readPadded (offset place : Nat) : Bytes → Except Error (List Nat × Nat)
  | [] => .ok ([], 0)
  | octet :: rest =>
    if octet = pad then
      if 2 ≤ place ∧ rest.all (· = pad) then .ok ([], rest.length + 1)
      else .error (.invalidSymbol octet (offset + place))
    else
      match value? octet with
      | none => .error (.invalidSymbol octet (offset + place))
      | some value => do
        let (values, padding) ← readPadded offset (place + 1) rest
        return (value :: values, padding)

/-- Reads the last group, of at most four octets. -/
def decodeLast (offset : Nat) (group : Bytes) : Except Error Bytes := do
  let (values, padding) ← readPadded offset 0 group
  let count := values.length
  -- One symbol has six bits, too few for an octet.
  if count < 2 then throw (.invalidLength (offset + count))
  if (count + padding) % 4 ≠ 0 then throw .invalidPadding
  -- Two symbols leave four bits without an octet, three leave two.
  let spare := 1 <<< (2 * (4 - count))
  if number values % spare ≠ 0 then
    throw (.invalidLastSymbol (group.getD (count - 1) 0) (offset + (count - 1)))
  return BigEndian.octets (count - 1) (number values / spare)

/-- Reads groups of four symbols up to the last group. -/
def decodeGroups (offset : Nat) : Bytes → Except Error Bytes
  | [] => .ok []
  | a :: b :: c :: d :: e :: rest => do
    let values ← readSymbols offset [a, b, c, d]
    (BigEndian.octets 3 (number values) ++ ·) <$> decodeGroups (offset + 4) (e :: rest)
  | group => decodeLast offset group

/-- A single octet after the last full group that is neither a symbol nor padding. -/
def strayOctet? (octets : Bytes) : Option UInt8 :=
  if octets.length % 4 = 1 then
    octets.getLast?.filter fun octet => octet ≠ pad ∧ (value? octet).isNone
  else none

/-- The octets written in base64. A stray octet at the end is reported before anything else, then
the first fault from the left. -/
def decode (octets : Bytes) : Except Error Bytes :=
  match strayOctet? octets with
  | some octet => .error (.invalidSymbol octet (octets.length - 1))
  | none => decodeGroups 0 octets

end KeyFile.Base64
