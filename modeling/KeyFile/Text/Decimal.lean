import KeyFile.Text

/-!
# Decimal numbers

Numbers are written without sign and without leading zeros. Reading is more lenient: a plus sign
and leading zeros are allowed, and the value has to fit in 64 bits.
-/
namespace KeyFile.Decimal

/-- Why a text is no 64-bit number. -/
inductive Error where
  | empty
  | invalidDigit
  | tooLarge
  deriving DecidableEq, Repr

def Error.message : Error → String
  | .empty => "cannot parse integer from empty string"
  | .invalidDigit => "invalid digit found in string"
  | .tooLarge => "number too large to fit in target type"

/-- The decimal digits of a number. -/
def text (number : Nat) : Text :=
  Nat.toDigits 10 number

/-- Reads digits after those that spell `value`; the first fault from the left is reported. -/
def readDigits (value : Nat) : Text → Except Error Nat
  | [] => .ok value
  | c :: rest =>
    if c.isDigit then
      let next := value * 10 + (c.toNat - '0'.toNat)
      if next < UInt64.size then readDigits next rest else .error .tooLarge
    else .error .invalidDigit

/-- The 64-bit number that a text spells. -/
def read : Text → Except Error Nat
  | [] => .error .empty
  | ['+'] => .error .invalidDigit
  | '+' :: digits => readDigits 0 digits
  | digits => readDigits 0 digits

end KeyFile.Decimal
