import KeyFile.Text

/-!
# Reading UTF-8

`decode` reads octets as UTF-8 text. It accepts the well-formed byte sequences of the Unicode
standard only: no overlong form, no surrogate, nothing above U+10FFFF. A refusal says where the
text stops being well formed, and how many octets there cannot start any character.
-/
namespace KeyFile.Utf8

/-- Why octets are no UTF-8 text; `index` octets before the fault are well formed. -/
inductive Error where
  /-- As many octets as `count` says start no character, whatever follows them. -/
  | invalid (count index : Nat)
  /-- The octets end within a character. -/
  | incomplete (index : Nat)
  deriving DecidableEq, Repr

def Error.message : Error → String
  | .invalid count index => s!"invalid utf-8 sequence of {count} bytes from index {index}"
  | .incomplete index => s!"incomplete utf-8 byte sequence from index {index}"

/-- The octets that may follow directly after a leading octet. -/
def secondOctet (lead octet : UInt8) : Bool :=
  if lead = 0xe0 then 0xa0 ≤ octet && octet ≤ 0xbf
  else if lead = 0xed then 0x80 ≤ octet && octet ≤ 0x9f
  else if lead = 0xf0 then 0x90 ≤ octet && octet ≤ 0xbf
  else if lead = 0xf4 then 0x80 ≤ octet && octet ≤ 0x8f
  else 0x80 ≤ octet && octet ≤ 0xbf

/-- The octets that may stand at the third and fourth place. -/
def laterOctet (octet : UInt8) : Bool :=
  0x80 ≤ octet && octet ≤ 0xbf

/-- The six low bits of a continuing octet. -/
def lowBits (octet : UInt8) : Nat :=
  octet.toNat % 64

/-- Reads the text that starts `index` octets into the input. -/
def decodeFrom (index : Nat) : Bytes → Except Error Text
  | [] => .ok []
  | a :: rest =>
    if a < 0x80 then (Char.ofNat a.toNat :: ·) <$> decodeFrom (index + 1) rest
    else if a < 0xc2 || 0xf4 < a then .error (.invalid 1 index)
    else
      match rest with
      | [] => .error (.incomplete index)
      | b :: rest =>
        if !secondOctet a b then .error (.invalid 1 index)
        else if a < 0xe0 then
          (Char.ofNat (a.toNat % 32 * 64 + lowBits b) :: ·) <$> decodeFrom (index + 2) rest
        else
          match rest with
          | [] => .error (.incomplete index)
          | c :: rest =>
            if !laterOctet c then .error (.invalid 2 index)
            else if a < 0xf0 then
              (Char.ofNat ((a.toNat % 16 * 64 + lowBits b) * 64 + lowBits c) :: ·) <$>
                decodeFrom (index + 3) rest
            else
              match rest with
              | [] => .error (.incomplete index)
              | d :: rest =>
                if !laterOctet d then .error (.invalid 3 index)
                else
                  (Char.ofNat (((a.toNat % 8 * 64 + lowBits b) * 64 + lowBits c) * 64 + lowBits d)
                    :: ·) <$> decodeFrom (index + 4) rest

/-- The text that octets spell in UTF-8. -/
def decode (bytes : Bytes) : Except Error Text :=
  decodeFrom 0 bytes

end KeyFile.Utf8
