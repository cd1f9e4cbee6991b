import KeyFile.Bytes

/-!
# AES

The block cipher on four columns of four octets. A round substitutes octets, rotates rows, mixes
columns and adds a round key; the last round mixes nothing. Decryption undoes the rounds from the
last to the first.
-/
namespace KeyFile.Crypto.Aes

/-- Four octets: a column of the state, or a word of the key schedule. -/
structure Word where
  b0 : UInt8
  b1 : UInt8
  b2 : UInt8
  b3 : UInt8
  deriving DecidableEq, Repr

/-- Four columns. -/
structure State where
  c0 : Word
  c1 : Word
  c2 : Word
  c3 : Word
  deriving DecidableEq, Repr

def substitutions : Array UInt8 := #[
    0x63, 0x7c, 0x77, 0x7b, 0xf2, 0x6b, 0x6f, 0xc5, 0x30, 0x01, 0x67, 0x2b, 0xfe, 0xd7, 0xab, 0x76,
    0xca, 0x82, 0xc9, 0x7d, 0xfa, 0x59, 0x47, 0xf0, 0xad, 0xd4, 0xa2, 0xaf, 0x9c, 0xa4, 0x72, 0xc0,
    0xb7, 0xfd, 0x93, 0x26, 0x36, 0x3f, 0xf7, 0xcc, 0x34, 0xa5, 0xe5, 0xf1, 0x71, 0xd8, 0x31, 0x15,
    0x04, 0xc7, 0x23, 0xc3, 0x18, 0x96, 0x05, 0x9a, 0x07, 0x12, 0x80, 0xe2, 0xeb, 0x27, 0xb2, 0x75,
    0x09, 0x83, 0x2c, 0x1a, 0x1b, 0x6e, 0x5a, 0xa0, 0x52, 0x3b, 0xd6, 0xb3, 0x29, 0xe3, 0x2f, 0x84,
    0x53, 0xd1, 0x00, 0xed, 0x20, 0xfc, 0xb1, 0x5b, 0x6a, 0xcb, 0xbe, 0x39, 0x4a, 0x4c, 0x58, 0xcf,
    0xd0, 0xef, 0xaa, 0xfb, 0x43, 0x4d, 0x33, 0x85, 0x45, 0xf9, 0x02, 0x7f, 0x50, 0x3c, 0x9f, 0xa8,
    0x51, 0xa3, 0x40, 0x8f, 0x92, 0x9d, 0x38, 0xf5, 0xbc, 0xb6, 0xda, 0x21, 0x10, 0xff, 0xf3, 0xd2,
    0xcd, 0x0c, 0x13, 0xec, 0x5f, 0x97, 0x44, 0x17, 0xc4, 0xa7, 0x7e, 0x3d, 0x64, 0x5d, 0x19, 0x73,
    0x60, 0x81, 0x4f, 0xdc, 0x22, 0x2a, 0x90, 0x88, 0x46, 0xee, 0xb8, 0x14, 0xde, 0x5e, 0x0b, 0xdb,
    0xe0, 0x32, 0x3a, 0x0a, 0x49, 0x06, 0x24, 0x5c, 0xc2, 0xd3, 0xac, 0x62, 0x91, 0x95, 0xe4, 0x79,
    0xe7, 0xc8, 0x37, 0x6d, 0x8d, 0xd5, 0x4e, 0xa9, 0x6c, 0x56, 0xf4, 0xea, 0x65, 0x7a, 0xae, 0x08,
    0xba, 0x78, 0x25, 0x2e, 0x1c, 0xa6, 0xb4, 0xc6, 0xe8, 0xdd, 0x74, 0x1f, 0x4b, 0xbd, 0x8b, 0x8a,
    0x70, 0x3e, 0xb5, 0x66, 0x48, 0x03, 0xf6, 0x0e, 0x61, 0x35, 0x57, 0xb9, 0x86, 0xc1, 0x1d, 0x9e,
    0xe1, 0xf8, 0x98, 0x11, 0x69, 0xd9, 0x8e, 0x94, 0x9b, 0x1e, 0x87, 0xe9, 0xce, 0x55, 0x28, 0xdf,
    0x8c, 0xa1, 0x89, 0x0d, 0xbf, 0xe6, 0x42, 0x68, 0x41, 0x99, 0x2d, 0x0f, 0xb0, 0x54, 0xbb, 0x16]

def inverseSubstitutions : Array UInt8 := #[
    0x52, 0x09, 0x6a, 0xd5, 0x30, 0x36, 0xa5, 0x38, 0xbf, 0x40, 0xa3, 0x9e, 0x81, 0xf3, 0xd7, 0xfb,
    0x7c, 0xe3, 0x39, 0x82, 0x9b, 0x2f, 0xff, 0x87, 0x34, 0x8e, 0x43, 0x44, 0xc4, 0xde, 0xe9, 0xcb,
    0x54, 0x7b, 0x94, 0x32, 0xa6, 0xc2, 0x23, 0x3d, 0xee, 0x4c, 0x95, 0x0b, 0x42, 0xfa, 0xc3, 0x4e,
    0x08, 0x2e, 0xa1, 0x66, 0x28, 0xd9, 0x24, 0xb2, 0x76, 0x5b, 0xa2, 0x49, 0x6d, 0x8b, 0xd1, 0x25,
    0x72, 0xf8, 0xf6, 0x64, 0x86, 0x68, 0x98, 0x16, 0xd4, 0xa4, 0x5c, 0xcc, 0x5d, 0x65, 0xb6, 0x92,
    0x6c, 0x70, 0x48, 0x50, 0xfd, 0xed, 0xb9, 0xda, 0x5e, 0x15, 0x46, 0x57, 0xa7, 0x8d, 0x9d, 0x84,
    0x90, 0xd8, 0xab, 0x00, 0x8c, 0xbc, 0xd3, 0x0a, 0xf7, 0xe4, 0x58, 0x05, 0xb8, 0xb3, 0x45, 0x06,
    0xd0, 0x2c, 0x1e, 0x8f, 0xca, 0x3f, 0x0f, 0x02, 0xc1, 0xaf, 0xbd, 0x03, 0x01, 0x13, 0x8a, 0x6b,
    0x3a, 0x91, 0x11, 0x41, 0x4f, 0x67, 0xdc, 0xea, 0x97, 0xf2, 0xcf, 0xce, 0xf0, 0xb4, 0xe6, 0x73,
    0x96, 0xac, 0x74, 0x22, 0xe7, 0xad, 0x35, 0x85, 0xe2, 0xf9, 0x37, 0xe8, 0x1c, 0x75, 0xdf, 0x6e,
    0x47, 0xf1, 0x1a, 0x71, 0x1d, 0x29, 0xc5, 0x89, 0x6f, 0xb7, 0x62, 0x0e, 0xaa, 0x18, 0xbe, 0x1b,
    0xfc, 0x56, 0x3e, 0x4b, 0xc6, 0xd2, 0x79, 0x20, 0x9a, 0xdb, 0xc0, 0xfe, 0x78, 0xcd, 0x5a, 0xf4,
    0x1f, 0xdd, 0xa8, 0x33, 0x88, 0x07, 0xc7, 0x31, 0xb1, 0x12, 0x10, 0x59, 0x27, 0x80, 0xec, 0x5f,
    0x60, 0x51, 0x7f, 0xa9, 0x19, 0xb5, 0x4a, 0x0d, 0x2d, 0xe5, 0x7a, 0x9f, 0x93, 0xc9, 0x9c, 0xef,
    0xa0, 0xe0, 0x3b, 0x4d, 0xae, 0x2a, 0xf5, 0xb0, 0xc8, 0xeb, 0xbb, 0x3c, 0x83, 0x53, 0x99, 0x61,
    0x17, 0x2b, 0x04, 0x7e, 0xba, 0x77, 0xd6, 0x26, 0xe1, 0x69, 0x14, 0x63, 0x55, 0x21, 0x0c, 0x7d]

def substitute (octet : UInt8) : UInt8 :=
  substitutions.getD octet.toNat 0

def unsubstitute (octet : UInt8) : UInt8 :=
  inverseSubstitutions.getD octet.toNat 0

namespace Word

def map (f : UInt8 → UInt8) (w : Word) : Word :=
  ⟨f w.b0, f w.b1, f w.b2, f w.b3⟩

def xor (v w : Word) : Word :=
  ⟨v.b0 ^^^ w.b0, v.b1 ^^^ w.b1, v.b2 ^^^ w.b2, v.b3 ^^^ w.b3⟩

def rotate (w : Word) : Word :=
  ⟨w.b1, w.b2, w.b3, w.b0⟩

def ofBytes : Bytes → Word
  | [a, b, c, d] => ⟨a, b, c, d⟩
  | _ => ⟨0, 0, 0, 0⟩

def toBytes (w : Word) : Bytes :=
  [w.b0, w.b1, w.b2, w.b3]

end Word

/-! ## Columns as polynomials -/

/-- The product with two in the field of 256 elements. -/
def double (x : UInt8) : UInt8 :=
  if x < 0x80 then x <<< 1 else (x <<< 1) ^^^ 0x1b

/-- The products with 3, 9, 11, 13 and 14. -/
def times3 (x : UInt8) : UInt8 := double x ^^^ x
def times9 (x : UInt8) : UInt8 := double (double (double x)) ^^^ x
def times11 (x : UInt8) : UInt8 := double (double (double x)) ^^^ double x ^^^ x
def times13 (x : UInt8) : UInt8 := double (double (double x)) ^^^ double (double x) ^^^ x
def times14 (x : UInt8) : UInt8 := double (double (double x)) ^^^ double (double x) ^^^ double x

def Word.mix (w : Word) : Word :=
  ⟨double w.b0 ^^^ times3 w.b1 ^^^ w.b2 ^^^ w.b3,
    w.b0 ^^^ double w.b1 ^^^ times3 w.b2 ^^^ w.b3,
    w.b0 ^^^ w.b1 ^^^ double w.b2 ^^^ times3 w.b3,
    times3 w.b0 ^^^ w.b1 ^^^ w.b2 ^^^ double w.b3⟩

def Word.unmix (w : Word) : Word :=
  ⟨times14 w.b0 ^^^ times11 w.b1 ^^^ times13 w.b2 ^^^ times9 w.b3,
    times9 w.b0 ^^^ times14 w.b1 ^^^ times11 w.b2 ^^^ times13 w.b3,
    times13 w.b0 ^^^ times9 w.b1 ^^^ times14 w.b2 ^^^ times11 w.b3,
    times11 w.b0 ^^^ times13 w.b1 ^^^ times9 w.b2 ^^^ times14 w.b3⟩

namespace State

def map (f : Word → Word) (s : State) : State :=
  ⟨f s.c0, f s.c1, f s.c2, f s.c3⟩

def addKey (s key : State) : State :=
  ⟨s.c0.xor key.c0, s.c1.xor key.c1, s.c2.xor key.c2, s.c3.xor key.c3⟩

/-- Row `i` moves `i` columns to the left. -/
def shiftRows (s : State) : State :=
  ⟨⟨s.c0.b0, s.c1.b1, s.c2.b2, s.c3.b3⟩, ⟨s.c1.b0, s.c2.b1, s.c3.b2, s.c0.b3⟩,
    ⟨s.c2.b0, s.c3.b1, s.c0.b2, s.c1.b3⟩, ⟨s.c3.b0, s.c0.b1, s.c1.b2, s.c2.b3⟩⟩

/-- Row `i` moves `i` columns to the right. -/
def unshiftRows (s : State) : State :=
  ⟨⟨s.c0.b0, s.c3.b1, s.c2.b2, s.c1.b3⟩, ⟨s.c1.b0, s.c0.b1, s.c3.b2, s.c2.b3⟩,
    ⟨s.c2.b0, s.c1.b1, s.c0.b2, s.c3.b3⟩, ⟨s.c3.b0, s.c2.b1, s.c1.b2, s.c0.b3⟩⟩

def substitute (s : State) : State :=
  s.map (Word.map Aes.substitute)

def unsubstitute (s : State) : State :=
  s.map (Word.map Aes.unsubstitute)

/-- The state of a block of sixteen octets. -/
def ofBytes (block : Bytes) : State :=
  let word (i : Nat) := Word.ofBytes ((block.drop (4 * i)).take 4)
  ⟨word 0, word 1, word 2, word 3⟩

def toBytes (s : State) : Bytes :=
  s.c0.toBytes ++ s.c1.toBytes ++ s.c2.toBytes ++ s.c3.toBytes

end State

/-! ## Key schedule -/

/-- Adds `count` words to a schedule that began with `size` key words; `constant` is the round
constant to be used next. -/
def extend (size : Nat) : Nat → UInt8 → Array Word → Array Word
  | 0, _, words => words
  | count + 1, constant, words =>
    let next := words.size
    let before := words.getD (next - size) ⟨0, 0, 0, 0⟩
    let last := words.getD (next - 1) ⟨0, 0, 0, 0⟩
    if next % size = 0 then
      let mixed := (last.rotate.map substitute).xor ⟨constant, 0, 0, 0⟩
      extend size count (double constant) (words.push (before.xor mixed))
    else if 6 < size ∧ next % size = 4 then
      extend size count constant (words.push (before.xor (last.map substitute)))
    else extend size count constant (words.push (before.xor last))

/-- Four words at a time. -/
def statesOf : List Word → List State
  | a :: b :: c :: d :: rest => ⟨a, b, c, d⟩ :: statesOf rest
  | _ => []

/-- The round keys: seven more than the key has words. -/
def roundKeys (key : Bytes) : List State :=
  let words := (pieces 4 key).map Word.ofBytes
  let size := words.length
  statesOf (extend size (4 * (size + 7) - size) 1 words.toArray).toList

/-! ## Encryption and decryption -/

def encryptRounds : List State → State → State
  | [], s => s
  | [key], s => s.substitute.shiftRows.addKey key
  | key :: next :: keys, s =>
    encryptRounds (next :: keys) ((s.substitute.shiftRows.map Word.mix).addKey key)

def decryptRounds : List State → State → State
  | [], s => s
  | [key], s => (s.addKey key).unshiftRows.unsubstitute
  | key :: next :: keys, s =>
    (((decryptRounds (next :: keys) s).addKey key).map Word.unmix).unshiftRows.unsubstitute

def encryptState : List State → State → State
  | [], s => s
  | key :: keys, s => encryptRounds keys (s.addKey key)

def decryptState : List State → State → State
  | [], s => s
  | key :: keys, s => (decryptRounds keys s).addKey key

def encryptBlock (keys : List State) (block : Bytes) : Bytes :=
  (encryptState keys (State.ofBytes block)).toBytes

def decryptBlock (keys : List State) (block : Bytes) : Bytes :=
  (decryptState keys (State.ofBytes block)).toBytes

end KeyFile.Crypto.Aes
