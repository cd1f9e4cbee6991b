import KeyFile.Bytes

/-!
# Triple DES

DES is a network of sixteen rounds on two halves of 32 bits between a permutation of the 64 bits and
its inverse; decryption is the same network with the round keys in reverse. Triple DES encrypts,
decrypts and encrypts again under three keys.
-/
namespace KeyFile.Crypto.Des

/-- Bits, the most significant one first. -/
abbrev Bits := List Bool

/-- The bits at the given places, counted from zero. -/
def select (places : List Nat) (bits : Bits) : Bits :=
  places.map fun place => bits.getD place false

def xor (left right : Bits) : Bits :=
  List.zipWith (fun a b => a != b) left right

/-- The low `width` bits of a number. -/
def bitsOf : Nat → Nat → Bits
  | 0, _ => []
  | width + 1, number => bitsOf width (number / 2) ++ [decide (number % 2 = 1)]

/-- The number that bits spell. -/
def numberOf (bits : Bits) : Nat :=
  bits.foldl (fun number bit => 2 * number + bit.toNat) 0

def ofBytes (bytes : Bytes) : Bits :=
  bytes.flatMap fun octet => bitsOf 8 octet.toNat

def toBytes (bits : Bits) : Bytes :=
  (pieces 8 bits).map fun octet => UInt8.ofNat (numberOf octet)

/-! ## Tables -/

def initialPlaces : List Nat := [
    57, 49, 41, 33, 25, 17, 9, 1, 59, 51, 43, 35, 27, 19, 11, 3,
    61, 53, 45, 37, 29, 21, 13, 5, 63, 55, 47, 39, 31, 23, 15, 7,
    56, 48, 40, 32, 24, 16, 8, 0, 58, 50, 42, 34, 26, 18, 10, 2,
    60, 52, 44, 36, 28, 20, 12, 4, 62, 54, 46, 38, 30, 22, 14, 6]

/-- The places that undo `initialPlaces`. -/
def finalPlaces : List Nat := [
    39, 7, 47, 15, 55, 23, 63, 31, 38, 6, 46, 14, 54, 22, 62, 30,
    37, 5, 45, 13, 53, 21, 61, 29, 36, 4, 44, 12, 52, 20, 60, 28,
    35, 3, 43, 11, 51, 19, 59, 27, 34, 2, 42, 10, 50, 18, 58, 26,
    33, 1, 41, 9, 49, 17, 57, 25, 32, 0, 40, 8, 48, 16, 56, 24]

/-- Takes 32 bits to 48. -/
def expansionPlaces : List Nat := [
    31, 0, 1, 2, 3, 4, 3, 4, 5, 6, 7, 8,
    7, 8, 9, 10, 11, 12, 11, 12, 13, 14, 15, 16,
    15, 16, 17, 18, 19, 20, 19, 20, 21, 22, 23, 24,
    23, 24, 25, 26, 27, 28, 27, 28, 29, 30, 31, 0]

def roundPlaces : List Nat := [
    15, 6, 19, 20, 28, 11, 27, 16, 0, 14, 22, 25, 4, 17, 30, 9,
    1, 7, 23, 13, 31, 26, 2, 8, 18, 12, 29, 5, 21, 10, 3, 24]

/-- Takes the 56 effective bits out of the 64 of a key. -/
def keyPlaces : List Nat := [
    56, 48, 40, 32, 24, 16, 8, 0, 57, 49, 41, 33, 25, 17,
    9, 1, 58, 50, 42, 34, 26, 18, 10, 2, 59, 51, 43, 35,
    62, 54, 46, 38, 30, 22, 14, 6, 61, 53, 45, 37, 29, 21,
    13, 5, 60, 52, 44, 36, 28, 20, 12, 4, 27, 19, 11, 3]

/-- Takes the 48 bits of a round key out of 56. -/
def roundKeyPlaces : List Nat := [
    13, 16, 10, 23, 0, 4, 2, 27, 14, 5, 20, 9,
    22, 18, 11, 3, 25, 7, 15, 6, 26, 19, 12, 1,
    40, 51, 30, 36, 46, 54, 29, 39, 50, 44, 32, 47,
    43, 48, 38, 55, 33, 52, 45, 41, 49, 35, 28, 31]

/-- How far both halves of the key are rotated before each round. -/
def rotations : List Nat := [1, 1, 2, 2, 2, 2, 2, 2, 1, 2, 2, 2, 2, 2, 2, 1]

/-- The eight substitutions, four rows of sixteen each. -/
def substitutions : List (Array Nat) := [
    #[14, 4, 13, 1, 2, 15, 11, 8, 3, 10, 6, 12, 5, 9, 0, 7,
      0, 15, 7, 4, 14, 2, 13, 1, 10, 6, 12, 11, 9, 5, 3, 8,
      4, 1, 14, 8, 13, 6, 2, 11, 15, 12, 9, 7, 3, 10, 5, 0,
      15, 12, 8, 2, 4, 9, 1, 7, 5, 11, 3, 14, 10, 0, 6, 13],
    #[15, 1, 8, 14, 6, 11, 3, 4, 9, 7, 2, 13, 12, 0, 5, 10,
      3, 13, 4, 7, 15, 2, 8, 14, 12, 0, 1, 10, 6, 9, 11, 5,
      0, 14, 7, 11, 10, 4, 13, 1, 5, 8, 12, 6, 9, 3, 2, 15,
      13, 8, 10, 1, 3, 15, 4, 2, 11, 6, 7, 12, 0, 5, 14, 9],
    #[10, 0, 9, 14, 6, 3, 15, 5, 1, 13, 12, 7, 11, 4, 2, 8,
      13, 7, 0, 9, 3, 4, 6, 10, 2, 8, 5, 14, 12, 11, 15, 1,
      13, 6, 4, 9, 8, 15, 3, 0, 11, 1, 2, 12, 5, 10, 14, 7,
      1, 10, 13, 0, 6, 9, 8, 7, 4, 15, 14, 3, 11, 5, 2, 12],
    #[7, 13, 14, 3, 0, 6, 9, 10, 1, 2, 8, 5, 11, 12, 4, 15,
      13, 8, 11, 5, 6, 15, 0, 3, 4, 7, 2, 12, 1, 10, 14, 9,
      10, 6, 9, 0, 12, 11, 7, 13, 15, 1, 3, 14, 5, 2, 8, 4,
      3, 15, 0, 6, 10, 1, 13, 8, 9, 4, 5, 11, 12, 7, 2, 14],
    #[2, 12, 4, 1, 7, 10, 11, 6, 8, 5, 3, 15, 13, 0, 14, 9,
      14, 11, 2, 12, 4, 7, 13, 1, 5, 0, 15, 10, 3, 9, 8, 6,
      4, 2, 1, 11, 10, 13, 7, 8, 15, 9, 12, 5, 6, 3, 0, 14,
      11, 8, 12, 7, 1, 14, 2, 13, 6, 15, 0, 9, 10, 4, 5, 3],
    #[12, 1, 10, 15, 9, 2, 6, 8, 0, 13, 3, 4, 14, 7, 5, 11,
      10, 15, 4, 2, 7, 12, 9, 5, 6, 1, 13, 14, 0, 11, 3, 8,
      9, 14, 15, 5, 2, 8, 12, 3, 7, 0, 4, 10, 1, 13, 11, 6,
      4, 3, 2, 12, 9, 5, 15, 10, 11, 14, 1, 7, 6, 0, 8, 13],
    #[4, 11, 2, 14, 15, 0, 8, 13, 3, 12, 9, 7, 5, 10, 6, 1,
      13, 0, 11, 7, 4, 9, 1, 10, 14, 3, 5, 12, 2, 15, 8, 6,
      1, 4, 11, 13, 12, 3, 7, 14, 10, 15, 6, 8, 0, 5, 9, 2,
      6, 11, 13, 8, 1, 4, 10, 7, 9, 5, 0, 15, 14, 2, 3, 12],
    #[13, 2, 8, 4, 6, 15, 11, 1, 10, 9, 3, 14, 5, 0, 12, 7,
      1, 15, 13, 8, 10, 3, 7, 4, 12, 5, 6, 11, 0, 14, 9, 2,
      7, 11, 4, 1, 9, 12, 14, 2, 0, 6, 10, 13, 15, 3, 5, 8,
      2, 1, 14, 7, 4, 10, 8, 13, 15, 12, 9, 0, 3, 5, 6, 11]]

/-! ## The network -/

/-- Replaces six bits by four; the outer two bits choose the row. -/
def substitute (table : Array Nat) (bits : Bits) : Bits :=
  let row := numberOf (select [0, 5] bits)
  let column := numberOf (select [1, 2, 3, 4] bits)
  bitsOf 4 (table.getD (16 * row + column) 0)

/-- What a round mixes into one half, from the other half and the round key. -/
def roundFunction (key half : Bits) : Bits :=
  let mixed := xor (select expansionPlaces half) key
  select roundPlaces (List.zipWith substitute substitutions (pieces 6 mixed)).flatten

/-- The two halves after a round for each key. -/
def rounds : List Bits → Bits × Bits → Bits × Bits
  | [], halves => halves
  | key :: keys, (left, right) => rounds keys (right, xor left (roundFunction key right))

/-- The whole network; the halves change places at the end. -/
def network (keys : List Bits) (block : Bits) : Bits :=
  let mixed := select initialPlaces block
  let (left, right) := rounds keys (mixed.take 32, mixed.drop 32)
  select finalPlaces (right ++ left)

def rotate (count : Nat) (bits : Bits) : Bits :=
  bits.drop count ++ bits.take count

/-- The round keys of the two rotating halves. -/
def roundKeysFrom (left right : Bits) : List Nat → List Bits
  | [] => []
  | count :: counts =>
    let left := rotate count left
    let right := rotate count right
    select roundKeyPlaces (left ++ right) :: roundKeysFrom left right counts

/-- The round keys of a key of eight octets. -/
def roundKeys (key : Bytes) : List Bits :=
  let bits := select keyPlaces (ofBytes key)
  roundKeysFrom (bits.take 28) (bits.drop 28) rotations

/-! ## Three keys -/

/-- The round keys of the three parts of a key of 24 octets. -/
structure Keys where
  first : List Bits
  second : List Bits
  third : List Bits
  deriving DecidableEq, Repr

def Keys.ofBytes (key : Bytes) : Keys :=
  ⟨roundKeys (key.take 8), roundKeys ((key.drop 8).take 8), roundKeys (key.drop 16)⟩

def encryptBlock (keys : Keys) (block : Bytes) : Bytes :=
  toBytes (network keys.third (network keys.second.reverse (network keys.first (ofBytes block))))

def decryptBlock (keys : Keys) (block : Bytes) : Bytes :=
  toBytes (network keys.first.reverse (network keys.second
    (network keys.third.reverse (ofBytes block))))

end KeyFile.Crypto.Des
