import KeyFile.Crypto.Message

/-!
# SHA-1

The 160-bit digest of eighty rounds over 32-bit words.
-/
namespace KeyFile.Crypto.Sha1

structure State where
  a : UInt32
  b : UInt32
  c : UInt32
  d : UInt32
  e : UInt32
  deriving DecidableEq, Repr

def initial : State :=
  ⟨0x67452301, 0xefcdab89, 0x98badcfe, 0x10325476, 0xc3d2e1f0⟩

def rotateLeft (x count : UInt32) : UInt32 :=
  (x <<< count) ||| (x >>> (32 - count))

/-- The mixing function and the constant of each group of twenty rounds. -/
def phase (round : Nat) (x y z : UInt32) : UInt32 :=
  if round < 20 then ((x &&& y) ||| (~~~x &&& z)) + 0x5a827999
  else if round < 40 then (x ^^^ y ^^^ z) + 0x6ed9eba1
  else if round < 60 then ((x &&& y) ||| (x &&& z) ||| (y &&& z)) + 0x8f1bbcdc
  else (x ^^^ y ^^^ z) + 0xca62c1d6

/-- Adds `count` words to the schedule. -/
def extend : Nat → Array UInt32 → Array UInt32
  | 0, words => words
  | count + 1, words =>
    let next := words.size
    let word (back : Nat) := words.getD (next - back) 0
    extend count (words.push (rotateLeft (word 3 ^^^ word 8 ^^^ word 14 ^^^ word 16) 1))

/-- The rounds from the given one on, one for each word of the schedule. -/
def rounds (state : State) (round : Nat) : List UInt32 → State
  | [] => state
  | word :: rest =>
    let next := rotateLeft state.a 5 + phase round state.b state.c state.d + state.e + word
    rounds ⟨next, state.a, rotateLeft state.b 30, state.c, state.d⟩ (round + 1) rest

/-- Takes one block into the state. -/
def compress (state : State) (block : List Nat) : State :=
  let schedule := extend 64 (block.map UInt32.ofNat).toArray
  let mixed := rounds state 0 schedule.toList
  ⟨state.a + mixed.a, state.b + mixed.b, state.c + mixed.c, state.d + mixed.d, state.e + mixed.e⟩

def hash (message : Bytes) : Bytes :=
  let state := (blocksOf 4 8 message).foldl compress initial
  [state.a, state.b, state.c, state.d, state.e].flatMap fun word =>
    BigEndian.octets 4 word.toNat

end KeyFile.Crypto.Sha1
