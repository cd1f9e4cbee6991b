import KeyFile.Bytes.BigEndian

/-!
# Messages as blocks of words

The digests of this library work on blocks of sixteen words. A message is filled up with one bit,
as many zeros as are needed, and its length in bits, so that it is a whole number of blocks.
-/
namespace KeyFile.Crypto

/-- A message followed by its filling: the octet `0x80`, zeros, and the bit length. -/
def filled (blockOctets lengthOctets : Nat) (message : Bytes) : Bytes :=
  let used := message.length + 1 + lengthOctets
  message ++ 0x80 :: List.replicate ((blockOctets - used % blockOctets) % blockOctets) 0 ++
    BigEndian.octets lengthOctets (8 * message.length)

/-- The numbers that consecutive groups of octets spell. -/
def wordsOf (wordOctets : Nat) (octets : Bytes) : List Nat :=
  (pieces wordOctets octets).map BigEndian.toNat

/-- The blocks of a filled message, each as its words. -/
def blocksOf (wordOctets lengthOctets : Nat) (message : Bytes) : List (List Nat) :=
  (pieces (16 * wordOctets) (filled (16 * wordOctets) lengthOctets message)).map
    (wordsOf wordOctets)

end KeyFile.Crypto
