import KeyFile.Crypto.Digest
import KeyFile.Proofs.BigEndian
import KeyFile.Proofs.Pieces

/-!
# How long digests and derived keys are

A digest has as many octets as its size says, whatever it is taken of, and so has its keyed form.
A derived key is cut from whole digests, of which there are enough for the length that is asked for.
-/
namespace KeyFile.Crypto

/-! ## Digests -/

/-- The octets of the final state are cut to the size of the digest. -/
theorem Sha2.Family.length_hash {Word : Type} [Add Word] [XorOp Word] [AndOp Word]
    [Complement Word] (family : Sha2.Family Word) (initial : Sha2.State Word) {size : Nat}
    (within : size ≤ 8 * family.wordOctets) (message : Bytes) :
    (family.hash initial size message).length = size := by
  simp only [Sha2.Family.hash, List.flatMap_cons, List.flatMap_nil, List.length_take,
    List.length_append, BigEndian.length_octets, List.length_nil]
  omega

namespace Digest

theorem length_hash (digest : Digest) (message : Bytes) :
    (digest.hash message).length = digest.size := by
  cases digest with
  | sha1 =>
    simp only [hash, Sha1.hash, List.flatMap_cons, List.flatMap_nil, List.length_append,
      BigEndian.length_octets, List.length_nil, size]
  | sha224 => exact Sha2.family32.length_hash _ (by decide) message
  | sha256 => exact Sha2.family32.length_hash _ (by decide) message
  | sha384 => exact Sha2.family64.length_hash _ (by decide) message
  | sha512 => exact Sha2.family64.length_hash _ (by decide) message

theorem length_keyedBlock (digest : Digest) (key message : Bytes) :
    (digest.keyedBlock key message).length = digest.size :=
  digest.length_hash _

theorem size_pos (digest : Digest) : 0 < digest.size := by
  cases digest <;> decide

end Digest

/-! ## Derived keys -/

section Terms

variable {function : Bytes → Bytes} {size : Nat}

/-- Terms of one length add up to a sum of this length. -/
theorem length_addTerms (each : ∀ term, (function term).length = size) (count : Nat)
    (term : Bytes) {sum : Bytes} (start : sum.length = size) :
    (addTerms function count term sum).length = size := by
  induction count generalizing term sum with
  | zero => exact start
  | succ count ih =>
    rw [addTerms]
    apply ih
    rw [Bytes.length_xor, start, each, Nat.min_self]

theorem length_derivedPiece (each : ∀ term, (function term).length = size) (salt : Bytes)
    (iterations index : Nat) : (derivedPiece function salt iterations index).length = size :=
  length_addTerms each _ _ (each _)

end Terms

/-- A derived key has the length that is asked for, however few octets one digest has. -/
theorem length_deriveKey (digest : Digest) (password salt : Bytes) (iterations length : Nat) :
    (deriveKey digest password salt iterations length).length = length := by
  let count := (length + digest.size - 1) / digest.size
  let piece (index : Nat) : Bytes := derivedPiece
    (digest.keyedBlock (digest.blockKey password)) salt iterations (index + 1)
  have each : ∀ block ∈ (List.range count).map piece, block.length = digest.size := by
    simp only [List.forall_mem_map]
    intro index _
    exact length_derivedPiece (digest.length_keyedBlock _) ..
  have total : ((List.range count).flatMap piece).length = count * digest.size := by
    rw [List.flatMap_def, length_flatten_blocks each, List.length_map, List.length_range]
  -- The count is rounded up, so the pieces have no fewer octets than the key.
  have enough : length ≤ count * digest.size := by
    have split : count * digest.size + (length + digest.size - 1) % digest.size =
        length + digest.size - 1 := Nat.div_add_mod' ..
    have part := Nat.mod_lt (length + digest.size - 1) digest.size_pos
    omega
  change (((List.range count).flatMap piece).take length).length = length
  rw [List.length_take, total, Nat.min_eq_left enough]

end KeyFile.Crypto
