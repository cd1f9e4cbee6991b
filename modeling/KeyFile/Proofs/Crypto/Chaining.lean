import KeyFile.Crypto.Cipher
import KeyFile.Proofs.Crypto.Aes
import KeyFile.Proofs.Crypto.Des

/-!
# Chained encryption is undone

Each of the four ciphers undoes its own blocks, and a chain of blocks is undone block by block, as
each block is added to the same encrypted block before it. Padding makes whole blocks of any
message, and can be told from the message because its last octet is its length.
-/
namespace KeyFile.Crypto

/-! ## Blocks -/

/-- Blocks of that size come back from their encryption, which is a block of the same size. -/
structure Undoes (decrypt encrypt : Bytes → Bytes) (size : Nat) : Prop where
  back : ∀ {block}, block.length = size → decrypt (encrypt block) = block
  length : ∀ {block}, block.length = size → (encrypt block).length = size

theorem Cipher.undoes (cipher : Cipher) (key : Bytes) :
    Undoes (cipher.schedule key).decryptBlock (cipher.schedule key).encryptBlock
      cipher.blockSize := by
  have aes : Undoes (Schedule.aes (Aes.roundKeys key)).decryptBlock
      (Schedule.aes (Aes.roundKeys key)).encryptBlock 16 :=
    ⟨Aes.decryptBlock_encryptBlock _, fun _ => Aes.length_encryptBlock ..⟩
  cases cipher with
  | aes128 => exact aes
  | aes192 => exact aes
  | aes256 => exact aes
  | tripleDes => exact ⟨Des.decryptBlock_encryptBlock _, fun _ => Des.length_encryptBlock ..⟩

/-! ## Chains -/

section Chains

variable {decrypt encrypt : Bytes → Bytes} {size : Nat} {before : Bytes} {blocks : List Bytes}

theorem length_added {block : Bytes} (whole : block.length = size) (start : before.length = size) :
    (Bytes.xor block before).length = size := by
  rw [Bytes.length_xor, whole, start, Nat.min_self]

theorem unchain_chain (undoes : Undoes decrypt encrypt size) (start : before.length = size)
    (whole : ∀ block ∈ blocks, block.length = size) :
    unchain decrypt before (chain encrypt before blocks) = blocks := by
  induction blocks generalizing before with
  | nil => rfl
  | cons block rest ih =>
    have here : block.length = size := whole block List.mem_cons_self
    have added := length_added here start
    have later := ih (undoes.length added) fun other member =>
      whole other (List.mem_cons_of_mem _ member)
    -- The next block was added to the encrypted form of this one, which is there to be removed.
    rw [chain, unchain, undoes.back added, Bytes.xor_xor_cancel _ _ (here.trans start.symm), later]

theorem length_of_mem_chain (undoes : Undoes decrypt encrypt size) (start : before.length = size)
    (whole : ∀ block ∈ blocks, block.length = size) :
    ∀ block ∈ chain encrypt before blocks, block.length = size := by
  induction blocks generalizing before with
  | nil => exact List.forall_mem_nil _
  | cons block rest ih =>
    have next := undoes.length (length_added (whole block List.mem_cons_self) start)
    have later := ih next fun other member => whole other (List.mem_cons_of_mem _ member)
    rw [chain]
    exact List.forall_mem_cons.mpr ⟨next, later⟩

@[simp] theorem length_chain (encrypt : Bytes → Bytes) (before : Bytes) (blocks : List Bytes) :
    (chain encrypt before blocks).length = blocks.length := by
  induction blocks generalizing before with
  | nil => rfl
  | cons block rest ih => rw [chain, List.length_cons, ih, List.length_cons]

end Chains

/-! ## Padding -/

section Padding

variable {blockSize : Nat}

theorem dvd_length_pad (positive : 0 < blockSize) (message : Bytes) :
    blockSize ∣ (pad blockSize message).length := by
  have part : message.length % blockSize < blockSize := Nat.mod_lt _ positive
  have split := Nat.div_add_mod message.length blockSize
  have length : (pad blockSize message).length = blockSize * (message.length / blockSize + 1) := by
    rw [pad, List.length_append, List.length_replicate, Nat.mul_succ]
    omega
  exact length ▸ Nat.dvd_mul_right ..

theorem length_lt_length_pad (positive : 0 < blockSize) (message : Bytes) :
    message.length < (pad blockSize message).length := by
  have part : message.length % blockSize < blockSize := Nat.mod_lt _ positive
  rw [pad, List.length_append, List.length_replicate]
  omega

/-- The message is followed by octets that tell their own number, at least one and at most a
block of them. -/
def Padded (blockSize : Nat) (message padded : Bytes) : Prop :=
  ∃ count, 0 < count ∧ count ≤ blockSize ∧
    padded = message ++ List.replicate count (UInt8.ofNat count)

/-- There is always padding, a whole block of it where the message ends with a block. -/
theorem padded_pad (positive : 0 < blockSize) (message : Bytes) :
    Padded blockSize message (pad blockSize message) := by
  have part : message.length % blockSize < blockSize := Nat.mod_lt _ positive
  exact ⟨blockSize - message.length % blockSize, by omega, Nat.sub_le .., rfl⟩

/-- Padding is taken off exactly where it stands. An octet has to be able to tell the length of a
whole block. -/
theorem unpad_eq_some_iff (small : blockSize < 256) {padded message : Bytes} :
    unpad? blockSize padded = some message ↔ Padded blockSize message padded := by
  constructor
  · intro done
    unfold unpad? at done
    split at done
    · cases done
    next last _ =>
      simp only at done
      split at done
      next whole =>
        cases done
        exact ⟨last.toNat, whole.1, whole.2.1, by rw [UInt8.ofNat_toNat]; exact whole.2.2⟩
      next => cases done
  · rintro ⟨count, positive, few, rfl⟩
    obtain ⟨last, value⟩ : ∃ last, UInt8.ofNat count = last := ⟨_, rfl⟩
    have told : last.toNat = count := by
      have fits : count < 2 ^ 8 := by omega
      rw [← value]
      exact UInt8.toNat_ofNat_of_lt' fits
    have ends : (message ++ List.replicate count last).getLast? = some last := by
      -- The padding is not empty, so its last octet is the last of all.
      obtain ⟨fewer, rfl⟩ : ∃ fewer, count = fewer + 1 := ⟨count - 1, by omega⟩
      rw [List.replicate_succ', ← List.append_assoc, List.getLast?_concat]
    have rest : (message ++ List.replicate count last).take
        ((message ++ List.replicate count last).length - count) = message := by
      rw [List.length_append, List.length_replicate, Nat.add_sub_cancel]
      exact List.take_left
    simp only [unpad?, value, ends, told, rest, positive, few, and_self, if_true]

end Padding

/-! ## Messages -/

namespace Cipher

theorem blockSize_pos (cipher : Cipher) : 0 < cipher.blockSize := by
  cases cipher <;> decide

theorem blockSize_le (cipher : Cipher) : cipher.blockSize ≤ 16 := by
  cases cipher <;> decide

variable (cipher : Cipher) (key message : Bytes) {iv : Bytes}

/-- The blocks that a message is encrypted in. -/
theorem length_of_mem_blocks :
    ∀ block ∈ pieces cipher.blockSize (pad cipher.blockSize message),
      block.length = cipher.blockSize :=
  length_of_mem_pieces (dvd_length_pad cipher.blockSize_pos message)

theorem length_encrypt (start : iv.length = cipher.blockSize) :
    (cipher.encrypt key iv message).length = (pad cipher.blockSize message).length := by
  have blocks := cipher.length_of_mem_blocks message
  have chained := length_of_mem_chain (cipher.undoes key) start blocks
  calc (cipher.encrypt key iv message).length
      = (pieces cipher.blockSize (pad cipher.blockSize message)).length * cipher.blockSize := by
        rw [encrypt, length_flatten_blocks chained, length_chain]
    _ = (pad cipher.blockSize message).length := by
        rw [← length_flatten_blocks blocks, flatten_pieces cipher.blockSize_pos]

theorem decryptPadded_encrypt (start : iv.length = cipher.blockSize) :
    cipher.decryptPadded key iv (cipher.encrypt key iv message) =
      pad cipher.blockSize message := by
  have blocks := cipher.length_of_mem_blocks message
  have chained := length_of_mem_chain (cipher.undoes key) start blocks
  rw [decryptPadded, encrypt, pieces_flatten cipher.blockSize_pos chained,
    unchain_chain (cipher.undoes key) start blocks, flatten_pieces cipher.blockSize_pos]

end Cipher

end KeyFile.Crypto
