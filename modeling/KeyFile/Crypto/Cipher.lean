import KeyFile.Crypto.Aes
import KeyFile.Crypto.Des

/-!
# Ciphers

The four block ciphers, chaining of blocks, and padding. In chaining, each block is added to the
encrypted block before it, the first one to the initialization vector. Padding fills a message up to
whole blocks with octets that tell their own number; there is always at least one.
-/
namespace KeyFile.Crypto

inductive Cipher where
  | aes128
  | aes192
  | aes256
  | tripleDes
  deriving DecidableEq, Repr

namespace Cipher

def name : Cipher → String
  | .aes128 => "AES-128-CBC"
  | .aes192 => "AES-192-CBC"
  | .aes256 => "AES-256-CBC"
  | .tripleDes => "DES-EDE3-CBC"

def keyLength : Cipher → Nat
  | .aes128 => 16
  | .aes192 | .tripleDes => 24
  | .aes256 => 32

def blockSize : Cipher → Nat
  | .aes128 | .aes192 | .aes256 => 16
  | .tripleDes => 8

/-- A key and an initialization vector of the lengths that the cipher needs. -/
def Fits (cipher : Cipher) (key iv : Bytes) : Prop :=
  key.length = cipher.keyLength ∧ iv.length = cipher.blockSize

instance (cipher : Cipher) (key iv : Bytes) : Decidable (cipher.Fits key iv) :=
  inferInstanceAs (Decidable (_ ∧ _))

end Cipher

/-- The round keys of a cipher under a key. -/
inductive Schedule where
  | aes (keys : List Aes.State)
  | tripleDes (keys : Des.Keys)
  deriving DecidableEq, Repr

def Cipher.schedule (cipher : Cipher) (key : Bytes) : Schedule :=
  match cipher with
  | .aes128 | .aes192 | .aes256 => .aes (Aes.roundKeys key)
  | .tripleDes => .tripleDes (Des.Keys.ofBytes key)

def Schedule.encryptBlock : Schedule → Bytes → Bytes
  | .aes keys => Aes.encryptBlock keys
  | .tripleDes keys => Des.encryptBlock keys

def Schedule.decryptBlock : Schedule → Bytes → Bytes
  | .aes keys => Aes.decryptBlock keys
  | .tripleDes keys => Des.decryptBlock keys

/-! ## Chaining -/

/-- Encrypts blocks in a chain; `before` is the encrypted block before the first. -/
def chain (encrypt : Bytes → Bytes) (before : Bytes) : List Bytes → List Bytes
  | [] => []
  | block :: rest =>
    let next := encrypt (Bytes.xor block before)
    next :: chain encrypt next rest

/-- Decrypts the blocks of a chain. -/
def unchain (decrypt : Bytes → Bytes) (before : Bytes) : List Bytes → List Bytes
  | [] => []
  | block :: rest => Bytes.xor (decrypt block) before :: unchain decrypt block rest

/-! ## Padding -/

def pad (blockSize : Nat) (message : Bytes) : Bytes :=
  let count := blockSize - message.length % blockSize
  message ++ List.replicate count (UInt8.ofNat count)

/-- The message before its padding, unless the padding is not as `pad` writes it. -/
def unpad? (blockSize : Nat) (padded : Bytes) : Option Bytes :=
  match padded.getLast? with
  | none => none
  | some last =>
    let count := last.toNat
    let message := padded.take (padded.length - count)
    if 0 < count ∧ count ≤ blockSize ∧ padded = message ++ List.replicate count last then
      some message
    else none

/-! ## Messages -/

namespace Cipher

/-- Encrypts a message of any length. -/
def encrypt (cipher : Cipher) (key iv message : Bytes) : Bytes :=
  (chain (cipher.schedule key).encryptBlock iv
    (pieces cipher.blockSize (pad cipher.blockSize message))).flatten

/-- The padded message; the octets are a whole number of blocks. -/
def decryptPadded (cipher : Cipher) (key iv octets : Bytes) : Bytes :=
  (unchain (cipher.schedule key).decryptBlock iv (pieces cipher.blockSize octets)).flatten

end Cipher

end KeyFile.Crypto
