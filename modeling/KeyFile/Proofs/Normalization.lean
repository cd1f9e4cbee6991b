import KeyFile.Document
import KeyFile.Proofs.Encoding.Produced

/-!
# Normalization

Writing a key in the form for keys of any algorithm loses nothing: the written octets are read
back as the same key, so they stand for the key, and normalizing them once more changes nothing.
-/
namespace KeyFile

open Asn1

/-- Octets that a machine with addresses of 64 bits can hold in one piece. -/
def Addressable (octets : Bytes) : Prop :=
  octets.length < 2 ^ 63

instance (octets : Bytes) : Decidable (Addressable octets) :=
  inferInstanceAs (Decidable (_ < _))

/-! ## Containers of blocks -/

/-- What a block holds: the label says which decoder its payload goes to. -/
inductive Container.Stored (block : Pem.Block) : Container → Prop where
  | rsa {key : RsaKey} (label : block.label = .rsaPrivateKey)
      (decoded : RsaKey.decode block.payload = .ok key) : Stored block (.rsa key)
  | ec {key : EcPrivateKey} (label : block.label = .ecPrivateKey)
      (decoded : EcPrivateKey.decode block.payload = .ok key) : Stored block (.ec key)
  | info {info : PrivateKeyInfo} (label : block.label = .privateKey)
      (decoded : PrivateKeyInfo.decode block.payload = .ok info) : Stored block (.info info)
  | encrypted {info : EncryptedKeyInfo} (label : block.label = .encryptedPrivateKey)
      (decoded : EncryptedKeyInfo.decode block.payload = .ok info) : Stored block (.encrypted info)

theorem Container.ofBlock_eq_ok {block : Pem.Block} {container : Container} :
    ofBlock block = .ok container ↔
      block.isLegacyEncrypted = false ∧ Stored block container := by
  constructor
  · intro found
    -- One case for each label, in the order in which they are compared.
    unfold ofBlock at found
    split at found
    · cases found
    next current =>
      refine ⟨Bool.eq_false_iff.mpr current, ?_⟩
      split at found
      next label =>
        obtain ⟨key, decoded, rfl⟩ := Outcome.map_eq_ok.mp found
        exact .rsa label decoded
      split at found
      next label =>
        obtain ⟨key, decoded, rfl⟩ := Outcome.map_eq_ok.mp found
        exact .ec label decoded
      split at found
      next label =>
        obtain ⟨info, decoded, rfl⟩ := Outcome.map_eq_ok.mp found
        exact .info label decoded
      split at found
      next label =>
        obtain ⟨info, decoded, rfl⟩ := Outcome.map_eq_ok.mp found
        exact .encrypted label decoded
      split at found
      · cases found
      · cases found
  · rintro ⟨current, stored⟩
    cases stored with
    | rsa label decoded | ec label decoded | info label decoded | encrypted label decoded =>
      rw [ofBlock, current, label]
      exact Outcome.map_eq_ok.mpr ⟨_, decoded, rfl⟩

/-! ## Produced keys -/

/-- The keys that the decoders give. -/
inductive Produced : PrivateKey → Prop where
  | rsa {octets : Bytes} {key : RsaKey} (addressable : Addressable octets)
      (decoded : RsaKey.decode octets = .ok key) : Produced (.rsa key)
  | ec {octets : Bytes} {nested : EcPrivateKey} {outer : Option Curve} {key : PrivateKey}
      (addressable : Addressable octets) (decoded : EcPrivateKey.decode octets = .ok nested)
      (given : nested.toPrivateKey outer = .ok key) : Produced key
  | info {octets : Bytes} {info : PrivateKeyInfo} {key : PrivateKey}
      (addressable : Addressable octets) (decoded : PrivateKeyInfo.decode octets = .ok info)
      (given : info.toPrivateKey = .ok key) : Produced key
  | encrypted {octets : Bytes} {info : EncryptedKeyInfo} {password : Option Bytes}
      {key : PrivateKey} (addressable : Addressable octets)
      (decoded : EncryptedKeyInfo.decode octets = .ok info)
      (given : info.toPrivateKey password = .ok key) : Produced key

namespace Produced

variable {key : PrivateKey}

theorem of_readBlock {block : Pem.Block} {password : Option Bytes}
    (addressable : Addressable block.payload)
    (done : Document.readBlock password block = .ok key) : Produced key := by
  obtain ⟨container, found, given⟩ := Outcome.bind_eq_ok.mp done
  cases (Container.ofBlock_eq_ok.mp found).2 with
  | rsa _ decoded =>
    cases given
    exact .rsa addressable decoded
  | ec _ decoded => exact .ec addressable decoded given
  | info _ decoded => exact .info addressable decoded given
  | encrypted _ decoded => exact .encrypted addressable decoded given

theorem wellFormed (produced : Produced key) : key.WellFormed := by
  cases produced with
  | rsa _ _ => exact trivial
  | ec _ _ given =>
    obtain ⟨curve, -, rfl, positive, bounded⟩ := EcPrivateKey.toPrivateKey_ok given
    exact ⟨positive, bounded⟩
  | info _ decoded given =>
    exact (PrivateKeyInfo.toPrivateKey_ok (PrivateKeyInfo.decode_ok decoded).1 given).1
  | encrypted _ _ given =>
    obtain ⟨secret, inner, -, decrypted, given⟩ := EncryptedKeyInfo.toPrivateKey_ok given
    obtain ⟨message, decoded, -⟩ := EncryptedKeyInfo.decrypt_ok decrypted
    exact (PrivateKeyInfo.toPrivateKey_ok (PrivateKeyInfo.decode_ok decoded).1 given).1

/-- A produced key weighs hardly more than the octets it was produced from. -/
theorem weight_lt (produced : Produced key) : key.weight < 2 ^ 63 + 16 := by
  cases produced with
  | rsa addressable decoded =>
    have size := RsaKey.length_encode_le decoded
    simp only [Addressable] at addressable
    simp only [PrivateKey.weight]
    omega
  | ec addressable decoded given =>
    obtain ⟨curve, -, rfl, -, -⟩ := EcPrivateKey.toPrivateKey_ok given
    have size := EcPrivateKey.length_parts_le decoded
    simp only [Addressable] at addressable
    simp only [PrivateKey.weight]
    omega
  | info addressable decoded given =>
    obtain ⟨sound, size⟩ := PrivateKeyInfo.decode_ok decoded
    have weight := (PrivateKeyInfo.toPrivateKey_ok sound given).2
    simp only [Addressable] at addressable
    omega
  | encrypted addressable decoded given =>
    -- The decrypted octets are what the key is read from; they exceed the data by a block at most.
    obtain ⟨secret, inner, -, decrypted, given⟩ := EncryptedKeyInfo.toPrivateKey_ok given
    obtain ⟨message, opened, longer⟩ := EncryptedKeyInfo.decrypt_ok decrypted
    obtain ⟨sound, size⟩ := PrivateKeyInfo.decode_ok opened
    have weight := (PrivateKeyInfo.toPrivateKey_ok sound given).2
    have data := (EncryptedKeyInfo.decode_ok decoded).2
    simp only [Addressable] at addressable
    omega

theorem length_encode_lt (produced : Produced key) : key.encode.length < 2 ^ 64 := by
  have weight := produced.weight_lt
  have size : key.encode.length ≤ key.weight + 256 := PrivateKey.length_encode_le (by omega)
  omega

/-- A produced key is read back from its written form. -/
theorem decode_encode (produced : Produced key) :
    PrivateKeyInfo.decode key.encode = .ok key.toInfo ∧ key.toInfo.toPrivateKey = .ok key :=
  ⟨PrivateKey.decode_encode produced.wellFormed produced.length_encode_lt,
    PrivateKey.toPrivateKey_toInfo produced.wellFormed produced.length_encode_lt⟩

theorem eq_of_encode_eq {other : PrivateKey} (produced : Produced key) (another : Produced other)
    (same : key.encode = other.encode) : key = other := by
  obtain ⟨decoded, given⟩ := produced.decode_encode
  obtain ⟨decoded', given'⟩ := another.decode_encode
  rw [same, decoded', Except.ok.injEq] at decoded
  rw [← decoded, given', Except.ok.injEq] at given
  exact given.symm

end Produced

namespace PrivateKey

/-- Reads a key in the form for keys of any algorithm and writes it anew. -/
def normalize (octets : Bytes) : Except Error Bytes := do
  let info ← PrivateKeyInfo.decode octets
  let key ← info.toPrivateKey
  let written ← key.statedInfo
  return written.encode

/-- Whatever key the decoders give, it can be written, and its written form is accepted and gives
exactly that key; hence keys are equal exactly if their written forms are, and a written form is its
own normal form. -/
theorem normalization_lossless {key : PrivateKey} (produced : Produced key) :
    (key.statedInfo = .ok key.toInfo ∧ key.armor = .ok key.toBlock) ∧
      (∃ info, PrivateKeyInfo.decode key.encode = .ok info ∧ info.toPrivateKey = .ok key) ∧
      (∀ other, Produced other → (key = other ↔ key.encode = other.encode)) ∧
      normalize key.encode = .ok key.encode := by
  obtain ⟨decoded, given⟩ := produced.decode_encode
  refine ⟨⟨key.statedInfo_eq, key.armor_eq⟩, ⟨key.toInfo, decoded, given⟩, ?_, ?_⟩
  · intro other another
    constructor
    · rintro rfl
      rfl
    · exact produced.eq_of_encode_eq another
  · exact Outcome.bind_eq_ok.mpr ⟨_, decoded, Outcome.bind_eq_ok.mpr ⟨_, given,
      Outcome.bind_eq_ok.mpr ⟨_, key.statedInfo_eq, rfl⟩⟩⟩

/-- A bare scalar, shorter than its curve allows, with the public key outside of it. -/
def bareScalarOctets : Bytes :=
  [0x30, 0x20, 0x02, 0x01, 0x01, 0x30, 0x13, 0x06, 0x07, 0x2a, 0x86, 0x48, 0xce, 0x3d, 0x02, 0x01,
    0x06, 0x08, 0x2a, 0x86, 0x48, 0xce, 0x3d, 0x03, 0x01, 0x07, 0x04, 0x01, 0x07, 0x81, 0x03, 0x00,
    0x04, 0x09]

theorem bareScalar_normalized :
    Produced (.ec .secp256r1 [7] (some [4, 9])) ∧
      (PrivateKey.ec .secp256r1 [7] (some [4, 9])).statedInfo =
        .ok (PrivateKey.ec .secp256r1 [7] (some [4, 9])).toInfo ∧
      normalize (PrivateKey.ec .secp256r1 [7] (some [4, 9])).encode =
        .ok (PrivateKey.ec .secp256r1 [7] (some [4, 9])).encode := by
  have addressable : Addressable bareScalarOctets := by decide
  have decoded : PrivateKeyInfo.decode bareScalarOctets = .ok
      ⟨.v2, ⟨Algorithm.ec.identifier, some [6, 8, 42, 134, 72, 206, 61, 3, 1, 7]⟩, [7], none,
        some ⟨0, [4, 9]⟩⟩ := rfl
  have produced : Produced (.ec .secp256r1 [7] (some [4, 9])) := .info addressable decoded rfl
  have lossless := normalization_lossless produced
  exact ⟨produced, lossless.1.1, lossless.2.2.2⟩

end PrivateKey

end KeyFile
