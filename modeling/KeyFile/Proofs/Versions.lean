import KeyFile.Proofs.Normalization
import KeyFile.Proofs.Runs

/-!
# Versions and public keys

The second version announces a public key beside the private key. What is written has this version
exactly if it has a public key. What is read may have either version: one octet spells it, and this
octet decides nothing else, so a public key is also taken under the first version. Such a key, when
it is written anew, has the second one.
-/
namespace KeyFile

open Asn1

namespace InfoVersion

/-- The octet that spells a version. -/
def octet (version : InfoVersion) : UInt8 :=
  UInt8.ofNat version.word.toNat

theorem octet_inj {version other : InfoVersion} :
    version.octet = other.octet ↔ version = other := by
  cases version <;> cases other <;> decide

theorem word_lt (version : InfoVersion) : version.word.toNat < 128 := by
  cases version <;> decide

end InfoVersion

namespace PrivateKeyInfo

variable {octets : Bytes} {info : PrivateKeyInfo}

/-- One octet spells the version, and any version may be spelled there. -/
theorem decode_reversioned (decoded : decode octets = .ok info) :
    ∃ before after, octets = before ++ info.version.octet :: after ∧
      ∀ version : InfoVersion, decode (before ++ version.octet :: after) =
        .ok { info with version := version } := by
  obtain ⟨sound, spelled⟩ := decode_eq_ok_iff.mp decoded
  cases spelled with
  | @intro field inner canonical announces held =>
    obtain ⟨front, back, first, others, rfl⟩ := held
    cases first with
    | @intro narrow content plain length given =>
      obtain ⟨zeros, rfl, respelled⟩ := given.exists_last info.version.word_lt
      -- The number of octets stays the same, and so do the length fields.
      have width (version : InfoVersion) :
          (zeros ++ [version.octet]).length = (zeros ++ [info.version.octet]).length := by
        simp only [List.length_append, List.length_singleton]
      refine ⟨Tag.sequence.octet :: (field ++ Tag.integer.octet :: (narrow ++ zeros)), back,
        by simp [InfoVersion.octet], fun version => decode_eq_ok_iff.mpr ⟨sound, ?_⟩⟩
      have number : (Element.word version.word).Spelling .accepted
          (Tag.integer.octet :: (narrow ++ (zeros ++ [version.octet]))) :=
        .intro plain (by rw [width version]; exact length) (respelled _ version.word_lt)
      have whole : ({ info with version := version } : PrivateKeyInfo).element.Spelling .accepted
          (Tag.sequence.octet ::
            (field ++ (Tag.integer.octet :: (narrow ++ (zeros ++ [version.octet])) ++ back))) := by
        refine .intro canonical ?_ ⟨_, back, number, others, rfl⟩
        have size := announces
        simp only [List.length_append, List.length_cons] at size ⊢
        exact size
      simpa using whole

/-- A public key is announced by the second version. -/
def Announced (info : PrivateKeyInfo) : Prop :=
  info.publicKey.isSome → info.version = .v2

/-- The second version and a public key go together. -/
def Versioned (info : PrivateKeyInfo) : Prop :=
  info.version = .v2 ↔ info.publicKey.isSome

theorem announced_iff : info.Announced ↔ info.version = .v2 ∨ info.publicKey = none := by
  unfold Announced
  cases info.publicKey <;> simp

theorem versioned_toInfo (key : PrivateKey) : key.toInfo.Versioned := by
  cases published : key.outerPublicKey <;> simp [Versioned, PrivateKey.toInfo, published]

/-- What is read is the same key under either version. -/
theorem toPrivateKey_reversioned (info : PrivateKeyInfo) (version : InfoVersion) :
    { info with version := version }.toPrivateKey = info.toPrivateKey := rfl

/-- Every key is written with the version that its public key demands. What is read has the version
that one of its octets spells. Any version may stand there, and the key is the same under each; so
a public key is announced exactly if that octet spells the second version, which nothing demands.
Written anew, the key has the right version. -/
theorem versions_exact (key : PrivateKey) (decoded : decode octets = .ok info) :
    (∃ written, key.statedInfo = .ok written ∧ written.Versioned) ∧
    (∃ before after, octets = before ++ info.version.octet :: after ∧
      (∀ version : InfoVersion, decode (before ++ version.octet :: after) =
        .ok { info with version := version }) ∧
      (info.Announced ↔
        octets = before ++ InfoVersion.v2.octet :: after ∨ info.publicKey = none)) ∧
    (∀ version, { info with version := version }.toPrivateKey = info.toPrivateKey) ∧
    ∀ held, Addressable octets → info.toPrivateKey = .ok held →
      ∃ again, decode held.encode = .ok again ∧ again.Versioned := by
  refine ⟨⟨key.toInfo, key.statedInfo_eq, versioned_toInfo key⟩, ?_,
    toPrivateKey_reversioned info, ?_⟩
  · obtain ⟨before, after, rfl, exchanged⟩ := decode_reversioned decoded
    refine ⟨before, after, rfl, exchanged, ?_⟩
    rw [announced_iff, List.append_cancel_left_eq, List.cons.injEq, InfoVersion.octet_inj]
    simp only [and_true]
  · intro held addressable given
    have produced : Produced held := .info addressable decoded given
    exact ⟨held.toInfo, produced.decode_encode.1, versioned_toInfo held⟩

/-- An Ed25519 key of the first version with a public key. -/
def earlyKey : PrivateKeyInfo where
  version := .v1
  algorithm := ⟨(Algorithm.raw .ed25519).identifier, none⟩
  privateKey := (Element.octetString (List.replicate 32 7)).encode
  attributes := none
  publicKey := some ⟨0, List.replicate 32 0xab⟩

def earlyOctets : Bytes :=
  [0x30, 0x51, 0x02, 0x01, 0x00, 0x30, 0x05, 0x06, 0x03, 0x2b, 0x65, 0x70, 0x04, 0x22, 0x04,
    0x20] ++ List.replicate 32 7 ++ [0x81, 0x21, 0x00] ++ List.replicate 32 0xab

theorem decode_earlyOctets : decode earlyOctets = .ok earlyKey := rfl

theorem earlyKey_taken :
    decode earlyOctets = .ok earlyKey ∧ earlyKey.publicKey.isSome ∧ earlyKey.version = .v1 ∧
      ¬ earlyKey.Announced :=
  ⟨decode_earlyOctets, rfl, rfl, fun announced => by cases announced rfl⟩

/-- Under the second version the same octets are the same key with its public key announced, and
this is what is written for it. -/
theorem earlyKey_exchanged :
    decode earlyOctets = .ok earlyKey ∧ Addressable earlyOctets ∧
      (∃ before after, earlyOctets = before ++ 0 :: after ∧
        decode (before ++ 1 :: after) = .ok { earlyKey with version := .v2 }) ∧
      ∃ key again, earlyKey.toPrivateKey = .ok key ∧ decode key.encode = .ok again ∧
        again.Versioned := by
  have addressable : Addressable earlyOctets := by decide
  have given : earlyKey.toPrivateKey =
      .ok (.raw .ed25519 (List.replicate 32 7) (some (List.replicate 32 0xab))) := rfl
  obtain ⟨-, ⟨before, after, spelled, exchanged, -⟩, -, written⟩ :=
    versions_exact (.raw .ed25519 (List.replicate 32 7) none) decode_earlyOctets
  obtain ⟨again, decoded, versioned⟩ := written _ addressable given
  exact ⟨decode_earlyOctets, addressable, ⟨before, after, spelled, exchanged .v2⟩,
    ⟨_, again, given, decoded, versioned⟩⟩

end PrivateKeyInfo

end KeyFile
