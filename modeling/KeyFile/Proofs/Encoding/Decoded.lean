import KeyFile.Proofs.Encoding.Structures

/-!
# What decoded structures hold

No encoding of a structure is shorter than the one that is written, so the parts of a decoded
structure fill no more octets than the structure did. Parameters that have been decoded are one
whole element.
-/
namespace KeyFile

open Asn1

/-- The octets of an optional part. -/
abbrev held (octets : Option Bytes) : Bytes := octets.getD []

/-! ## Algorithm identifiers -/

theorem AlgorithmIdentifier.length_parameters_le (algorithm : AlgorithmIdentifier) :
    (held algorithm.parameters).length ≤ algorithm.encode.length := by
  obtain ⟨identifier, parameters⟩ := algorithm
  have outer := length_lt_length_element .sequence (encodeAll
    (.objectIdentifier identifier :: parameters.toList.map Element.encoded))
  simp only [encodeAll, List.length_append] at outer
  refine Nat.le_trans ?_ (Nat.le_of_lt outer)
  cases parameters <;>
    simp only [Option.toList_none, Option.toList_some, List.map_nil, List.map_cons, encodeAll,
      Element.encode, Option.getD_none, Option.getD_some, List.append_nil, List.length_nil] <;>
    omega

/-! ## RSA keys -/

/-- No encoding of an RSA key is shorter than the one that is written. -/
theorem RsaKey.length_encode_le {octets : Bytes} {key : RsaKey}
    (done : RsaKey.decode octets = .ok key) : key.encode.length ≤ octets.length :=
  (key.element.shortens (decode_eq_ok_iff.mp done)).le

/-! ## Elliptic curve keys -/

namespace EcPrivateKey

/-- The octets of the public key, if there is one. -/
def point (key : EcPrivateKey) : Option Bytes := key.publicKey.map (·.data)

theorem length_parts_le_encode (key : EcPrivateKey) :
    key.scalar.length + (held key.point).length ≤ key.encode.length := by
  obtain ⟨scalar, parameters, publicKey⟩ := key
  refine Nat.le_trans ?_ (Nat.le_of_lt (length_lt_length_element .sequence _))
  have first := length_lt_length_element .octetString scalar
  simp only [encodeAll_append, List.length_append, encodeAll, Element.encode, List.length_nil]
  cases publicKey with
  | none =>
    simp only [point, Option.map_none, Option.getD_none, List.length_nil]
    omega
  | some bits =>
    have inner := length_lt_length_element .bitString bits.content
    have outer := length_lt_length_element (.explicit 1) (Element.bitString bits).encode
    simp only [Element.encode, BitString.content, List.length_cons] at inner outer
    simp only [point, Option.map_some, Option.getD_some, Option.toList_some, List.map_cons,
      List.map_nil, encodeAll, Element.encode, BitString.content, List.append_nil]
    omega

theorem length_parts_le {octets : Bytes} {key : EcPrivateKey} (done : decode octets = .ok key) :
    key.scalar.length + (held key.point).length ≤ octets.length :=
  Nat.le_trans key.length_parts_le_encode (key.element.shortens (decode_eq_ok_iff.mp done).2).le

end EcPrivateKey

/-! ## Keys of any algorithm -/

namespace PrivateKeyInfo

/-- The octets of the public key that stands outside of the private part, if there is one. -/
def point (info : PrivateKeyInfo) : Option Bytes := info.publicKey.map (·.data)

theorem length_parts_le_encode (info : PrivateKeyInfo) :
    (held info.algorithm.parameters).length + info.privateKey.length +
      (held info.point).length ≤ info.encode.length := by
  obtain ⟨version, algorithm, privateKey, attributes, publicKey⟩ := info
  refine Nat.le_trans ?_ (Nat.le_of_lt (length_lt_length_element .sequence _))
  have parameters : (held algorithm.parameters).length ≤ algorithm.element.encode.length :=
    algorithm.length_parameters_le
  have second := length_lt_length_element .octetString privateKey
  simp only [encodeAll_append, List.length_append, encodeAll, List.length_nil]
  cases publicKey with
  | none =>
    simp only [point, Option.map_none, Option.getD_none, List.length_nil, Element.encode]
    omega
  | some bits =>
    have last := length_lt_length_element publicKeyTag bits.content
    simp only [BitString.content, List.length_cons] at last
    simp only [point, Option.map_some, Option.getD_some, Option.toList_some, List.map_cons,
      List.map_nil, encodeAll, Element.encode, BitString.content, List.append_nil]
    omega

theorem decode_ok {octets : Bytes} {info : PrivateKeyInfo} (done : decode octets = .ok info) :
    info.algorithm.Sound ∧
      (held info.algorithm.parameters).length + info.privateKey.length +
        (held info.point).length ≤ octets.length := by
  obtain ⟨sound, spelled⟩ := decode_eq_ok_iff.mp done
  exact ⟨sound, Nat.le_trans info.length_parts_le_encode (info.element.shortens spelled).le⟩

end PrivateKeyInfo

/-! ## Encrypted keys -/

theorem EncryptedKeyInfo.decode_ok {octets : Bytes} {info : EncryptedKeyInfo}
    (done : EncryptedKeyInfo.decode octets = .ok info) :
    info.algorithm.Sound ∧ info.data.length ≤ octets.length := by
  obtain ⟨sound, spelled⟩ := decode_eq_ok_iff.mp done
  refine ⟨sound, Nat.le_trans (Nat.le_of_lt ?_) (info.element.shortens spelled).le⟩
  calc info.data.length
      < (Element.octetString info.data).encode.length := length_lt_length_element _ _
    _ ≤ (encodeAll [info.algorithm.element, .octetString info.data]).length :=
      length_encode_le_of_mem (by simp)
    _ < info.element.encode.length := length_lt_length_element _ _

end KeyFile
