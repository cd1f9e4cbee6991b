import KeyFile.Proofs.Curves

/-!
# Bare scalars

The private part of an elliptic curve key may be the scalar alone, and its first octet decides
whether it is. A scalar that begins with the tag of a sequence is therefore never taken for one: it
is read as a key of its own, and what is wrong with it as such is the error.
-/
namespace KeyFile

open Asn1

/-- Only one identifier octet announces a sequence. -/
theorem Asn1.Tag.ofOctet_eq_sequence_iff {octet : UInt8} :
    Tag.ofOctet octet = .sequence ↔ octet = 0x30 := by
  constructor
  · intro announced
    have written := Tag.octet_ofOctet octet
    rw [announced] at written
    exact written.symm
  · rintro rfl
    rfl

theorem Asn1.head_eq_sequence_iff {octets : Bytes} :
    octets.head?.map Tag.ofOctet = some .sequence ↔ octets.head? = some 0x30 := by
  simp only [Option.map_eq_some_iff, Tag.ofOctet_eq_sequence_iff, exists_eq_right]

namespace PrivateKeyInfo

/-- The private part has the length of a scalar on the curve that the algorithm names, and it is no
key of its own. -/
structure HoldsBare (info : PrivateKeyInfo) (curve : Curve) : Prop where
  algorithm : info.algorithm.identifier = Algorithm.ec.identifier
  chosen : info.OuterChoice (.named curve.identifier)
  filled : 0 < info.privateKey.length
  bounded : info.privateKey.length ≤ curve.scalarLength
  bare : ∀ key, ¬ info.Nested key

namespace HoldsBare

variable {info : PrivateKeyInfo} {curve : Curve}

theorem toPrivateKey_eq (holds : info.HoldsBare curve) :
    info.toPrivateKey = info.ecPrivateKey >>= fun key => key.toPrivateKey (some curve) := by
  rw [toPrivateKey_of_ec holds.algorithm, toEc_of_outer holds.chosen nofun,
    Outcome.bind_of_ok (CurveChoice.resolve_named curve)]

/-- Any other first octet makes it the scalar, with the public key from outside. -/
theorem toPrivateKey_of_other (holds : info.HoldsBare curve)
    (other : info.privateKey.head? ≠ some 0x30) :
    info.toPrivateKey = .ok (.ec curve info.privateKey info.point) := by
  have taken : info.ecPrivateKey = .ok ⟨info.privateKey, none, info.publicKey⟩ := by
    rw [ecPrivateKey, if_neg (mt head_eq_sequence_iff.mp other)]
    rfl
  have settled : EcPrivateKey.curve (some curve) ⟨info.privateKey, none, info.publicKey⟩ =
      .ok curve := EcPrivateKey.curve_of_unnamed rfl
  have filled := holds.filled
  have bounded := holds.bounded
  have range : ¬ (info.privateKey.length = 0 ∨ curve.scalarLength < info.privateKey.length) := by
    omega
  rw [holds.toPrivateKey_eq, Outcome.bind_of_ok taken, EcPrivateKey.toPrivateKey,
    Outcome.bind_of_ok settled]
  exact Outcome.unless_eq_ok.mpr ⟨range, rfl⟩

/-- A scalar that begins as a sequence fails as a key of its own. -/
theorem toPrivateKey_of_sequence (holds : info.HoldsBare curve)
    (sequence : info.privateKey.head? = some 0x30) :
    ∃ e, EcPrivateKey.decode info.privateKey = .error e ∧ info.toPrivateKey = .error e := by
  -- The scalar is no key of its own, so the decoder it is handed to has an error to give.
  cases decoded : EcPrivateKey.decode info.privateKey with
  | ok key => exact absurd (EcPrivateKey.decode_eq_ok_iff.mp decoded) (holds.bare key)
  | error e =>
    refine ⟨e, rfl, ?_⟩
    rw [holds.toPrivateKey_eq, ecPrivateKey, if_pos (head_eq_sequence_iff.mpr sequence), decoded]
    rfl

end HoldsBare

/-- A bare scalar is taken as the scalar exactly if it does not begin as a sequence. In no case does
another key come out, and the only error is that of the key of its own which it is taken for. -/
theorem bareScalar_exact {info : PrivateKeyInfo} {curve : Curve} (holds : info.HoldsBare curve) :
    (info.toPrivateKey = .ok (.ec curve info.privateKey info.point) ↔
      info.privateKey.head? ≠ some 0x30) ∧
    (∀ key, info.toPrivateKey = .ok key → key = .ec curve info.privateKey info.point) ∧
    ∀ e, info.toPrivateKey = .error e → EcPrivateKey.decode info.privateKey = .error e := by
  by_cases sequence : info.privateKey.head? = some 0x30
  · obtain ⟨e, decoded, failed⟩ := holds.toPrivateKey_of_sequence sequence
    rw [failed]
    refine ⟨?_, nofun, ?_⟩
    · constructor
      · nofun
      · intro other
        exact absurd sequence other
    · rintro _ ⟨⟩
      exact decoded
  · rw [holds.toPrivateKey_of_other sequence]
    refine ⟨iff_of_true rfl sequence, ?_, nofun⟩
    rintro _ ⟨⟩
    rfl

/-- A scalar alone, on a curve that the algorithm names. -/
def bareInfo (curve : Curve) (scalar : Bytes) : PrivateKeyInfo where
  version := .v1
  algorithm := ⟨Algorithm.ec.identifier, some (Element.objectIdentifier curve.identifier).encode⟩
  privateKey := scalar
  attributes := none
  publicKey := none

theorem holdsBare_bareInfo {curve : Curve} {scalar : Bytes} (filled : 0 < scalar.length)
    (bounded : scalar.length ≤ curve.scalarLength)
    (bare : ∀ key, EcPrivateKey.decode scalar ≠ .ok key) :
    (bareInfo curve scalar).HoldsBare curve where
  algorithm := rfl
  chosen := by
    -- The identifier of a curve has few octets, so its encoding can be read back.
    have short := curve.length_contents_identifier
    have fits : (Element.objectIdentifier curve.identifier).encode.length < 2 ^ 64 := by
      have written := length_element_le .objectIdentifier curve.identifier.contents (by omega)
      simp only [Element.encode]
      omega
    exact ⟨_, rfl, trivial,
      (Element.objectIdentifier curve.identifier).spelling_of_fits trivial fits⟩
  filled := filled
  bounded := bounded
  bare := fun key nested => bare key (EcPrivateKey.decode_eq_ok_iff.mpr nested)

/-- A scalar that begins with the tag of a sequence, as one in 256 does. -/
def sequenceLike : Bytes := 0x30 :: List.replicate 31 7

theorem decode_sequenceLike :
    EcPrivateKey.decode sequenceLike = .error (.malformedDer (.trailingData 23)) := rfl

theorem sequenceLike_refused :
    (bareInfo .secp256r1 sequenceLike).HoldsBare .secp256r1 ∧
      (bareInfo .secp256r1 sequenceLike).toPrivateKey =
        .error (.malformedDer (.trailingData 23)) := by
  have bare (key : EcPrivateKey) : EcPrivateKey.decode sequenceLike ≠ .ok key := by
    rw [decode_sequenceLike]
    nofun
  have holds : (bareInfo .secp256r1 sequenceLike).HoldsBare .secp256r1 :=
    holdsBare_bareInfo (by decide) (by decide) bare
  obtain ⟨e, decoded, failed⟩ := holds.toPrivateKey_of_sequence rfl
  cases decode_sequenceLike.symm.trans decoded
  exact ⟨holds, failed⟩

theorem seven_taken :
    (bareInfo .secp521r1 [7]).HoldsBare .secp521r1 ∧
      (bareInfo .secp521r1 [7]).toPrivateKey = .ok (.ec .secp521r1 [7] none) := by
  have holds : (bareInfo .secp521r1 [7]).HoldsBare .secp521r1 :=
    holdsBare_bareInfo (by decide) (by decide) nofun
  exact ⟨holds, (bareScalar_exact holds).1.mpr (by decide)⟩

end PrivateKeyInfo

end KeyFile
