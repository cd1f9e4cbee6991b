import KeyFile.Proofs.Normalization

/-!
# The width of private scalars

The scalar of an elliptic curve key is kept as its encoding has it. An encoding may leave out
leading zeros, and every width up to that of the curve is accepted, so one key can be read as two
different keys: keys of equal scalars are equal exactly if their encodings have the scalar in equal
width.
-/
namespace KeyFile

open Asn1

/-- The octets that stand for the scalar: a field of the nested key, or all of the private part. -/
def PrivateKeyInfo.scalarField? (info : PrivateKeyInfo) : Option Bytes :=
  if info.privateKey.head?.map Tag.ofOctet = some .sequence then
    (EcPrivateKey.decode info.privateKey).toOption.map (·.scalar)
  else some info.privateKey

/-- The octets that stand for the scalar in an encoding, which may have to be decrypted. -/
def Container.scalarField? (password : Option Bytes) : Container → Option Bytes
  | .rsa _ => none
  | .ec key => some key.scalar
  | .info key => key.scalarField?
  | .encrypted key => do
    let secret ← password
    let inner ← (key.decrypt secret).toOption
    inner.scalarField?

section Kept

variable {curve : Curve} {scalar : Bytes} {point : Option Bytes}

private theorem PrivateKeyInfo.scalarField_eq {info : PrivateKeyInfo}
    (done : info.toPrivateKey = .ok (.ec curve scalar point)) :
    info.scalarField? = some scalar ∧ 0 < scalar.length ∧ scalar.length ≤ curve.scalarLength := by
  have done := toEc_of_toPrivateKey done
  unfold toEc at done
  split at done
  · cases done
  next parameters given =>
    obtain ⟨choice, -, done⟩ := Outcome.bind_eq_ok.mp done
    obtain ⟨outer, -, done⟩ := Outcome.bind_eq_ok.mp done
    obtain ⟨nested, found, done⟩ := Outcome.bind_eq_ok.mp done
    obtain ⟨chosen, -, same, positive, bounded⟩ := EcPrivateKey.toPrivateKey_ok done
    obtain ⟨inner, rfl, origin⟩ := ecPrivateKey_ok found
    cases same
    refine ⟨?_, positive, bounded⟩
    unfold scalarField?
    split at origin
    next sequence => rw [if_pos sequence, origin]; rfl
    next bare => rw [if_neg bare, origin]

/-- On every route, the scalar of a key is the one that its encoding has, in the same width. -/
theorem Container.scalarField_eq {container : Container} {password : Option Bytes}
    (given : container.toPrivateKey password = .ok (.ec curve scalar point)) :
    container.scalarField? password = some scalar ∧ 0 < scalar.length ∧
      scalar.length ≤ curve.scalarLength := by
  cases container with
  | rsa key => cases given
  | ec key =>
    obtain ⟨chosen, -, same, positive, bounded⟩ := EcPrivateKey.toPrivateKey_ok given
    cases same
    exact ⟨rfl, positive, bounded⟩
  | info key => exact PrivateKeyInfo.scalarField_eq given
  | encrypted key =>
    obtain ⟨secret, inner, rfl, decrypted, given⟩ := EncryptedKeyInfo.toPrivateKey_ok given
    have field : (Container.encrypted key).scalarField? (some secret) = inner.scalarField? := by
      simp only [scalarField?, decrypted, Except.toOption, Option.bind_eq_bind, Option.bind_some]
    rw [field]
    exact PrivateKeyInfo.scalarField_eq given

end Kept

theorem Curve.scalarLength_bounds (curve : Curve) :
    1 < curve.scalarLength ∧ curve.scalarLength ≤ 66 := by
  cases curve <;> decide +kernel

namespace Document

/-- The octets that stand for the scalar in an armored key. -/
def scalarField? (password : Option Bytes) (block : Pem.Block) : Option Bytes := do
  let container ← (Container.ofBlock block).toOption
  container.scalarField? password

/-- An elliptic curve key of its own that names its curve. -/
def scalarBlock (curve : Curve) (scalar : Bytes) (point : Option Bytes) : Pem.Block :=
  ⟨.ecPrivateKey, [], EcPrivateKey.encode ⟨scalar, some (.named curve.identifier),
    point.map PrivateKey.wholeOctets⟩⟩

section Widths

variable {curve : Curve} {scalar : Bytes} {point : Option Bytes}

theorem scalarField_eq {block : Pem.Block} {password : Option Bytes}
    (given : readBlock password block = .ok (.ec curve scalar point)) :
    scalarField? password block = some scalar ∧ 0 < scalar.length ∧
      scalar.length ≤ curve.scalarLength := by
  obtain ⟨container, found, given⟩ := Outcome.bind_eq_ok.mp given
  have field : scalarField? password block = container.scalarField? password := by
    simp only [scalarField?, found, Except.toOption, Option.bind_eq_bind, Option.bind_some]
  rw [field]
  exact Container.scalarField_eq given

/-- A scalar is accepted in every width up to that of its curve. -/
theorem readBlock_scalarBlock (curve : Curve) (scalar : Bytes) (point : Option Bytes)
    (positive : 0 < scalar.length) (bounded : scalar.length ≤ curve.scalarLength)
    (small : scalar.length + (held point).length + 100 < 2 ^ 64) (password : Option Bytes) :
    readBlock password (scalarBlock curve scalar point) = .ok (.ec curve scalar point) := by
  have size := PrivateKey.length_nested_le (some curve) scalar point small
  have sound : EcPrivateKey.Sound ⟨scalar, some (.named curve.identifier),
      point.map PrivateKey.wholeOctets⟩ :=
    { parameters := by rintro _ ⟨⟩; exact trivial
      publicKey := PrivateKey.valid_wholeOctets point }
  have decoded := EcPrivateKey.decode_encode sound (Nat.lt_of_le_of_lt size small)
  have opened : Container.ofBlock (scalarBlock curve scalar point) =
      .ok (.ec ⟨scalar, some (.named curve.identifier), point.map PrivateKey.wholeOctets⟩) :=
    Outcome.map_eq_ok.mpr ⟨_, decoded, rfl⟩
  have named := CurveChoice.resolve_named curve
  have chosen : EcPrivateKey.curve none ⟨scalar, some (.named curve.identifier),
      point.map PrivateKey.wholeOctets⟩ = .ok curve :=
    Outcome.bind_eq_ok.mpr ⟨some curve, Outcome.map_eq_ok.mpr ⟨curve, named, rfl⟩, rfl⟩
  have range : ¬ (scalar.length = 0 ∨ curve.scalarLength < scalar.length) := by omega
  refine Outcome.bind_eq_ok.mpr ⟨_, opened, Outcome.bind_eq_ok.mpr ⟨curve, chosen, ?_⟩⟩
  refine Outcome.unless_eq_ok.mpr ⟨range, ?_⟩
  simp only [PrivateKey.map_data_wholeOctets, Outcome.pure_eq_ok]

/-- Without leading zeros only one width is left. -/
private theorem length_eq_of_le_toNat (bounded : scalar.length ≤ curve.scalarLength)
    (full : 256 ^ (curve.scalarLength - 1) ≤ BigEndian.toNat scalar) :
    scalar.length = curve.scalarLength := by
  have value := BigEndian.toNat_lt scalar
  have wider := (Nat.pow_lt_pow_iff_right (by decide)).mp (Nat.lt_of_le_of_lt full value)
  omega

/-- The scalar of a key is the one in its encoding, octet for octet, in any width up to that of its
curve. Keys of one curve, scalar and point are equal exactly if the widths are, and all encodings of
the key give equal keys exactly if the scalar has no leading zero at the width of its curve. -/
theorem scalar_width_exact {block : Pem.Block} {password : Option Bytes}
    (addressable : Addressable block.payload)
    (given : readBlock password block = .ok (.ec curve scalar point)) :
    (scalarField? password block = some scalar ∧ 0 < scalar.length ∧
      scalar.length ≤ curve.scalarLength) ∧
    (∀ other another scalar', readBlock another other = .ok (.ec curve scalar' point) →
      BigEndian.toNat scalar = BigEndian.toNat scalar' →
      (PrivateKey.ec curve scalar point = .ec curve scalar' point ↔
        scalar.length = scalar'.length)) ∧
    ((∀ other another scalar', readBlock another other = .ok (.ec curve scalar' point) →
      BigEndian.toNat scalar = BigEndian.toNat scalar' →
      PrivateKey.ec curve scalar point = .ec curve scalar' point) ↔
        256 ^ (curve.scalarLength - 1) ≤ BigEndian.toNat scalar) := by
  have field := scalarField_eq given
  refine ⟨field, ?_, ?_, ?_⟩
  · intro other another scalar' _ same
    constructor
    · intro equal
      cases equal
      rfl
    · intro width
      rw [BigEndian.eq_of_toNat_eq width same]
  · intro unique
    obtain ⟨wide, narrow⟩ := curve.scalarLength_bounds
    have weight := (Produced.of_readBlock addressable given).weight_lt
    simp only [PrivateKey.weight] at weight
    -- A smaller number would also be accepted in two different widths, and no scalar has both.
    have only {width : Nat} (positive : 0 < width) (bounded : width ≤ curve.scalarLength)
        (fits : BigEndian.toNat scalar < 256 ^ width) : scalar.length = width := by
      have accepted := readBlock_scalarBlock curve
        (BigEndian.octets width (BigEndian.toNat scalar)) point
        (by rwa [BigEndian.length_octets]) (by rwa [BigEndian.length_octets])
        (by rw [BigEndian.length_octets]; omega) none
      have equal := unique _ _ _ accepted
        (by rw [BigEndian.toNat_octets, Nat.mod_eq_of_lt fits])
      simp only [PrivateKey.ec.injEq, true_and, and_true] at equal
      rw [equal, BigEndian.length_octets]
    apply Decidable.byContradiction
    intro small
    have short := Nat.lt_of_not_le small
    have less := only (by omega) (by omega) short
    have more := only (by omega) (Nat.le_refl _)
      (Nat.lt_of_lt_of_le short (Nat.pow_le_pow_right (by decide) (Nat.sub_le _ _)))
    omega
  · intro full other another scalar' given' same
    have width := length_eq_of_le_toNat field.2.2 full
    have width' := length_eq_of_le_toNat (scalarField_eq given').2.2 (same ▸ full)
    rw [BigEndian.eq_of_toNat_eq (width.trans width'.symm) same]

end Widths

/-- The scalar seven in one octet and in the width of its curve. -/
theorem seven_in_two_widths :
    readBlock none (scalarBlock .secp256r1 [7] none) = .ok (.ec .secp256r1 [7] none) ∧
      readBlock none (scalarBlock .secp256r1 (List.replicate 31 0 ++ [7]) none) =
        .ok (.ec .secp256r1 (List.replicate 31 0 ++ [7]) none) ∧
      BigEndian.toNat [7] = BigEndian.toNat (List.replicate 31 0 ++ [7]) ∧
      ([7] : Bytes).length ≠ Curve.secp256r1.scalarLength ∧
      PrivateKey.ec .secp256r1 [7] none ≠ .ec .secp256r1 (List.replicate 31 0 ++ [7]) none := by
  refine ⟨rfl, rfl, rfl, ?_, ?_⟩
  · decide +kernel
  · decide

theorem seven_short_not_unique :
    Addressable (scalarBlock .secp256r1 [7] none).payload ∧
      readBlock none (scalarBlock .secp256r1 [7] none) = .ok (.ec .secp256r1 [7] none) ∧
      scalarField? none (scalarBlock .secp256r1 [7] none) = some [7] ∧
      ¬ ∀ other another scalar', readBlock another other = .ok (.ec .secp256r1 scalar' none) →
        BigEndian.toNat [7] = BigEndian.toNat scalar' →
        PrivateKey.ec .secp256r1 [7] none = .ec .secp256r1 scalar' none := by
  have addressable : Addressable (scalarBlock .secp256r1 [7] none).payload := by decide
  have given : readBlock none (scalarBlock .secp256r1 [7] none) =
      .ok (.ec .secp256r1 [7] none) := rfl
  have conditions := scalar_width_exact addressable given
  have small : ¬ 256 ^ (Curve.secp256r1.scalarLength - 1) ≤ BigEndian.toNat [7] := by
    decide +kernel
  exact ⟨addressable, given, conditions.1.1, fun unique => small (conditions.2.2.mp unique)⟩

end Document

end KeyFile
