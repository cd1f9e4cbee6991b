import KeyFile.Proofs.Encoding.Decryption
import KeyFile.Proofs.Encoding.PrivateKeys

/-!
# Keys that the decoders give

Every key that any of the four encodings gives is well formed, and its parts fill no more octets
than the encoding did, up to the one block by which a decrypted message may be longer.
-/
namespace KeyFile

open Asn1

theorem AlgorithmIdentifier.length_effectiveParameters_le (algorithm : AlgorithmIdentifier) :
    (held algorithm.effectiveParameters).length ≤ (held algorithm.parameters).length := by
  cases given : algorithm.effectiveParameters with
  | none => simp
  | some octets =>
    have present := (effectiveParameters_eq_some_iff.mp given).1
    exact Nat.le_of_eq (by rw [present])

namespace EcPrivateKey

theorem toPrivateKey_ok {outer : Option Curve} {key : EcPrivateKey} {result : PrivateKey}
    (done : key.toPrivateKey outer = .ok result) :
    ∃ curve, key.curve outer = .ok curve ∧ result = .ec curve key.scalar key.point ∧
      0 < key.scalar.length ∧ key.scalar.length ≤ curve.scalarLength := by
  obtain ⟨curve, chosen, done⟩ := Outcome.bind_eq_ok.mp done
  obtain ⟨bounds, done⟩ := Outcome.unless_eq_ok.mp done
  have result := Outcome.pure_eq_ok.mp done
  exact ⟨curve, chosen, result.symm, by omega, by omega⟩

end EcPrivateKey

namespace PrivateKeyInfo

variable {info : PrivateKeyInfo} {key : PrivateKey}

private theorem toDsa_ok (done : info.toDsa = .ok key) :
    key.WellFormed ∧
      key.weight ≤ (held info.algorithm.parameters).length + info.privateKey.length := by
  unfold toDsa at done
  split at done
  · cases done
  next parameters given =>
    obtain ⟨⟨p, q, g⟩, domain, done⟩ := Outcome.bind_eq_ok.mp done
    obtain ⟨x, exponent, done⟩ := Outcome.bind_eq_ok.mp done
    cases Outcome.pure_eq_ok.mp done
    have outer := (Element.shortens _
      ((readsAll_dsaFields p q g).decodeSequence_eq_ok_iff.mp domain).2).le
    have inner := length_lt_length_element .sequence (encodeAll ([p, q, g].map .unsigned))
    have last := (Element.shortens _ ((decodeOnly_eq_ok_iff accepts_readUnsigned).mp exponent)).le
    refine ⟨trivial, ?_⟩
    simp only [PrivateKey.weight, (AlgorithmIdentifier.effectiveParameters_eq_some_iff.mp given).1,
      Option.getD_some]
    exact Nat.add_le_add (Nat.le_trans (Nat.le_of_lt inner) outer) last

/-- The nested key is a key of its own or the bare scalar, and takes the outer public key where it
has none. -/
theorem ecPrivateKey_ok {nested : EcPrivateKey} (done : info.ecPrivateKey = .ok nested) :
    ∃ inner : EcPrivateKey, nested = { inner with publicKey := inner.publicKey.or info.publicKey } ∧
      if info.privateKey.head?.map Tag.ofOctet = some .sequence then
        EcPrivateKey.decode info.privateKey = .ok inner
      else inner = ⟨info.privateKey, none, none⟩ := by
  unfold ecPrivateKey at done
  simp only at done
  split at done
  next sequence =>
    obtain ⟨inner, decoded, done⟩ := Outcome.bind_eq_ok.mp done
    exact ⟨inner, (Outcome.pure_eq_ok.mp done).symm, by rwa [if_pos sequence]⟩
  next bare => exact ⟨_, (Outcome.pure_eq_ok.mp done).symm, by rw [if_neg bare]⟩

private theorem toEc_ok (done : info.toEc = .ok key) :
    key.WellFormed ∧ key.weight ≤ info.privateKey.length + (held info.point).length := by
  unfold toEc at done
  split at done
  · cases done
  next parameters given =>
    obtain ⟨choice, -, done⟩ := Outcome.bind_eq_ok.mp done
    obtain ⟨outer, -, done⟩ := Outcome.bind_eq_ok.mp done
    obtain ⟨nested, found, done⟩ := Outcome.bind_eq_ok.mp done
    obtain ⟨curve, -, rfl, positive, bounded⟩ := EcPrivateKey.toPrivateKey_ok done
    refine ⟨⟨positive, bounded⟩, ?_⟩
    obtain ⟨inner, rfl, origin⟩ := ecPrivateKey_ok found
    have parts : inner.scalar.length + (held inner.point).length ≤ info.privateKey.length := by
      split at origin
      · exact EcPrivateKey.length_parts_le origin
      · rw [origin]
        exact Nat.le_refl _
    -- The public key is the inner one if there is one, else the outer one.
    cases known : inner.publicKey <;>
      simp only [PrivateKey.weight, EcPrivateKey.point, point, known, Option.none_or,
        Option.some_or, Option.map_none, Option.map_some, Option.getD_none, Option.getD_some,
        List.length_nil] at parts ⊢ <;>
      omega

private theorem toRaw_ok {kind : RawKind} (done : info.toRaw kind = .ok key) :
    key.WellFormed ∧ key.weight ≤ info.privateKey.length + (held info.point).length := by
  obtain ⟨seed, read, done⟩ := Outcome.bind_eq_ok.mp done
  obtain ⟨length, done⟩ := Outcome.unless_eq_ok.mp done
  cases Outcome.pure_eq_ok.mp done
  have size := length_of_readContent (decodeOnly_eq_ok.mp read)
  have formed : seed.length = kind.length := Decidable.not_not.mp length
  refine ⟨formed, ?_⟩
  change seed.length + (held info.point).length ≤ _
  omega

/-- What a structure gives is well formed, and fills no more octets than three of its parts. -/
theorem toPrivateKey_ok (sound : info.algorithm.Sound) (done : info.toPrivateKey = .ok key) :
    key.WellFormed ∧ key.weight ≤ (held info.algorithm.parameters).length +
      info.privateKey.length + (held info.point).length := by
  unfold toPrivateKey at done
  -- One case for each algorithm, and the first for an identifier that names none.
  split at done
  · cases done
  next rsa =>
    obtain ⟨numbers, decoded, rfl⟩ := Outcome.map_eq_ok.mp done
    have size := RsaKey.length_encode_le decoded
    exact ⟨trivial, by simp only [PrivateKey.weight]; omega⟩
  next pss =>
    obtain ⟨numbers, decoded, rfl⟩ := Outcome.map_eq_ok.mp done
    have size := RsaKey.length_encode_le decoded
    have fewer := info.algorithm.length_effectiveParameters_le
    refine ⟨fun octets member => ?_, by simp only [PrivateKey.weight]; omega⟩
    obtain ⟨present, other⟩ := AlgorithmIdentifier.effectiveParameters_eq_some_iff.mp member
    exact ⟨sound octets present, other⟩
  next dsa =>
    obtain ⟨formed, size⟩ := toDsa_ok done
    exact ⟨formed, by omega⟩
  next ec =>
    obtain ⟨formed, size⟩ := toEc_ok done
    exact ⟨formed, by omega⟩
  next kind raw =>
    obtain ⟨formed, size⟩ := toRaw_ok done
    exact ⟨formed, by omega⟩

/-- A key on a curve comes from the algorithm of such keys; every other one gives another kind. -/
theorem toEc_of_toPrivateKey {curve : Curve} {scalar : Bytes} {point : Option Bytes}
    (done : info.toPrivateKey = .ok (.ec curve scalar point)) :
    info.toEc = .ok (.ec curve scalar point) := by
  unfold toPrivateKey at done
  split at done
  · cases done
  · obtain ⟨_, _, other⟩ := Outcome.map_eq_ok.mp done
    cases other
  · obtain ⟨_, _, other⟩ := Outcome.map_eq_ok.mp done
    cases other
  next dsa =>
    unfold toDsa at done
    split at done
    · cases done
    · obtain ⟨_, _, done⟩ := Outcome.bind_eq_ok.mp done
      obtain ⟨_, _, done⟩ := Outcome.bind_eq_ok.mp done
      cases Outcome.pure_eq_ok.mp done
  next ec => exact done
  next raw =>
    obtain ⟨_, _, done⟩ := Outcome.bind_eq_ok.mp done
    obtain ⟨_, done⟩ := Outcome.unless_eq_ok.mp done
    cases Outcome.pure_eq_ok.mp done

end PrivateKeyInfo

theorem EncryptedKeyInfo.toPrivateKey_ok {info : EncryptedKeyInfo} {password : Option Bytes}
    {key : PrivateKey} (done : info.toPrivateKey password = .ok key) :
    ∃ secret inner, password = some secret ∧ info.decrypt secret = .ok inner ∧
      inner.toPrivateKey = .ok key := by
  obtain ⟨scheme, -, done⟩ := Outcome.bind_eq_ok.mp done
  cases password with
  | none => cases done
  | some secret =>
    obtain ⟨inner, decrypted, done⟩ := Outcome.bind_eq_ok.mp done
    exact ⟨secret, inner, rfl, decrypted, done⟩

end KeyFile
