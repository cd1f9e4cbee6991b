import KeyFile.Proofs.Asn1.DottedText
import KeyFile.Proofs.Encoding.Decoded

/-!
# Private keys that decoding gives

What makes a key one that decoding can give is an invariant of the key alone: its parameters are a
whole element that is not NULL, its scalar has one octet or more and no more than its curve allows,
its seed has the length of its kind. Such a key is read back from the form for keys of any
algorithm, provided that the form fits.
-/
namespace KeyFile

open Asn1

namespace PrivateKey

/-- What holds of every key that is read. -/
def WellFormed : PrivateKey → Prop
  | .rsa _ | .dsa _ => True
  | .rsaPss _ parameters =>
    ∀ octets ∈ parameters, Complete octets ∧ octets.head?.map Tag.ofOctet ≠ some .null
  | .ec curve scalar _ => 0 < scalar.length ∧ scalar.length ≤ curve.scalarLength
  | .raw kind seed _ => seed.length = kind.length

/-- The octets that the parts of a key fill. -/
def weight : PrivateKey → Nat
  | .rsa key => key.encode.length
  | .rsaPss key parameters => key.encode.length + (held parameters).length
  | .dsa key =>
    (encodeAll ([key.p, key.q, key.g].map .unsigned)).length +
      (Element.unsigned key.x).encode.length
  | .ec _ part publicKey | .raw _ part publicKey => part.length + (held publicKey).length

end PrivateKey

/-! ## Identifiers -/

/-- What is looked up by the text of its name is found under this name alone. -/
theorem find_named_eq_some_iff {α : Type} {table : List α} {name : α → ObjectIdentifier}
    (found : ∀ a, table.find? (fun b => (name b).text = (name a).text) = some a)
    {identifier : ObjectIdentifier} {a : α} :
    table.find? (fun b => (name b).text = identifier.text) = some a ↔ identifier = name a := by
  constructor
  · intro given
    have same := List.find?_some given
    exact ObjectIdentifier.text_injective (of_decide_eq_true same).symm
  · rintro rfl
    exact found a

theorem Algorithm.ofIdentifier_identifier (algorithm : Algorithm) :
    Algorithm.ofIdentifier? algorithm.identifier = some algorithm := by
  rcases algorithm with _ | _ | _ | _ | kind
  case raw => cases kind <;> rfl
  all_goals rfl

theorem Curve.ofIdentifier_identifier (curve : Curve) :
    Curve.ofIdentifier? curve.identifier = some curve := by
  cases curve <;> rfl

/-- Names under which all entries are found are different. -/
theorem eq_of_name_eq {α : Type} {find : ObjectIdentifier → Option α} {name : α → ObjectIdentifier}
    (found : ∀ a, find (name a) = some a) {left right : α} (same : name left = name right) :
    left = right := by
  have entry := found left
  rw [same, found right, Option.some.injEq] at entry
  exact entry.symm

theorem Algorithm.identifier_injective {left right : Algorithm}
    (same : left.identifier = right.identifier) : left = right :=
  eq_of_name_eq ofIdentifier_identifier same

theorem Curve.identifier_injective {left right : Curve}
    (same : left.identifier = right.identifier) : left = right :=
  eq_of_name_eq ofIdentifier_identifier same

theorem CurveChoice.resolve_named (curve : Curve) :
    CurveChoice.resolve (.named curve.identifier) = .ok curve := by
  simp only [CurveChoice.resolve, Curve.ofIdentifier_identifier]

theorem Algorithm.length_contents_identifier (algorithm : Algorithm) :
    algorithm.identifier.contents.length ≤ 10 := by
  rcases algorithm with _ | _ | _ | _ | kind
  case raw => cases kind <;> decide
  all_goals decide

theorem Curve.length_contents_identifier (curve : Curve) :
    curve.identifier.contents.length ≤ 10 := by
  cases curve <;> decide

namespace PrivateKey

/-! ## Writers -/

theorem identifierOf_text (identifier : ObjectIdentifier) :
    identifierOf identifier.text = .ok identifier := by
  rw [identifierOf, ObjectIdentifier.ofText_text]
  rfl

theorem statedParameters_eq (key : PrivateKey) : key.statedParameters = .ok key.parameters := by
  cases key with
  | ec curve scalar publicKey =>
    simp only [statedParameters, curve?, identifierOf_text]
    rfl
  | rsa _ | rsaPss _ _ | dsa _ | raw _ _ _ => rfl

/-- The texts in the tables name the identifiers that they are the texts of. -/
theorem statedInfo_eq (key : PrivateKey) : key.statedInfo = .ok key.toInfo := by
  rw [statedInfo, identifierOf_text, Outcome.bind_of_ok rfl, statedParameters_eq]
  rfl

theorem armor_eq (key : PrivateKey) : key.armor = .ok key.toBlock := by
  rw [armor, statedInfo_eq]
  rfl

/-! ## Public keys -/

theorem valid_wholeOctets (publicKey : Option Bytes) :
    ∀ bits ∈ publicKey.map wholeOctets, bits.Valid := by
  cases publicKey with
  | none => rintro _ ⟨⟩
  | some octets =>
    rintro _ ⟨⟩
    exact ⟨show (0 : UInt8) ≤ 7 by decide, fun _ => rfl⟩

theorem map_data_wholeOctets (publicKey : Option Bytes) :
    (publicKey.map wholeOctets).map (·.data) = publicKey := by
  cases publicKey <;> rfl

/-! ## Sizes -/

/-- A nested key is written with few octets beside its scalar and its public key. -/
theorem length_nested_le (name : Option Curve) (scalar : Bytes) (publicKey : Option Bytes)
    (small : scalar.length + (held publicKey).length + 100 < 2 ^ 64) :
    (EcPrivateKey.encode ⟨scalar, name.map (.named ·.identifier),
        publicKey.map wholeOctets⟩).length ≤
      scalar.length + (held publicKey).length + 100 := by
  have bound : (EcPrivateKey.element ⟨scalar, name.map (.named ·.identifier),
      publicKey.map wholeOctets⟩).allowance ≤ scalar.length + (held publicKey).length + 100 := by
    have contents : ∀ curve ∈ name, curve.identifier.contents.length ≤ 10 :=
      fun curve _ => curve.length_contents_identifier
    cases name <;> cases publicKey <;>
      simp only [EcPrivateKey.element, CurveChoice.element, Element.allowance, allowanceAll,
        wholeOctets, Option.map_none, Option.map_some, Option.toList_none, Option.toList_some,
        List.map_nil, List.map_cons, List.append_nil, List.cons_append, List.nil_append,
        Option.getD_none, Option.getD_some, List.length_nil, Option.mem_def, Option.some.injEq,
        forall_eq'] at contents ⊢ <;>
      omega
  exact Nat.le_trans (Element.length_encode_le _ (by omega)) bound

/-- The three parts that are written add little to what the key holds. -/
private theorem length_parts_le {key : PrivateKey} (small : key.weight + 256 < 2 ^ 64) :
    (held key.parameters).length + key.innerOctets.length +
      (held (key.outerPublicKey.map (·.data))).length ≤ key.weight + 120 := by
  -- Each sort of key adds to its octets the headers of a fixed number of elements.
  cases key with
  | rsa key =>
    have null : Element.null.encode.length = 2 := rfl
    simp only [PrivateKey.parameters, innerOctets, outerPublicKey, weight, Option.map_none,
      Option.getD_some, Option.getD_none, List.length_nil, null]
    omega
  | rsaPss key octets =>
    simp only [PrivateKey.parameters, innerOctets, outerPublicKey, weight, Option.map_none,
      Option.getD_none, List.length_nil]
    omega
  | dsa key =>
    simp only [weight] at small
    have size := length_element_le .sequence
      (encodeAll ([key.p, key.q, key.g].map .unsigned)) (by omega)
    simp only [PrivateKey.parameters, innerOctets, outerPublicKey, weight, Option.map_none,
      Option.getD_some, Option.getD_none, List.length_nil, Element.encode] at size ⊢
    omega
  | ec curve scalar publicKey =>
    simp only [weight] at small
    have contents := curve.length_contents_identifier
    have name := length_element_le .objectIdentifier curve.identifier.contents (by omega)
    have nested : (EcPrivateKey.encode ⟨scalar, none, publicKey.map wholeOctets⟩).length ≤ _ :=
      length_nested_le none scalar publicKey (by omega)
    simp only [PrivateKey.parameters, innerOctets, outerPublicKey, weight, Option.map_none,
      Option.getD_some, Option.getD_none, List.length_nil, Element.encode]
    omega
  | raw kind seed publicKey =>
    simp only [weight] at small
    have size := length_element_le .octetString seed (by omega)
    simp only [PrivateKey.parameters, innerOctets, outerPublicKey, weight, map_data_wholeOctets,
      Option.getD_none, List.length_nil, Element.encode]
    omega

/-- A key is written with few octets beside those that it holds. -/
theorem length_encode_le {key : PrivateKey} (small : key.weight + 256 < 2 ^ 64) :
    key.encode.length ≤ key.weight + 256 := by
  have parts := length_parts_le small
  have contents := key.algorithm.length_contents_identifier
  have bound : key.toInfo.element.allowance ≤ key.weight + 256 := by
    simp only [PrivateKeyInfo.element, toInfo, AlgorithmIdentifier.element, Element.allowance,
      allowanceAll, List.cons_append, List.nil_append, Option.toList_none, List.map_nil]
    -- Only the lengths of the optional parts matter from here on.
    generalize key.parameters = parameters at parts ⊢
    generalize key.outerPublicKey = publicKey at parts ⊢
    cases parameters <;> cases publicKey <;>
      simp only [Option.toList_none, Option.toList_some, List.map_nil, List.map_cons,
        Option.map_none, Option.map_some, Option.getD_none, Option.getD_some, List.length_nil,
        allowanceAll, Element.allowance, BitString.content, List.length_cons] at parts ⊢ <;>
      omega
  exact Nat.le_trans (Element.length_encode_le _ (by omega)) bound

/-! ## Reading a key back -/

section Written

variable {key : PrivateKey} (fits : key.encode.length < 2 ^ 64)

include fits

private theorem length_innerOctets_lt :
    (Element.octetString key.innerOctets).encode.length < 2 ^ 64 :=
  encode_length_lt (by simp [toInfo]) fits

private theorem length_parameters_lt : ∀ octets ∈ key.parameters, octets.length < 2 ^ 64 := by
  intro octets member
  have algorithm : key.toInfo.algorithm.element.encode.length < 2 ^ 64 :=
    encode_length_lt (by simp) fits
  have part : (Element.encoded octets).encode.length < 2 ^ 64 :=
    encode_length_lt (by simp [toInfo, Option.mem_def.mp member]) algorithm
  exact part

end Written

theorem complete_element {tag : Tag} (canonical : tag.Canonical) {content : Bytes}
    (fits : (element tag content).length < 2 ^ 64) : Complete (element tag content) :=
  complete_iff_framed.mpr
    ⟨tag, content, .element Forms.admits_accepted canonical (length_content_lt fits) rfl⟩

theorem sound_toInfo {key : PrivateKey} (formed : key.WellFormed)
    (fits : key.encode.length < 2 ^ 64) : key.toInfo.algorithm.Sound := by
  have small := length_parameters_lt fits
  cases key with
  | rsa key =>
    rintro _ ⟨⟩
    rfl
  | rsaPss key parameters => exact fun octets member => (formed octets member).1
  | dsa key =>
    rintro _ ⟨⟩
    have short := small _ rfl
    simp only [Element.encode] at short ⊢
    exact complete_element (by decide) short
  | ec curve scalar publicKey =>
    rintro _ ⟨⟩
    have short := small _ rfl
    simp only [Element.encode] at short ⊢
    exact complete_element (by decide) short
  | raw kind seed publicKey => rintro _ ⟨⟩

theorem effectiveParameters_some {identifier : ObjectIdentifier} {octets : Bytes}
    (given : octets.head?.map Tag.ofOctet ≠ some .null) :
    AlgorithmIdentifier.effectiveParameters ⟨identifier, some octets⟩ = some octets :=
  AlgorithmIdentifier.effectiveParameters_eq_some_iff.mpr ⟨rfl, given⟩

private theorem head_encode {tag : Tag} (canonical : tag.Canonical) (content : Bytes) :
    (element tag content).head?.map Tag.ofOctet = some tag := by
  simpa using head_element canonical content []

private theorem toDsa_toInfo {key : DsaKey} (fits : (PrivateKey.dsa key).encode.length < 2 ^ 64) :
    (PrivateKey.dsa key).toInfo.toDsa = .ok (.dsa key) := by
  have inner := length_innerOctets_lt fits
  have outer : (Element.sequence ([key.p, key.q, key.g].map .unsigned)).encode.length < 2 ^ 64 :=
    length_parameters_lt fits _ rfl
  have domain : decodeSequence PrivateKeyInfo.dsaFields
      (Element.sequence ([key.p, key.q, key.g].map .unsigned)).encode =
      .ok (key.p, key.q, key.g) :=
    (PrivateKeyInfo.readsAll_dsaFields key.p key.q key.g).decodeSequence_eq_ok_iff.mpr
      ⟨trivial, Element.spelling_of_fits _
        ⟨trivial, trivial, trivial, trivial⟩ outer⟩
  have exponent : decodeOnly readUnsigned (Element.unsigned key.x).encode = .ok key.x :=
    decodeOnly_encode (readUnsigned_encode (length_content_lt inner))
  have given : (Element.sequence ([key.p, key.q, key.g].map .unsigned)).encode.head?.map
      Tag.ofOctet ≠ some .null := by
    simp only [Element.encode, head_encode (show Tag.sequence.Canonical by decide)]
    decide
  simp only [PrivateKeyInfo.toDsa, toInfo, PrivateKey.parameters, innerOctets,
    effectiveParameters_some given, domain, exponent]
  rfl

private theorem toEc_toInfo {curve : Curve} {scalar : Bytes} {publicKey : Option Bytes}
    (formed : (PrivateKey.ec curve scalar publicKey).WellFormed)
    (fits : (PrivateKey.ec curve scalar publicKey).encode.length < 2 ^ 64) :
    (PrivateKey.ec curve scalar publicKey).toInfo.toEc = .ok (.ec curve scalar publicKey) := by
  have inner : (EcPrivateKey.encode ⟨scalar, none, publicKey.map wholeOctets⟩).length < 2 ^ 64 := by
    have wrapped := length_innerOctets_lt fits
    simp only [Element.encode, innerOctets] at wrapped
    exact length_content_lt wrapped
  have outer : (Element.objectIdentifier curve.identifier).encode.length < 2 ^ 64 :=
    length_parameters_lt fits _ rfl
  have named : (CurveChoice.named curve.identifier).Sound := trivial
  have choice : decodeOnly CurveChoice.read (Element.objectIdentifier curve.identifier).encode =
      .ok (.named curve.identifier) :=
    (decodeOnly_eq_ok_iff CurveChoice.accepts_read).mpr
      ⟨named, Element.spelling_of_fits _ trivial outer⟩
  have sound : EcPrivateKey.Sound ⟨scalar, none, publicKey.map wholeOctets⟩ :=
    { parameters := by rintro _ ⟨⟩
      publicKey := valid_wholeOctets publicKey }
  have nested := EcPrivateKey.decode_encode sound inner
  have given : (Element.objectIdentifier curve.identifier).encode.head?.map Tag.ofOctet ≠
      some .null := by
    simp only [Element.encode, head_encode (show Tag.objectIdentifier.Canonical by decide)]
    decide
  -- The private part begins as a sequence, so it is not taken for a bare scalar.
  have sequence : (EcPrivateKey.encode ⟨scalar, none, publicKey.map wholeOctets⟩).head?.map
      Tag.ofOctet = some .sequence := by
    simp only [EcPrivateKey.encode, EcPrivateKey.element, Element.encode,
      head_encode (show Tag.sequence.Canonical by decide)]
  -- What the invariant says of the scalar is what the reader checks.
  have length : ¬ (scalar.length = 0 ∨ curve.scalarLength < scalar.length) := by
    have bounds : 0 < scalar.length ∧ scalar.length ≤ curve.scalarLength := formed
    omega
  have resolved := CurveChoice.resolve_named curve
  have key : (PrivateKey.ec curve scalar publicKey).toInfo.ecPrivateKey =
      .ok ⟨scalar, none, publicKey.map wholeOctets⟩ := by
    simp only [PrivateKeyInfo.ecPrivateKey, toInfo, innerOctets, outerPublicKey, sequence, if_true]
    refine Outcome.bind_eq_ok.mpr ⟨_, nested, ?_⟩
    simp only [Option.or_none, Outcome.pure_eq_ok]
  simp only [PrivateKeyInfo.toEc, toInfo, PrivateKey.parameters, effectiveParameters_some given]
  refine Outcome.bind_eq_ok.mpr ⟨_, choice, Outcome.bind_eq_ok.mpr ⟨_, resolved,
    Outcome.bind_eq_ok.mpr ⟨_, key, Outcome.bind_eq_ok.mpr ⟨curve, rfl, ?_⟩⟩⟩⟩
  exact Outcome.unless_eq_ok.mpr ⟨length, by rw [map_data_wholeOctets]; rfl⟩

private theorem toRaw_toInfo {kind : RawKind} {seed : Bytes} {publicKey : Option Bytes}
    (formed : (PrivateKey.raw kind seed publicKey).WellFormed)
    (fits : (PrivateKey.raw kind seed publicKey).encode.length < 2 ^ 64) :
    (PrivateKey.raw kind seed publicKey).toInfo.toRaw kind = .ok (.raw kind seed publicKey) := by
  have inner := length_innerOctets_lt fits
  have octets : decodeOnly readOctetString (Element.octetString seed).encode = .ok seed :=
    decodeOnly_encode (readOctetString_encode (length_content_lt inner))
  refine Outcome.bind_eq_ok.mpr ⟨seed, octets, Outcome.unless_eq_ok.mpr ⟨?_, ?_⟩⟩
  · exact Decidable.not_not.mpr formed
  · simp only [toInfo, outerPublicKey, map_data_wholeOctets, Outcome.pure_eq_ok]

/-- A key that can have been read is read back from the form for keys of any algorithm. -/
theorem toPrivateKey_toInfo {key : PrivateKey} (formed : key.WellFormed)
    (fits : key.encode.length < 2 ^ 64) : key.toInfo.toPrivateKey = .ok key := by
  have inner := length_innerOctets_lt fits
  simp only [Element.encode] at inner
  have short := length_content_lt inner
  -- The identifier picks the branch that wrote the key.
  have known : Algorithm.ofIdentifier? key.toInfo.algorithm.identifier = some key.algorithm :=
    Algorithm.ofIdentifier_identifier key.algorithm
  cases key with
  | rsa key =>
    simp only [PrivateKeyInfo.toPrivateKey, known, algorithm]
    exact Outcome.map_eq_ok.mpr ⟨key, RsaKey.decode_encode short, rfl⟩
  | rsaPss key octets =>
    have kept : (PrivateKey.rsaPss key octets).toInfo.algorithm.effectiveParameters = octets := by
      cases octets with
      | none => rfl
      | some octets => exact effectiveParameters_some (formed octets rfl).2
    simp only [PrivateKeyInfo.toPrivateKey, known, algorithm, kept]
    exact Outcome.map_eq_ok.mpr ⟨key, RsaKey.decode_encode short, rfl⟩
  | dsa key =>
    simp only [PrivateKeyInfo.toPrivateKey, known, algorithm]
    exact toDsa_toInfo fits
  | ec curve scalar publicKey =>
    simp only [PrivateKeyInfo.toPrivateKey, known, algorithm]
    exact toEc_toInfo formed fits
  | raw kind seed publicKey =>
    simp only [PrivateKeyInfo.toPrivateKey, known, algorithm]
    exact toRaw_toInfo formed fits

theorem decode_encode {key : PrivateKey} (formed : key.WellFormed)
    (fits : key.encode.length < 2 ^ 64) : PrivateKeyInfo.decode key.encode = .ok key.toInfo :=
  PrivateKeyInfo.decode_encode (sound_toInfo formed fits) fits

end PrivateKey

end KeyFile
