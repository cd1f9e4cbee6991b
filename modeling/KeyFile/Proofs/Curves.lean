import KeyFile.Proofs.Agreement
import KeyFile.Proofs.Encryption
import KeyFile.Proofs.ErrorKinds

/-!
# Curves of keys

The curve of an elliptic curve key may be stated by the key itself, by the parameters of its
algorithm, or by both, and each time by name, by NULL or by domain parameters. A key that is read
has the curve that all of these name. Everything else is refused, and the statement that is judged
first says how.
-/
namespace KeyFile

open Asn1 Document

/-! ## Names of curves -/

namespace Curve

variable {identifier : ObjectIdentifier} {curve : Curve}

theorem mem_all (curve : Curve) : curve ∈ all := by
  cases curve <;> decide

theorem ofIdentifier_eq_some_iff :
    ofIdentifier? identifier = some curve ↔ identifier = curve.identifier :=
  find_named_eq_some_iff ofIdentifier_identifier

theorem ofIdentifier_eq_none_iff :
    ofIdentifier? identifier = none ↔ identifier ∉ all.map Curve.identifier := by
  simp only [ofIdentifier?, List.find?_eq_none, decide_eq_true_eq, ObjectIdentifier.text_inj,
    List.mem_map, not_exists, not_and]

end Curve

/-! ## Choices -/

/-- Why no curve is settled on: `outer` is the curve of what the key is part of, and the choice is
the one within the key. -/
inductive CurveFault : (outer : Option Curve) → Option CurveChoice → Error → Prop where
  /-- A name outside of the table. -/
  | unknown {outer : Option Curve} {identifier : ObjectIdentifier}
      (outside : identifier ∉ Curve.all.map Curve.identifier) :
      CurveFault outer (some (.named identifier)) (.unsupported (.curve identifier))
  | implicit {outer : Option Curve} :
      CurveFault outer (some .implicit) (.malformedKey .implicitCurve)
  | explicit {outer : Option Curve} {octets : Bytes} :
      CurveFault outer (some (.explicit octets)) (.unsupported .explicitCurve)
  | different {outer inner : Curve} (differ : outer ≠ inner) :
      CurveFault (some outer) (some (.named inner.identifier))
        (.malformedKey (.curveMismatch outer inner))
  | missing : CurveFault none none (.malformedKey .ecWithoutCurve)

/-- What cannot be resolved on its own cannot be resolved within anything. -/
theorem CurveFault.within {choice : CurveChoice} {e : Error}
    (fault : CurveFault none (some choice) e) (outer : Option Curve) :
    CurveFault outer (some choice) e := by
  cases fault with
  | unknown outside => exact .unknown outside
  | implicit => exact .implicit
  | explicit => exact .explicit

namespace CurveChoice

variable {choice : CurveChoice} {curve : Curve} {e : Error}

theorem resolve_eq_ok_iff : choice.resolve = .ok curve ↔ choice = .named curve.identifier := by
  constructor
  · intro done
    unfold resolve at done
    split at done
    next identifier =>
      split at done
      next other found =>
        cases done
        rw [Curve.ofIdentifier_eq_some_iff.mp found]
      next => cases done
    next => cases done
    next => cases done
  · rintro rfl
    exact resolve_named curve

theorem resolve_eq_error_iff : choice.resolve = .error e ↔ CurveFault none (some choice) e := by
  constructor
  · intro fault
    unfold resolve at fault
    split at fault
    next identifier =>
      split at fault
      next => cases fault
      next unknown =>
        cases fault
        exact .unknown (Curve.ofIdentifier_eq_none_iff.mp unknown)
    next =>
      cases fault
      exact .implicit
    next =>
      cases fault
      exact .explicit
  · rintro ⟨⟩
    case unknown outside => simp only [resolve, Curve.ofIdentifier_eq_none_iff.mpr outside]
    case implicit => rfl
    case explicit => rfl

end CurveChoice

namespace EcPrivateKey

variable {key : EcPrivateKey} {outer : Option Curve} {curve : Curve} {e : Error}

/-- A choice within the key is resolved first, and then has to be the curve outside. -/
theorem curve_of_some {choice : CurveChoice} (given : key.parameters = some choice) :
    key.curve outer = choice.resolve >>= fun inner =>
      match outer with
      | none => .ok inner
      | some outer =>
        if outer = inner then .ok outer
        else .error (.malformedKey (.curveMismatch outer inner)) := by
  have resolved : key.parameters.mapM CurveChoice.resolve = some <$> choice.resolve := by
    rw [given]
    rfl
  rw [curve, resolved]
  cases choice.resolve with
  | error e => rfl
  | ok inner => cases outer <;> rfl

/-- The curve that is settled on is named somewhere, and nothing else is stated anywhere. -/
theorem curve_eq_ok_iff : key.curve outer = .ok curve ↔
    (outer = some curve ∨ key.parameters = some (.named curve.identifier)) ∧
      (∀ other ∈ outer, other = curve) ∧
        ∀ choice ∈ key.parameters, choice = .named curve.identifier := by
  constructor
  · intro done
    cases given : key.parameters with
    | none =>
      rw [EcPrivateKey.curve, given] at done
      cases outer <;> cases done
      exact ⟨.inl rfl, by rintro other ⟨⟩; rfl, by rintro choice ⟨⟩⟩
    | some choice =>
      rw [curve_of_some given] at done
      obtain ⟨inner, resolved, done⟩ := Outcome.bind_eq_ok.mp done
      -- A choice that is resolved names its curve, so only the outer curve is left to compare.
      rw [CurveChoice.resolve_eq_ok_iff.mp resolved]
      cases outer with
      | none =>
        cases done
        exact ⟨.inr rfl, by rintro other ⟨⟩, by rintro choice ⟨⟩; rfl⟩
      | some other =>
        simp only at done
        split at done
        next same =>
          cases done
          cases same
          exact ⟨.inl rfl, by rintro other ⟨⟩; rfl, by rintro choice ⟨⟩; rfl⟩
        next => cases done
  · rintro ⟨stated, same, inner⟩
    cases given : key.parameters with
    | none =>
      rcases stated with rfl | named
      · exact curve_of_unnamed given
      · cases given.symm.trans named
    | some choice =>
      cases inner choice given
      exact curve_of_named given same

theorem curve_eq_error_iff : key.curve outer = .error e ↔ CurveFault outer key.parameters e := by
  constructor
  -- The cases come in the order of the code: no choice, a choice that is refused, another curve.
  · intro fault
    cases given : key.parameters with
    | none =>
      rw [curve, given] at fault
      cases outer <;> cases fault
      exact .missing
    | some choice =>
      rw [curve_of_some given] at fault
      cases resolved : choice.resolve with
      | error cause =>
        rw [resolved] at fault
        cases fault
        exact (CurveChoice.resolve_eq_error_iff.mp resolved).within outer
      | ok inner =>
        rw [resolved, Outcome.bind_of_ok rfl] at fault
        rw [CurveChoice.resolve_eq_ok_iff.mp resolved]
        cases outer with
        | none => cases fault
        | some other =>
          simp only at fault
          split at fault
          next => cases fault
          next differ =>
            cases fault
            exact .different differ
  · intro fault
    cases given : key.parameters with
    | none =>
      rw [given] at fault
      cases fault
      rw [curve, given]
      rfl
    | some choice =>
      rw [given] at fault
      rw [curve_of_some given]
      cases fault with
      | unknown outside => rw [CurveChoice.resolve_eq_error_iff.mpr (.unknown outside)]; rfl
      | implicit => rfl
      | explicit => rfl
      | different differ =>
        rw [Outcome.bind_of_ok (CurveChoice.resolve_named _)]
        exact if_neg differ

/-- The curve is settled on before the scalar is looked at. -/
theorem toPrivateKey_of_fault (fault : CurveFault outer key.parameters e) :
    key.toPrivateKey outer = .error e := by
  rw [toPrivateKey, curve_eq_error_iff.mpr fault]
  rfl

end EcPrivateKey

/-! ## Keys of any algorithm -/

namespace PrivateKeyInfo

variable {info : PrivateKeyInfo} {choice : CurveChoice} {curve : Curve} {scalar : Bytes}
  {point : Option Bytes} {e : Error}

/-- The parameters of the algorithm are that choice. -/
def OuterChoice (info : PrivateKeyInfo) (choice : CurveChoice) : Prop :=
  ∃ octets ∈ info.algorithm.parameters,
    choice.Sound ∧ choice.element.Spelling .accepted octets

/-- The private part is that key, in an encoding of its own. -/
def Nested (info : PrivateKeyInfo) (key : EcPrivateKey) : Prop :=
  key.Sound ∧ key.element.Spelling .accepted info.privateKey

/-- The choices of a curve outside and within. -/
inductive Chooses (info : PrivateKeyInfo) (choice : CurveChoice) : Prop where
  | outer (stated : info.OuterChoice choice)
  | inner {key : EcPrivateKey} (nested : info.Nested key) (given : choice ∈ key.parameters)

/-- Why no curve is settled on. The choice outside is judged before anything within is read. -/
inductive CurveFault (info : PrivateKeyInfo) : Error → Prop where
  /-- Absent parameters and NULL state no curve, whatever is stated within. -/
  | without (nothing : info.algorithm.parameters = none ∨ info.OuterChoice .implicit) :
      CurveFault info (.malformedKey .ecWithoutParameters)
  | outer {choice : CurveChoice} {e : Error} (stated : info.OuterChoice choice)
      (other : choice ≠ .implicit) (fault : KeyFile.CurveFault none (some choice) e) :
      CurveFault info e
  | inner {curve : Curve} {key : EcPrivateKey} {e : Error}
      (stated : info.OuterChoice (.named curve.identifier)) (nested : info.Nested key)
      (fault : KeyFile.CurveFault (some curve) key.parameters e) : CurveFault info e

theorem outerChoice_iff : info.OuterChoice choice ↔
    ∃ octets ∈ info.algorithm.parameters, decodeOnly CurveChoice.read octets = .ok choice := by
  simp only [OuterChoice, decodeOnly_eq_ok_iff CurveChoice.accepts_read]

theorem toEc_of_without (nothing : info.algorithm.parameters = none ∨ info.OuterChoice .implicit) :
    info.toEc = .error (.malformedKey .ecWithoutParameters) := by
  have absent : info.algorithm.effectiveParameters = none := by
    rcases nothing with absent | ⟨octets, given, -, spelled⟩
    · rw [AlgorithmIdentifier.effectiveParameters, absent]
      rfl
    · have head : octets.head?.map Tag.ofOctet = some .null := Framed.head spelled
      rw [AlgorithmIdentifier.effectiveParameters, given, Option.filter_some, head]
      rfl
  rw [toEc, absent]

theorem toEc_of_outer (stated : info.OuterChoice choice) (other : choice ≠ .implicit) :
    info.toEc = choice.resolve >>= fun curve => info.ecPrivateKey >>= fun key =>
      key.toPrivateKey (some curve) := by
  obtain ⟨octets, given, sound, spelled⟩ := stated
  have head : octets.head?.map Tag.ofOctet ≠ some .null := by
    cases choice with
    | named identifier =>
      have first : octets.head?.map Tag.ofOctet = some .objectIdentifier := Framed.head spelled
      rw [first]
      decide
    | implicit => exact absurd rfl other
    | explicit whole =>
      obtain rfl : octets = whole := spelled
      rw [sound.2]
      decide
  have present : info.algorithm.effectiveParameters = some octets :=
    AlgorithmIdentifier.effectiveParameters_eq_some_iff.mpr ⟨given, head⟩
  have read : decodeOnly CurveChoice.read octets = .ok choice :=
    (decodeOnly_eq_ok_iff CurveChoice.accepts_read).mpr ⟨sound, spelled⟩
  rw [toEc, present]
  exact Outcome.bind_of_ok read

/-- A nested key is not taken for a bare scalar. -/
theorem ecPrivateKey_of_nested {key : EcPrivateKey} (nested : info.Nested key) :
    info.ecPrivateKey = .ok { key with publicKey := key.publicKey.or info.publicKey } := by
  have decoded := EcPrivateKey.decode_eq_ok_iff.mpr nested
  have head : info.privateKey.head?.map Tag.ofOctet = some .sequence := Framed.head nested.2
  rw [ecPrivateKey, if_pos head, Outcome.bind_of_ok decoded]
  rfl

theorem toPrivateKey_of_ec (ec : info.algorithm.identifier = Algorithm.ec.identifier) :
    info.toPrivateKey = info.toEc := by
  rw [toPrivateKey, ec, Algorithm.ofIdentifier_identifier]

/-- A fault is reported whatever else the key holds. -/
theorem CurveFault.toEc (fault : info.CurveFault e) : info.toEc = .error e := by
  cases fault with
  | without nothing => exact toEc_of_without nothing
  | outer stated other fault =>
    rw [toEc_of_outer stated other, CurveChoice.resolve_eq_error_iff.mpr fault]
    rfl
  | inner stated nested fault =>
    rw [toEc_of_outer stated nofun, Outcome.bind_of_ok (CurveChoice.resolve_named _),
      Outcome.bind_of_ok (ecPrivateKey_of_nested nested)]
    exact EcPrivateKey.toPrivateKey_of_fault fault

theorem chooses_of_toEc (done : info.toEc = .ok (.ec curve scalar point)) :
    info.Chooses (.named curve.identifier) ∧
      ∀ choice, info.Chooses choice → choice = .named curve.identifier := by
  unfold toEc at done
  split at done
  · cases done
  next octets given =>
    obtain ⟨choice, read, done⟩ := Outcome.bind_eq_ok.mp done
    obtain ⟨outer, resolved, done⟩ := Outcome.bind_eq_ok.mp done
    obtain ⟨key, found, done⟩ := Outcome.bind_eq_ok.mp done
    obtain ⟨settled, chosen, same, -, -⟩ := EcPrivateKey.toPrivateKey_ok done
    cases same
    obtain ⟨-, outside, within⟩ := EcPrivateKey.curve_eq_ok_iff.mp chosen
    have present := (AlgorithmIdentifier.effectiveParameters_eq_some_iff.mp given).1
    -- The outer choice is resolved, so it names the curve that the key has been given.
    cases CurveChoice.resolve_eq_ok_iff.mp resolved
    cases outside outer rfl
    refine ⟨.outer (outerChoice_iff.mpr ⟨octets, present, read⟩), ?_⟩
    rintro other (⟨stated⟩ | ⟨nested, stated⟩)
    · obtain ⟨octets', present', read'⟩ := outerChoice_iff.mp stated
      cases present.symm.trans present'
      cases read.symm.trans read'
      rfl
    · rw [ecPrivateKey_of_nested nested] at found
      cases found
      exact within other stated

end PrivateKeyInfo

/-! ## Stored keys -/

/-- The choices of a curve in an encoding, which may have to be decrypted. -/
inductive Container.Chooses (password : Option Bytes) : Container → CurveChoice → Prop where
  | own {key : EcPrivateKey} {choice : CurveChoice} (given : choice ∈ key.parameters) :
      Chooses password (.ec key) choice
  | info {info : PrivateKeyInfo} {choice : CurveChoice} (chosen : info.Chooses choice) :
      Chooses password (.info info) choice
  | decrypted {encrypted : EncryptedKeyInfo} {secret : Bytes} {info : PrivateKeyInfo}
      {choice : CurveChoice} (known : password = some secret)
      (opened : encrypted.decrypt secret = .ok info) (chosen : info.Chooses choice) :
      Chooses password (.encrypted encrypted) choice

theorem Container.chooses_of_toPrivateKey {container : Container} {password : Option Bytes}
    {curve : Curve} {scalar : Bytes} {point : Option Bytes}
    (done : container.toPrivateKey password = .ok (.ec curve scalar point)) :
    container.Chooses password (.named curve.identifier) ∧
      ∀ choice, container.Chooses password choice → choice = .named curve.identifier := by
  cases container with
  | rsa key => cases done
  | ec key =>
    obtain ⟨settled, chosen, same, -, -⟩ := EcPrivateKey.toPrivateKey_ok done
    cases same
    obtain ⟨stated, -, within⟩ := EcPrivateKey.curve_eq_ok_iff.mp chosen
    refine ⟨.own (stated.resolve_left nofun), ?_⟩
    intro choice stated
    cases stated with
    | own given => exact within choice given
  | info info =>
    obtain ⟨chosen, only⟩ :=
      PrivateKeyInfo.chooses_of_toEc (PrivateKeyInfo.toEc_of_toPrivateKey done)
    refine ⟨.info chosen, ?_⟩
    intro choice stated
    cases stated with
    | info chosen => exact only choice chosen
  | encrypted encrypted =>
    obtain ⟨secret, info, known, opened, given⟩ := EncryptedKeyInfo.toPrivateKey_ok done
    obtain ⟨chosen, only⟩ :=
      PrivateKeyInfo.chooses_of_toEc (PrivateKeyInfo.toEc_of_toPrivateKey given)
    refine ⟨.decrypted known opened chosen, ?_⟩
    intro choice stated
    cases stated with
    | decrypted known' opened' chosen =>
      -- There is one password and one key within, so the choice is made in that key.
      cases known.symm.trans known'
      cases opened.symm.trans opened'
      exact only choice chosen

namespace Document

/-- What no curve is settled on for: a key of its own, a key of any algorithm, or one that is
decrypted. -/
inductive CurveFault (password : Option Bytes) (block : Pem.Block) : Error → Prop where
  | own {key : EcPrivateKey} {e : Error} (label : block.label = .ecPrivateKey) (sound : key.Sound)
      (spelled : key.element.Spelling .accepted block.payload)
      (fault : KeyFile.CurveFault none key.parameters e) : CurveFault password block e
  | info {info : PrivateKeyInfo} {e : Error} (label : block.label = .privateKey)
      (sound : info.algorithm.Sound) (spelled : info.element.Spelling .accepted block.payload)
      (ec : info.algorithm.identifier = Algorithm.ec.identifier) (fault : info.CurveFault e) :
      CurveFault password block e
  | decrypted {encrypted : EncryptedKeyInfo} {secret : Bytes} {info : PrivateKeyInfo} {e : Error}
      (label : block.label = .encryptedPrivateKey) (sound : encrypted.algorithm.Sound)
      (spelled : encrypted.element.Spelling .accepted block.payload)
      (known : password = some secret) (opened : encrypted.decrypt secret = .ok info)
      (ec : info.algorithm.identifier = Algorithm.ec.identifier) (fault : info.CurveFault e) :
      CurveFault password block e

theorem CurveFault.readBlock {password : Option Bytes} {block : Pem.Block} {e : Error}
    (fault : CurveFault password block e) (current : block.isLegacyEncrypted = false) :
    readBlock password block = .error e := by
  cases fault with
  | own label sound spelled fault =>
    have stored := Container.Stored.ec label (EcPrivateKey.decode_eq_ok_iff.mpr ⟨sound, spelled⟩)
    rw [readBlock_of_ok (Container.ofBlock_eq_ok.mpr ⟨current, stored⟩)]
    exact EcPrivateKey.toPrivateKey_of_fault fault
  | info label sound spelled ec fault =>
    have stored := Container.Stored.info label
      (PrivateKeyInfo.decode_eq_ok_iff.mpr ⟨sound, spelled⟩)
    rw [readBlock_of_ok (Container.ofBlock_eq_ok.mpr ⟨current, stored⟩)]
    exact (PrivateKeyInfo.toPrivateKey_of_ec ec).trans fault.toEc
  | decrypted label sound spelled known opened ec fault =>
    have stored := Container.Stored.encrypted label
      (EncryptedKeyInfo.decode_eq_ok_iff.mpr ⟨sound, spelled⟩)
    rw [readBlock_of_ok (Container.ofBlock_eq_ok.mpr ⟨current, stored⟩), known]
    exact (toPrivateKey_of_decrypt opened).trans
      ((PrivateKeyInfo.toPrivateKey_of_ec ec).trans fault.toEc)

/-- A key on a curve has one of the known curves, and every choice in its encoding, of which there
is one, is the name of this curve. Where the choices fail to settle on a curve the key is refused
for that, whatever scalar and public key there are. -/
theorem curves_resolved (password : Option Bytes) (block : Pem.Block) :
    (∀ curve scalar point, readBlock password block = .ok (.ec curve scalar point) →
      curve ∈ Curve.all ∧ ∃ container, Container.ofBlock block = .ok container ∧
        container.Chooses password (.named curve.identifier) ∧
        ∀ choice, container.Chooses password choice → choice = .named curve.identifier) ∧
    ∀ e, block.isLegacyEncrypted = false → CurveFault password block e →
      readBlock password block = .error e := by
  refine ⟨fun curve scalar point done => ⟨curve.mem_all, ?_⟩, fun e current fault =>
    fault.readBlock current⟩
  obtain ⟨container, opened, given⟩ := Outcome.bind_eq_ok.mp done
  exact ⟨container, opened, Container.chooses_of_toPrivateKey given⟩

/-- A key on a twisted curve, which is none of those that are known. -/
def twisted : ObjectIdentifier := { arcs := [1, 3, 36, 3, 3, 2, 8, 1, 1, 8] }
def twistedKey : EcPrivateKey := ⟨[7], some (.named twisted), none⟩

/-- The key within one that names a known curve, under a password. -/
def sealedTwisted : EncryptedKeyInfo :=
  ⟨lockedSeven.algorithm, lockedScheme.encrypt [] twistedKey.wrapped.encode⟩

theorem decrypt_sealedTwisted : sealedTwisted.decrypt [] = .ok twistedKey.wrapped := by
  have accepted : sealedTwisted.scheme = .ok lockedScheme :=
    Outcome.toOption_eq_some.mp (by decide +kernel)
  have opened : lockedScheme.decrypt [] sealedTwisted.data = .ok twistedKey.wrapped.encode :=
    PasswordScheme.decrypt_encrypt rfl [] _
  have decoded : PrivateKeyInfo.decode twistedKey.wrapped.encode = .ok twistedKey.wrapped :=
    PrivateKeyInfo.decode_encode (by rintro octets ⟨⟩; rfl) (by decide +kernel)
  rw [EncryptedKeyInfo.decrypt, Outcome.bind_of_ok accepted, Outcome.bind_of_ok opened, decoded]
  rfl

theorem length_sealedTwisted : sealedTwisted.encode.length < 2 ^ 64 := by
  have data : sealedTwisted.data.length = 64 :=
    (lockedScheme.cipher.length_encrypt _ _ rfl).trans (by decide +kernel)
  have algorithm : sealedTwisted.algorithm.element.encode.length = 66 := by decide +kernel
  have last := length_element_le .octetString sealedTwisted.data (by omega)
  have content : (encodeAll [sealedTwisted.algorithm.element,
      .octetString sealedTwisted.data]).length ≤ 140 := by
    simp only [encodeAll, Element.encode, List.length_append, List.length_nil]
    omega
  have whole := length_element_le .sequence (encodeAll [sealedTwisted.algorithm.element,
    .octetString sealedTwisted.data]) (by omega)
  exact Nat.lt_of_le_of_lt whole (by omega)

theorem twisted_refused :
    (readBlock none ⟨.privateKey, [], PrivateKey.bareScalarOctets⟩ =
        .ok (.ec .secp256r1 [7] (some [4, 9])) ∧
      ∃ container,
        Container.ofBlock ⟨.privateKey, [], PrivateKey.bareScalarOctets⟩ = .ok container ∧
        container.Chooses none (.named Curve.secp256r1.identifier)) ∧
    (CurveFault none ⟨.ecPrivateKey, [], twistedKey.encode⟩ (.unsupported (.curve twisted)) ∧
      readBlock none ⟨.ecPrivateKey, [], twistedKey.encode⟩ =
        .error (.unsupported (.curve twisted))) ∧
    (CurveFault (some []) ⟨.encryptedPrivateKey, [], sealedTwisted.encode⟩
        (.unsupported (.curve twisted)) ∧
      readBlock (some []) ⟨.encryptedPrivateKey, [], sealedTwisted.encode⟩ =
        .error (.unsupported (.curve twisted))) := by
  have outside : twisted ∉ Curve.all.map Curve.identifier := by decide
  have sound : twistedKey.Sound := ⟨by rintro choice ⟨⟩; trivial, nofun⟩
  have spelled := twistedKey.element.spelling_of_fits sound.element (by decide +kernel)
  have own : CurveFault none ⟨.ecPrivateKey, [], twistedKey.encode⟩
      (.unsupported (.curve twisted)) := .own rfl sound spelled (.unknown outside)
  have known : (Element.objectIdentifier Curve.secp256r1.identifier).Spelling .accepted
      (Element.objectIdentifier Curve.secp256r1.identifier).encode :=
    Element.spelling_of_fits _ trivial (by decide +kernel)
  have stated : twistedKey.wrapped.OuterChoice (.named Curve.secp256r1.identifier) :=
    ⟨_, rfl, trivial, known⟩
  have within : twistedKey.wrapped.CurveFault (.unsupported (.curve twisted)) :=
    .inner stated ⟨sound, spelled⟩ (.unknown outside)
  have decrypted : CurveFault (some []) ⟨.encryptedPrivateKey, [], sealedTwisted.encode⟩
      (.unsupported (.curve twisted)) := by
    have parameters : sealedTwisted.algorithm.Sound := by rintro octets ⟨⟩; rfl
    refine .decrypted rfl parameters ?_ rfl decrypt_sealedTwisted rfl within
    exact sealedTwisted.element.spelling_of_fits ⟨parameters.element, trivial, trivial⟩
      length_sealedTwisted
  have given : readBlock none ⟨.privateKey, [], PrivateKey.bareScalarOctets⟩ =
      .ok (.ec .secp256r1 [7] (some [4, 9])) := rfl
  obtain ⟨-, container, opened, chosen, -⟩ := (curves_resolved none _).1 _ _ _ given
  exact ⟨⟨given, container, opened, chosen⟩,
    ⟨own, (curves_resolved none _).2 _ rfl own⟩,
    ⟨decrypted, (curves_resolved (some []) _).2 _ rfl decrypted⟩⟩

end Document

end KeyFile
