import KeyFile.Encoding.EncryptedKeyInfo
import KeyFile.Proofs.Encoding.Fields

/-!
# Structures and their octets

Each of the five structures is decoded from exactly the octets that spell its tree of elements.
Little is asked of the structure itself: the parts that are kept as octets have to be what can stand
in their places. So a structure is read back from the octets that are written for it, as long as
their number fits in a length field.
-/
namespace KeyFile

open Asn1

theorem encodeAll_append (left right : List Element) :
    encodeAll (left ++ right) = encodeAll left ++ encodeAll right := by
  induction left with
  | nil => rfl
  | cons first rest ih => simp only [List.cons_append, encodeAll, ih, List.append_assoc]

theorem encodeAll_length_lt {elements : List Element}
    (fits : (Element.sequence elements).encode.length < 2 ^ 64) :
    (encodeAll elements).length < 2 ^ 64 :=
  length_content_lt fits

/-- What stands in a sequence fits if the sequence does. -/
theorem encode_length_lt {element : Element} {elements : List Element}
    (member : element ∈ elements) (fits : (Element.sequence elements).encode.length < 2 ^ 64) :
    element.encode.length < 2 ^ 64 :=
  Nat.lt_of_le_of_lt (length_encode_le_of_mem member) (encodeAll_length_lt fits)

/-- The first tag of a written element. -/
theorem head_element {tag : Tag} (canonical : tag.Canonical) (content rest : Bytes) :
    (element tag content ++ rest).head?.map Tag.ofOctet = some tag := by
  simp only [element, List.cons_append, List.head?_cons, Option.map_some, canonical.1]

/-! ## Algorithm identifiers -/

namespace AlgorithmIdentifier

/-- The parameters, where there are any, are one whole element. -/
def Sound (algorithm : AlgorithmIdentifier) : Prop :=
  ∀ octets ∈ algorithm.parameters, Complete octets

theorem sound_some {identifier : ObjectIdentifier} {octets : Bytes} (complete : Complete octets) :
    Sound ⟨identifier, some octets⟩ := by
  rintro _ ⟨⟩
  exact complete

theorem effectiveParameters_eq_some_iff {algorithm : AlgorithmIdentifier} {octets : Bytes} :
    algorithm.effectiveParameters = some octets ↔
      algorithm.parameters = some octets ∧ octets.head?.map Tag.ofOctet ≠ some .null := by
  rw [effectiveParameters, Option.filter_eq_some_iff, decide_eq_true_eq]

/-- Parameters that are an element count, unless it is NULL. -/
theorem effectiveParameters_of_framed {algorithm : AlgorithmIdentifier} {octets : Bytes}
    {forms : Forms} {tag : Tag} {content : Bytes → Prop} (given : octets ∈ algorithm.parameters)
    (framed : Framed forms tag content octets) (other : tag ≠ .null) :
    algorithm.effectiveParameters = some octets := by
  refine effectiveParameters_eq_some_iff.mpr ⟨given, ?_⟩
  rwa [framed.head, ne_eq, Option.some.injEq]

theorem readsAll_fields (algorithm : AlgorithmIdentifier) :
    ReadsAll fields algorithm algorithm.Sound
      (.objectIdentifier algorithm.identifier ::
        algorithm.parameters.toList.map Element.encoded) := by
  intro content
  obtain ⟨identifier, parameters⟩ := algorithm
  simp only [fields, accepts_readObjectIdentifier.run_bind_eq_ok]
  constructor
  · rintro ⟨left, found, front, back, first, done, rfl⟩
    simp only [Read.run_bind_eq_ok, Read.run_peekTag_eq_ok] at done
    obtain ⟨tag, _, ⟨announced, rfl⟩, done⟩ := done
    cases tag with
    | none =>
      simp only [Read.run_pure_eq_ok, AlgorithmIdentifier.mk.injEq] at done
      obtain ⟨⟨rfl, rfl⟩, rfl⟩ := done
      have ended : back = [] := List.head?_eq_none_iff.mp (Option.map_eq_none_iff.mp announced.symm)
      exact ⟨nofun, front, back, first, ended, rfl⟩
    | some tag =>
      simp only [accepts_readElement.run_bind_eq_ok, Read.run_bind_eq_ok, Read.run_finish_eq_ok,
        Read.run_pure_eq_ok, AlgorithmIdentifier.mk.injEq] at done
      obtain ⟨octets, _, _, ⟨rfl, framed⟩, ⟨_, _, ⟨rfl, rfl⟩, ⟨rfl, rfl⟩, rfl⟩, rfl⟩ := done
      refine ⟨?_, front, _, first, ⟨octets, [], rfl, rfl, rfl⟩, rfl⟩
      rintro _ ⟨⟩
      exact complete_iff_framed.mpr framed
  · rintro ⟨sound, front, back, first, others, rfl⟩
    refine ⟨[], identifier, front, back, first, ?_, rfl⟩
    cases parameters with
    | none =>
      cases others
      rfl
    | some octets =>
      obtain ⟨octets, _, rfl, rfl, rfl⟩ := others
      have complete := sound octets rfl
      -- Something comes next, so the parameters are read as one element.
      obtain ⟨lead, others, rfl⟩ := List.exists_cons_of_ne_nil complete.ne_nil
      rw [List.append_nil, Read.run_peekTag_bind]
      simp only [List.head?_cons, Option.map_some]
      rw [Read.run_bind_of_ok complete]
      rfl

theorem accepts_read : Accepts read fun algorithm octets =>
    algorithm.Sound ∧ algorithm.element.Spelling .accepted octets := fun algorithm _ _ =>
  algorithm.readsAll_fields.run_inside

theorem decode_eq_ok_iff {octets : Bytes} {algorithm : AlgorithmIdentifier} :
    decode octets = .ok algorithm ↔
      algorithm.Sound ∧ algorithm.element.Spelling .accepted octets :=
  decodeOnly_eq_ok_iff accepts_read

/-- The tree of an identifier is sound if the identifier is. -/
theorem Sound.element {algorithm : AlgorithmIdentifier} (sound : algorithm.Sound) :
    algorithm.element.Sound := by
  obtain ⟨identifier, parameters⟩ := algorithm
  cases parameters with
  | none => exact ⟨trivial, trivial⟩
  | some octets => exact ⟨trivial, sound octets rfl, trivial⟩

theorem decode_encode {algorithm : AlgorithmIdentifier} (sound : algorithm.Sound)
    (fits : algorithm.encode.length < 2 ^ 64) : decode algorithm.encode = .ok algorithm :=
  decode_eq_ok_iff.mpr
    ⟨sound, algorithm.element.spelling_of_fits sound.element fits⟩

end AlgorithmIdentifier

/-! ## Versions -/

theorem versionOf_eq_ok_iff {Version : Type} {zero one version : Version} {refused : Error}
    {number : UInt64} :
    versionOf zero one refused number = .ok version ↔
      number = 0 ∧ zero = version ∨ number = 1 ∧ one = version := by
  unfold versionOf
  split
  next first => simp [first]
  next other =>
    split
    next second => simp [second]
    next more => simp [other, more]

/-! ## RSA keys -/

/-- Only the version zero is supported. -/
theorem RsaVersion.ofWord_eq_ok_iff {number : UInt64} {version : RsaVersion} :
    RsaVersion.ofWord number = .ok version ∧ version ≠ .multiPrime ↔
      number = 0 ∧ version = .twoPrime := by
  rw [RsaVersion.ofWord, versionOf_eq_ok_iff]
  cases version <;> simp

namespace RsaKey

theorem readsAll_fields (key : RsaKey) : ReadsAll fields key True
    (.word 0 :: [key.modulus, key.publicExponent, key.privateExponent, key.prime1, key.prime2,
      key.exponent1, key.exponent2, key.coefficient].map Element.unsigned) := by
  have number := accepts_readUnsigned.lift
  -- The combinators follow the read line by line; each asks which field of the key it has read.
  refine .congr (.bind accepts_readWord.lift ?version fun _ => .bind_ofExcept fun _ => .check <|
    .bind number (by exact congrArg modulus) fun _ =>
    .bind number (by exact congrArg publicExponent) fun _ =>
    .bind number (by exact congrArg privateExponent) fun _ =>
    .bind number (by exact congrArg prime1) fun _ =>
    .bind number (by exact congrArg prime2) fun _ =>
    .bind number (by exact congrArg exponent1) fun _ =>
    .bind number (by exact congrArg exponent2) fun _ =>
    .bind number (by exact congrArg coefficient) fun _ => .finish) ?sound
  case version =>
    rintro number ⟨version, known, supported, -⟩
    exact (RsaVersion.ofWord_eq_ok_iff.mp ⟨known, supported⟩).1
  case sound => exact iff_true_intro ⟨.twoPrime, rfl, nofun, rfl⟩

theorem decode_eq_ok_iff {octets : Bytes} {key : RsaKey} :
    decode octets = .ok key ↔ key.element.Spelling .accepted octets := by
  rw [decode, key.readsAll_fields.decodeSequence_eq_ok_iff, true_and]
  rfl

theorem decode_encode {key : RsaKey} (fits : key.encode.length < 2 ^ 64) :
    decode key.encode = .ok key := by
  have sound : key.element.Sound := by
    simp only [element, List.map_cons, List.map_nil, Element.Sound, AllSound, and_self]
  exact decode_eq_ok_iff.mpr (key.element.spelling_of_fits sound fits)

end RsaKey

/-! ## Elliptic curve keys -/

namespace CurveChoice

/-- Domain parameters that are kept are one whole sequence. -/
def Sound : CurveChoice → Prop
  | .explicit octets => Complete octets ∧ octets.head?.map Tag.ofOctet = some .sequence
  | .named _ | .implicit => True

theorem Sound.element {choice : CurveChoice} (sound : choice.Sound) : choice.element.Sound := by
  cases choice with
  | named _ => trivial
  | implicit => trivial
  | explicit octets => exact sound.1

theorem accepts_read : Accepts read fun choice octets =>
    choice.Sound ∧ choice.element.Spelling .accepted octets := by
  intro choice input rest
  constructor
  · intro done
    simp only [read, Read.run_bind_eq_ok, Read.run_peekTag_eq_ok] at done
    obtain ⟨tag, _, ⟨announced, rfl⟩, done⟩ := done
    split at done
    · simp only [accepts_readObjectIdentifier.run_bind_eq_ok, Read.run_pure_eq_ok] at done
      obtain ⟨identifier, octets, _, spelled, ⟨rfl, rfl⟩, rfl⟩ := done
      exact ⟨octets, ⟨trivial, spelled⟩, rfl⟩
    · simp only [accepts_readNull.run_bind_eq_ok, Read.run_pure_eq_ok] at done
      obtain ⟨_, octets, _, spelled, ⟨rfl, rfl⟩, rfl⟩ := done
      exact ⟨octets, ⟨trivial, spelled⟩, rfl⟩
    · simp only [accepts_readElement.run_bind_eq_ok, Read.run_pure_eq_ok] at done
      obtain ⟨_, octets, _, ⟨rfl, framed⟩, ⟨rfl, rfl⟩, rfl⟩ := done
      have complete := complete_iff_framed.mpr framed
      refine ⟨_, ⟨⟨complete, ?_⟩, rfl⟩, rfl⟩
      obtain ⟨tag, content, framed⟩ := framed
      rw [framed.head_append] at announced
      rw [framed.head, announced]
    · cases done
    · cases done
  · rintro ⟨octets, ⟨sound, spelled⟩, rfl⟩
    rw [read, Read.run_peekTag_bind]
    cases choice with
    | named identifier =>
      rw [Framed.head_append spelled]
      exact (accepts_readObjectIdentifier.reads spelled).run_bind _ rest
    | implicit =>
      rw [Framed.head_append spelled]
      exact (accepts_readNull.reads (a := ()) spelled).run_bind _ rest
    | explicit whole =>
      obtain rfl : octets = whole := spelled
      obtain ⟨complete, first⟩ := sound
      obtain ⟨tag, content, framed⟩ := complete_iff_framed.mp complete
      rw [framed.head] at first
      rw [framed.head_append, first]
      exact (complete_iff.mp complete).run_bind _ rest

end CurveChoice

namespace EcPrivateKey

/-- What a written key holds has to be what its fields can hold. -/
structure Sound (key : EcPrivateKey) : Prop where
  parameters : ∀ choice ∈ key.parameters, choice.Sound
  publicKey : ∀ bits ∈ key.publicKey, bits.Valid

private theorem run_readWrapped_present {α : Type} {slot : UInt8} (read : Read Asn1.Error α)
    {input : Bytes} (present : input.head?.map Tag.ofOctet = some (.explicit slot)) :
    (readWrapped slot read).run input = (some <$> (readExplicit slot >>= fun content =>
      Read.inside content read.only)).run input := by
  rw [readWrapped, readOptionalExplicit, Read.run_bind, Read.run_peekTag_bind, if_pos present,
    Read.run_bind, Read.run_map, Read.run_bind]
  rcases (readExplicit slot).run input with ⟨outcome, rest⟩
  cases outcome <;> rfl

/-- What stands in a wrapper is read to its end. -/
theorem acceptsOptional_readWrapped {α : Type} (slot : UInt8) {read : Read Asn1.Error α}
    {kept : α → Prop} {written : α → Element}
    (accepts : Accepts read fun a octets => kept a ∧ (written a).Spelling .accepted octets) :
    AcceptsOptional (readWrapped slot read) (.explicit slot) fun a octets =>
      kept a ∧ (Element.explicit slot [written a]).Spelling .accepted octets := by
  refine .of_peek (fun _ _ _ => (ReadsAll.only accepts).run_inside)
    (fun spelled => Framed.head spelled.2) (run_readWrapped_present read) fun absent => ?_
  rw [readWrapped, readOptionalExplicit, Read.run_bind, Read.run_peekTag_bind, if_neg absent]
  rfl

theorem readsAll_fields (key : EcPrivateKey) : ReadsAll fields key key.Sound
    ([.word 1, .octetString key.scalar] ++
      (key.parameters.toList.map (fun choice => .explicit 0 [choice.element]) ++
        (key.publicKey.toList.map (fun bits => .explicit 1 [.bitString bits]) ++ []))) := by
  have choice := (acceptsOptional_readWrapped 0 CurveChoice.accepts_read).lift
  have bits := (acceptsOptional_readWrapped 1 accepts_readBitString).lift
  refine .congr (.bind accepts_readWord.lift ?version fun _ => .check <|
    .bind accepts_readOctetString.lift ?scalar fun _ =>
    .bind_optional choice (head_last_ne (fun _ => rfl) (by decide)) ?parameters fun _ =>
    .bind_optional bits ?last (by exact congrArg publicKey) fun _ => .finish) ?sound
  case version => exact fun given => Decidable.not_not.mp given.1
  case scalar => exact fun given => congrArg scalar given.2.2
  case parameters => exact fun given => congrArg parameters given.2
  -- Nothing comes after the public key that could be taken for it.
  case last =>
    rintro _ rfl
    nofun
  case sound =>
    constructor
    · rintro ⟨-, choice, bits, -⟩
      exact ⟨choice, bits⟩
    · rintro ⟨choice, bits⟩
      exact ⟨fun other => other rfl, choice, bits, rfl⟩

theorem decode_eq_ok_iff {octets : Bytes} {key : EcPrivateKey} :
    decode octets = .ok key ↔ key.Sound ∧ key.element.Spelling .accepted octets := by
  rw [decode, key.readsAll_fields.decodeSequence_eq_ok_iff, element, List.append_assoc,
    List.append_nil]

theorem Sound.element {key : EcPrivateKey} (sound : key.Sound) : key.element.Sound := by
  refine AllSound.append (AllSound.append ⟨trivial, trivial, trivial⟩ ?_) ?_
  · exact .toList fun choice member =>
      ⟨show (0 : UInt8) < 31 by decide, (sound.parameters choice member).element, trivial⟩
  · exact .toList fun bits member =>
      ⟨show (1 : UInt8) < 31 by decide, sound.publicKey bits member, trivial⟩

theorem decode_encode {key : EcPrivateKey} (sound : key.Sound)
    (fits : key.encode.length < 2 ^ 64) : decode key.encode = .ok key :=
  decode_eq_ok_iff.mpr
    ⟨sound, key.element.spelling_of_fits sound.element fits⟩

/-- Of the public key of a written key only the unused bits are judged. -/
def bitsJudged (publicKey : Option BitString) : Except Error Unit :=
  match publicKey with
  | none => .ok ()
  | some bits =>
    if bits.Valid then .ok ()
    else .error (.malformedDer (.invalidBitString (.unusedBits bits.unusedBits)))

theorem bitsJudged_valid {publicKey : Option BitString} (valid : ∀ bits ∈ publicKey, bits.Valid) :
    bitsJudged publicKey = .ok () := by
  cases publicKey with
  | none => rfl
  | some bits => exact if_pos (valid bits rfl)

private theorem run_readBitString_invalid {bits : BitString} (invalid : ¬ bits.Valid)
    (fits : (Element.bitString bits).encode.length < 2 ^ 64) :
    readBitString.run (Element.bitString bits).encode =
      (.error (.invalidBitString (.unusedBits bits.unusedBits)), []) := by
  have content := (readContent_element (length_content_lt fits)
    (show Tag.bitString.Canonical by decide)).alone
  rw [Element.encode, readBitString, Read.run_bind_of_ok content, ofValidContent_of_invalid invalid]
  rfl

/-- The wrapper opens; the fault is in what it holds. -/
private theorem run_readWrapped_invalid {bits : BitString} (invalid : ¬ bits.Valid)
    (fits : (Element.explicit 1 [.bitString bits]).encode.length < 2 ^ 64) :
    (readWrapped 1 readBitString).run (Element.explicit 1 [.bitString bits]).encode =
      (.error (.invalidBitString (.unusedBits bits.unusedBits)), []) := by
  have first : (Element.explicit 1 [.bitString bits]).encode.head?.map Tag.ofOctet =
      some (.explicit 1) := rfl
  have opened := (readExplicit_encode (show (1 : UInt8) < 31 by decide) fits).alone
  have stopped := run_readBitString_invalid invalid
    (by simpa [encodeAll] using length_content_lt fits)
  rw [run_readWrapped_present readBitString first, Read.run_map, Read.run_bind_of_ok opened]
  simp only [Read.inside, Read.only, Read.run_bind, encodeAll, List.append_nil, stopped]

/-- The parameters of a written key are read, and the wrapper of the public key is left. -/
private theorem run_parameters {choice : Option CurveChoice} (bits : BitString)
    (sound : ∀ given ∈ choice, given.Sound)
    (fits : (encodeAll (choice.toList.map fun given => .explicit 0 [given.element])).length <
      2 ^ 64) :
    (readWrapped 0 CurveChoice.read).run
        (encodeAll (choice.toList.map fun given => .explicit 0 [given.element]) ++
          (Element.explicit 1 [.bitString bits]).encode) =
      (.ok choice, (Element.explicit 1 [.bitString bits]).encode) := by
  have trees : AllSound (choice.toList.map fun given => .explicit 0 [given.element]) :=
    .toList fun given member =>
      ⟨show (0 : UInt8) < 31 by decide, (sound given member).element, trivial⟩
  have other : (Element.explicit 1 [.bitString bits]).encode.head?.map Tag.ofOctet ≠
      some (.explicit 0) := show some (Tag.explicit 1) ≠ some (.explicit 0) by decide
  exact (acceptsOptional_readWrapped 0 CurveChoice.accepts_read).run_eq_ok_iff.mpr
    ⟨⟨sound, fun _ => other⟩, _, spellings_of_fits _ trees fits, rfl⟩

/-- A written key is read back, or its public key is no bit string. -/
theorem decode_encode_eq {key : EcPrivateKey}
    (parameters : ∀ choice ∈ key.parameters, choice.Sound) (fits : key.encode.length < 2 ^ 64) :
    decode key.encode = (fun _ => key) <$> bitsJudged key.publicKey := by
  by_cases valid : ∀ bits ∈ key.publicKey, bits.Valid
  · rw [decode_encode ⟨parameters, valid⟩ fits, bitsJudged_valid valid]
    rfl
  -- There is a public key then, and reading stops in its wrapper.
  obtain ⟨scalar, choice, publicKey⟩ := key
  cases publicKey with
  | none => exact absurd nofun valid
  | some bits =>
    have invalid : ¬ bits.Valid := fun holds => valid fun other member => by
      cases member
      exact holds
    have field {element : Element} (member : element ∈ _) : element.encode.length < 2 ^ 64 :=
      encode_length_lt member fits
    have inner : (encodeAll (choice.toList.map fun given => .explicit 0 [given.element])).length <
        2 ^ 64 := by
      have whole := encodeAll_length_lt fits
      simp only [encodeAll_append, List.length_append] at whole
      omega
    have version : Reads (liftM readWord : Read Error UInt64) 1 (Element.word 1).encode :=
      (readWord_encode 1).lift
    have octets : Reads (liftM readOctetString : Read Error Bytes) scalar
        (Element.octetString scalar).encode := (readOctetString_encode (field (by simp))).lift
    have chosen := run_parameters bits parameters inner
    have stopped := run_readWrapped_invalid invalid (field (by simp))
    rw [decode, encode, element, decodeSequence_sequence fits]
    simp only [encodeAll_append, encodeAll, List.append_nil, List.append_assoc, fields,
      Option.toList_some, List.map_cons, List.map_nil]
    rw [version.run_bind]
    simp only [ne_eq, not_true_eq_false, if_false]
    rw [octets.run_bind, liftM_read, liftM_read,
      Read.run_bind_of_ok (Read.run_mapError_eq_ok.mpr chosen), Read.run_bind]
    simp only [Read.mapError, stopped, bitsJudged, if_neg invalid]
    rfl

end EcPrivateKey

/-! ## Keys of any algorithm -/

theorem InfoVersion.ofWord_eq_ok_iff {number : UInt64} {version : InfoVersion} :
    InfoVersion.ofWord number = .ok version ↔ number = version.word := by
  rw [InfoVersion.ofWord, versionOf_eq_ok_iff]
  cases version <;> simp [InfoVersion.word]

namespace PrivateKeyInfo

theorem acceptsOptional_readOptional (tag : Tag) : AcceptsOptional (readOptional tag) tag
    fun content octets => True ∧ (Element.tagged tag content).Spelling .accepted octets := by
  have accepts : Accepts (readContent tag) fun content octets =>
      True ∧ (Element.tagged tag content).Spelling .accepted octets :=
    (accepts_readContent tag).congr fun _ _ => iff_of_eq (true_and _).symm
  refine .of_peek accepts (fun spelled => Framed.head spelled.2) (fun present => ?_)
    fun absent => ?_
  · rw [readOptional, readContent, Read.run_map, Read.run_peekTag_bind, Read.run_peekTag_bind,
      present]
    simp only [if_true, ne_eq, not_true_eq_false, if_false, Read.run_bind]
    rcases readAny.run _ with ⟨outcome, rest⟩
    cases outcome <;> rfl
  · rw [readOptional, Read.run_peekTag_bind, if_neg absent]
    rfl

theorem ofContent_eq_ok_iff {octets : Bytes} {bits : BitString} :
    BitString.ofContent octets = .ok bits ↔ octets = bits.content := by
  cases octets with
  | nil => simp [BitString.ofContent, BitString.content]
  | cons unused data =>
    obtain ⟨count, others⟩ := bits
    simp [BitString.ofContent, BitString.content]

/-- A bit string outside of the private part may have any number of unused bits. -/
private theorem readsAll_publicKey {info : PrivateKeyInfo}
    (whole : Option BitString → PrivateKeyInfo) (content : Option Bytes) :
    ReadsAll (do
      let publicKey ← match content with
        | none => pure none
        | some content =>
          some <$> Read.ofExcept ((BitString.ofContent content).mapError fun cause =>
            .malformedDer (.invalidBitString cause))
      liftM finish
      return whole publicKey : Read Error PrivateKeyInfo) info
      (∃ publicKey, content = publicKey.map BitString.content ∧ whole publicKey = info) [] := by
  cases content with
  | none =>
    simp only [pure_bind]
    refine ReadsAll.finish.congr ?_
    constructor
    · intro same
      exact ⟨none, rfl, same⟩
    · rintro ⟨publicKey, absent, same⟩
      rwa [Option.map_eq_none_iff.mp absent.symm] at same
  | some content =>
    simp only [bind_map_left]
    refine (ReadsAll.bind_ofExcept fun _ => .finish).congr ?_
    simp only [Outcome.mapError_eq_ok, ofContent_eq_ok_iff]
    constructor
    · rintro ⟨bits, rfl, same⟩
      exact ⟨some bits, rfl, same⟩
    · rintro ⟨publicKey, given, same⟩
      obtain ⟨bits, rfl, rfl⟩ := Option.map_eq_some_iff.mp given.symm
      exact ⟨bits, rfl, same⟩

theorem readsAll_fields (info : PrivateKeyInfo) : ReadsAll fields info info.algorithm.Sound
    ([.word info.version.word, info.algorithm.element, .octetString info.privateKey] ++
      (info.attributes.toList.map (.tagged attributesTag) ++
        ((info.publicKey.map BitString.content).toList.map (.tagged publicKeyTag) ++ []))) := by
  have optional (tag : Tag) := (acceptsOptional_readOptional tag).lift
  refine .congr (.bind accepts_readWord.lift ?version fun _ => .bind_ofExcept fun _ =>
    .bind_sound AlgorithmIdentifier.accepts_read.lift ?algorithm fun _ =>
    .bind accepts_readOctetString.lift ?privateKey fun _ =>
    .bind_optional (optional attributesTag) (head_last_ne (fun _ => rfl) (by decide))
      ?attributes fun _ =>
    .bind_optional (optional publicKeyTag) ?last ?publicKey (readsAll_publicKey _)) ?sound
  -- What is known of the rest after a field names the whole of `info`, and so the field.
  case publicKey =>
    rintro _ ⟨publicKey, rfl, same⟩
    exact congrArg (fun info => info.publicKey.map BitString.content) same
  case last =>
    rintro _ rfl
    nofun
  case attributes =>
    rintro _ ⟨-, publicKey, -, same⟩
    exact congrArg attributes same
  case privateKey =>
    rintro _ ⟨-, -, publicKey, -, same⟩
    exact congrArg privateKey same
  case algorithm =>
    rintro _ ⟨-, -, publicKey, -, same⟩
    exact congrArg algorithm same
  case version =>
    rintro _ ⟨version, known, -, -, -, publicKey, -, same⟩
    rw [InfoVersion.ofWord_eq_ok_iff.mp known]
    exact congrArg (fun info => info.version.word) same
  case sound =>
    constructor
    · rintro ⟨version, -, sound, -⟩
      exact sound
    · intro sound
      exact ⟨info.version, InfoVersion.ofWord_eq_ok_iff.mpr rfl, sound, fun _ _ => trivial,
        fun _ _ => trivial, info.publicKey, rfl, rfl⟩

theorem decode_eq_ok_iff {octets : Bytes} {info : PrivateKeyInfo} :
    decode octets = .ok info ↔
      info.algorithm.Sound ∧ info.element.Spelling .accepted octets := by
  have bits : (info.publicKey.map BitString.content).toList.map (Element.tagged publicKeyTag) =
      info.publicKey.toList.map fun bits => .tagged publicKeyTag bits.content := by
    cases info.publicKey <;> rfl
  rw [decode, info.readsAll_fields.decodeSequence_eq_ok_iff, bits, element, List.append_assoc,
    List.append_nil]

theorem sound_element {info : PrivateKeyInfo} (sound : info.algorithm.Sound) :
    info.element.Sound := by
  refine AllSound.append (AllSound.append ⟨trivial, sound.element, trivial, trivial⟩ ?_) ?_
  · exact .toList fun _ _ => show attributesTag.Canonical by decide
  · exact .toList fun _ _ => show publicKeyTag.Canonical by decide

theorem decode_encode {info : PrivateKeyInfo} (sound : info.algorithm.Sound)
    (fits : info.encode.length < 2 ^ 64) : decode info.encode = .ok info :=
  decode_eq_ok_iff.mpr
    ⟨sound, info.element.spelling_of_fits (sound_element sound) fits⟩

/-- The domain parameters of a DSA key. -/
theorem readsAll_dsaFields (p q g : Nat) :
    ReadsAll dsaFields (p, q, g) True ([p, q, g].map Element.unsigned) := by
  have number := accepts_readUnsigned.lift
  refine .congr (.bind number ?first fun _ => .bind number ?second fun _ =>
    .bind number ?third fun _ => .finish) (iff_true_intro rfl)
  case first | second | third =>
    rintro _ ⟨⟩
    rfl

end PrivateKeyInfo

/-! ## Encrypted keys -/

namespace EncryptedKeyInfo

theorem readsAll_fields (info : EncryptedKeyInfo) : ReadsAll fields info info.algorithm.Sound
    [info.algorithm.element, .octetString info.data] := by
  refine .congr (.bind_sound AlgorithmIdentifier.accepts_read.lift (by exact congrArg algorithm)
    fun _ => .bind accepts_readOctetString.lift (by exact congrArg data) fun _ => .finish) ?_
  exact and_iff_left rfl

theorem decode_eq_ok_iff {octets : Bytes} {info : EncryptedKeyInfo} :
    decode octets = .ok info ↔
      info.algorithm.Sound ∧ info.element.Spelling .accepted octets :=
  info.readsAll_fields.decodeSequence_eq_ok_iff

theorem decode_encode {info : EncryptedKeyInfo} (sound : info.algorithm.Sound)
    (fits : info.encode.length < 2 ^ 64) : decode info.encode = .ok info := by
  have tree : info.element.Sound := ⟨sound.element, trivial, trivial⟩
  exact decode_eq_ok_iff.mpr
    ⟨sound, info.element.spelling_of_fits tree fits⟩

end EncryptedKeyInfo

end KeyFile
