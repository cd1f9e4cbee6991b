import KeyFile.Proofs.Encoding.Produced

/-!
# Parameters of schemes

The parameters of a scheme are nested five deep, with two parts that may be absent. `Describes` says
which algorithm identifiers are encodings of a scheme, whether or not this can be used. One of them
is accepted exactly if the scheme can be used, and then this scheme is what comes out; whatever is
accepted is such an encoding. What is sound but not known is refused as unsupported.
-/
namespace KeyFile

open Asn1 Crypto

/-- The numbers that a word can hold are spelled as words are. -/
theorem exists_word_iff {octets : Bytes} {value : Nat} :
    (∃ word : UInt64, word.toNat = value ∧ (Element.word word).Spelling .accepted octets) ↔
      value < 2 ^ 64 ∧ (Element.unsigned value).Spelling .accepted octets := by
  constructor
  · rintro ⟨word, rfl, spelled⟩
    exact ⟨word.toNat_lt, spelled⟩
  · rintro ⟨small, spelled⟩
    have same : (UInt64.ofNat value).toNat = value := UInt64.toNat_ofNat_of_lt' small
    refine ⟨UInt64.ofNat value, same, ?_⟩
    rw [Element.Spelling, same]
    exact spelled

namespace PasswordScheme

/-! ## Names -/

section Names

variable {identifier : ObjectIdentifier} {digest : Digest} {cipher : Cipher}

theorem digest_eq_some_iff :
    digest? identifier = some digest ↔ identifier = digestIdentifier digest :=
  find_named_eq_some_iff fun digest => by cases digest <;> decide

theorem digest_eq_none_iff :
    digest? identifier = none ↔ ∀ digest, identifier ≠ digestIdentifier digest := by
  simp only [Option.eq_none_iff_forall_ne_some, ne_eq, digest_eq_some_iff]

theorem cipher_eq_some_iff :
    cipher? identifier = some cipher ↔ identifier = cipherIdentifier cipher :=
  find_named_eq_some_iff fun cipher => by cases cipher <;> decide

theorem cipher_eq_none_iff :
    cipher? identifier = none ↔ ∀ cipher, identifier ≠ cipherIdentifier cipher := by
  simp only [Option.eq_none_iff_forall_ne_some, ne_eq, cipher_eq_some_iff]

end Names

/-- How a keyed digest is stated. What its parameters are does not count. -/
inductive Selects : Option AlgorithmIdentifier → Digest → Prop where
  | absent : Selects none .sha1
  | named {digest : Digest} {parameters : Option Bytes} :
      Selects (some ⟨digestIdentifier digest, parameters⟩) digest

/-! ## Reading the fields of a key derivation -/

theorem accepts_readSalt :
    Accepts readSalt fun salt => (Element.octetString salt).Spelling .accepted := by
  intro salt input rest
  rw [readSalt, run_liftM_peekTag_bind, Read.run_unless_eq_ok,
    accepts_readOctetString.lift.run_eq_ok]
  -- An octet string does not begin as a sequence, so the check changes nothing.
  refine and_iff_right_of_imp ?_
  rintro ⟨octets, spelled, rfl⟩
  rw [Framed.head_append spelled]
  decide

theorem accepts_readIterations : Accepts readIterations fun count octets =>
    (0 < count ∧ count < 2 ^ 32) ∧ (Element.unsigned count).Spelling .accepted octets := by
  intro count input rest
  simp only [readIterations, accepts_readWord.lift.run_bind_eq_ok, Read.run_unless_eq_ok,
    Read.run_pure_eq_ok, not_or]
  constructor
  · rintro ⟨word, front, back, spelled, ⟨⟨filled, small⟩, rfl, rfl⟩, rfl⟩
    refine ⟨front, ⟨⟨?_, Nat.lt_of_not_le small⟩, spelled⟩, rfl⟩
    exact Nat.pos_of_ne_zero fun zero => filled (UInt64.toNat_inj.mp zero)
  · rintro ⟨octets, ⟨⟨positive, small⟩, spelled⟩, rfl⟩
    obtain ⟨word, rfl, spelled⟩ := exists_word_iff.mpr ⟨by omega, spelled⟩
    refine ⟨word, octets, rest, spelled, ⟨⟨?_, Nat.not_le.mpr small⟩, rfl, rfl⟩, rfl⟩
    rintro rfl
    exact absurd positive (by decide)

theorem acceptsOptional_readKeyLength : AcceptsOptional readKeyLength .integer
    fun length octets => length < 2 ^ 64 ∧ (Element.unsigned length).Spelling .accepted octets := by
  have accepts : Accepts (UInt64.toNat <$> (liftM readWord : Read Error UInt64))
      fun length octets =>
        length < 2 ^ 64 ∧ (Element.unsigned length).Spelling .accepted octets := by
    intro length input rest
    simp only [Read.run_map_eq_ok, accepts_readWord.lift.run_eq_ok, ← exists_word_iff]
    constructor
    · rintro ⟨word, ⟨octets, spelled, rfl⟩, same⟩
      exact ⟨octets, ⟨word, same, spelled⟩, rfl⟩
    · rintro ⟨octets, ⟨word, same, spelled⟩, rfl⟩
      exact ⟨word, ⟨octets, spelled, rfl⟩, same⟩
  refine .of_peek accepts (fun spelled => Framed.head spelled.2) (fun present => ?_)
    fun absent => ?_
  · rw [readKeyLength, run_liftM_peekTag_bind, if_pos present]
    simp only [Read.run_bind, Read.run_map]
    rcases (liftM readWord : Read Error UInt64).run _ with ⟨outcome, rest⟩
    cases outcome <;> rfl
  · rw [readKeyLength, run_liftM_peekTag_bind, if_neg absent]
    rfl

/-- The digest comes last, so it is absent exactly if nothing is left. -/
theorem run_readDigest_eq_ok {digest : Digest} {input rest : Bytes} :
    readDigest.run input = (.ok digest, rest) ↔
      ∃ keyed, Selects keyed digest ∧ (∀ algorithm ∈ keyed, algorithm.Sound) ∧
        (keyed = none → rest = []) ∧
        ∃ octets, Spellings .accepted (keyed.toList.map AlgorithmIdentifier.element) octets ∧
          input = octets ++ rest := by
  rw [readDigest, run_liftM_peekTag_bind]
  -- An end means the default. Whatever else is there has to be a digest that is known.
  cases input with
  | nil =>
    simp only [List.head?_nil, Option.map_none, Read.run_pure_eq_ok]
    constructor
    · rintro ⟨rfl, rfl⟩
      exact ⟨none, .absent, nofun, fun _ => rfl, [], rfl, rfl⟩
    · rintro ⟨keyed, selects, -, ends, octets, spelled, same⟩
      cases selects with
      | absent => exact ⟨rfl, (ends rfl).symm⟩
      | named =>
        obtain ⟨front, back, spelled, -, rfl⟩ := spelled
        have head := Framed.head_append spelled (back ++ rest)
        rw [← List.append_assoc, ← same] at head
        cases head
  | cons first others =>
    simp only [List.head?_cons, Option.map_some,
      AlgorithmIdentifier.accepts_read.lift.run_bind_eq_ok]
    constructor
    · rintro ⟨⟨identifier, parameters⟩, front, back, ⟨sound, spelled⟩, done, same⟩
      split at done
      next found known =>
        obtain ⟨rfl, rfl⟩ := Read.run_pure_eq_ok.mp done
        cases digest_eq_some_iff.mp known
        refine ⟨_, .named, ?_, nofun, front, ⟨front, [], spelled, rfl, ?_⟩, same⟩
        · rintro _ ⟨⟩
          exact sound
        · rw [List.append_nil]
      next => cases done
    · rintro ⟨keyed, selects, sound, ends, octets, spelled, same⟩
      cases selects with
      | absent =>
        rw [ends rfl, spelled] at same
        cases same
      | named =>
        obtain ⟨front, _, spelled, rfl, rfl⟩ := spelled
        refine ⟨_, front, rest, ⟨sound _ rfl, spelled⟩, ?_, ?_⟩
        · simp only [digest_eq_some_iff.mpr rfl, Read.run_pure]
        · rw [same, List.append_nil]

end PasswordScheme

/-! ## Key derivations -/

namespace KeyDerivation

/-- The elements of a key derivation that states its digest like this. -/
def elements (derivation : KeyDerivation) (keyed : Option AlgorithmIdentifier) : List Element :=
  .octetString derivation.salt :: .unsigned derivation.iterations ::
    (derivation.keyLength.toList.map .unsigned ++ keyed.toList.map AlgorithmIdentifier.element)

/-- The octets that spell a key derivation, whether or not its numbers can be used. -/
def Spelled (derivation : KeyDerivation) (octets : Bytes) : Prop :=
  ∃ keyed, PasswordScheme.Selects keyed derivation.digest ∧
    (∀ algorithm ∈ keyed, algorithm.Sound) ∧
      (Element.sequence (derivation.elements keyed)).Spelling .accepted octets

/-- The numbers that are read. -/
structure Bounded (derivation : KeyDerivation) : Prop where
  iterations : 0 < derivation.iterations ∧ derivation.iterations < 2 ^ 32
  keyLength : ∀ length ∈ derivation.keyLength, length < 2 ^ 64

/-- A keyed digest is a sequence, and not taken for a key length. -/
theorem head_keyed_ne {keyed : Option AlgorithmIdentifier} {octets : Bytes}
    (spelled : Spellings .accepted (keyed.toList.map AlgorithmIdentifier.element) octets) :
    octets.head?.map Tag.ofOctet ≠ some .integer := by
  rw [← List.append_nil (keyed.toList.map _)] at spelled
  exact head_last_ne (fun _ => rfl) (by decide) spelled

variable {derivation other : KeyDerivation} {keyed : Option AlgorithmIdentifier}
  {content octets : Bytes}

theorem run_derivationFields_eq_ok :
    (∃ left, PasswordScheme.derivationFields.run content = (.ok derivation, left)) ↔
      derivation.Bounded ∧ ∃ keyed, PasswordScheme.Selects keyed derivation.digest ∧
        (∀ algorithm ∈ keyed, algorithm.Sound) ∧
          Spellings .accepted (derivation.elements keyed) content := by
  simp only [PasswordScheme.derivationFields, PasswordScheme.accepts_readSalt.run_bind_eq_ok,
    PasswordScheme.accepts_readIterations.run_bind_eq_ok, Read.run_bind_eq_ok,
    PasswordScheme.acceptsOptional_readKeyLength.run_eq_ok_iff,
    PasswordScheme.run_readDigest_eq_ok, liftM_read, Read.run_mapError_eq_ok,
    Read.run_finish_eq_ok, Read.run_pure_eq_ok]
  constructor
  · rintro ⟨_, salt, first, _, salted, ⟨count, second, _, ⟨range, counted⟩, ⟨length, _,
      ⟨⟨small, -⟩, third, lengths, rfl⟩, digest, _, ⟨keyed, selects, sound, -, last, named, rfl⟩,
      _, _, ⟨rfl, rfl⟩, rfl, rfl⟩, rfl⟩, rfl⟩
    rw [List.append_nil]
    exact ⟨⟨range, small⟩, keyed, selects, sound, first, _, salted,
      ⟨second, _, counted, spellings_append.mpr ⟨third, last, lengths, named, rfl⟩, rfl⟩, rfl⟩
  · rintro ⟨⟨range, small⟩, keyed, selects, sound, first, _, salted,
      ⟨second, _, counted, back, rfl⟩, rfl⟩
    -- Where no key length is stated, the digest is not taken for one.
    obtain ⟨third, last, lengths, named, rfl⟩ := spellings_append.mp back
    have ends : last = last ++ [] := (List.append_nil last).symm
    exact ⟨[], derivation.salt, first, _, salted, ⟨derivation.iterations, second, _,
      ⟨range, counted⟩, ⟨derivation.keyLength, last,
      ⟨⟨small, fun _ => head_keyed_ne named⟩, third, lengths, rfl⟩, derivation.digest, [],
      ⟨keyed, selects, sound, fun _ => rfl, last, named, ends⟩, (), [], ⟨rfl, rfl⟩, rfl, rfl⟩,
      rfl⟩, rfl⟩

theorem derivationOf_eq_ok_iff {algorithm : AlgorithmIdentifier} :
    PasswordScheme.derivationOf algorithm = .ok derivation ↔
      algorithm.identifier = PasswordScheme.derivationIdentifier ∧ derivation.Bounded ∧
        ∃ octets ∈ algorithm.parameters, derivation.Spelled octets := by
  constructor
  · intro done
    unfold PasswordScheme.derivationOf at done
    split at done
    · cases done
    next named =>
      split at done
      · cases done
      next octets given =>
        obtain ⟨content, framed, run⟩ := decodeSequence_eq_ok.mp done
        obtain ⟨bounded, keyed, selects, sound, spelled⟩ := run_derivationFields_eq_ok.mp run
        have present := (AlgorithmIdentifier.effectiveParameters_eq_some_iff.mp given).1
        have named := ObjectIdentifier.text_injective (Decidable.not_not.mp named)
        exact ⟨named, bounded, octets, present, keyed, selects, sound, framed.of_content spelled⟩
  · rintro ⟨named, bounded, octets, present, keyed, selects, sound, spelled⟩
    have given := AlgorithmIdentifier.effectiveParameters_of_framed present spelled (by decide)
    obtain ⟨content, held, framed⟩ := Framed.exists_content spelled
    rw [PasswordScheme.derivationOf, if_neg (Decidable.not_not.mpr (congrArg _ named)), given]
    exact decodeSequence_eq_ok.mpr ⟨content, framed,
      run_derivationFields_eq_ok.mpr ⟨bounded, keyed, selects, sound, held⟩⟩

/-- A key length that may be absent is told from what comes after it. -/
theorem keyLength_unique {length length' : Option Nat} {front front' back back' : Bytes}
    (here : Spellings .accepted (length.toList.map .unsigned) front)
    (there : Spellings .accepted (length'.toList.map .unsigned) front')
    (apart : back.head?.map Tag.ofOctet ≠ some .integer)
    (apart' : back'.head?.map Tag.ofOctet ≠ some .integer)
    (same : front ++ back = front' ++ back') : length = length' ∧ back = back' := by
  -- A length stated on one side only would begin the rest of the other side.
  cases length with
  | none =>
    cases here
    cases length' with
    | none =>
      cases there
      exact ⟨rfl, same⟩
    | some value =>
      obtain ⟨front', _, spelled, rfl, rfl⟩ := there
      rw [List.append_nil, List.nil_append] at same
      rw [same, Framed.head_append spelled] at apart
      exact absurd rfl apart
  | some value =>
    obtain ⟨front, _, spelled, rfl, rfl⟩ := here
    rw [List.append_nil] at same
    cases length' with
    | none =>
      cases there
      rw [List.nil_append] at same
      rw [← same, Framed.head_append spelled] at apart'
      exact absurd rfl apart'
    | some value' =>
      obtain ⟨front', _, spelled', rfl, rfl⟩ := there
      rw [List.append_nil] at same
      obtain ⟨rfl, rest⟩ := accepts_readUnsigned.unique spelled spelled' same
      exact ⟨rfl, rest⟩

/-- Octets spell one key derivation at most. -/
theorem Spelled.unique (spelled : derivation.Spelled octets) (another : other.Spelled octets) :
    derivation = other := by
  obtain ⟨keyed, selects, sound, framed⟩ := spelled
  obtain ⟨keyed', selects', sound', framed'⟩ := another
  obtain ⟨content, held, framed⟩ := Framed.exists_content framed
  obtain ⟨content', held', framed'⟩ := Framed.exists_content framed'
  obtain ⟨rfl, -⟩ := (accepts_readContent .sequence).unique framed framed' (rfl : octets ++ [] = _)
  -- Field by field, the same octets spell the same value.
  obtain ⟨_, _, salted, ⟨_, _, counted, back, rfl⟩, rfl⟩ := held
  obtain ⟨_, _, salted', ⟨_, _, counted', back', rfl⟩, same⟩ := held'
  obtain ⟨salt, same⟩ := accepts_readOctetString.unique salted salted' same
  obtain ⟨iterations, same⟩ := accepts_readUnsigned.unique counted counted' same
  obtain ⟨_, last, lengths, named, rfl⟩ := spellings_append.mp back
  obtain ⟨_, last', lengths', named', rfl⟩ := spellings_append.mp back'
  obtain ⟨keyLength, rfl⟩ :=
    keyLength_unique lengths lengths' (head_keyed_ne named) (head_keyed_ne named') same
  have read := PasswordScheme.run_readDigest_eq_ok.mpr ⟨keyed, selects, sound, fun _ => rfl, last,
    named, (List.append_nil _).symm⟩
  have read' := PasswordScheme.run_readDigest_eq_ok.mpr ⟨keyed', selects', sound', fun _ => rfl,
    last, named', (List.append_nil _).symm⟩
  have digest := read.symm.trans read'
  rw [Prod.mk.injEq, Except.ok.injEq] at digest
  obtain ⟨⟩ := derivation
  obtain ⟨⟩ := other
  rw [mk.injEq]
  exact ⟨salt, iterations, keyLength, digest.1⟩

end KeyDerivation

/-! ## Schemes -/

namespace PasswordScheme

theorem vectorOf_eq_ok_iff {algorithm : AlgorithmIdentifier} {iv : Bytes} :
    vectorOf algorithm = .ok iv ↔
      ∃ octets ∈ algorithm.parameters, (Element.octetString iv).Spelling .accepted octets := by
  have accepted {octets : Bytes} : decodeOnly readOctetString octets = .ok iv ↔
      (Element.octetString iv).Spelling .accepted octets :=
    decodeOnly_eq_ok_iff accepts_readOctetString
  constructor
  · intro done
    unfold vectorOf at done
    split at done
    · cases done
    next octets given =>
      have present := (AlgorithmIdentifier.effectiveParameters_eq_some_iff.mp given).1
      exact ⟨octets, present, accepted.mp done⟩
  · rintro ⟨octets, present, spelled⟩
    rw [vectorOf, AlgorithmIdentifier.effectiveParameters_of_framed present spelled (by decide)]
    exact accepted.mpr spelled

/-- The parameters of a scheme are two algorithm identifiers, one for each of its parts. -/
structure Parts (algorithm derivationPart cipherPart : AlgorithmIdentifier) : Prop where
  scheme : algorithm.identifier = identifier
  sound : derivationPart.Sound ∧ cipherPart.Sound
  spelled : ∃ octets ∈ algorithm.parameters,
    (Element.sequence [derivationPart.element, cipherPart.element]).Spelling .accepted octets

theorem readsAll_fields (parts : AlgorithmIdentifier × AlgorithmIdentifier) :
    ReadsAll fields parts (parts.1.Sound ∧ parts.2.Sound) [parts.1.element, parts.2.element] := by
  have part := AlgorithmIdentifier.accepts_read.lift
  refine .congr (.bind_sound part ?derivation fun _ =>
    .bind_sound part (by exact congrArg Prod.snd) fun _ => .finish) ?sound
  case derivation =>
    rintro _ ⟨-, same⟩
    exact congrArg Prod.fst same
  case sound => exact and_congr_right fun _ => and_iff_left rfl

theorem parts_iff {algorithm derivationPart cipherPart : AlgorithmIdentifier} :
    Parts algorithm derivationPart cipherPart ↔ algorithm.identifier = identifier ∧
      ∃ octets, algorithm.effectiveParameters = some octets ∧
        decodeSequence fields octets = .ok (derivationPart, cipherPart) := by
  have decoded (octets : Bytes) : decodeSequence fields octets = .ok (derivationPart, cipherPart) ↔
      (derivationPart.Sound ∧ cipherPart.Sound) ∧
        (Element.sequence [derivationPart.element, cipherPart.element]).Spelling .accepted octets :=
    (readsAll_fields (derivationPart, cipherPart)).decodeSequence_eq_ok_iff
  constructor
  · rintro ⟨named, sound, octets, given, spelled⟩
    exact ⟨named, octets, AlgorithmIdentifier.effectiveParameters_of_framed given spelled
      (by decide), (decoded octets).mpr ⟨sound, spelled⟩⟩
  · rintro ⟨named, octets, given, done⟩
    obtain ⟨sound, spelled⟩ := (decoded octets).mp done
    have present := (AlgorithmIdentifier.effectiveParameters_eq_some_iff.mp given).1
    exact ⟨named, sound, octets, present, spelled⟩

/-- The algorithm identifier is an encoding of the scheme, whether or not this can be used. -/
def Describes (algorithm : AlgorithmIdentifier) (scheme : PasswordScheme) : Prop :=
  ∃ derivation vector, Parts algorithm ⟨derivationIdentifier, some derivation⟩
      ⟨cipherIdentifier scheme.cipher, some vector⟩ ∧
    scheme.derivation.Spelled derivation ∧ (Element.octetString scheme.iv).Spelling .accepted vector

/-- What the cipher of a scheme can work with. -/
structure Usable (scheme : PasswordScheme) : Prop where
  iterations : 0 < scheme.derivation.iterations ∧ scheme.derivation.iterations < 2 ^ 32
  keyLength : ∀ length ∈ scheme.derivation.keyLength, length = scheme.cipher.keyLength
  blockSize : scheme.iv.length = scheme.cipher.blockSize

variable {algorithm derivationPart cipherPart : AlgorithmIdentifier}
  {scheme other : PasswordScheme}

/-- No key length that a cipher needs is too large to be read. -/
theorem Usable.bounded (usable : scheme.Usable) : scheme.derivation.Bounded := by
  refine ⟨usable.iterations, fun length given => ?_⟩
  rw [usable.keyLength length given]
  cases scheme.cipher <;> decide

/-- Accepted are the encodings of schemes that can be used, and nothing else. -/
theorem ofAlgorithm_eq_ok_iff_describes :
    ofAlgorithm algorithm = .ok scheme ↔ Describes algorithm scheme ∧ scheme.Usable := by
  rw [ofAlgorithm_eq_ok_iff]
  constructor
  · rintro ⟨⟨name, derivation⟩, ⟨name', vector⟩, composed⟩
    obtain ⟨rfl, bounded, octets, rfl, spelled⟩ :=
      KeyDerivation.derivationOf_eq_ok_iff.mp composed.derivation
    obtain rfl := cipher_eq_some_iff.mp composed.cipher
    obtain ⟨octets', rfl, spelled'⟩ := vectorOf_eq_ok_iff.mp composed.vector
    have parts := parts_iff.mpr ⟨composed.identifier, composed.parts⟩
    exact ⟨⟨octets, octets', parts, spelled, spelled'⟩, bounded.iterations, composed.keyLength,
      composed.blockSize⟩
  · rintro ⟨⟨derivation, vector, parts, spelled, spelled'⟩, usable⟩
    obtain ⟨named, decoded⟩ := parts_iff.mp parts
    have derived : derivationOf ⟨derivationIdentifier, some derivation⟩ = .ok scheme.derivation :=
      KeyDerivation.derivationOf_eq_ok_iff.mpr ⟨rfl, usable.bounded, derivation, rfl, spelled⟩
    exact ⟨_, _, named, decoded, derived, cipher_eq_some_iff.mpr rfl,
      vectorOf_eq_ok_iff.mpr ⟨vector, rfl, spelled'⟩, usable.blockSize, usable.keyLength⟩

/-- An algorithm identifier has one pair of parts. -/
theorem Parts.unique {derivationPart' cipherPart' : AlgorithmIdentifier}
    (parts : Parts algorithm derivationPart cipherPart)
    (another : Parts algorithm derivationPart' cipherPart') :
    derivationPart = derivationPart' ∧ cipherPart = cipherPart' := by
  obtain ⟨-, octets, given, decoded⟩ := parts_iff.mp parts
  obtain ⟨-, octets', given', decoded'⟩ := parts_iff.mp another
  cases given.symm.trans given'
  have same := decoded.symm.trans decoded'
  rwa [Except.ok.injEq, Prod.mk.injEq] at same

theorem Describes.unique (describes : Describes algorithm scheme)
    (another : Describes algorithm other) : scheme = other := by
  obtain ⟨derivation, vector, parts, spelled, octets⟩ := describes
  obtain ⟨derivation', vector', parts', spelled', octets'⟩ := another
  obtain ⟨first, second⟩ := parts.unique parts'
  -- The parts hold the same octets, which spell one derivation and one vector.
  simp only [AlgorithmIdentifier.mk.injEq, true_and, Option.some.injEq] at first second
  obtain ⟨name, rfl⟩ := second
  subst first
  have derivations := spelled.unique spelled'
  have ciphers : some scheme.cipher = some other.cipher := by
    rw [← cipher_eq_some_iff.mpr name, cipher_eq_some_iff.mpr rfl]
  obtain ⟨vectors, -⟩ := accepts_readOctetString.unique octets octets' (rfl : vector ++ [] = _)
  obtain ⟨⟩ := scheme
  obtain ⟨⟩ := other
  rw [mk.injEq]
  exact ⟨derivations, Option.some.inj ciphers, vectors⟩

/-- The encoding that is written for a scheme, with its digest stated like this. -/
def describing (scheme : PasswordScheme) (keyed : Option AlgorithmIdentifier) :
    AlgorithmIdentifier :=
  ⟨identifier, some (Element.encode (.sequence
    [AlgorithmIdentifier.element ⟨derivationIdentifier,
        some (Element.sequence (scheme.derivation.elements keyed)).encode⟩,
      AlgorithmIdentifier.element ⟨cipherIdentifier scheme.cipher,
        some (Element.octetString scheme.iv).encode⟩]))⟩

theorem describes_describing {keyed : Option AlgorithmIdentifier}
    (selects : Selects keyed scheme.derivation.digest) (sound : ∀ named ∈ keyed, named.Sound)
    (fits : (describing scheme keyed).encode.length < 2 ^ 64) :
    Describes (describing scheme keyed) scheme := by
  have trees : AllSound (scheme.derivation.elements keyed) :=
    ⟨trivial, trivial, .append (.toList fun _ _ => trivial)
      (.toList fun named given => (sound named given).element)⟩
  -- Each part fits since the whole does.
  have whole := Nat.lt_of_le_of_lt (describing scheme keyed).length_parameters_le fits
  have part {algorithm : AlgorithmIdentifier} (member : algorithm.element ∈ _) :=
    Nat.lt_of_le_of_lt algorithm.length_parameters_le (encode_length_lt member whole)
  have derivation := (Element.sequence (scheme.derivation.elements keyed)).spelling_of_fits trees
    (part (List.mem_cons_self ..))
  have vector := (Element.octetString scheme.iv).spelling_of_fits trivial
    (part (List.mem_cons_of_mem _ (List.mem_singleton.mpr rfl)))
  have first : AlgorithmIdentifier.Sound ⟨derivationIdentifier, some _⟩ :=
    AlgorithmIdentifier.sound_some derivation.complete
  have second : AlgorithmIdentifier.Sound ⟨cipherIdentifier scheme.cipher, some _⟩ :=
    AlgorithmIdentifier.sound_some vector.complete
  exact ⟨_, _, ⟨rfl, ⟨first, second⟩, _, rfl,
    Element.spelling_of_fits _ ⟨first.element, second.element, trivial⟩ whole⟩,
    ⟨keyed, selects, sound, derivation⟩, vector⟩

/-- What is sound but not known, with everything in front of it in order. -/
inductive Foreign (algorithm : AlgorithmIdentifier) : Unsupported → Prop where
  | scheme (unknown : algorithm.identifier ≠ identifier) :
      Foreign algorithm (.encryptionScheme algorithm.identifier)
  | derivation {derivationPart cipherPart : AlgorithmIdentifier}
      (parts : Parts algorithm derivationPart cipherPart)
      (unknown : derivationPart.identifier ≠ derivationIdentifier) :
      Foreign algorithm (.keyDerivation derivationPart.identifier)
  /-- A salt that is a sequence, whatever this holds and whatever comes after it. -/
  | salt {octets content : Bytes} {rest : List Element} {cipherPart : AlgorithmIdentifier}
      (parts : Parts algorithm ⟨derivationIdentifier, some octets⟩ cipherPart)
      (spelled : (Element.sequence (.tagged .sequence content :: rest)).Spelling .accepted octets) :
      Foreign algorithm .saltSource
  | digest {octets : Bytes} {derivation : KeyDerivation} {keyed cipherPart : AlgorithmIdentifier}
      (parts : Parts algorithm ⟨derivationIdentifier, some octets⟩ cipherPart)
      (bounded : derivation.Bounded) (sound : keyed.Sound)
      (spelled : (Element.sequence (derivation.elements (some keyed))).Spelling .accepted octets)
      (unknown : ∀ digest, keyed.identifier ≠ digestIdentifier digest) :
      Foreign algorithm (.keyedDigest keyed.identifier)
  | cipher {octets : Bytes} {derivation : KeyDerivation} {cipherPart : AlgorithmIdentifier}
      (parts : Parts algorithm ⟨derivationIdentifier, some octets⟩ cipherPart)
      (bounded : derivation.Bounded) (spelled : derivation.Spelled octets)
      (unknown : ∀ cipher, cipherPart.identifier ≠ cipherIdentifier cipher) :
      Foreign algorithm (.cipher cipherPart.identifier)

/-- A key derivation that fails is reported before the cipher is looked at. -/
theorem ofAlgorithm_of_derivation_error {e : Error}
    (parts : Parts algorithm derivationPart cipherPart)
    (failed : derivationOf derivationPart = .error e) : ofAlgorithm algorithm = .error e := by
  obtain ⟨named, octets, given, decoded⟩ := parts_iff.mp parts
  rw [ofAlgorithm, if_neg (Decidable.not_not.mpr (congrArg _ named)), given]
  simp only
  rw [Outcome.bind_of_ok decoded, failed]
  rfl

theorem derivationOf_of_content {octets : Bytes} {elements : List Element} {e : Error}
    (spelled : (Element.sequence elements).Spelling .accepted octets)
    (failed : ∀ content, Spellings .accepted elements content →
      (derivationFields.run content).1 = .error e) :
    derivationOf ⟨derivationIdentifier, some octets⟩ = .error e := by
  obtain ⟨content, held, decoded⟩ := decodeSequence_spelled spelled derivationFields
  have given : AlgorithmIdentifier.effectiveParameters ⟨derivationIdentifier, some octets⟩ =
      some octets := AlgorithmIdentifier.effectiveParameters_of_framed rfl spelled (by decide)
  rw [derivationOf, if_neg (Decidable.not_not.mpr rfl), given]
  exact decoded.trans (failed content held)

theorem run_readDigest_of_unknown {keyed : AlgorithmIdentifier} {octets : Bytes}
    (sound : keyed.Sound) (spelled : keyed.element.Spelling .accepted octets)
    (unknown : ∀ digest, keyed.identifier ≠ digestIdentifier digest) :
    readDigest.run octets = (.error (.unsupported (.keyedDigest keyed.identifier)), []) := by
  have read := AlgorithmIdentifier.accepts_read.lift.reads ⟨sound, spelled⟩
  rw [readDigest, run_liftM_peekTag_bind, Framed.head spelled]
  simp only
  rw [Read.run_bind_of_ok read.alone]
  simp only [digest_eq_none_iff.mpr unknown, Read.run_throw]

/-- All fields before the digest are read, and it is the first to fail. -/
theorem run_derivationFields_of_unknown {derivation : KeyDerivation} {keyed : AlgorithmIdentifier}
    {content : Bytes} (bounded : derivation.Bounded) (sound : keyed.Sound)
    (unknown : ∀ digest, keyed.identifier ≠ digestIdentifier digest)
    (spelled : Spellings .accepted (derivation.elements (some keyed)) content) :
    (derivationFields.run content).1 =
      .error (.unsupported (.keyedDigest keyed.identifier)) := by
  obtain ⟨salt, _, salted, ⟨count, _, counted, back, rfl⟩, rfl⟩ := spelled
  obtain ⟨length, last, lengths, stated, rfl⟩ := spellings_append.mp back
  have read : readKeyLength.run (length ++ last) = (.ok derivation.keyLength, last) :=
    acceptsOptional_readKeyLength.run_eq_ok_iff.mpr
      ⟨⟨bounded.keyLength, fun _ => KeyDerivation.head_keyed_ne stated⟩, length, lengths, rfl⟩
  obtain ⟨named, _, spelled, rfl, rfl⟩ := stated
  rw [List.append_nil] at read
  rw [List.append_nil, derivationFields, (accepts_readSalt.reads salted).run_bind,
    (accepts_readIterations.reads ⟨bounded.iterations, counted⟩).run_bind,
    Read.run_bind_of_ok read,
    Read.run_bind_of_error (run_readDigest_of_unknown sound spelled unknown)]

theorem ofAlgorithm_of_unknown_cipher {derivation : KeyDerivation}
    (parts : Parts algorithm derivationPart cipherPart)
    (derived : derivationOf derivationPart = .ok derivation)
    (unknown : ∀ cipher, cipherPart.identifier ≠ cipherIdentifier cipher) :
    ofAlgorithm algorithm = .error (.unsupported (.cipher cipherPart.identifier)) := by
  obtain ⟨named, octets, given, decoded⟩ := parts_iff.mp parts
  rw [ofAlgorithm, if_neg (Decidable.not_not.mpr (congrArg _ named)), given]
  simp only
  rw [Outcome.bind_of_ok decoded]
  simp only
  rw [Outcome.bind_of_ok derived]
  simp only [cipher_eq_none_iff.mpr unknown]
  rfl

theorem Foreign.ofAlgorithm_eq {cause : Unsupported} (foreign : Foreign algorithm cause) :
    ofAlgorithm algorithm = .error (.unsupported cause) := by
  cases foreign with
  | scheme unknown => exact ofAlgorithm_of_other unknown
  | derivation parts unknown =>
    exact ofAlgorithm_of_derivation_error parts (derivationOf_of_other unknown)
  | salt parts spelled =>
    refine ofAlgorithm_of_derivation_error parts (derivationOf_of_content spelled ?_)
    rintro _ ⟨front, back, first, -, rfl⟩
    rw [derivationFields, readSalt, Read.run_bind, run_liftM_peekTag_bind, Framed.head_append first]
    rfl
  | digest parts bounded sound spelled unknown =>
    refine ofAlgorithm_of_derivation_error parts (derivationOf_of_content spelled ?_)
    exact fun _ => run_derivationFields_of_unknown bounded sound unknown
  | @cipher octets derivation _ parts bounded spelled unknown =>
    have derived : derivationOf ⟨derivationIdentifier, some octets⟩ = .ok derivation :=
      KeyDerivation.derivationOf_eq_ok_iff.mpr ⟨rfl, bounded, octets, rfl, spelled⟩
    exact ofAlgorithm_of_unknown_cipher parts derived unknown

/-- An encoding of a scheme is accepted exactly if the scheme can be used, and nothing but this
scheme comes out; only such encodings are accepted. What is not known is refused as unsupported.
What is written for a scheme is an encoding of it, whichever way its digest is stated. -/
theorem parameters_exact :
    (∀ algorithm scheme, Describes algorithm scheme →
      ((∃ found, ofAlgorithm algorithm = .ok found) ↔ scheme.Usable) ∧
        ∀ found, ofAlgorithm algorithm = .ok found → found = scheme) ∧
    (∀ algorithm scheme, ofAlgorithm algorithm = .ok scheme →
      Describes algorithm scheme ∧ scheme.Usable) ∧
    (∀ algorithm cause, Foreign algorithm cause →
      ofAlgorithm algorithm = .error (.unsupported cause)) ∧
    ∀ scheme keyed, Selects keyed scheme.derivation.digest → (∀ named ∈ keyed, named.Sound) →
      (describing scheme keyed).encode.length < 2 ^ 64 →
        Describes (describing scheme keyed) scheme := by
  refine ⟨?_, fun _ _ => ofAlgorithm_eq_ok_iff_describes.mp, fun _ _ => Foreign.ofAlgorithm_eq,
    fun _ _ => describes_describing⟩
  intro algorithm scheme describes
  -- What comes out is described as well, and an encoding describes one scheme at most.
  have only (found : PasswordScheme) (accepted : ofAlgorithm algorithm = .ok found) :
      found = scheme :=
    (ofAlgorithm_eq_ok_iff_describes.mp accepted).1.unique describes
  refine ⟨?_, only⟩
  constructor
  · rintro ⟨found, accepted⟩
    rw [← only found accepted]
    exact (ofAlgorithm_eq_ok_iff_describes.mp accepted).2
  · intro usable
    exact ⟨scheme, ofAlgorithm_eq_ok_iff_describes.mpr ⟨describes, usable⟩⟩

/-- The most iterations there may be, with the key length written down. -/
def patientScheme : PasswordScheme where
  derivation := ⟨[1, 2, 3], 4294967295, some 24, .sha512⟩
  cipher := .tripleDes
  iv := [0, 1, 2, 3, 4, 5, 6, 7]

/-- One iteration more. -/
def endlessScheme : PasswordScheme :=
  { patientScheme with derivation := { patientScheme.derivation with iterations := 4294967296 } }

/-- A keyed digest with NULL for its parameters. -/
def keyedSha512 : AlgorithmIdentifier :=
  ⟨digestIdentifier .sha512, some (Element.encode .null)⟩

theorem patientScheme_exact :
    (Describes (describing patientScheme (some keyedSha512)) patientScheme ∧
      patientScheme.Usable ∧
      ofAlgorithm (describing patientScheme (some keyedSha512)) = .ok patientScheme) ∧
    (Describes (describing endlessScheme (some keyedSha512)) endlessScheme ∧
      ∀ found, ofAlgorithm (describing endlessScheme (some keyedSha512)) ≠ .ok found) ∧
    Foreign ⟨derivationIdentifier, none⟩ (.encryptionScheme derivationIdentifier) ∧
    ofAlgorithm ⟨derivationIdentifier, none⟩ =
      .error (.unsupported (.encryptionScheme derivationIdentifier)) := by
  obtain ⟨stated, accepted, refused, written⟩ := parameters_exact
  have sound : ∀ named ∈ some keyedSha512, named.Sound := by
    rintro _ ⟨⟩
    exact AlgorithmIdentifier.sound_some rfl
  have patient := written patientScheme (some keyedSha512) .named sound (by decide +kernel)
  have endless := written endlessScheme (some keyedSha512) .named sound (by decide +kernel)
  have usable : patientScheme.Usable := by
    refine ⟨by decide, ?_, rfl⟩
    rintro _ ⟨⟩
    rfl
  have useless : ¬ endlessScheme.Usable := fun usable => absurd usable.iterations.2 (by decide)
  have foreign : Foreign ⟨derivationIdentifier, none⟩ (.encryptionScheme derivationIdentifier) :=
    .scheme (by decide)
  refine ⟨⟨patient, usable, ?_⟩, ⟨endless, ?_⟩, foreign, refused _ _ foreign⟩
  · obtain ⟨found, given⟩ := (stated _ _ patient).1.mpr usable
    rw [given, (stated _ _ patient).2 found given]
  · intro found given
    exact useless ((stated _ _ endless).1.mp ⟨found, given⟩)

end PasswordScheme

end KeyFile
