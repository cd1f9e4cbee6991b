import KeyFile.Proofs.Encoding.Structures

/-!
# Bit strings and public keys

A bit string is read in two places. As an element of its own it is judged: at most seven bits are
unused, and none if there are no octets. As the public key beside a private key it has another tag,
and its content is split without being judged. So the two agree on a content exactly if there is
nothing to judge, because it is empty, or if the judgement is favourable.
-/
namespace KeyFile

open Asn1

namespace PrivateKeyInfo

variable {info : PrivateKeyInfo} {content octets : Bytes}

/-- The element of a key whose public key has that content, whether or not this is a bit string. -/
def elementHolding (info : PrivateKeyInfo) (content : Bytes) : Element :=
  .sequence ([.word info.version.word, info.algorithm.element, .octetString info.privateKey] ++
    info.attributes.toList.map (.tagged attributesTag) ++ [.tagged publicKeyTag content])

/-- The key with that public key. -/
def publishing (info : PrivateKeyInfo) (bits : BitString) : PrivateKeyInfo :=
  { info with publicKey := some bits }

theorem spelling_elementHolding (sound : info.algorithm.Sound)
    (fits : (info.elementHolding content).encode.length < 2 ^ 64) :
    (info.elementHolding content).Spelling .accepted (info.elementHolding content).encode := by
  refine (info.elementHolding content).spelling_of_fits (AllSound.append (AllSound.append ?_ ?_) ?_)
    fits
  · exact ⟨trivial, sound.element, trivial, trivial⟩
  · exact .toList fun _ _ => show attributesTag.Canonical by decide
  · exact ⟨show publicKeyTag.Canonical by decide, trivial⟩

/-- The public key comes last, so the content settles whether the whole is a key. -/
theorem decode_elementHolding (sound : info.algorithm.Sound)
    (spelled : (info.elementHolding content).Spelling .accepted octets) :
    decode octets = info.publishing <$>
      (BitString.ofContent content).mapError fun cause =>
        .malformedDer (.invalidBitString cause) := by
  obtain ⟨inner, held, decoded⟩ := decodeSequence_spelled spelled fields
  obtain ⟨_, _, start, ⟨publicKey, _, published, rfl, rfl⟩, rfl⟩ := spellings_append.mp held
  obtain ⟨_, attributes, ⟨version, _, versioned, ⟨algorithm, _, identified,
    ⟨privateKey, _, wrapped, rfl, rfl⟩, rfl⟩, rfl⟩, listed, rfl⟩ := spellings_append.mp start
  simp only [List.append_assoc, List.append_nil] at decoded
  have known (rest : Bytes) :
      (liftM (InfoVersion.ofWord info.version.word) : Read Error InfoVersion).run rest =
        (.ok info.version, rest) :=
    Read.run_ofExcept_eq_ok.mpr ⟨InfoVersion.ofWord_eq_ok_iff.mpr rfl, rfl⟩
  -- Without attributes, the public key is not taken for them.
  have other : publicKey.head?.map Tag.ofOctet ≠ some attributesTag := by
    rw [Framed.head published, ne_eq, Option.some.injEq]
    decide
  have optional : (readOptional attributesTag).run (attributes ++ publicKey) =
      (.ok info.attributes, publicKey) :=
    (acceptsOptional_readOptional attributesTag).run_eq_ok_iff.mpr
      ⟨⟨fun _ _ => trivial, fun _ => other⟩, attributes, listed, rfl⟩
  have last : (readOptional publicKeyTag).run publicKey = (.ok (some content), []) :=
    (acceptsOptional_readOptional publicKeyTag).some_iff.mpr
      ⟨publicKey, ⟨trivial, published⟩, (List.append_nil _).symm⟩
  -- All fields are read as they are spelled, and only the split of the content is left to decide.
  rw [decode, decoded, fields, (accepts_readWord.lift.reads versioned).run_bind,
    Read.run_bind_of_ok (known _),
    (AlgorithmIdentifier.accepts_read.lift.reads ⟨sound, identified⟩).run_bind,
    (accepts_readOctetString.lift.reads wrapped).run_bind, liftM_read,
    Read.run_bind_of_ok (Read.run_mapError_eq_ok.mpr optional), liftM_read,
    Read.run_bind_of_ok (Read.run_mapError_eq_ok.mpr last)]
  simp only [Read.run_bind, Read.run_map, Read.ofExcept]
  cases BitString.ofContent content <;> rfl

theorem decode_elementHolding_eq_ok_iff (sound : info.algorithm.Sound)
    (spelled : (info.elementHolding content).Spelling .accepted octets) {outer : PrivateKeyInfo} :
    decode octets = .ok outer ↔ ∃ bits, content = bits.content ∧ info.publishing bits = outer := by
  rw [decode_elementHolding sound spelled]
  simp only [Outcome.map_eq_ok, Outcome.mapError_eq_ok, ofContent_eq_ok_iff]

/-- As an element of its own the content has to be that of a valid bit string. -/
theorem readBitString_eq_ok_iff {element : Bytes}
    (framed : Framed .accepted .bitString (· = content) element) (rest : Bytes) {bits : BitString} :
    (readBitString.run (element ++ rest)).1 = .ok bits ↔ bits.Valid ∧ content = bits.content := by
  rw [run_readBitString framed rest, Outcome.mapError_eq_ok, ofValidContent_eq_ok_iff]

/-- What is read as a bit string of its own is also taken for a public key, with the same unused
bits and octets. The two readings agree exactly if no bit string with this content is invalid;
otherwise the public key is taken with unused bits that no bit string can have. -/
theorem publicKey_agrees_iff (sound : info.algorithm.Sound)
    (spelled : (info.elementHolding content).Spelling .accepted octets) {element : Bytes}
    (framed : Framed .accepted .bitString (· = content) element) (rest : Bytes) :
    (∀ bits, (readBitString.run (element ++ rest)).1 = .ok bits →
      decode octets = .ok (info.publishing bits)) ∧
    ((decode octets).toOption =
        (readBitString.run (element ++ rest)).1.toOption.map info.publishing ↔
      ∀ bits : BitString, content = bits.content → bits.Valid) ∧
    ∀ bits : BitString, content = bits.content → ¬ bits.Valid →
      decode octets = .ok (info.publishing bits) ∧
        readBitString.run (element ++ rest) =
          (.error (.invalidBitString (.unusedBits bits.unusedBits)), rest) := by
  have alone {bits : BitString} : (readBitString.run (element ++ rest)).1 = .ok bits ↔
      bits.Valid ∧ content = bits.content := readBitString_eq_ok_iff framed rest
  have beside {outer : PrivateKeyInfo} : decode octets = .ok outer ↔
      ∃ bits, content = bits.content ∧ info.publishing bits = outer :=
    decode_elementHolding_eq_ok_iff sound spelled
  refine ⟨?_, ?_, ?_⟩
  · intro bits read
    obtain ⟨-, same⟩ := alone.mp read
    exact beside.mpr ⟨bits, same, rfl⟩
  · constructor
    · intro agree bits same
      have taken : decode octets = .ok (info.publishing bits) := beside.mpr ⟨bits, same, rfl⟩
      rw [taken] at agree
      obtain ⟨found, read, -⟩ := Option.map_eq_some_iff.mp agree.symm
      obtain ⟨valid, same'⟩ := alone.mp (Outcome.toOption_eq_some.mp read)
      -- Only one bit string has the content.
      cases (ofContent_eq_ok_iff.mpr same).symm.trans (ofContent_eq_ok_iff.mpr same')
      exact valid
    · intro valid
      -- Then being valid is no condition, and both sides ask for the same bit string.
      ext outer
      simp only [Outcome.toOption_eq_some, Option.map_eq_some_iff, alone, beside]
      constructor
      · rintro ⟨bits, same, rfl⟩
        exact ⟨bits, ⟨valid bits same, same⟩, rfl⟩
      · rintro ⟨bits, ⟨-, same⟩, rfl⟩
        exact ⟨bits, same, rfl⟩
  · rintro bits rfl invalid
    refine ⟨beside.mpr ⟨bits, rfl, rfl⟩, ?_⟩
    rw [run_readBitString framed rest, ofValidContent_of_invalid invalid]
    rfl

/-- An Ed25519 key, to be given a public key. -/
def publishedSeed : PrivateKeyInfo where
  version := .v2
  algorithm := ⟨(Algorithm.raw .ed25519).identifier, none⟩
  privateKey := (Element.octetString (List.replicate 32 7)).encode
  attributes := none
  publicKey := none

theorem spelling_publishedSeed
    (fits : (publishedSeed.elementHolding content).encode.length < 2 ^ 64) :
    publishedSeed.algorithm.Sound ∧ (publishedSeed.elementHolding content).Spelling .accepted
      (publishedSeed.elementHolding content).encode := by
  have sound : publishedSeed.algorithm.Sound := nofun
  exact ⟨sound, spelling_elementHolding sound fits⟩

/-- Eight unused bits, which no bit string can have. -/
def eightUnused : BitString := ⟨8, List.replicate 32 0xab⟩

theorem eightUnused_taken :
    decode (publishedSeed.elementHolding eightUnused.content).encode =
        .ok (publishedSeed.publishing eightUnused) ∧
      readBitString.run (Element.bitString eightUnused).encode =
        (.error (.invalidBitString (.unusedBits 8)), []) := by
  obtain ⟨sound, spelled⟩ := spelling_publishedSeed
    (show (publishedSeed.elementHolding eightUnused.content).encode.length < 2 ^ 64 by decide)
  refine ⟨?_, rfl⟩
  exact (decode_elementHolding_eq_ok_iff sound spelled).mpr ⟨eightUnused, rfl, rfl⟩

/-- Seven unused bits may be. -/
theorem sevenUnused_agrees :
    (publishedSeed.algorithm.Sound ∧
      (publishedSeed.elementHolding [7, 0x80]).Spelling .accepted
        (publishedSeed.elementHolding [7, 0x80]).encode ∧
      Framed .accepted .bitString (· = [7, 0x80]) [3, 2, 7, 0x80]) ∧
    (decode (publishedSeed.elementHolding [7, 0x80]).encode).toOption =
      (readBitString.run ([3, 2, 7, 0x80] ++ [5])).1.toOption.map publishedSeed.publishing := by
  obtain ⟨sound, spelled⟩ := spelling_publishedSeed
    (show (publishedSeed.elementHolding [7, 0x80]).encode.length < 2 ^ 64 by decide)
  have short : ([7, 0x80] : Bytes).length < 2 ^ 64 := by decide
  have canonical : Tag.bitString.Canonical := by decide
  have framed : Framed .accepted .bitString (· = [7, 0x80]) [3, 2, 7, 0x80] :=
    .element Forms.admits_accepted canonical short rfl
  refine ⟨⟨sound, spelled, framed⟩, (publicKey_agrees_iff sound spelled framed [5]).2.1.mpr ?_⟩
  rintro ⟨_, _⟩ ⟨⟩
  decide

end PrivateKeyInfo

end KeyFile
