import KeyFile.Document
import KeyFile.Proofs.Encoding.Faults

/-!
# Keys in encodings of their own

RSA keys and elliptic curve keys have encodings of their own, beside the form for keys of any
algorithm. Both are read back from what is written for them. Of RSA keys exactly the form with two
primes is accepted, and of the other octets the version tells how they are refused.
-/
namespace KeyFile

open Asn1 Document

/-! ## RSA keys -/

namespace RsaKey

variable {octets : Bytes} {version : UInt64}

/-- One whole sequence that begins with that version. Anything may come after the version. -/
def Versioned (version : UInt64) : Bytes → Prop :=
  Framed .accepted .sequence fun content =>
    ∃ front rest, (Element.word version).Spelling .accepted front ∧ content = front ++ rest

/-- One whole sequence of nine integers and nothing else. The first of them is zero, and none is
negative. -/
def TwoPrimeForm (octets : Bytes) : Prop :=
  ∃ numbers : List Nat, numbers.length = 8 ∧
    (Element.sequence ((0 :: numbers).map Element.unsigned)).Spelling .accepted octets

theorem accepted_iff : (∃ key, decode octets = .ok key) ↔ TwoPrimeForm octets := by
  constructor
  · rintro ⟨key, done⟩
    exact ⟨[key.modulus, key.publicExponent, key.privateExponent, key.prime1, key.prime2,
      key.exponent1, key.exponent2, key.coefficient], rfl, decode_eq_ok_iff.mp done⟩
  · rintro ⟨numbers, eight, spelled⟩
    match numbers, eight with
    | [modulus, publicExponent, privateExponent, prime1, prime2, exponent1, exponent2,
        coefficient], _ =>
      exact ⟨⟨modulus, publicExponent, privateExponent, prime1, prime2, exponent1, exponent2,
        coefficient⟩, decode_eq_ok_iff.mpr spelled⟩

/-! ### Versions -/

/-- What the version decides: which error there is at once, or else that only an element can be at
fault. -/
structure ByVersion (next : UInt64 → Read Error RsaKey) : Prop where
  multiPrime (input : Bytes) : (next 1).run input = (.error (.unsupported .multiPrimeRsa), input)
  larger {version : UInt64} (more : 1 < version) (input : Bytes) :
    (next version).run input = (.error (.malformedKey (.rsaVersion version)), input)
  twoPrime : Read.Confined (fun e => ∃ cause, e = .malformedDer cause) (next 0)

theorem exists_byVersion : ∃ next, fields = (liftM readWord >>= next) ∧ ByVersion next := by
  refine ⟨_, rfl, ?_, ?_, ?_⟩
  · intro input
    rfl
  · intro version more input
    have refused : RsaVersion.ofWord version = .error (.malformedKey (.rsaVersion version)) := by
      rw [RsaVersion.ofWord, versionOf, if_neg (by rintro rfl; contradiction),
        if_neg (by rintro rfl; contradiction)]
    rw [Read.run_bind_of_error]
    exact Prod.ext refused rfl
  · change Read.Confined _ (liftM readUnsigned >>= _ : Read Error RsaKey)
    have element {α : Type} (read : Read Asn1.Error α) :
        Read.Confined (fun e => ∃ cause, e = .malformedDer cause) (liftM read : Read Error α) :=
      .mapError fun cause => ⟨cause, rfl⟩
    repeat refine .bind (element _) fun _ => ?_
    exact .pure _

theorem decode_of_versioned {next : UInt64 → Read Error RsaKey} {e : Error}
    (parts : fields = (liftM readWord >>= next))
    (refused : ∀ input, (next version).run input = (.error e, input))
    (versioned : Versioned version octets) : decode octets = .error e := by
  obtain ⟨_, ⟨front, rest, spelled, rfl⟩, framed⟩ := versioned.exists_content
  have opened : decodeOnly readSequence octets = .ok (front ++ rest) :=
    (decodeOnly_eq_ok_iff (accepts_readContent .sequence)).mpr framed
  rw [decode, decodeSequence_eq_bind, Outcome.bind_of_ok opened, parts,
    (accepts_readWord.reads spelled).lift.run_bind, refused]

theorem decode_of_one (versioned : Versioned 1 octets) :
    decode octets = .error (.unsupported .multiPrimeRsa) := by
  obtain ⟨next, parts, byVersion⟩ := exists_byVersion
  exact decode_of_versioned parts byVersion.multiPrime versioned

theorem decode_of_larger (more : 1 < version) (versioned : Versioned version octets) :
    decode octets = .error (.malformedKey (.rsaVersion version)) := by
  obtain ⟨next, parts, byVersion⟩ := exists_byVersion
  exact decode_of_versioned parts (byVersion.larger more) versioned

/-- Octets are refused for an element of theirs, or for the version that they begin with. -/
theorem decode_eq_error {e : Error} (fault : decode octets = .error e) :
    (∃ cause, e = .malformedDer cause) ∨
      Versioned 1 octets ∧ e = .unsupported .multiPrimeRsa ∨
        ∃ version, 1 < version ∧ Versioned version octets ∧
          e = .malformedKey (.rsaVersion version) := by
  obtain ⟨next, parts, byVersion⟩ := exists_byVersion
  rw [decode, decodeSequence_eq_bind] at fault
  cases opened : decodeOnly readSequence octets with
  | error other =>
    rw [opened] at fault
    cases fault
    obtain ⟨cause, -, rfl⟩ := Outcome.mapError_eq_error.mp opened
    exact .inl ⟨cause, rfl⟩
  | ok content =>
    have framed := (decodeOnly_eq_ok_iff (accepts_readContent .sequence)).mp opened
    rw [Outcome.bind_of_ok opened, parts, liftM_read, Read.run_bind] at fault
    rcases read : readWord.run content with ⟨_ | version, rest⟩
    · -- There is no version.
      simp only [Read.mapError, read] at fault
      cases fault
      exact .inl ⟨_, rfl⟩
    · obtain ⟨front, spelled, rfl⟩ := accepts_readWord.run_eq_ok.mp read
      have versioned : Versioned version octets :=
        framed.of_content ⟨front, rest, spelled, rfl⟩
      simp only [Read.mapError, read] at fault
      change ((next version).run rest).1 = .error e at fault
      have known : version = 0 ∨ version = 1 ∨ 1 < version := by
        simp only [← UInt64.toNat_inj, UInt64.lt_iff_toNat_lt, UInt64.toNat_zero,
          UInt64.toNat_one]
        omega
      rcases known with rfl | rfl | more
      · exact .inl (byVersion.twoPrime rest e fault)
      · rw [byVersion.multiPrime] at fault
        cases fault
        exact .inr (.inl ⟨versioned, rfl⟩)
      · rw [byVersion.larger more] at fault
        cases fault
        exact .inr (.inr ⟨version, more, versioned, rfl⟩)

theorem decode_eq_multiPrime_iff :
    decode octets = .error (.unsupported .multiPrimeRsa) ↔ Versioned 1 octets := by
  constructor
  · intro fault
    rcases decode_eq_error fault with ⟨_, other⟩ | ⟨versioned, -⟩ | ⟨_, _, _, other⟩
    · cases other
    · exact versioned
    · cases other
  · exact decode_of_one

theorem decode_eq_rsaVersion_iff :
    decode octets = .error (.malformedKey (.rsaVersion version)) ↔
      1 < version ∧ Versioned version octets := by
  constructor
  · intro fault
    rcases decode_eq_error fault with ⟨_, other⟩ | ⟨_, other⟩ | ⟨_, more, versioned, same⟩
    · cases other
    · cases other
    · cases same
      exact ⟨more, versioned⟩
  · rintro ⟨more, versioned⟩
    exact decode_of_larger more versioned

/-- RSA keys of any numbers are read back, as they are and as private keys. What is accepted is
the form with two primes and nothing else; whatever comes after another version, that version is
what is reported, and in all other cases an element is at fault. -/
theorem twoPrime_exact :
    (∀ key : RsaKey, key.encode.length < 2 ^ 64 → decode key.encode = .ok key ∧
      ∀ password, readBlock password ⟨.rsaPrivateKey, [], key.encode⟩ = .ok (.rsa key)) ∧
    (∀ key : RsaKey, (PrivateKey.rsa key).rsaKey? = some key) ∧
    (∀ octets, (∃ key, decode octets = .ok key) ↔ TwoPrimeForm octets) ∧
    (∀ octets, decode octets = .error (.unsupported .multiPrimeRsa) ↔ Versioned 1 octets) ∧
    (∀ octets version, decode octets = .error (.malformedKey (.rsaVersion version)) ↔
      1 < version ∧ Versioned version octets) ∧
    ∀ octets, TwoPrimeForm octets ∨ Versioned 1 octets ∨
      (∃ version, 1 < version ∧ Versioned version octets) ∨
        ∃ cause, decode octets = .error (.malformedDer cause) := by
  refine ⟨fun key fits => ?_, fun _ => rfl, fun _ => accepted_iff,
    fun _ => decode_eq_multiPrime_iff, fun _ _ => decode_eq_rsaVersion_iff, fun octets => ?_⟩
  · have decoded := decode_encode fits
    have opened : Container.ofBlock ⟨.rsaPrivateKey, [], key.encode⟩ = .ok (.rsa key) :=
      Outcome.map_eq_ok.mpr ⟨key, decoded, rfl⟩
    exact ⟨decoded, fun password => Outcome.bind_of_ok opened⟩
  · cases given : decode octets with
    | ok key => exact .inl (accepted_iff.mp ⟨key, given⟩)
    | error e =>
      rcases decode_eq_error given with
        ⟨cause, rfl⟩ | ⟨versioned, -⟩ | ⟨version, more, versioned, -⟩
      · exact .inr (.inr (.inr ⟨cause, rfl⟩))
      · exact .inr (.inl versioned)
      · exact .inr (.inr (.inl ⟨version, more, versioned⟩))

/-- Numbers about the sign bit and beyond 64 bits. -/
def boundaryKey : RsaKey :=
  ⟨128, 65537, 0, 255, 256, 18446744073709551616, 1, 127⟩

/-- A sequence that begins with a version and goes on with what is no element. -/
def brokenAfter (version : UInt64) : Bytes :=
  Asn1.element .sequence ((Element.word version).encode ++ [0xff, 0xff])

theorem versioned_brokenAfter (version : UInt64) : Versioned version (brokenAfter version) := by
  have width := length_integerContent_word version
  have size := length_element_le .integer (integerContent version.toNat) (by omega)
  have spelled : (Element.word version).Spelling .accepted (Element.word version).encode :=
    (Element.word version).spelling_of_fits trivial (Nat.lt_of_le_of_lt size (by omega))
  refine .element Forms.admits_accepted (by decide) ?_ ⟨_, [0xff, 0xff], spelled, rfl⟩
  simp only [Element.encode, List.length_append, List.length_cons, List.length_nil]
  omega

theorem boundaryKey_exact :
    (boundaryKey.encode.length < 2 ^ 64 ∧ decode boundaryKey.encode = .ok boundaryKey ∧
      TwoPrimeForm boundaryKey.encode) ∧
    decode (brokenAfter 1) = .error (.unsupported .multiPrimeRsa) ∧
    decode (brokenAfter 18446744073709551615) =
      .error (.malformedKey (.rsaVersion 18446744073709551615)) ∧
    decode (brokenAfter 0) = .error (.malformedDer (.unexpectedTag .integer (.other 0xff))) := by
  have fits : boundaryKey.encode.length < 2 ^ 64 := by decide +kernel
  obtain ⟨readBack, -, accepted, multiPrime, larger, -⟩ := twoPrime_exact
  have decoded := (readBack boundaryKey fits).1
  exact ⟨⟨fits, decoded, (accepted _).mp ⟨_, decoded⟩⟩,
    (multiPrime _).mpr (versioned_brokenAfter 1),
    (larger _ _).mpr ⟨by decide, versioned_brokenAfter _⟩, rfl⟩

end RsaKey

/-! ## Elliptic curve keys -/

namespace EcPrivateKey

/-- Whichever of its fields are there, a key is read back from what is written for it exactly if
they are what they have to be. A public key whose unused bits it cannot have is written all the
same, and refused for them. No two keys are written alike. -/
theorem read_back_exact :
    (∀ key : EcPrivateKey, key.encode.length < 2 ^ 64 →
      (decode key.encode = .ok key ↔ key.Sound)) ∧
    (∀ (key : EcPrivateKey) (bits : BitString), key.encode.length < 2 ^ 64 →
      (∀ choice ∈ key.parameters, choice.Sound) → key.publicKey = some bits → ¬ bits.Valid →
        decode key.encode =
          .error (.malformedDer (.invalidBitString (.unusedBits bits.unusedBits)))) ∧
    ∀ left right : EcPrivateKey, left.Sound → right.Sound → left.encode.length < 2 ^ 64 →
      left.encode = right.encode → left = right := by
  refine ⟨fun key fits => ?_, fun key bits fits choices given invalid => ?_,
    fun left right sound sound' fits same => ?_⟩
  · constructor
    · intro done
      exact (decode_eq_ok_iff.mp done).1
    · intro sound
      exact decode_encode sound fits
  · rw [decode_encode_eq choices fits, given, bitsJudged, if_neg invalid]
    rfl
  · have decoded := decode_encode sound fits
    rw [same, decode_encode sound' (same ▸ fits), Except.ok.injEq] at decoded
    exact decoded.symm

/-- Domain parameters, and a public key of five bits. -/
def explicitKey : EcPrivateKey := ⟨[], some (.explicit [0x30, 0]), some ⟨3, [0x88]⟩⟩

/-- A curve that is inherited, and a public key without octets that lacks a bit. -/
def missingBit : EcPrivateKey := ⟨[7], some .implicit, some ⟨1, []⟩⟩

theorem explicitKey_read_back :
    (explicitKey.Sound ∧ explicitKey.encode.length < 2 ^ 64 ∧
      decode explicitKey.encode = .ok explicitKey) ∧
    ((∀ choice ∈ missingBit.parameters, choice.Sound) ∧ missingBit.encode.length < 2 ^ 64 ∧
      decode missingBit.encode = .error (.malformedDer (.invalidBitString (.unusedBits 1)))) ∧
    (Sound ⟨[], none, none⟩ ∧ encode ⟨[], none, none⟩ ≠ explicitKey.encode) := by
  have sound : explicitKey.Sound :=
    { parameters := by rintro choice ⟨⟩; exact ⟨rfl, rfl⟩
      publicKey := by rintro bits ⟨⟩; decide }
  have choices : ∀ choice ∈ missingBit.parameters, choice.Sound := by
    rintro choice ⟨⟩
    trivial
  have empty : Sound ⟨[], none, none⟩ := ⟨nofun, nofun⟩
  have fits : explicitKey.encode.length < 2 ^ 64 := by decide +kernel
  have short : missingBit.encode.length < 2 ^ 64 := by decide +kernel
  obtain ⟨readBack, refused, unlike⟩ := read_back_exact
  refine ⟨⟨sound, fits, (readBack _ fits).mpr sound⟩,
    ⟨choices, short, refused missingBit ⟨1, []⟩ short choices rfl (by decide)⟩, empty, ?_⟩
  intro same
  cases unlike _ _ empty sound (by decide +kernel) same

end EcPrivateKey

end KeyFile
