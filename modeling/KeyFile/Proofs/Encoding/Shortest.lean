import KeyFile.Proofs.Encoding.Structures

/-!
# Writing what has been decoded

Octets may be decoded although their length fields and integers are longer than they have to be, at
any depth. What is then written has none of this, so it is shorter; only parts that are kept as they
are stay as long as they were.
-/
namespace KeyFile

open Asn1

/-- Of all octets that decode to a value, those that are written for it are the fewest, and no
others are as few: they are the ones with the least length fields and the least integers. -/
def WritesShortest {α : Type} (decode : Bytes → Except Error α) (encode : α → Bytes)
    (element : α → Element) : Prop :=
  ∀ octets value, decode octets = .ok value →
    decode (encode value) = .ok value ∧ (encode value).length ≤ octets.length ∧
      ((encode value).length = octets.length ↔ encode value = octets) ∧
      ((element value).Spelling .least octets ↔ encode value = octets)

/-- It is enough to know which octets are decoded. -/
theorem WritesShortest.of_eq_ok_iff {α : Type} {decode : Bytes → Except Error α}
    {element : α → Element} {sound : α → Prop}
    (eq_ok_iff : ∀ {octets value}, decode octets = .ok value ↔
      sound value ∧ (element value).Spelling .accepted octets) :
    WritesShortest decode (fun value => (element value).encode) element := by
  intro octets value done
  obtain ⟨given, spelled⟩ := eq_ok_iff.mp done
  have shortest := (element value).shortens spelled
  refine ⟨?_, shortest.le, ⟨shortest.eq_of_length, congrArg List.length⟩, ?_⟩
  · exact eq_ok_iff.mpr ⟨given, (element value).spelling_encode Forms.admits_accepted spelled⟩
  · constructor
    · intro least
      exact ((element value).eq_encode least).symm
    · rintro rfl
      exact (element value).spelling_encode Forms.admits_least spelled

theorem WritesShortest.length_lt {α : Type} {decode : Bytes → Except Error α} {encode : α → Bytes}
    {element : α → Element} (shortest : WritesShortest decode encode element) {octets : Bytes}
    {value : α} (done : decode octets = .ok value) (other : encode value ≠ octets) :
    (encode value).length < octets.length := by
  obtain ⟨-, le, same, -⟩ := shortest octets value done
  exact Nat.lt_of_le_of_ne le fun equal => other (same.mp equal)

/-- Each structure that is decoded is written in the one shortest form. -/
theorem structures_written_shortest :
    WritesShortest RsaKey.decode RsaKey.encode RsaKey.element ∧
      WritesShortest EcPrivateKey.decode EcPrivateKey.encode EcPrivateKey.element ∧
      WritesShortest AlgorithmIdentifier.decode AlgorithmIdentifier.encode
        AlgorithmIdentifier.element ∧
      WritesShortest PrivateKeyInfo.decode PrivateKeyInfo.encode PrivateKeyInfo.element ∧
      WritesShortest EncryptedKeyInfo.decode EncryptedKeyInfo.encode EncryptedKeyInfo.element :=
  ⟨.of_eq_ok_iff (RsaKey.decode_eq_ok_iff.trans (iff_of_eq (true_and _)).symm),
    .of_eq_ok_iff EcPrivateKey.decode_eq_ok_iff, .of_eq_ok_iff AlgorithmIdentifier.decode_eq_ok_iff,
    .of_eq_ok_iff PrivateKeyInfo.decode_eq_ok_iff, .of_eq_ok_iff EncryptedKeyInfo.decode_eq_ok_iff⟩

/-! ## Loose octets -/

/-- An element whose length field has two octets more than it needs. -/
def looseElement (tag : Tag) (content : Bytes) : Bytes :=
  tag.octet :: 0x82 :: 0 :: UInt8.ofNat content.length :: content

/-- Nine zeros of two octets each. -/
def looseRsaKey : Bytes :=
  looseElement .sequence (List.replicate 9 (looseElement .integer [0, 0])).flatten

def looseEcKey : Bytes :=
  looseElement .sequence (looseElement .integer [0, 1] ++ looseElement .octetString [7] ++
    looseElement (.explicit 1) (looseElement .bitString [0, 9]))

def looseAlgorithm : Bytes :=
  looseElement .sequence (looseElement .objectIdentifier [42] ++ looseElement .null [])

def looseInfo : Bytes :=
  looseElement .sequence (looseElement .integer [0, 0] ++ looseAlgorithm ++
    looseElement .octetString [7])

def looseEncryptedInfo : Bytes :=
  looseElement .sequence (looseAlgorithm ++ looseElement .octetString [7])

/-- An RSA key of zeros. -/
def zeroKey : RsaKey := ⟨0, 0, 0, 0, 0, 0, 0, 0⟩

def oneOctetKey : EcPrivateKey := ⟨[7], none, some ⟨0, [9]⟩⟩

/-- The parameters keep the length field that they have. -/
def keptAlgorithm : AlgorithmIdentifier := ⟨{ arcs := [1, 2] }, some (looseElement .null [])⟩

theorem decode_looseRsaKey : RsaKey.decode looseRsaKey = .ok zeroKey :=
  Outcome.toOption_eq_some.mp (by decide +kernel)

theorem decode_looseEcKey : EcPrivateKey.decode looseEcKey = .ok oneOctetKey :=
  Outcome.toOption_eq_some.mp (by decide +kernel)

theorem decode_looseAlgorithm : AlgorithmIdentifier.decode looseAlgorithm = .ok keptAlgorithm :=
  Outcome.toOption_eq_some.mp (by decide +kernel)

theorem decode_looseInfo :
    PrivateKeyInfo.decode looseInfo = .ok ⟨.v1, keptAlgorithm, [7], none, none⟩ :=
  Outcome.toOption_eq_some.mp (by decide +kernel)

theorem decode_looseEncryptedInfo :
    EncryptedKeyInfo.decode looseEncryptedInfo = .ok ⟨keptAlgorithm, [7]⟩ :=
  Outcome.toOption_eq_some.mp (by decide +kernel)

theorem loose_written_shorter :
    (RsaKey.decode zeroKey.encode = .ok zeroKey ∧
        zeroKey.encode.length < looseRsaKey.length) ∧
      (EcPrivateKey.decode oneOctetKey.encode = .ok oneOctetKey ∧
        oneOctetKey.encode.length < looseEcKey.length) ∧
      (AlgorithmIdentifier.decode keptAlgorithm.encode = .ok keptAlgorithm ∧
        keptAlgorithm.encode.length < looseAlgorithm.length) ∧
      (PrivateKeyInfo.encode ⟨.v1, keptAlgorithm, [7], none, none⟩).length < looseInfo.length ∧
      (EncryptedKeyInfo.encode ⟨keptAlgorithm, [7]⟩).length < looseEncryptedInfo.length := by
  obtain ⟨rsa, ec, algorithm, info, encrypted⟩ := structures_written_shortest
  exact ⟨⟨(rsa _ _ decode_looseRsaKey).1, rsa.length_lt decode_looseRsaKey (by decide +kernel)⟩,
    ⟨(ec _ _ decode_looseEcKey).1, ec.length_lt decode_looseEcKey (by decide +kernel)⟩,
    ⟨(algorithm _ _ decode_looseAlgorithm).1,
      algorithm.length_lt decode_looseAlgorithm (by decide +kernel)⟩,
    info.length_lt decode_looseInfo (by decide +kernel),
    encrypted.length_lt decode_looseEncryptedInfo (by decide +kernel)⟩

end KeyFile
