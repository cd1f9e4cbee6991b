import KeyFile.Proofs.Encoding.Decoded

/-!
# Decoding undoes encoding

Algorithm identifiers, keys of any algorithm and encrypted keys share one condition on a value that
is read back from its written form: the parameters of the algorithm are absent or one whole element.
Nothing is asked of the other parts. The attributes are any octets, the public key has any number of
unused bits, and neither is taken for the other or lost.
-/
namespace KeyFile

open Asn1

theorem AlgorithmIdentifier.decode_ok {octets : Bytes} {algorithm : AlgorithmIdentifier}
    (done : decode octets = .ok algorithm) : algorithm.Sound :=
  (decode_eq_ok_iff.mp done).1

/-- A value is read back from its written form exactly if its parameters are one whole element or
absent. -/
theorem containers_read_back :
    (∀ algorithm : AlgorithmIdentifier, algorithm.encode.length < 2 ^ 64 →
        (AlgorithmIdentifier.decode algorithm.encode = .ok algorithm ↔ algorithm.Sound)) ∧
      (∀ info : PrivateKeyInfo, info.encode.length < 2 ^ 64 →
        (PrivateKeyInfo.decode info.encode = .ok info ↔ info.algorithm.Sound)) ∧
      ∀ info : EncryptedKeyInfo, info.encode.length < 2 ^ 64 →
        (EncryptedKeyInfo.decode info.encode = .ok info ↔ info.algorithm.Sound) := by
  refine ⟨?_, ?_, ?_⟩
  · intro algorithm fits
    constructor
    · exact AlgorithmIdentifier.decode_ok
    · intro sound
      exact AlgorithmIdentifier.decode_encode sound fits
  · intro info fits
    constructor
    · intro done
      exact (PrivateKeyInfo.decode_ok done).1
    · intro sound
      exact PrivateKeyInfo.decode_encode sound fits
  · intro info fits
    constructor
    · intro done
      exact (EncryptedKeyInfo.decode_ok done).1
    · intro sound
      exact EncryptedKeyInfo.decode_encode sound fits

/-- NULL parameters. -/
def nullAlgorithm : AlgorithmIdentifier :=
  ⟨Algorithm.rsa.identifier, some Element.null.encode⟩

/-- Empty attributes, and a public key with more unused bits than an octet has. -/
def crowdedInfo : PrivateKeyInfo :=
  ⟨.v1, nullAlgorithm, [1, 2, 3], some [], some ⟨9, []⟩⟩

/-- Nothing encrypted. -/
def emptyMessage : EncryptedKeyInfo :=
  ⟨nullAlgorithm, []⟩

theorem crowdedInfo_read_back :
    (nullAlgorithm.Sound ∧ nullAlgorithm.encode.length < 2 ^ 64 ∧
        crowdedInfo.encode.length < 2 ^ 64 ∧ emptyMessage.encode.length < 2 ^ 64) ∧
      AlgorithmIdentifier.decode nullAlgorithm.encode = .ok nullAlgorithm ∧
      PrivateKeyInfo.decode crowdedInfo.encode = .ok crowdedInfo ∧
      EncryptedKeyInfo.decode emptyMessage.encode = .ok emptyMessage := by
  have sound : nullAlgorithm.Sound := by
    rintro octets ⟨⟩
    rfl
  have first : nullAlgorithm.encode.length < 2 ^ 64 := by decide +kernel
  have second : crowdedInfo.encode.length < 2 ^ 64 := by decide +kernel
  have third : emptyMessage.encode.length < 2 ^ 64 := by decide +kernel
  obtain ⟨algorithm, info, encrypted⟩ := containers_read_back
  exact ⟨⟨sound, first, second, third⟩, (algorithm _ first).mpr sound, (info _ second).mpr sound,
    (encrypted _ third).mpr sound⟩

end KeyFile
