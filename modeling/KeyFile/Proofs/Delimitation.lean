import KeyFile.Proofs.Encoding.Shortest
import KeyFile.Proofs.Normalization

/-!
# Where structures end

The header of a structure says where it ends, and the decoders hold the octets to it: what ends
earlier is refused because it does, and what goes on is refused with the count of the octets that
are too many. So no octets that are decoded begin with others that are decoded as the same
structure, and a block with half a key or with two keys in it is no key.
-/
namespace KeyFile

open Asn1

/-- The decoder refuses the beginnings and the continuations of the octets for where they end. -/
structure Delimited {α : Type} (decode : Bytes → Except Error α) (octets : Bytes) : Prop where
  cut {short : Bytes} (start : short <+: octets) (proper : short ≠ octets) :
    ∃ cause, cause.EndsEarly ∧ decode short = .error (.malformedDer cause)
  extended {suffix : Bytes} (filled : suffix ≠ []) :
    decode (octets ++ suffix) = .error (.malformedDer (.trailingData suffix.length))

namespace Delimited

variable {α β : Type} {octets : Bytes}

/-- A decoder that goes on with what another one has decoded fails as that one does. -/
theorem bind {decode : Bytes → Except Error α} (delimited : Delimited decode octets)
    (next : α → Except Error β) : Delimited (fun octets => decode octets >>= next) octets where
  cut start proper := by
    obtain ⟨cause, early, failed⟩ := delimited.cut start proper
    exact ⟨cause, early, by rw [failed]; rfl⟩
  extended filled := by
    rw [delimited.extended filled]
    rfl

theorem map {decode : Bytes → Except Error α} (delimited : Delimited decode octets) (f : α → β) :
    Delimited (fun octets => f <$> decode octets) octets := by
  simpa only [bind_pure_comp] using delimited.bind fun a => pure (f a)

end Delimited

/-! ## Reads with nothing after them -/

section Only

variable {α β : Type} {read : Read Asn1.Error α} {input rest : Bytes}

theorem Asn1.Read.run_only_of_error {cause : Asn1.Error}
    (failed : read.run input = (.error cause, rest)) :
    read.only.run input = (.error cause, rest) :=
  Read.run_bind_of_error failed

theorem Asn1.Read.run_only_of_ok {a : α} (done : read.run input = (.ok a, rest))
    (filled : rest ≠ []) : read.only.run input = (.error (.trailingData rest.length), rest) := by
  have more : rest.isEmpty = false := by simpa using filled
  rw [Read.only, Read.run_bind_of_ok done]
  exact Read.run_bind_of_error (by simp only [finish, more, Bool.false_eq_true, if_false])

/-- Octets that a read accepts are delimited if it refuses what is cut off. -/
theorem Asn1.Accepts.delimited {spelling : α → Bytes → Prop} (accepts : Accepts read spelling)
    {a : α} {octets : Bytes} (spelled : spelling a octets)
    (cut : ∀ {short}, short <+: octets → short ≠ octets →
      ∃ cause, cause.EndsEarly ∧ read.run short = (.error cause, short)) :
    Delimited (decodeOnly read) octets where
  cut start proper := by
    obtain ⟨cause, early, failed⟩ := cut start proper
    refine ⟨cause, early, ?_⟩
    simp only [decodeOnly, Read.decode, Read.run_only_of_error failed]
    rfl
  extended filled := by
    simp only [decodeOnly, Read.decode,
      Read.run_only_of_ok (accepts.reads spelled _) filled]
    rfl

end Only

/-- Whatever its fields are, a sequence is delimited by its header. -/
theorem delimited_decodeSequence {α : Type} {fields : Read Error α} {octets : Bytes} {a : α}
    (done : decodeSequence fields octets = .ok a) : Delimited (decodeSequence fields) octets := by
  rw [decodeSequence_eq_bind] at done
  rw [funext (decodeSequence_eq_bind fields)]
  -- Neither a cut nor an extension gets past the header, so the fields do not matter.
  obtain ⟨content, opened, -⟩ := Outcome.bind_eq_ok.mp done
  have framed := (decodeOnly_eq_ok_iff (accepts_readContent .sequence)).mp opened
  exact ((accepts_readContent .sequence).delimited framed (readContent_cut framed)).bind _

theorem AlgorithmIdentifier.delimited {octets : Bytes} {algorithm : AlgorithmIdentifier}
    (done : AlgorithmIdentifier.decode octets = .ok algorithm) :
    Delimited AlgorithmIdentifier.decode octets := by
  have spelled := decode_eq_ok_iff.mp done
  refine accepts_read.delimited spelled fun start proper => ?_
  obtain ⟨cause, early, failed⟩ := readContent_cut spelled.2 start proper
  exact ⟨cause, early, Read.run_bind_of_error failed⟩

namespace Document

theorem delimited_ofBlock {block : Pem.Block} {container : Container}
    (opened : Container.ofBlock block = .ok container) :
    Delimited (fun payload => Container.ofBlock { block with payload }) block.payload := by
  obtain ⟨current, stored⟩ := Container.ofBlock_eq_ok.mp opened
  -- The headers of a block say whether it is encrypted, whatever its payload is.
  have same (label : Pem.Label) (payload : Bytes) :
      Pem.Block.isLegacyEncrypted ⟨label, block.headers, payload⟩ = false := current
  cases stored with
  | rsa label decoded | ec label decoded | info label decoded | encrypted label decoded =>
    simp +decide only [Container.ofBlock, same, label, if_false, if_true]
    exact (delimited_decodeSequence decoded).map _

/-- Octets that are decoded as a structure are decoded as this structure only in one piece. A block
whose payload is a part of such octets or more than them is refused in the same way, whatever the
password is. -/
theorem structures_delimited :
    (∀ octets key, RsaKey.decode octets = .ok key → Delimited RsaKey.decode octets) ∧
      (∀ octets key, EcPrivateKey.decode octets = .ok key →
        Delimited EcPrivateKey.decode octets) ∧
      (∀ octets algorithm, AlgorithmIdentifier.decode octets = .ok algorithm →
        Delimited AlgorithmIdentifier.decode octets) ∧
      (∀ octets info, PrivateKeyInfo.decode octets = .ok info →
        Delimited PrivateKeyInfo.decode octets) ∧
      (∀ octets info, EncryptedKeyInfo.decode octets = .ok info →
        Delimited EncryptedKeyInfo.decode octets) ∧
      ∀ block container password, Container.ofBlock block = .ok container →
        Delimited (fun payload => readBlock password { block with payload }) block.payload := by
  refine ⟨fun _ _ => delimited_decodeSequence, fun _ _ => delimited_decodeSequence,
    fun _ _ => AlgorithmIdentifier.delimited, fun _ _ => delimited_decodeSequence,
    fun _ _ => delimited_decodeSequence, fun block container password opened => ?_⟩
  exact (delimited_ofBlock opened).bind (Container.toPrivateKey password)

theorem loose_delimited :
    Delimited RsaKey.decode looseRsaKey ∧ Delimited EcPrivateKey.decode looseEcKey ∧
      Delimited AlgorithmIdentifier.decode looseAlgorithm ∧
      Delimited PrivateKeyInfo.decode looseInfo ∧
      Delimited EncryptedKeyInfo.decode looseEncryptedInfo ∧
      readBlock none ⟨.rsaPrivateKey, [], looseRsaKey ++ looseRsaKey⟩ =
        .error (.malformedDer (.trailingData looseRsaKey.length)) := by
  obtain ⟨rsa, ec, algorithm, info, encrypted, block⟩ := structures_delimited
  have opened : Container.ofBlock ⟨.rsaPrivateKey, [], looseRsaKey⟩ = .ok (.rsa zeroKey) :=
    Container.ofBlock_eq_ok.mpr ⟨rfl, .rsa rfl decode_looseRsaKey⟩
  have filled : looseRsaKey ≠ [] := by decide +kernel
  exact ⟨rsa _ _ decode_looseRsaKey, ec _ _ decode_looseEcKey,
    algorithm _ _ decode_looseAlgorithm, info _ _ decode_looseInfo,
    encrypted _ _ decode_looseEncryptedInfo, (block _ _ none opened).extended filled⟩

end Document

end KeyFile
