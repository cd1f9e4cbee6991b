import KeyFile.Proofs.Encoding.Decryption
import KeyFile.Proofs.Encoding.Structures

/-!
# Faults of decoders

Decoding a structure, and reading a key from it, fails only for what the octets say: because they
are no elements, because the elements make no key, or because they ask for something that is not
supported. The text that the octets came from and a password are never at fault.
-/
namespace KeyFile

open Asn1

/-- Whether an error is about the octets of a key. -/
def Error.OfOctets : Error → Prop
  | .malformedDer _ | .malformedKey _ | .unsupported _ => True
  | .noKeyFound | .malformedPem _ | .passwordRequired | .decryptionFailed => False

/-- Whether an error is about the octets of a key alone, and not about armor that encrypts them. -/
def Error.OfPayload : Error → Prop
  | .unsupported (.legacyEncryption _) => False
  | e => e.OfOctets

/-- What can be said of the parameters of a key derivation. -/
def Error.OfDerivation : Error → Prop
  | .malformedDer _ | .malformedKey _ | .unsupported .saltSource
  | .unsupported (.keyedDigest _) => True
  | _ => False

/-- What can be said of the parameters of a scheme. -/
def Error.OfParameters : Error → Prop
  | .unsupported (.keyDerivation _) | .unsupported (.cipher _) => True
  | e => e.OfDerivation

/-- The kinds that broken elements belong to. -/
class Error.OfElements (kind : Error → Prop) : Prop where
  element : ∀ cause, kind (.malformedDer cause)

instance : Error.OfElements Error.OfPayload := ⟨fun _ => trivial⟩

instance : Error.OfElements Error.OfDerivation := ⟨fun _ => trivial⟩

instance : Error.OfElements Error.OfParameters := ⟨fun _ => trivial⟩

theorem Error.OfDerivation.ofParameters {e : Error} (given : e.OfDerivation) : e.OfParameters := by
  unfold Error.OfParameters
  split <;> trivial

theorem Error.OfParameters.ofPayload {e : Error} (given : e.OfParameters) : e.OfPayload := by
  unfold Error.OfParameters Error.OfDerivation at given
  split at given <;> first | trivial | (split at given <;> trivial)

theorem Error.OfPayload.ofOctets {e : Error} (given : e.OfPayload) : e.OfOctets := by
  unfold Error.OfPayload at given
  split at given
  · exact given.elim
  · exact given

/-! ## Kinds of errors -/

section Kinds

variable {ε ε' α β : Type} {kind wider : ε → Prop}

/-- The outcome is a success or an error of that kind. -/
def Outcome.Confined (kind : ε → Prop) (outcome : Except ε α) : Prop :=
  ∀ e, outcome = .error e → kind e

/-- Whatever octets are read, the outcome is a success or an error of that kind. -/
def Asn1.Read.Confined (kind : ε → Prop) (read : Read ε α) : Prop :=
  ∀ input, Outcome.Confined kind (read.run input).1

namespace Outcome.Confined

theorem ok (a : α) : Confined kind (.ok a) := by
  intro e fault
  cases fault

theorem error {e : ε} (given : kind e) : Confined kind (.error e : Except ε α) := by
  intro other fault
  cases fault
  exact given

theorem mono {outcome : Except ε α} (here : Confined kind outcome)
    (each : ∀ e, kind e → wider e) : Confined wider outcome :=
  fun e fault => each e (here e fault)

theorem bind {first : Except ε α} {next : α → Except ε β} (here : Confined kind first)
    (later : ∀ a, Confined kind (next a)) : Confined kind (first >>= next) := by
  cases first with
  | error e => exact error (here e rfl)
  | ok a => exact later a

theorem map {outcome : Except ε α} (here : Confined kind outcome) (f : α → β) :
    Confined kind (f <$> outcome) := by
  cases outcome with
  | error e => exact error (here e rfl)
  | ok a => exact ok (f a)

theorem mapError {outcome : Except ε' α} {rename : ε' → ε} (each : ∀ e, kind (rename e)) :
    Confined kind (outcome.mapError rename) := by
  cases outcome with
  | error e => exact error (each e)
  | ok a => exact ok a

theorem ite {c : Prop} [Decidable c] {yes no : Except ε α} (first : c → Confined kind yes)
    (second : ¬ c → Confined kind no) : Confined kind (if c then yes else no) := by
  split
  next holds => exact first holds
  next fails => exact second fails

/-- A check that throws, and what comes after it. -/
theorem check {c : Prop} [Decidable c] {e : ε} {next : Unit → Except ε α} (thrown : kind e)
    (later : Confined kind (next ())) :
    Confined kind (if c then throw e >>= next else next ()) :=
  .ite (fun _ => error thrown) fun _ => later

end Outcome.Confined

namespace Asn1.Read.Confined

theorem pure (a : α) : Confined kind (Pure.pure a : Read ε α) :=
  fun _ => Outcome.Confined.ok a

theorem throw {e : ε} (given : kind e) : Confined kind (MonadExcept.throw e : Read ε α) :=
  fun _ => Outcome.Confined.error given

theorem bind {first : Read ε α} {next : α → Read ε β} (here : Confined kind first)
    (later : ∀ a, Confined kind (next a)) : Confined kind (first >>= next) := by
  intro input
  rw [run_bind]
  have first := here input
  split
  next a rest _ => exact later a rest
  next e rest found =>
    rw [found] at first
    exact Outcome.Confined.error (first e rfl)

theorem map {read : Read ε α} (here : Confined kind read) (f : α → β) :
    Confined kind (f <$> read) :=
  bind here fun a => pure (f a)

theorem ofExcept {outcome : Except ε α} (here : Outcome.Confined kind outcome) :
    Confined kind (Read.ofExcept outcome) :=
  fun _ => here

theorem mapError {read : Read ε' α} {rename : ε' → ε} (each : ∀ e, kind (rename e)) :
    Confined kind (read.mapError rename) :=
  fun _ => Outcome.Confined.mapError each

theorem inside {read : Read ε α} (here : Confined kind read) (content : Bytes) :
    Confined kind (Read.inside content read) :=
  fun _ => here content

/-- A check that throws, and what comes after it. -/
theorem check {c : Prop} [Decidable c] {e : ε} {next : Unit → Read ε α} (thrown : kind e)
    (later : Confined kind (next ())) :
    Confined kind (if c then MonadExcept.throw e >>= next else next ()) := by
  split
  next => exact bind (throw thrown) fun _ => later
  next => exact later

end Asn1.Read.Confined

end Kinds

/-! ## Decoders -/

theorem confined_versionOf {kind : Error → Prop} {Version : Type} {refused : Error}
    (counts : kind refused) (zero one : Version) (number : UInt64) :
    Outcome.Confined kind (versionOf zero one refused number) :=
  .ite (fun _ => .ok _) fun _ => .ite (fun _ => .ok _) fun _ => .error counts

section Decoders

variable {α : Type} {kind : Error → Prop} [elements : Error.OfElements kind]

/-- A read of elements within a larger one. -/
theorem confined_lift (read : Read Asn1.Error α) :
    Read.Confined kind (liftM read : Read Error α) :=
  .mapError elements.element

theorem confined_decodeOnly (read : Read Asn1.Error α) (octets : Bytes) :
    Outcome.Confined kind (decodeOnly read octets) :=
  .mapError elements.element

theorem confined_decodeSequence {fields : Read Error α} (confined : Read.Confined kind fields)
    (octets : Bytes) : Outcome.Confined kind (decodeSequence fields octets) :=
  Read.Confined.bind (confined_lift _) (fun content => confined.inside content) octets

theorem RsaKey.confined_decode (octets : Bytes) :
    Outcome.Confined Error.OfPayload (RsaKey.decode octets) := by
  apply confined_decodeSequence
  refine .bind (confined_lift _) fun number => ?_
  refine .bind (.ofExcept (confined_versionOf trivial _ _ number)) fun version => ?_
  refine .check trivial ?_
  repeat refine .bind (confined_lift _) fun _ => ?_
  exact .pure _

theorem EcPrivateKey.confined_decode (octets : Bytes) :
    Outcome.Confined Error.OfPayload (EcPrivateKey.decode octets) := by
  apply confined_decodeSequence
  refine .bind (confined_lift _) fun version => ?_
  refine .check trivial ?_
  repeat refine .bind (confined_lift _) fun _ => ?_
  exact .pure _

theorem PrivateKeyInfo.confined_decode (octets : Bytes) :
    Outcome.Confined Error.OfPayload (PrivateKeyInfo.decode octets) := by
  apply confined_decodeSequence
  refine .bind (confined_lift _) fun number => ?_
  refine .bind (.ofExcept (confined_versionOf trivial _ _ number)) fun version => ?_
  repeat refine .bind (confined_lift _) fun _ => ?_
  split
  · exact .bind (.pure _) fun _ => .bind (confined_lift _) fun _ => .pure _
  -- The content of a public key is no element, and reports its fault as one all the same.
  · exact .bind (.map (.ofExcept (.mapError fun _ => trivial)) _) fun _ =>
      .bind (confined_lift _) fun _ => .pure _

theorem EncryptedKeyInfo.confined_decode (octets : Bytes) :
    Outcome.Confined Error.OfPayload (EncryptedKeyInfo.decode octets) := by
  apply confined_decodeSequence
  repeat refine .bind (confined_lift _) fun _ => ?_
  exact .pure _

end Decoders

/-! ## Schemes -/

namespace PasswordScheme

theorem confined_derivationFields : Read.Confined Error.OfDerivation derivationFields := by
  refine .bind ?_ fun salt => .bind ?_ fun iterations => .bind ?_ fun keyLength =>
    .bind ?_ fun digest => .bind (confined_lift _) fun _ => .pure _
  · exact .bind (confined_lift _) fun tag => .check trivial (confined_lift _)
  · exact .bind (confined_lift _) fun count => .check trivial (.pure _)
  · refine .bind (confined_lift _) fun tag => ?_
    split
    · exact .bind (confined_lift _) fun _ => .pure _
    · exact .pure _
  · refine .bind (confined_lift _) fun tag => ?_
    split
    · exact .pure _
    · refine .bind (confined_lift _) fun algorithm => ?_
      split
      · exact .pure _
      · exact .throw trivial

section Parameters

variable {algorithm : AlgorithmIdentifier}

/-- A key derivation that is known fails for its parameters only. -/
theorem confined_derivationOf_of_named (named : algorithm.identifier = derivationIdentifier) :
    Outcome.Confined Error.OfDerivation (derivationOf algorithm) := by
  rw [derivationOf, if_neg (Decidable.not_not.mpr (congrArg _ named))]
  split
  · exact .error trivial
  · exact confined_decodeSequence confined_derivationFields _

theorem confined_derivationOf (algorithm : AlgorithmIdentifier) :
    Outcome.Confined Error.OfParameters (derivationOf algorithm) := by
  by_cases named : algorithm.identifier = derivationIdentifier
  · exact (confined_derivationOf_of_named named).mono fun _ => Error.OfDerivation.ofParameters
  · rw [derivationOf_of_other named]
    exact .error trivial

theorem confined_vectorOf (algorithm : AlgorithmIdentifier) :
    Outcome.Confined Error.OfParameters (vectorOf algorithm) := by
  unfold vectorOf
  split
  · exact .error trivial
  · exact confined_decodeOnly _ _

theorem confined_fields : Read.Confined Error.OfParameters fields := by
  repeat refine .bind (confined_lift _) fun _ => ?_
  exact .pure _

/-- A scheme that is known fails for its parameters only. -/
theorem confined_ofAlgorithm_of_named (named : algorithm.identifier = identifier) :
    Outcome.Confined Error.OfParameters (ofAlgorithm algorithm) := by
  rw [ofAlgorithm, if_neg (Decidable.not_not.mpr (congrArg _ named))]
  split
  · exact .error trivial
  next parameters _ =>
    refine .bind (confined_decodeSequence confined_fields parameters) fun parts => ?_
    refine .bind (confined_derivationOf _) fun derivation => ?_
    split
    · exact .error trivial
    next cipher _ =>
      refine .bind (confined_vectorOf _) fun iv => .check trivial ?_
      split
      · exact .check trivial (.ok _)
      · exact .ok _

theorem confined_ofAlgorithm (algorithm : AlgorithmIdentifier) :
    Outcome.Confined Error.OfPayload (ofAlgorithm algorithm) := by
  by_cases named : algorithm.identifier = identifier
  · exact (confined_ofAlgorithm_of_named named).mono fun _ => Error.OfParameters.ofPayload
  · rw [ofAlgorithm_of_other named]
    exact .error trivial

end Parameters

end PasswordScheme

/-! ## Keys -/

theorem CurveChoice.confined_resolve (choice : CurveChoice) :
    Outcome.Confined Error.OfPayload choice.resolve := by
  unfold resolve
  split
  · split
    · exact .ok _
    · exact .error trivial
  · exact .error trivial
  · exact .error trivial

theorem EcPrivateKey.confined_toPrivateKey (outer : Option Curve) (key : EcPrivateKey) :
    Outcome.Confined Error.OfPayload (key.toPrivateKey outer) := by
  refine .bind ?_ fun curve => .check trivial (.ok _)
  unfold curve
  refine .bind ?_ fun inner => ?_
  · cases key.parameters with
    | none => exact .ok _
    | some choice => exact .map choice.confined_resolve some
  · split
    · split
      · exact .ok _
      · exact .error trivial
    · exact .ok _
    · exact .ok _
    · exact .error trivial

namespace PrivateKeyInfo

variable (info : PrivateKeyInfo)

theorem confined_toDsa : Outcome.Confined Error.OfPayload info.toDsa := by
  unfold toDsa
  split
  · exact .error trivial
  · refine .bind (confined_decodeSequence ?_ _) fun numbers =>
      .bind (confined_decodeOnly _ _) fun _ => .ok _
    unfold dsaFields
    repeat refine .bind (confined_lift _) fun _ => ?_
    exact .pure _

theorem confined_toEc : Outcome.Confined Error.OfPayload info.toEc := by
  unfold toEc
  split
  · exact .error trivial
  · refine .bind (confined_decodeOnly _ _) fun choice => .bind choice.confined_resolve fun curve =>
      .bind ?_ fun key => key.confined_toPrivateKey _
    unfold ecPrivateKey
    split
    · exact .bind (EcPrivateKey.confined_decode _) fun _ => .ok _
    · exact .ok _

theorem confined_toRaw (kind : RawKind) : Outcome.Confined Error.OfPayload (info.toRaw kind) :=
  .bind (confined_decodeOnly _ _) fun _ => .check trivial (.ok _)

theorem confined_toPrivateKey : Outcome.Confined Error.OfPayload info.toPrivateKey := by
  unfold toPrivateKey
  split
  · exact .error trivial
  · exact .map (RsaKey.confined_decode _) _
  · exact .map (RsaKey.confined_decode _) _
  · exact info.confined_toDsa
  · exact info.confined_toEc
  · exact info.confined_toRaw _

end PrivateKeyInfo

end KeyFile
