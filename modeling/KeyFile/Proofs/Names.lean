import KeyFile.Proofs.Asn1.Contents
import KeyFile.Proofs.Curves
import KeyFile.Proofs.Encoding.Faults
import KeyFile.Proofs.Encoding.Schemes

/-!
# Names in dotted text

Algorithms, curves and the parts of schemes are listed with dotted texts, and what a file names is
compared with the list by its text. Texts tell object identifiers apart, so an entry is found for
the arcs of its text and for no others, in whatever way the object identifier has been made.
-/
namespace KeyFile

open Asn1 (ObjectIdentifier)
open Crypto

/-! ## Listed texts -/

def Algorithm.dotted : Algorithm → String
  | .rsa => "1.2.840.113549.1.1.1"
  | .rsaPss => "1.2.840.113549.1.1.10"
  | .dsa => "1.2.840.10040.4.1"
  | .ec => "1.2.840.10045.2.1"
  | .raw .x25519 => "1.3.101.110"
  | .raw .x448 => "1.3.101.111"
  | .raw .ed25519 => "1.3.101.112"
  | .raw .ed448 => "1.3.101.113"

def Curve.dotted : Curve → String
  | .secp224r1 => "1.3.132.0.33"
  | .secp256r1 => "1.2.840.10045.3.1.7"
  | .secp256k1 => "1.3.132.0.10"
  | .secp384r1 => "1.3.132.0.34"
  | .secp521r1 => "1.3.132.0.35"
  | .brainpoolP256r1 => "1.3.36.3.3.2.8.1.1.7"
  | .brainpoolP320r1 => "1.3.36.3.3.2.8.1.1.9"
  | .brainpoolP384r1 => "1.3.36.3.3.2.8.1.1.11"
  | .brainpoolP512r1 => "1.3.36.3.3.2.8.1.1.13"

namespace PasswordScheme

def dotted : String := "1.2.840.113549.1.5.13"

def derivationDotted : String := "1.2.840.113549.1.5.12"

def digestDotted : Digest → String
  | .sha1 => "1.2.840.113549.2.7"
  | .sha224 => "1.2.840.113549.2.8"
  | .sha256 => "1.2.840.113549.2.9"
  | .sha384 => "1.2.840.113549.2.10"
  | .sha512 => "1.2.840.113549.2.11"

def cipherDotted : Cipher → String
  | .aes128 => "2.16.840.1.101.3.4.1.2"
  | .aes192 => "2.16.840.1.101.3.4.1.22"
  | .aes256 => "2.16.840.1.101.3.4.1.42"
  | .tripleDes => "1.2.840.113549.3.7"

end PasswordScheme

/-! ## Look-ups -/

/-- A look-up finds what is listed for exactly the arcs of the listed text, whichever way the object
identifier that is looked up has been made. -/
def FoundByArcs (found : ObjectIdentifier → Prop) (listed : String) : Prop :=
  ∃ named, ObjectIdentifier.ofText listed.toList = .ok named ∧
    ∀ identifier arcs, ObjectIdentifier.Made identifier arcs →
      (found identifier ↔ arcs = named.arcs)

theorem foundByArcs_of_iff {found : ObjectIdentifier → Prop} {listed : String}
    {named : ObjectIdentifier} (parsed : ObjectIdentifier.ofText listed.toList = .ok named)
    (exact : ∀ identifier, found identifier ↔ identifier = named) : FoundByArcs found listed := by
  refine ⟨named, parsed, ?_⟩
  intro identifier arcs made
  rw [exact, ← made.arcs_eq, ObjectIdentifier.arcs_inj]

theorem Algorithm.ofText_dotted (algorithm : Algorithm) :
    ObjectIdentifier.ofText algorithm.dotted.toList = .ok algorithm.identifier := by
  rcases algorithm with _ | _ | _ | _ | kind
  case raw => cases kind <;> decide
  all_goals decide

theorem Algorithm.ofIdentifier_eq_some_iff {identifier : ObjectIdentifier} {algorithm : Algorithm} :
    ofIdentifier? identifier = some algorithm ↔ identifier = algorithm.identifier :=
  find_named_eq_some_iff ofIdentifier_identifier

theorem Curve.ofText_dotted (curve : Curve) :
    ObjectIdentifier.ofText curve.dotted.toList = .ok curve.identifier := by
  cases curve <;> decide

namespace PasswordScheme

variable {parameters : Option Bytes} {identifier : ObjectIdentifier}

theorem ofText_digestDotted (digest : Digest) :
    ObjectIdentifier.ofText (digestDotted digest).toList = .ok (digestIdentifier digest) := by
  cases digest <;> decide

theorem ofText_cipherDotted (cipher : Cipher) :
    ObjectIdentifier.ofText (cipherDotted cipher).toList = .ok (cipherIdentifier cipher) := by
  cases cipher <;> decide

/-- Whether a scheme is taken for PBES2. Its parameters may be refused all the same. -/
def Recognized (parameters : Option Bytes) (identifier : ObjectIdentifier) : Prop :=
  ∀ named, ofAlgorithm ⟨identifier, parameters⟩ ≠ .error (.unsupported (.encryptionScheme named))

/-- Whether a key derivation is taken for PBKDF2. -/
def DerivationRecognized (parameters : Option Bytes) (identifier : ObjectIdentifier) : Prop :=
  ∀ named, derivationOf ⟨identifier, parameters⟩ ≠ .error (.unsupported (.keyDerivation named))

theorem recognized_iff :
    Recognized parameters identifier ↔ identifier = PasswordScheme.identifier := by
  constructor
  · intro recognized
    by_contra other
    exact recognized identifier (ofAlgorithm_of_other other)
  · intro same named fault
    -- What comes after the name has other errors.
    exact confined_ofAlgorithm_of_named same _ fault

theorem derivationRecognized_iff :
    DerivationRecognized parameters identifier ↔ identifier = derivationIdentifier := by
  constructor
  · intro recognized
    by_contra other
    exact recognized identifier (derivationOf_of_other other)
  · intro same named fault
    exact confined_derivationOf_of_named same _ fault

end PasswordScheme

/-- Dotted text identifies object identifiers: they are read back from their texts, equal texts mean
equal object identifiers, and a text that is read is written again unless one of its arcs has a plus
sign or a needless zero. So each look-up by text finds what it finds by the arcs. -/
theorem dotted_text_identifies :
    (∀ identifier : ObjectIdentifier, ObjectIdentifier.ofText identifier.text = .ok identifier) ∧
    (∀ left right : ObjectIdentifier, left = right ↔ left.text = right.text) ∧
    (∀ text identifier, ObjectIdentifier.ofText text = .ok identifier →
      (identifier.text = text ↔ ∀ arc ∈ Text.split '.' text, Decimal.Plain arc)) ∧
    (∀ algorithm, FoundByArcs (Algorithm.ofIdentifier? · = some algorithm) algorithm.dotted) ∧
    (∀ curve, FoundByArcs (Curve.ofIdentifier? · = some curve) curve.dotted) ∧
    (∀ parameters, FoundByArcs (PasswordScheme.Recognized parameters) PasswordScheme.dotted) ∧
    (∀ parameters, FoundByArcs (PasswordScheme.DerivationRecognized parameters)
      PasswordScheme.derivationDotted) ∧
    (∀ digest, FoundByArcs (PasswordScheme.digest? · = some digest)
      (PasswordScheme.digestDotted digest)) ∧
    (∀ cipher, FoundByArcs (PasswordScheme.cipher? · = some cipher)
      (PasswordScheme.cipherDotted cipher)) := by
  refine ⟨ObjectIdentifier.ofText_text, fun _ _ => ObjectIdentifier.text_inj.symm,
    fun _ _ => ObjectIdentifier.text_of_ofText_iff, ?_, ?_, ?_, ?_, ?_, ?_⟩
  · intro algorithm
    exact foundByArcs_of_iff algorithm.ofText_dotted fun _ => Algorithm.ofIdentifier_eq_some_iff
  · intro curve
    exact foundByArcs_of_iff curve.ofText_dotted fun _ => Curve.ofIdentifier_eq_some_iff
  · intro parameters
    have parsed : ObjectIdentifier.ofText PasswordScheme.dotted.toList =
        .ok PasswordScheme.identifier := by decide
    exact foundByArcs_of_iff parsed fun _ => PasswordScheme.recognized_iff
  · intro parameters
    have parsed : ObjectIdentifier.ofText PasswordScheme.derivationDotted.toList =
        .ok PasswordScheme.derivationIdentifier := by decide
    exact foundByArcs_of_iff parsed fun _ => PasswordScheme.derivationRecognized_iff
  · intro digest
    exact foundByArcs_of_iff (PasswordScheme.ofText_digestDotted digest)
      fun _ => PasswordScheme.digest_eq_some_iff
  · intro cipher
    exact foundByArcs_of_iff (PasswordScheme.ofText_cipherDotted cipher)
      fun _ => PasswordScheme.cipher_eq_some_iff

/-- A plus sign and zeros make another text for the arcs of RSA, not another name. -/
theorem paddedText_identifies :
    ObjectIdentifier.ofText "1.+2.00840.113549.1.1.01".toList = .ok Algorithm.rsa.identifier ∧
    Algorithm.rsa.identifier.text ≠ "1.+2.00840.113549.1.1.01".toList ∧
    ObjectIdentifier.ofContents [0x2a, 0x86, 0x48, 0x86, 0xf7, 0x0d, 1, 1, 1] =
      .ok Algorithm.rsa.identifier ∧
    Algorithm.ofIdentifier? Algorithm.rsa.identifier = some .rsa ∧
    Curve.ofIdentifier? Algorithm.rsa.identifier ≠ some .secp256r1 ∧
    ¬ PasswordScheme.Recognized none Algorithm.rsa.identifier := by
  obtain ⟨-, -, plain, algorithms, curves, schemes, -, -, -⟩ := dotted_text_identifies
  have padded : ObjectIdentifier.ofText "1.+2.00840.113549.1.1.01".toList =
      .ok Algorithm.rsa.identifier := by decide
  have octets : ObjectIdentifier.ofContents [0x2a, 0x86, 0x48, 0x86, 0xf7, 0x0d, 1, 1, 1] =
      .ok Algorithm.rsa.identifier := by decide
  have stated : ObjectIdentifier.Made Algorithm.rsa.identifier [1, 2, 840, 113549, 1, 1, 1] :=
    .text (by decide) padded
  refine ⟨padded, ?_, octets, ?_, ?_, ?_⟩
  · intro same
    exact ((plain _ _ padded).mp same "+2".toList (by decide)).unsigned rfl
  · obtain ⟨named, parsed, found⟩ := algorithms .rsa
    rw [Algorithm.ofText_dotted, Except.ok.injEq] at parsed
    exact (found _ _ stated).mpr (congrArg ObjectIdentifier.arcs parsed)
  · obtain ⟨named, parsed, found⟩ := curves .secp256r1
    rw [Curve.ofText_dotted, Except.ok.injEq] at parsed
    subst parsed
    exact mt (found _ _ stated).mp (by decide)
  · obtain ⟨named, parsed, found⟩ := schemes none
    have listed : ObjectIdentifier.ofText PasswordScheme.dotted.toList =
        .ok PasswordScheme.identifier := by decide
    rw [listed, Except.ok.injEq] at parsed
    subst parsed
    exact mt (found _ _ stated).mp (by decide)

end KeyFile
