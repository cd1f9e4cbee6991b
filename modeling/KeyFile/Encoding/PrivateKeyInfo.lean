import KeyFile.Encoding.AlgorithmIdentifier
import KeyFile.Encoding.EcPrivateKey
import KeyFile.Encoding.RsaPrivateKey

/-!
# Keys of any algorithm

A version, an algorithm identifier and an octet string whose meaning depends on the algorithm,
optionally followed by attributes and by a public key. Every private key can be written in this
form.
-/
namespace KeyFile

open Asn1

inductive InfoVersion where
  /-- Without public key. -/
  | v1
  /-- With a public key. -/
  | v2
  deriving DecidableEq, Repr

namespace InfoVersion

def ofWord (version : UInt64) : Except Error InfoVersion :=
  versionOf .v1 .v2 (.unsupported (.version version)) version

def word : InfoVersion → UInt64
  | .v1 => 0
  | .v2 => 1

end InfoVersion

structure PrivateKeyInfo where
  version : InfoVersion
  algorithm : AlgorithmIdentifier
  /-- The key in the encoding of its algorithm. -/
  privateKey : Bytes
  /-- The content of the attributes, which is not looked into. -/
  attributes : Option Bytes
  publicKey : Option BitString
  deriving DecidableEq, Repr

namespace PrivateKeyInfo

def attributesTag : Tag := .contextSpecific 0 true
def publicKeyTag : Tag := .contextSpecific 1 false

/-- Reads the content of an element of that tag, if it comes next. -/
def readOptional (tag : Tag) : Read Asn1.Error (Option Bytes) := do
  if (← peekTag) = some tag then
    let (_, content) ← readAny
    return some content
  else
    return none

/-- Reads what stands in the sequence. -/
def fields : Read Error PrivateKeyInfo := do
  let version ← InfoVersion.ofWord (← readWord)
  let algorithm ← AlgorithmIdentifier.read
  let privateKey ← readOctetString
  let attributes ← readOptional attributesTag
  let publicKey ← match ← readOptional publicKeyTag with
    | none => pure none
    | some content =>
      some <$> Read.ofExcept ((BitString.ofContent content).mapError fun cause =>
        .malformedDer (.invalidBitString cause))
  finish
  return ⟨version, algorithm, privateKey, attributes, publicKey⟩

def decode (octets : Bytes) : Except Error PrivateKeyInfo :=
  decodeSequence fields octets

def element (info : PrivateKeyInfo) : Element :=
  .sequence ([.word info.version.word, info.algorithm.element, .octetString info.privateKey] ++
    info.attributes.toList.map (.tagged attributesTag) ++
    info.publicKey.toList.map (fun bits => .tagged publicKeyTag bits.content))

def encode (info : PrivateKeyInfo) : Bytes :=
  info.element.encode

/-! ## Reading private keys -/

/-- The domain parameters of a DSA key. -/
def dsaFields : Read Error (Nat × Nat × Nat) := do
  let p ← readUnsigned
  let q ← readUnsigned
  let g ← readUnsigned
  finish
  return (p, q, g)

def toDsa (info : PrivateKeyInfo) : Except Error PrivateKey :=
  match info.algorithm.effectiveParameters with
  | none => .error (.malformedKey .dsaWithoutParameters)
  | some parameters => do
    let (p, q, g) ← decodeSequence dsaFields parameters
    let x ← decodeOnly readUnsigned info.privateKey
    return .dsa ⟨p, q, g, x⟩

/-- The elliptic curve key within: a key of its own, or else a bare scalar. Its public key may also
stand outside. -/
def ecPrivateKey (info : PrivateKeyInfo) : Except Error EcPrivateKey := do
  let key ←
    if info.privateKey.head?.map Tag.ofOctet = some .sequence then
      EcPrivateKey.decode info.privateKey
    else pure ⟨info.privateKey, none, none⟩
  return { key with publicKey := key.publicKey.or info.publicKey }

def toEc (info : PrivateKeyInfo) : Except Error PrivateKey :=
  match info.algorithm.effectiveParameters with
  | none => .error (.malformedKey .ecWithoutParameters)
  | some parameters => do
    let choice ← decodeOnly CurveChoice.read parameters
    let curve ← choice.resolve
    let key ← info.ecPrivateKey
    key.toPrivateKey (some curve)

def toRaw (kind : RawKind) (info : PrivateKeyInfo) : Except Error PrivateKey := do
  let seed ← decodeOnly readOctetString info.privateKey
  if seed.length ≠ kind.length then throw (.malformedKey (.seedLength kind seed.length))
  return .raw kind seed (info.publicKey.map (·.data))

/-- The private key, read as its algorithm demands. -/
def toPrivateKey (info : PrivateKeyInfo) : Except Error PrivateKey :=
  match Algorithm.ofIdentifier? info.algorithm.identifier with
  | none => .error (.unsupported (.algorithm info.algorithm.identifier))
  | some .rsa => .rsa <$> RsaKey.decode info.privateKey
  | some .rsaPss =>
    (fun key => .rsaPss key info.algorithm.effectiveParameters) <$> RsaKey.decode info.privateKey
  | some .dsa => info.toDsa
  | some .ec => info.toEc
  | some (.raw kind) => info.toRaw kind

end PrivateKeyInfo

/-! ## Writing private keys -/

namespace PrivateKey

/-- A public key of whole octets. -/
def wholeOctets (octets : Bytes) : BitString :=
  ⟨0, octets⟩

/-- The parameters that go with the algorithm of a key. -/
def parameters : PrivateKey → Option Bytes
  | .rsa _ => some (Element.encode .null)
  | .rsaPss _ parameters => parameters
  | .dsa key => some (Element.encode (.sequence ([key.p, key.q, key.g].map .unsigned)))
  | .ec curve _ _ => some (Element.encode (.objectIdentifier curve.identifier))
  | .raw _ _ _ => none

/-- The private part in the encoding of the algorithm. -/
def innerOctets : PrivateKey → Bytes
  | .rsa key | .rsaPss key _ => key.encode
  | .dsa key => Element.encode (.unsigned key.x)
  | .ec _ scalar publicKey => EcPrivateKey.encode ⟨scalar, none, publicKey.map wholeOctets⟩
  | .raw _ seed _ => Element.encode (.octetString seed)

/-- The public key where it stands outside of the private part. -/
def outerPublicKey : PrivateKey → Option BitString
  | .raw _ _ publicKey => publicKey.map wholeOctets
  | _ => none

/-- A private key in the form for keys of any algorithm. -/
def toInfo (key : PrivateKey) : PrivateKeyInfo where
  version := if key.outerPublicKey.isSome then .v2 else .v1
  algorithm := ⟨key.algorithm.identifier, key.parameters⟩
  privateKey := key.innerOctets
  attributes := none
  publicKey := key.outerPublicKey

def encode (key : PrivateKey) : Bytes :=
  key.toInfo.encode

/-- A private key as an armored block. -/
def toBlock (key : PrivateKey) : Pem.Block :=
  ⟨.privateKey, [], key.encode⟩

/-- The object identifier of that text. -/
def identifierOf (text : Text) : Except Error ObjectIdentifier :=
  (ObjectIdentifier.ofText text).mapError fun cause =>
    .malformedDer (.invalidObjectIdentifier cause)

/-- The parameters as they are written: those of an elliptic curve key are what the text of its
curve names. -/
def statedParameters (key : PrivateKey) : Except Error (Option Bytes) :=
  match key with
  | .ec _ _ _ =>
    match key.curve? with
    | none => .error (.malformedKey .ecWithoutParameters)
    | some curve => do
      let identifier ← identifierOf curve.identifier.text
      return some (Element.encode (.objectIdentifier identifier))
  | _ => .ok key.parameters

/-- A private key in the form for keys of any algorithm, with the identifiers that the texts in the
tables name. -/
def statedInfo (key : PrivateKey) : Except Error PrivateKeyInfo := do
  let identifier ← identifierOf key.algorithm.identifier.text
  let parameters ← key.statedParameters
  return { key.toInfo with algorithm := ⟨identifier, parameters⟩ }

/-- Writes a private key as an armored block. -/
def armor (key : PrivateKey) : Except Error Pem.Block := do
  let info ← key.statedInfo
  return ⟨.privateKey, [], info.encode⟩

/-- The name of the form in which every private key can be written. -/
def formatName : String := "PKCS#8"

end PrivateKey

end KeyFile
