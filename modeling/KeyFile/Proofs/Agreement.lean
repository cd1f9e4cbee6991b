import KeyFile.Document
import KeyFile.Proofs.Encoding.Produced

/-!
# Encodings of one key agree

An RSA key or an elliptic curve key may stand on its own or within the form for keys of any
algorithm, and that form may be encrypted. Whichever way a key is stored, reading it comes down to
reading the form for keys of any algorithm: the private key is the same, and so is the error if
there is none.
-/
namespace KeyFile

open Asn1 Crypto Document

/-! ## Elliptic curve keys -/

namespace EcPrivateKey

/-- The key with its curve named within. -/
def naming (curve : Curve) (key : EcPrivateKey) : EcPrivateKey :=
  { key with parameters := some (.named curve.identifier) }

/-- The key without a curve of its own. -/
def unnamed (key : EcPrivateKey) : EcPrivateKey :=
  { key with parameters := none }

variable {curve : Curve} {key : EcPrivateKey}

/-- A curve that is named twice has to be named alike. -/
theorem curve_of_named (named : key.parameters = some (.named curve.identifier))
    {outer : Option Curve} (same : ∀ other ∈ outer, other = curve) :
    key.curve outer = .ok curve := by
  have inner : key.parameters.mapM CurveChoice.resolve = .ok (some curve) := by
    rw [named]
    exact Outcome.map_eq_ok.mpr ⟨curve, CurveChoice.resolve_named curve, rfl⟩
  rw [EcPrivateKey.curve, Outcome.bind_of_ok inner]
  cases outer with
  | none => rfl
  | some other =>
    cases same other rfl
    exact if_pos rfl

theorem curve_of_unnamed (unnamed : key.parameters = none) :
    key.curve (some curve) = .ok curve := by
  rw [EcPrivateKey.curve, unnamed]
  rfl

/-- Apart from the choice of the curve, the parameters do not count. -/
theorem toPrivateKey_congr {left right : EcPrivateKey} {outer outer' : Option Curve}
    (chosen : left.curve outer = right.curve outer') (scalar : left.scalar = right.scalar)
    (publicKey : left.publicKey = right.publicKey) :
    left.toPrivateKey outer = right.toPrivateKey outer' := by
  rw [toPrivateKey, toPrivateKey, chosen, scalar, publicKey]

theorem length_unnamed_le : key.unnamed.encode.length ≤ (key.naming curve).encode.length := by
  simp only [encode, element, unnamed, naming, Element.encode]
  apply length_element_mono
  simp only [encodeAll_append, Option.toList_none, List.map_nil, encodeAll, List.length_append,
    List.length_nil]
  omega

theorem sound_naming : ∀ choice ∈ (key.naming curve).parameters, choice.Sound := by
  rintro choice ⟨⟩
  trivial

theorem sound_unnamed : ∀ choice ∈ key.unnamed.parameters, choice.Sound := by
  rintro choice ⟨⟩

/-- A written key begins as a sequence, so it is not taken for a bare scalar. -/
theorem head_encode (key : EcPrivateKey) : key.encode.head?.map Tag.ofOctet = some .sequence := rfl

end EcPrivateKey

namespace PrivateKeyInfo

variable {info : PrivateKeyInfo} {curve : Curve} {key : EcPrivateKey}

/-- Parameters that name a curve choose it. -/
theorem toEc_of_named
    (named : info.algorithm.parameterIdentifier = .ok (some curve.identifier)) :
    info.toEc = info.ecPrivateKey >>= fun nested => nested.toPrivateKey (some curve) := by
  rw [AlgorithmIdentifier.parameterIdentifier] at named
  cases given : info.algorithm.effectiveParameters with
  | none =>
    rw [given] at named
    cases named
  | some octets =>
    rw [given] at named
    simp only at named
    split at named
    next tag =>
      obtain ⟨identifier, read, same⟩ := Outcome.map_eq_ok.mp named
      cases same
      -- The parameters begin as an object identifier, so they are read as the name of a curve.
      have choice : decodeOnly CurveChoice.read octets = .ok (.named curve.identifier) := by
        rw [decodeOnly_eq_ok] at read ⊢
        rw [CurveChoice.read, Read.run_peekTag_bind, tag]
        exact Read.run_bind_eq_ok.mpr ⟨_, [], read, rfl⟩
      rw [toEc, given]
      simp only
      rw [Outcome.bind_of_ok choice, Outcome.bind_of_ok (CurveChoice.resolve_named curve)]
    next => cases named

/-- A key that is written within is read back, and takes the outer public key where it has none. -/
theorem toEc_encode (named : info.algorithm.parameterIdentifier = .ok (some curve.identifier))
    (within : info.privateKey = key.encode) (sound : ∀ choice ∈ key.parameters, choice.Sound)
    (fits : key.encode.length < 2 ^ 64) :
    info.toEc = EcPrivateKey.bitsJudged key.publicKey >>= fun _ =>
      { key with publicKey := key.publicKey.or info.publicKey }.toPrivateKey (some curve) := by
  rw [toEc_of_named named, ecPrivateKey, within, key.head_encode]
  simp only [if_true, EcPrivateKey.decode_encode_eq sound fits]
  cases EcPrivateKey.bitsJudged key.publicKey <;> rfl

end PrivateKeyInfo

/-- A key of any algorithm that holds an elliptic curve key. The curve is named by the parameters of
the algorithm, and within the key or not. -/
structure Wraps (info : PrivateKeyInfo) (curve : Curve) (key : EcPrivateKey) : Prop where
  algorithm : info.algorithm.identifier = Algorithm.ec.identifier
  parameters : info.algorithm.parameterIdentifier = .ok (some curve.identifier)
  nested : info.privateKey = (key.naming curve).encode ∨ info.privateKey = key.unnamed.encode

namespace Wraps

variable {info : PrivateKeyInfo} {curve : Curve} {key : EcPrivateKey}

/-- Named within or not, the curve is the same, and so is everything else. -/
theorem toEc_eq (wraps : Wraps info curve key) (fits : (key.naming curve).encode.length < 2 ^ 64) :
    info.toEc = EcPrivateKey.bitsJudged key.publicKey >>= fun _ =>
      { key.naming curve with publicKey := key.publicKey.or info.publicKey }.toPrivateKey none := by
  have alone (publicKey : Option BitString) :
      EcPrivateKey.curve none { key.naming curve with publicKey } = .ok curve := by
    apply EcPrivateKey.curve_of_named rfl
    intro other member
    cases member
  -- Either key within has the same scalar and public key, and ends up on the same curve.
  rcases wraps.nested with within | within
  · rw [PrivateKeyInfo.toEc_encode wraps.parameters within EcPrivateKey.sound_naming fits]
    congr 1
    funext _
    refine EcPrivateKey.toPrivateKey_congr ?_ rfl rfl
    rw [alone]
    apply EcPrivateKey.curve_of_named rfl
    rintro other ⟨⟩
    rfl
  · have short := Nat.lt_of_le_of_lt EcPrivateKey.length_unnamed_le fits
    rw [PrivateKeyInfo.toEc_encode wraps.parameters within EcPrivateKey.sound_unnamed short]
    congr 1
    funext _
    refine EcPrivateKey.toPrivateKey_congr ?_ rfl rfl
    rw [alone]
    exact EcPrivateKey.curve_of_unnamed rfl

end Wraps

/-! ## Reading stored keys -/

section Stored

variable {info : PrivateKeyInfo} {password : Option Bytes}

/-- A written key of any algorithm. -/
theorem readBlock_info (sound : info.algorithm.Sound) (fits : info.encode.length < 2 ^ 64) :
    readBlock password ⟨.privateKey, [], info.encode⟩ = info.toPrivateKey := by
  have opened : Container.ofBlock ⟨.privateKey, [], info.encode⟩ =
      Container.info <$> PrivateKeyInfo.decode info.encode := rfl
  rw [readBlock, opened, PrivateKeyInfo.decode_encode sound fits]
  rfl

theorem readBlock_rsa (algorithm : info.algorithm.identifier = Algorithm.rsa.identifier) :
    readBlock password ⟨.rsaPrivateKey, [], info.privateKey⟩ = info.toPrivateKey := by
  have opened : Container.ofBlock ⟨.rsaPrivateKey, [], info.privateKey⟩ =
      Container.rsa <$> RsaKey.decode info.privateKey := rfl
  rw [readBlock, opened, PrivateKeyInfo.toPrivateKey, algorithm, Algorithm.ofIdentifier_identifier]
  cases RsaKey.decode info.privateKey <;> rfl

theorem readBlock_ec {curve : Curve} {key : EcPrivateKey}
    (fits : (key.naming curve).encode.length < 2 ^ 64) :
    readBlock password ⟨.ecPrivateKey, [], (key.naming curve).encode⟩ =
      EcPrivateKey.bitsJudged key.publicKey >>= fun _ => (key.naming curve).toPrivateKey none := by
  have opened : Container.ofBlock ⟨.ecPrivateKey, [], (key.naming curve).encode⟩ =
      Container.ec <$> EcPrivateKey.decode (key.naming curve).encode := rfl
  rw [readBlock, opened, EcPrivateKey.decode_encode_eq EcPrivateKey.sound_naming fits]
  change (_ <$> (_ <$> EcPrivateKey.bitsJudged key.publicKey)) >>= _ = _
  cases EcPrivateKey.bitsJudged key.publicKey <;> rfl

theorem toPrivateKey_of_decrypt {encrypted : EncryptedKeyInfo} {secret : Bytes}
    (opened : encrypted.decrypt secret = .ok info) :
    encrypted.toPrivateKey (some secret) = info.toPrivateKey := by
  obtain ⟨scheme, known, -⟩ := Outcome.bind_eq_ok.mp opened
  rw [EncryptedKeyInfo.toPrivateKey, Outcome.bind_of_ok known]
  exact Outcome.bind_of_ok opened

end Stored

/-- Whichever way a key is stored, its outcome is that of the form for keys of any algorithm. The
public key outside of an elliptic curve key counts only where the key has none. -/
theorem encodings_agree :
    (∀ (info : PrivateKeyInfo) (password : Option Bytes),
      info.algorithm.identifier = Algorithm.rsa.identifier →
        readBlock password ⟨.rsaPrivateKey, [], info.privateKey⟩ = info.toPrivateKey) ∧
    (∀ (key : EcPrivateKey) (curve : Curve) (info : PrivateKeyInfo) (password : Option Bytes),
      (key.naming curve).encode.length < 2 ^ 64 → Wraps info curve key →
        (info.publicKey = none ∨ key.publicKey ≠ none →
          readBlock password ⟨.ecPrivateKey, [], (key.naming curve).encode⟩ = info.toPrivateKey) ∧
        (key.publicKey = none →
          { key.naming curve with publicKey := info.publicKey }.toPrivateKey none =
            info.toPrivateKey)) ∧
    (∀ (encrypted : EncryptedKeyInfo) (secret : Bytes) (info : PrivateKeyInfo),
      encrypted.decrypt secret = .ok info →
        encrypted.toPrivateKey (some secret) = info.toPrivateKey) ∧
    ∀ (info : PrivateKeyInfo) (password : Option Bytes),
      info.algorithm.Sound → info.encode.length < 2 ^ 64 →
        readBlock password ⟨.privateKey, [], info.encode⟩ = info.toPrivateKey := by
  refine ⟨fun _ _ => readBlock_rsa, ?_, fun _ _ _ => toPrivateKey_of_decrypt,
    fun _ _ => readBlock_info⟩
  intro key curve info password fits wraps
  have ec : info.toPrivateKey = info.toEc := by
    rw [PrivateKeyInfo.toPrivateKey, wraps.algorithm, Algorithm.ofIdentifier_identifier]
  rw [ec, wraps.toEc_eq fits]
  constructor
  · intro kept
    -- The public key within comes first, and without one there is none outside either.
    have inner : key.publicKey.or info.publicKey = key.publicKey := by
      rcases kept with absent | present
      · rw [absent, Option.or_none]
      · obtain ⟨bits, found⟩ := Option.ne_none_iff_exists'.mp present
        rw [found, Option.some_or]
    rw [readBlock_ec fits, inner]
    rfl
  · intro absent
    rw [absent, Option.none_or]
    rfl

/-- A form for keys of any algorithm with a key for secp256r1 in it, and a public key outside. -/
def EcPrivateKey.wrapped (key : EcPrivateKey) : PrivateKeyInfo where
  version := .v2
  algorithm := ⟨Algorithm.ec.identifier,
    some (Element.objectIdentifier Curve.secp256r1.identifier).encode⟩
  privateKey := key.encode
  attributes := none
  publicKey := some ⟨0, [4, 9]⟩

/-- The scalar seven, without a public key and with one. -/
def seven : EcPrivateKey := ⟨[7], none, none⟩
def pointedSeven : EcPrivateKey := ⟨[7], none, some ⟨0, [4, 8]⟩⟩

/-- The first of them wrapped and encrypted: AES-128 under the empty password, one iteration. -/
def lockedSeven : EncryptedKeyInfo where
  algorithm := ⟨PasswordScheme.identifier, some (Element.encode (.sequence
    [AlgorithmIdentifier.element ⟨PasswordScheme.derivationIdentifier,
        some (Element.sequence [.octetString [], .word 1]).encode⟩,
      AlgorithmIdentifier.element ⟨PasswordScheme.cipherIdentifier .aes128,
        some (Element.octetString (List.replicate 16 0)).encode⟩]))⟩
  data := [97, 248, 249, 218, 186, 209, 201, 61, 173, 207, 0, 131, 187, 41, 225, 236, 14, 31, 132,
    162, 142, 14, 128, 231, 45, 101, 53, 150, 164, 248, 67, 30, 99, 230, 97, 181, 84, 56, 4, 196,
    11, 44, 120, 168, 143, 246, 9, 213]

/-- The scheme that it names, and the key that this derives from the empty password. -/
def lockedScheme : PasswordScheme :=
  ⟨⟨[], 1, none, .sha1⟩, .aes128, List.replicate 16 0⟩

def lockedKey : Bytes :=
  [30, 67, 122, 28, 121, 215, 91, 230, 30, 145, 20, 29, 174, 32, 175, 252]

theorem key_lockedScheme : lockedScheme.key [] = lockedKey := by
  -- One digest at a time, as their evaluation takes much memory.
  have inner : Digest.sha1.hash ((Digest.sha1.blockKey []).map (fun octet => octet ^^^ 0x36) ++
      BigEndian.octets 4 1) = [40, 204, 240, 172, 18, 45, 123, 142, 147, 167, 103, 206, 238, 204,
        30, 175, 225, 238, 254, 203] := by decide +kernel
  have outer : Digest.sha1.keyedBlock (Digest.sha1.blockKey []) (BigEndian.octets 4 1) =
      lockedKey ++ [72, 146, 204, 153] := by
    rw [Digest.keyedBlock, inner]
    decide +kernel
  have once (function : Bytes → Bytes) :
      derivedPiece function [] 1 1 = function (BigEndian.octets 4 1) := rfl
  have piece : lockedScheme.key [] =
      (derivedPiece (Digest.sha1.keyedBlock (Digest.sha1.blockKey [])) [] 1 1 ++ []).take 16 := rfl
  rw [piece, once, outer]
  rfl

theorem decryptPadded_lockedSeven :
    Cipher.aes128.decryptPadded lockedKey lockedScheme.iv lockedSeven.data =
      pad 16 seven.unnamed.wrapped.encode := by
  -- One block at a time, for the same reason.
  have first : (Cipher.aes128.schedule lockedKey).decryptBlock (lockedSeven.data.take 16) =
      [48, 39, 2, 1, 1, 48, 19, 6, 7, 42, 134, 72, 206, 61, 2, 1] := by decide +kernel
  have second : (Cipher.aes128.schedule lockedKey).decryptBlock
      ((lockedSeven.data.drop 16).take 16) =
        [103, 240, 211, 92, 242, 31, 244, 62, 172, 200, 4, 139, 139, 47, 227, 237] := by
    decide +kernel
  have third : (Cipher.aes128.schedule lockedKey).decryptBlock (lockedSeven.data.drop 32) =
      [15, 27, 133, 165, 15, 13, 128, 227, 36, 98, 50, 145, 163, 255, 68, 25] := by
    decide +kernel
  have blocks : pieces Cipher.aes128.blockSize lockedSeven.data = [lockedSeven.data.take 16,
      (lockedSeven.data.drop 16).take 16, lockedSeven.data.drop 32] := by decide +kernel
  rw [Cipher.decryptPadded, blocks]
  simp only [unchain, first, second, third]
  decide +kernel

theorem decrypt_lockedSeven : (lockedSeven.decrypt []).toOption = some seven.unnamed.wrapped := by
  have accepted : lockedSeven.scheme = .ok lockedScheme :=
    Outcome.toOption_eq_some.mp (by decide +kernel)
  have filled : lockedSeven.data ≠ [] := by decide
  have whole : lockedScheme.cipher.blockSize ∣ lockedSeven.data.length := by decide
  have padded : lockedScheme.cipher.decryptPadded (lockedScheme.key []) lockedScheme.iv
      lockedSeven.data = pad 16 seven.unnamed.wrapped.encode := by
    rw [key_lockedScheme]
    exact decryptPadded_lockedSeven
  have opened : lockedScheme.decrypt [] lockedSeven.data = .ok seven.unnamed.wrapped.encode := by
    rw [PasswordScheme.decrypt_eq_ok_iff rfl, padded]
    exact ⟨filled, whole, padded_pad (by decide) _⟩
  rw [EncryptedKeyInfo.decrypt, Outcome.bind_of_ok accepted, Outcome.bind_of_ok opened]
  decide +kernel

theorem sevens_agree :
    (Wraps (pointedSeven.naming .secp256r1).wrapped .secp256r1 pointedSeven ∧
        Wraps seven.unnamed.wrapped .secp256r1 seven ∧
        lockedSeven.decrypt [] = .ok seven.unnamed.wrapped) ∧
      readBlock none ⟨.rsaPrivateKey, [], [5]⟩ =
        PrivateKeyInfo.toPrivateKey ⟨.v1, ⟨Algorithm.rsa.identifier, none⟩, [5], none, none⟩ ∧
      readBlock none ⟨.ecPrivateKey, [], (pointedSeven.naming .secp256r1).encode⟩ =
        (pointedSeven.naming .secp256r1).wrapped.toPrivateKey ∧
      { seven.naming .secp256r1 with publicKey := some ⟨0, [4, 9]⟩ }.toPrivateKey none =
        seven.unnamed.wrapped.toPrivateKey ∧
      lockedSeven.toPrivateKey (some []) = seven.unnamed.wrapped.toPrivateKey ∧
      readBlock none ⟨.privateKey, [], seven.unnamed.wrapped.encode⟩ =
        seven.unnamed.wrapped.toPrivateKey := by
  have pointed : Wraps (pointedSeven.naming .secp256r1).wrapped .secp256r1 pointedSeven :=
    ⟨rfl, rfl, .inl rfl⟩
  have bare : Wraps seven.unnamed.wrapped .secp256r1 seven := ⟨rfl, rfl, .inr rfl⟩
  have opened := Outcome.toOption_eq_some.mp decrypt_lockedSeven
  have sound : seven.unnamed.wrapped.algorithm.Sound := by
    rintro octets ⟨⟩
    rfl
  obtain ⟨rsa, ec, encrypted, info⟩ := encodings_agree
  refine ⟨⟨pointed, bare, opened⟩, ?_, ?_, ?_, encrypted _ _ _ opened, ?_⟩
  · exact rsa ⟨.v1, ⟨Algorithm.rsa.identifier, none⟩, [5], none, none⟩ none rfl
  · exact (ec _ _ _ none (by decide +kernel) pointed).1 (.inr (by decide))
  · exact (ec _ _ _ none (by decide +kernel) bare).2 rfl
  · exact info _ _ sound (by decide +kernel)

end KeyFile
