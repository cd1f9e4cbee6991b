import KeyFile.Proofs.Documents
import KeyFile.Proofs.Encoding.Faults

/-!
# Kinds of errors

The kind of an error tells where it comes from: the armor, the lack of a key, the octets of the
first key, or the password. The armor comes before everything else, and an encrypted key is judged
by its octets and its scheme before a password is asked for.
-/
namespace KeyFile

open Asn1 Outcome

/-! ## Encrypted keys -/

namespace EncryptedKeyInfo

variable {info : EncryptedKeyInfo} {scheme : PasswordScheme} {e : Error}

theorem toPrivateKey_of_refused (refused : info.scheme = .error e)
    (password : Option Bytes) : info.toPrivateKey password = .error e := by
  unfold toPrivateKey
  rw [refused]
  rfl

theorem toPrivateKey_none (accepted : info.scheme = .ok scheme) :
    info.toPrivateKey none = .error .passwordRequired := by
  unfold toPrivateKey
  rw [accepted]
  rfl

theorem toPrivateKey_some (accepted : info.scheme = .ok scheme) (password : Bytes) :
    info.toPrivateKey (some password) =
      info.decrypt password >>= PrivateKeyInfo.toPrivateKey := by
  unfold toPrivateKey
  rw [accepted]
  rfl

theorem confined_decrypt (accepted : info.scheme = .ok scheme) (password : Bytes) :
    Confined (· = .decryptionFailed) (info.decrypt password) := by
  rw [decrypt, bind_of_ok accepted]
  refine .bind ?_ fun octets => .mapError fun _ => rfl
  intro e fault
  exact PasswordScheme.decrypt_eq_error (PasswordScheme.length_iv accepted) fault

/-- The scheme is judged before the password, and the key within only once it is decrypted. -/
theorem toPrivateKey_error {password : Option Bytes}
    (fault : info.toPrivateKey password = .error e) :
    e.OfPayload ∨ ∃ scheme, info.scheme = .ok scheme ∧
      (password = none ∧ e = .passwordRequired ∨ password ≠ none ∧ e = .decryptionFailed) := by
  cases accepted : info.scheme with
  | error refused =>
    rw [toPrivateKey_of_refused accepted] at fault
    cases fault
    exact .inl (PasswordScheme.confined_ofAlgorithm _ e accepted)
  | ok scheme =>
    cases password with
    | none =>
      rw [toPrivateKey_none accepted] at fault
      cases fault
      exact .inr ⟨scheme, rfl, .inl ⟨rfl, rfl⟩⟩
    | some secret =>
      rw [toPrivateKey_some accepted] at fault
      cases opened : info.decrypt secret with
      | error _ =>
        rw [opened] at fault
        cases fault
        -- Under a scheme that is accepted, decryption fails in one way only.
        have failed := confined_decrypt accepted secret e opened
        exact .inr ⟨scheme, rfl, .inr ⟨Option.some_ne_none secret, failed⟩⟩
      | ok inner =>
        rw [opened] at fault
        exact .inl (inner.confined_toPrivateKey e fault)

end EncryptedKeyInfo

/-! ## Containers -/

namespace Container

variable {block : Pem.Block}

theorem confined_ofBlock_of_current (current : block.isLegacyEncrypted = false)
    (announced : block.label ∈ Pem.Label.privateKeys) :
    Confined Error.OfPayload (ofBlock block) := by
  rw [ofBlock, current, if_neg Bool.false_ne_true]
  refine .ite (fun _ => .map (RsaKey.confined_decode _) _) fun rsa => ?_
  refine .ite (fun _ => .map (EcPrivateKey.confined_decode _) _) fun ec => ?_
  refine .ite (fun _ => .map (PrivateKeyInfo.confined_decode _) _) fun any => ?_
  refine .ite (fun _ => .map (EncryptedKeyInfo.confined_decode _) _) fun encrypted => ?_
  refine .ite (fun _ => .error trivial) fun dsa => ?_
  -- No label that announces a key is left.
  simp only [Pem.Label.privateKeys, List.mem_cons, rsa, ec, any, encrypted, dsa,
    List.not_mem_nil, or_self] at announced

theorem confined_ofBlock (announced : block.label ∈ Pem.Label.privateKeys) :
    Confined Error.OfOctets (ofBlock block) := by
  cases legacy : block.isLegacyEncrypted with
  | true =>
    rw [ofBlock, if_pos legacy]
    exact .error trivial
  | false =>
    exact (confined_ofBlock_of_current legacy announced).mono fun _ => Error.OfPayload.ofOctets

theorem ofBlock_dsa (label : block.label = .dsaPrivateKey) :
    ∃ cause, ofBlock block = .error (.unsupported cause) := by
  cases legacy : block.isLegacyEncrypted with
  | true => exact ⟨.legacyEncryption block.label, if_pos legacy⟩
  | false =>
    refine ⟨.traditionalDsa, ?_⟩
    rw [ofBlock, legacy, label]
    rfl

end Container

namespace Document

variable {block : Pem.Block} {password : Option Bytes} {text : Text} {e : Error}

/-! ## Errors of a block -/

/-- An encrypted key under a scheme that is accepted. -/
structure Locked (block : Pem.Block) : Prop where
  label : block.label = .encryptedPrivateKey
  current : block.isLegacyEncrypted = false
  accepted : ∃ info scheme, EncryptedKeyInfo.decode block.payload = .ok info ∧
    info.scheme = .ok scheme

/-- The errors of a block that announces a private key. -/
inductive BlockFault (password : Option Bytes) (block : Pem.Block) : Error → Prop where
  | octets {e : Error} (given : e.OfOctets) : BlockFault password block e
  | locked (absent : password = none) (locked : Locked block) :
      BlockFault password block .passwordRequired
  | undecrypted (present : password ≠ none) (locked : Locked block) :
      BlockFault password block .decryptionFailed

theorem readBlock_of_ok {container : Container} (opened : Container.ofBlock block = .ok container)
    (password : Option Bytes) : readBlock password block = container.toPrivateKey password := by
  rw [readBlock, bind_of_ok opened]

theorem blockFault (announced : block.label ∈ Pem.Label.privateKeys)
    (fault : readBlock password block = .error e) : BlockFault password block e := by
  cases opened : Container.ofBlock block with
  | error refused =>
    rw [readBlock, opened] at fault
    cases fault
    exact .octets (Container.confined_ofBlock announced _ opened)
  | ok container =>
    rw [readBlock_of_ok opened] at fault
    obtain ⟨current, stored⟩ := Container.ofBlock_eq_ok.mp opened
    cases stored with
    | rsa _ _ => cases fault
    | ec _ _ => exact .octets (EcPrivateKey.confined_toPrivateKey none _ e fault).ofOctets
    | @info info _ _ => exact .octets (info.confined_toPrivateKey e fault).ofOctets
    | @encrypted info label decoded =>
      obtain given | ⟨scheme, accepted, reason⟩ := EncryptedKeyInfo.toPrivateKey_error fault
      · exact .octets given.ofOctets
      -- The scheme has been accepted, so the block is locked and the password decides.
      · have locked : Locked block := ⟨label, current, info, scheme, decoded, accepted⟩
        obtain ⟨absent, rfl⟩ | ⟨present, rfl⟩ := reason
        · exact .locked absent locked
        · exact .undecrypted present locked

theorem readBlock_of_locked (locked : Locked block) :
    readBlock none block = .error .passwordRequired := by
  obtain ⟨info, scheme, decoded, accepted⟩ := locked.accepted
  have opened := Container.ofBlock_eq_ok.mpr ⟨locked.current, .encrypted locked.label decoded⟩
  rw [readBlock_of_ok opened]
  exact EncryptedKeyInfo.toPrivateKey_none accepted

theorem readBlock_eq_passwordRequired (announced : block.label ∈ Pem.Label.privateKeys) :
    readBlock password block = .error .passwordRequired ↔ password = none ∧ Locked block := by
  constructor
  · intro fault
    cases blockFault announced fault with
    | octets given => exact given.elim
    | locked absent locked => exact ⟨absent, locked⟩
  · rintro ⟨rfl, locked⟩
    exact readBlock_of_locked locked

theorem readBlock_dsa (label : block.label = .dsaPrivateKey) (password : Option Bytes) :
    ∃ cause, readBlock password block = .error (.unsupported cause) := by
  obtain ⟨cause, refused⟩ := Container.ofBlock_dsa label
  refine ⟨cause, ?_⟩
  rw [readBlock, refused]
  rfl

/-! ## Errors of a text -/

theorem isPrivateKey_iff {label : Pem.Label} :
    label.isPrivateKey ↔ label ∈ Pem.Label.privateKeys :=
  List.contains_iff_mem

theorem filter_eq_nil {found : List Pem.Block} :
    found.filter (·.label.isPrivateKey) = [] ↔
      ∀ block ∈ found, block.label ∉ Pem.Label.privateKeys := by
  simp only [List.filter_eq_nil_iff, isPrivateKey_iff]

theorem filter_eq_cons {before after : List Pem.Block}
    (others : ∀ other ∈ before, other.label ∉ Pem.Label.privateKeys)
    (announced : block.label ∈ Pem.Label.privateKeys) :
    (before ++ block :: after).filter (·.label.isPrivateKey) =
      block :: after.filter (·.label.isPrivateKey) := by
  rw [List.filter_append, filter_eq_nil.mpr others, List.filter_cons_of_pos, List.nil_append]
  exact isPrivateKey_iff.mpr announced

theorem announced_of_filter {found rest : List Pem.Block}
    (first : found.filter (·.label.isPrivateKey) = block :: rest) :
    block.label ∈ Pem.Label.privateKeys := by
  have member : block ∈ found.filter (·.label.isPrivateKey) := first ▸ List.mem_cons_self
  exact isPrivateKey_iff.mp (List.mem_filter.mp member).2

/-- The errors of a text, the armor before everything else. -/
inductive TextFault (text : Text) (password : Option Bytes) : Error → Prop where
  | armor {cause : Pem.Error} (fault : Pem.blocks text = .error cause) :
      TextFault text password (.malformedPem cause)
  | lack {found : List Pem.Block} (parsed : Pem.blocks text = .ok found)
      (others : ∀ block ∈ found, block.label ∉ Pem.Label.privateKeys) :
      TextFault text password .noKeyFound
  | first {block : Pem.Block} {e : Error} (fault : BlockFault password block e) :
      TextFault text password e

theorem textFault (fault : firstKey text password = .error e) : TextFault text password e := by
  cases parsed : Pem.blocks text with
  | error cause =>
    rw [firstKey_of_fault parsed] at fault
    cases fault
    exact .armor parsed
  | ok found =>
    cases first : found.filter (·.label.isPrivateKey) with
    | nil =>
      rw [firstKey_of_none parsed first] at fault
      cases fault
      exact .lack parsed (filter_eq_nil.mp first)
    | cons block rest =>
      rw [firstKey_of_some parsed first] at fault
      exact .first (blockFault (announced_of_filter first) fault)

theorem firstKey_eq_malformedPem {cause : Pem.Error} :
    firstKey text password = .error (.malformedPem cause) ↔ Pem.blocks text = .error cause := by
  constructor
  · intro fault
    cases textFault fault with
    | armor fault => exact fault
    | first fault => cases fault with | octets given => exact given.elim
  · exact firstKey_of_fault

theorem firstKey_eq_noKeyFound :
    firstKey text password = .error .noKeyFound ↔ ∃ found, Pem.blocks text = .ok found ∧
      ∀ block ∈ found, block.label ∉ Pem.Label.privateKeys := by
  constructor
  · intro fault
    cases textFault fault with
    | lack parsed others => exact ⟨_, parsed, others⟩
    | first fault => cases fault with | octets given => exact given.elim
  · rintro ⟨found, parsed, others⟩
    exact firstKey_of_none parsed (filter_eq_nil.mpr others)

theorem load_eq_error {origin : Option Text} :
    load origin text password = .error ⟨origin, e⟩ ↔ firstKey text password = .error e := by
  refine mapError_eq_error.trans ⟨?_, fun fault => ⟨e, fault, rfl⟩⟩
  rintro ⟨cause, fault, ⟨⟩⟩
  exact fault

/-- Loading fails for the armor exactly if no blocks can be read, for the lack of a key exactly if
none of them announces one, and otherwise as the first one that does; the origin is only named. -/
theorem load_errors_exact (origin : Option Text) (text : Text) (password : Option Bytes) :
    (∀ cause, load origin text password = .error ⟨origin, .malformedPem cause⟩ ↔
        Pem.blocks text = .error cause) ∧
      (load origin text password = .error ⟨origin, .noKeyFound⟩ ↔
        ∃ found, Pem.blocks text = .ok found ∧
          ∀ block ∈ found, block.label ∉ Pem.Label.privateKeys) ∧
      (∀ before block after, Pem.blocks text = .ok (before ++ block :: after) →
        (∀ other ∈ before, other.label ∉ Pem.Label.privateKeys) →
        block.label ∈ Pem.Label.privateKeys →
        load origin text password = (readBlock password block).mapError (LoadError.mk origin) ∧
          (block.label = .dsaPrivateKey →
            ∃ cause, readBlock password block = .error (.unsupported cause)) ∧
          (readBlock password block = .error .passwordRequired ↔
            password = none ∧ Locked block) ∧
          (readBlock password block = .error .decryptionFailed →
            password ≠ none ∧ Locked block)) ∧
      ∀ other, load other text password =
        (load origin text password).mapError fun error => ⟨other, error.cause⟩ := by
  refine ⟨fun cause => load_eq_error.trans firstKey_eq_malformedPem,
    load_eq_error.trans firstKey_eq_noKeyFound, ?_, ?_⟩
  · intro before block after parsed others announced
    refine ⟨?_, fun label => readBlock_dsa label password,
      readBlock_eq_passwordRequired announced, fun fault => ?_⟩
    · rw [load, firstKey_of_some parsed (filter_eq_cons others announced)]
    · cases blockFault announced fault with
      | octets given => exact given.elim
      | undecrypted present locked => exact ⟨present, locked⟩
  · intro other
    unfold load
    cases firstKey text password <;> rfl

/-- Data that no password decrypts, under AES-256 with the digest left out. -/
def emptiedInfo : EncryptedKeyInfo where
  algorithm := ⟨PasswordScheme.identifier, some (Element.encode (.sequence
    [AlgorithmIdentifier.element ⟨PasswordScheme.derivationIdentifier,
        some (Element.sequence [.octetString [1, 2, 3], .word 2048]).encode⟩,
      AlgorithmIdentifier.element ⟨PasswordScheme.cipherIdentifier .aes256,
        some (Element.octetString (List.replicate 16 0)).encode⟩]))⟩
  data := []

def emptiedKey : Pem.Block :=
  ⟨.encryptedPrivateKey, [], emptiedInfo.encode⟩

theorem locked_emptiedKey : Locked emptiedKey where
  label := rfl
  current := rfl
  accepted := ⟨emptiedInfo, ⟨⟨[1, 2, 3], 2048, none, .sha1⟩, .aes256, List.replicate 16 0⟩,
    toOption_eq_some.mp (by decide +kernel), toOption_eq_some.mp (by decide +kernel)⟩

def emptyCertificate : Pem.Block :=
  ⟨.certificate, [], [48, 0]⟩

def certifiedText : Text :=
  [emptyCertificate, emptiedKey].flatMap fun block => block.render ++ ['\n']

theorem certifiedText_locked :
    (Pem.blocks certifiedText = .ok ([emptyCertificate] ++ emptiedKey :: []) ∧
        (∀ other ∈ [emptyCertificate], other.label ∉ Pem.Label.privateKeys) ∧
        emptiedKey.label ∈ Pem.Label.privateKeys) ∧
      load none certifiedText none = .error ⟨none, .passwordRequired⟩ := by
  have bare : ∀ block ∈ [emptyCertificate, emptiedKey], Pem.Bare block := by decide
  have parsed : Pem.blocks certifiedText = .ok ([emptyCertificate] ++ emptiedKey :: []) :=
    Pem.blocks_render bare
  have others : ∀ other ∈ [emptyCertificate], other.label ∉ Pem.Label.privateKeys := by decide
  have announced : emptiedKey.label ∈ Pem.Label.privateKeys := by decide
  obtain ⟨outcome, -, required, -⟩ :=
    (load_errors_exact none certifiedText none).2.2.1 _ _ _ parsed others announced
  rw [outcome, required.mpr ⟨rfl, locked_emptiedKey⟩]
  exact ⟨⟨parsed, others, announced⟩, rfl⟩

end Document

end KeyFile
