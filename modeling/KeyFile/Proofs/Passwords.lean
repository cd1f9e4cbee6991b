import KeyFile.Proofs.Composition
import KeyFile.Proofs.ErrorKinds

/-!
# What a password decides

A password is looked at only for an encrypted key whose octets and whose scheme are sound. Every
other block gives the same under any two passwords, and so does a text as long as reading it comes
to no such key.
-/
namespace KeyFile

namespace Document

variable {block : Pem.Block} {text : Text} {password : Option Bytes}

/-- No password is tried on the block: it holds no encrypted key, or it is refused before. -/
inductive Passwordless (block : Pem.Block) : Prop where
  | unencrypted (label : block.label ≠ .encryptedPrivateKey)
  | legacy (encrypted : block.isLegacyEncrypted)
  | undecoded {e : Error} (fault : EncryptedKeyInfo.decode block.payload = .error e)
  | refused {info : EncryptedKeyInfo} {e : Error}
      (decoded : EncryptedKeyInfo.decode block.payload = .ok info)
      (refused : info.scheme = .error e)

theorem Locked.of_not_passwordless (tried : ¬ Passwordless block) : Locked block where
  label := Decidable.not_not.mp fun other => tried (.unencrypted other)
  current := Bool.eq_false_iff.mpr fun legacy => tried (.legacy legacy)
  accepted := by
    cases decoded : EncryptedKeyInfo.decode block.payload with
    | error e => exact absurd (.undecoded decoded) tried
    | ok info =>
      cases accepted : info.scheme with
      | error e => exact absurd (.refused decoded accepted) tried
      | ok scheme => exact ⟨info, scheme, rfl, accepted⟩

theorem Locked.not_passwordless (locked : Locked block) : ¬ Passwordless block := by
  obtain ⟨info, scheme, decoded, accepted⟩ := locked.accepted
  intro passwordless
  cases passwordless with
  | unencrypted other => exact other locked.label
  | legacy encrypted => exact Bool.eq_false_iff.mp locked.current encrypted
  | undecoded fault =>
    rw [decoded] at fault
    cases fault
  | refused again refused =>
    rw [decoded] at again
    cases again
    rw [accepted] at refused
    cases refused

/-- Only encrypted keys look at the password, and they do so after their scheme. -/
theorem Passwordless.readBlock_eq (passwordless : Passwordless block) (left right : Option Bytes) :
    readBlock left block = readBlock right block := by
  cases opened : Container.ofBlock block with
  | error e =>
    rw [readBlock, readBlock, opened]
    rfl
  | ok container =>
    rw [readBlock_of_ok opened, readBlock_of_ok opened]
    obtain ⟨current, stored⟩ := Container.ofBlock_eq_ok.mp opened
    cases stored with
    | rsa | ec | info => rfl
    | @encrypted info label decoded =>
      -- The scheme is judged first, so a scheme that is refused hides the password.
      cases accepted : info.scheme with
      | error e =>
        have alike := EncryptedKeyInfo.toPrivateKey_of_refused accepted
        exact (alike left).trans (alike right).symm
      | ok scheme =>
        have locked : Locked block := ⟨label, current, info, scheme, decoded, accepted⟩
        exact absurd passwordless locked.not_passwordless

theorem firstKey_congr
    (first : ∀ block rest, privateKeyBlocks text = .ok (block :: rest) → Passwordless block)
    (left right : Option Bytes) : firstKey text left = firstKey text right := by
  rw [firstKey, firstKey]
  cases found : privateKeyBlocks text with
  | error e => rfl
  | ok blocks =>
    cases blocks with
    | nil => rfl
    | cons block rest => exact (first block rest found).readBlock_eq left right

theorem allKeys_congr {left : Option Bytes}
    (reached : ∀ before block after, privateKeyBlocks text = .ok (before ++ block :: after) →
      (∀ other ∈ before, ∃ key, readBlock left other = .ok key) → Passwordless block)
    (right : Option Bytes) : allKeys text left = allKeys text right := by
  cases found : privateKeyBlocks text with
  | error e => rw [allKeys, allKeys, found]; rfl
  | ok blocks =>
    cases blocks with
    | nil => rw [allKeys, allKeys, found]; rfl
    | cons block rest =>
      rw [allKeys_of_blocks found, allKeys_of_blocks found]
      refine Outcome.mapM_congr_reached fun before item after parts passed => ?_
      rw [parts] at found
      exact (reached before item after found passed).readBlock_eq left right

/-- With a password, an encrypted key is what it decrypts to, unless the decryption fails. -/
theorem readBlock_of_locked_some (locked : Locked block) (secret : Bytes) :
    ∃ info, EncryptedKeyInfo.decode block.payload = .ok info ∧
      (info.decrypt secret = .error .decryptionFailed ∧
          readBlock (some secret) block = .error .decryptionFailed ∨
        ∃ inner, info.decrypt secret = .ok inner ∧
          readBlock (some secret) block = inner.toPrivateKey) := by
  obtain ⟨info, scheme, decoded, accepted⟩ := locked.accepted
  have opened := Container.ofBlock_eq_ok.mpr ⟨locked.current, .encrypted locked.label decoded⟩
  have read : readBlock (some secret) block =
      info.decrypt secret >>= PrivateKeyInfo.toPrivateKey := by
    rw [readBlock_of_ok opened]
    exact EncryptedKeyInfo.toPrivateKey_some accepted secret
  refine ⟨info, decoded, ?_⟩
  cases decrypted : info.decrypt secret with
  | error e =>
    have failed := EncryptedKeyInfo.confined_decrypt accepted secret e decrypted
    rw [decrypted, failed] at read
    exact .inl ⟨by rw [failed], read⟩
  | ok inner =>
    rw [decrypted] at read
    exact .inr ⟨inner, rfl, read⟩

/-- Two passwords give the same first key unless a password is tried on the first private key block,
and the same keys unless one is tried on a block that is reached. Where one is tried on the first
block, it is required; with it there is a key, or the decryption fails, or else what is decrypted
makes no key. -/
theorem password_confined (origin : Option Text) (text : Text) :
    ((∀ block rest, privateKeyBlocks text = .ok (block :: rest) → Passwordless block) →
        ∀ left right, load origin text left = load origin text right) ∧
      (∀ left, (∀ before block after, privateKeyBlocks text = .ok (before ++ block :: after) →
          (∀ other ∈ before, ∃ key, readBlock left other = .ok key) → Passwordless block) →
        ∀ right, loadAll origin text left = loadAll origin text right) ∧
      ∀ block rest, privateKeyBlocks text = .ok (block :: rest) → ¬ Passwordless block →
        load origin text none = .error ⟨origin, .passwordRequired⟩ ∧
          ∀ secret, (∃ key, load origin text (some secret) = .ok key) ∨
            load origin text (some secret) = .error ⟨origin, .decryptionFailed⟩ ∨
            ∃ info inner e, EncryptedKeyInfo.decode block.payload = .ok info ∧
              info.decrypt secret = .ok inner ∧ inner.toPrivateKey = .error e ∧
              load origin text (some secret) = .error ⟨origin, e⟩ := by
  refine ⟨?_, ?_, ?_⟩
  · intro first left right
    rw [load, load, firstKey_congr first left right]
  · intro left reached right
    rw [loadAll, loadAll, allKeys_congr reached right]
  · intro block rest found tried
    have locked := Locked.of_not_passwordless tried
    refine ⟨?_, fun secret => ?_⟩
    · rw [load, firstKey_of_blocks found, readBlock_of_locked locked]
      rfl
    · obtain ⟨info, decoded, outcome⟩ := readBlock_of_locked_some locked secret
      rw [load, firstKey_of_blocks found]
      rcases outcome with ⟨-, read⟩ | ⟨inner, decrypted, read⟩
      · exact .inr (.inl (by rw [read]; rfl))
      · rw [read]
        cases within : inner.toPrivateKey with
        | ok key => exact .inl ⟨key, rfl⟩
        | error e => exact .inr (.inr ⟨info, inner, e, decoded, decrypted, within, rfl⟩)

theorem passwordless_refusedBlock : Passwordless refusedBlock :=
  .unencrypted (by decide)

/-- An encrypted key that is not reached, and one that is. -/
theorem emptiedKey_confined :
    (privateKeyBlocks (around refusedBlock emptiedKey) =
          .ok ([] ++ refusedBlock :: [zeroBlock, emptiedKey]) ∧
        Passwordless refusedBlock ∧
        privateKeyBlocks (around emptiedKey publicBlock) = .ok (emptiedKey :: [zeroBlock]) ∧
        ¬ Passwordless emptiedKey) ∧
      load none (around refusedBlock emptiedKey) none =
        load none (around refusedBlock emptiedKey) (some [1]) ∧
      loadAll none (around refusedBlock emptiedKey) none =
        loadAll none (around refusedBlock emptiedKey) (some [1]) ∧
      load none (around emptiedKey publicBlock) none = .error ⟨none, .passwordRequired⟩ := by
  have refused : privateKeyBlocks (around refusedBlock emptiedKey) =
      .ok (refusedBlock :: [zeroBlock, emptiedKey]) := privateKeyBlocks_around (by decide)
  have locked : privateKeyBlocks (around emptiedKey publicBlock) =
      .ok (emptiedKey :: [zeroBlock]) := privateKeyBlocks_around (by decide)
  obtain ⟨one, all, -⟩ := password_confined none (around refusedBlock emptiedKey)
  obtain ⟨-, -, tried⟩ := password_confined none (around emptiedKey publicBlock)
  have secret := locked_emptiedKey.not_passwordless
  refine ⟨⟨refused, passwordless_refusedBlock, locked, secret⟩, ?_, ?_,
    (tried _ _ locked secret).1⟩
  · refine one (fun block rest found => ?_) none (some [1])
    rw [refused] at found
    cases found
    exact passwordless_refusedBlock
  · refine all none (fun before block after found passed => ?_) (some [1])
    rw [refused, Except.ok.injEq] at found
    cases before with
    | nil =>
      cases found
      exact passwordless_refusedBlock
    -- Nothing is read after the block that is refused.
    | cons first others =>
      rw [List.cons_append, List.cons.injEq] at found
      obtain ⟨key, read⟩ := passed first List.mem_cons_self
      rw [← found.1, readBlock_refusedBlock] at read
      cases read

end Document

end KeyFile
