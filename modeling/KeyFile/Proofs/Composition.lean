import KeyFile.Proofs.Documents
import KeyFile.Proofs.Encoding.Shortest

/-!
# One key and all keys

All keys of a text are what its private key blocks give one by one, the first key among them. So a
text whose first key is broken has no keys at all, a later fault is that of the first block that
fails on its own, and texts that are joined by a line feed have the keys of both.
-/
namespace KeyFile

namespace Document

variable {text : Text} {password : Option Bytes} {keys : List PrivateKey} {e : Error}

/-- One key for each block that announces one. -/
theorem map_readBlock_of_allKeys (done : allKeys text password = .ok keys) :
    ∃ block rest, privateKeyBlocks text = .ok (block :: rest) ∧
      (block :: rest).map (readBlock password) = keys.map .ok := by
  obtain ⟨block, rest, found, read⟩ := allKeys_ok done
  exact ⟨block, rest, found, Outcome.mapM_eq_ok_iff.mp read⟩

theorem firstKey_of_allKeys {first : PrivateKey} {rest : List PrivateKey}
    (done : allKeys text password = .ok (first :: rest)) : firstKey text password = .ok first := by
  obtain ⟨block, others, found, each⟩ := map_readBlock_of_allKeys done
  rw [List.map_cons, List.map_cons, List.cons.injEq] at each
  rw [firstKey_of_blocks found, each.1]

/-- Nothing is read after a first key that is broken. -/
theorem allKeys_of_firstKey_error (fault : firstKey text password = .error e) :
    allKeys text password = .error e := by
  cases found : privateKeyBlocks text with
  | error cause =>
    rw [firstKey, found] at fault
    rw [allKeys, found]
    cases fault
    rfl
  | ok blocks =>
    cases blocks with
    | nil =>
      rw [firstKey, found] at fault
      rw [allKeys, found]
      cases fault
      rfl
    | cons block rest =>
      rw [firstKey_of_blocks found] at fault
      rw [allKeys_of_blocks found, List.mapM_cons, fault]
      rfl

/-- After a first key that is sound, the fault is that of the first later block with one. -/
theorem later_fault {key : PrivateKey} (first : firstKey text password = .ok key)
    (fault : allKeys text password = .error e) :
    ∃ block before failing after,
      privateKeyBlocks text = .ok (block :: (before ++ failing :: after)) ∧
        (∀ other ∈ before, ∃ key, readBlock password other = .ok key) ∧
        readBlock password failing = .error e := by
  obtain ⟨block, rest, found, given⟩ := firstKey_ok first
  rw [allKeys_of_blocks found] at fault
  obtain ⟨before, failing, after, parts, passed, failed⟩ := Outcome.exists_of_mapM_error fault
  cases before with
  | nil =>
    -- The first block is sound, so it is not the one that fails.
    cases parts
    rw [given] at failed
    cases failed
  | cons other before =>
    cases parts
    exact ⟨block, before, failing, after, found,
      fun other member => passed other (List.mem_cons_of_mem _ member), failed⟩

theorem allKeys_feed {left right : Text} {others : List PrivateKey}
    (first : allKeys left password = .ok keys) (second : allKeys right password = .ok others) :
    allKeys (left ++ '\n' :: right) password = .ok (keys ++ others) := by
  obtain ⟨block, rest, found, each⟩ := map_readBlock_of_allKeys first
  obtain ⟨_, _, later, every⟩ := map_readBlock_of_allKeys second
  have joined := privateKeyBlocks_feed found later
  -- The joined list has the first block of the left text at its head.
  rw [List.cons_append] at joined
  rw [allKeys_of_blocks joined, ← List.cons_append, Outcome.mapM_eq_ok_iff, List.map_append, each,
    every, List.map_append]

/-- Loading all keys gives one for each private key block, the one that loading the first key gives
before the others. Both fail alike if the first block fails, and otherwise loading all keys fails
like the first later block that does. Joined texts have the keys of both. -/
theorem keys_compose (origin : Option Text) (password : Option Bytes) :
    (∀ text keys, loadAll origin text password = .ok keys →
        ∃ blocks first rest, privateKeyBlocks text = .ok blocks ∧
          blocks.map (readBlock password) = keys.map .ok ∧
          keys = first :: rest ∧ load origin text password = .ok first) ∧
      (∀ text error, load origin text password = .error error →
        loadAll origin text password = .error error) ∧
      (∀ text key error, load origin text password = .ok key →
        loadAll origin text password = .error error →
        ∃ block before failing after,
          privateKeyBlocks text = .ok (block :: (before ++ failing :: after)) ∧
            (∀ other ∈ before, ∃ key, readBlock password other = .ok key) ∧
            readBlock password failing = .error error.cause) ∧
      ∀ left right keys others, loadAll origin left password = .ok keys →
        loadAll origin right password = .ok others →
        loadAll origin (left ++ '\n' :: right) password = .ok (keys ++ others) ∧
          ∃ first, keys.head? = some first ∧
            load origin (left ++ '\n' :: right) password = .ok first := by
  refine ⟨?_, ?_, ?_, ?_⟩
  · intro text keys loaded
    have done := Outcome.mapError_eq_ok.mp loaded
    obtain ⟨block, others, found, each⟩ := map_readBlock_of_allKeys done
    obtain ⟨first, rest, rfl⟩ := exists_first done
    exact ⟨_, first, rest, found, each, rfl,
      Outcome.mapError_eq_ok.mpr (firstKey_of_allKeys done)⟩
  · intro text error failed
    obtain ⟨cause, fault, rfl⟩ := Outcome.mapError_eq_error.mp failed
    exact Outcome.mapError_eq_error.mpr ⟨cause, allKeys_of_firstKey_error fault, rfl⟩
  · intro text key error loaded failed
    obtain ⟨cause, fault, rfl⟩ := Outcome.mapError_eq_error.mp failed
    exact later_fault (Outcome.mapError_eq_ok.mp loaded) fault
  · intro left right keys others first second
    have joined := allKeys_feed (Outcome.mapError_eq_ok.mp first) (Outcome.mapError_eq_ok.mp second)
    obtain ⟨key, rest, rfl⟩ := exists_first (Outcome.mapError_eq_ok.mp first)
    exact ⟨Outcome.mapError_eq_ok.mpr joined, key, rfl,
      Outcome.mapError_eq_ok.mpr (firstKey_of_allKeys joined)⟩

/-- An RSA key of zeros, a key that is refused for its label, and what is no private key. -/
def zeroBlock : Pem.Block := ⟨.rsaPrivateKey, [], zeroKey.encode⟩
def refusedBlock : Pem.Block := ⟨.dsaPrivateKey, [], []⟩
def publicBlock : Pem.Block := ⟨.publicKey, [], [1]⟩

/-- One of the blocks before a key of zeros, and one after it. -/
def around (before after : Pem.Block) : Text :=
  [before, zeroBlock, after].flatMap fun block => block.render ++ ['\n']

theorem privateKeyBlocks_around {before after : Pem.Block}
    (bare : ∀ block ∈ [before, zeroBlock, after], Pem.Bare block) :
    privateKeyBlocks (around before after) =
      .ok ([before, zeroBlock, after].filter (·.label.isPrivateKey)) :=
  privateKeyBlocks_render bare

theorem readBlock_zeroBlock (password : Option Bytes) :
    readBlock password zeroBlock = .ok (.rsa zeroKey) := by
  have opened : (Container.ofBlock zeroBlock).toOption = some (.rsa zeroKey) := by decide +kernel
  rw [readBlock, Outcome.bind_of_ok (Outcome.toOption_eq_some.mp opened)]
  rfl

theorem readBlock_refusedBlock (password : Option Bytes) :
    readBlock password refusedBlock = .error (.unsupported .traditionalDsa) := rfl

/-- A refused key before a sound one, a refused key after one, and two texts without. -/
theorem zeroKeys_compose :
    (load none (around refusedBlock publicBlock) none =
        .error ⟨none, .unsupported .traditionalDsa⟩ ∧
      load none (around publicBlock refusedBlock) none = .ok (.rsa zeroKey) ∧
      loadAll none (around publicBlock refusedBlock) none =
        .error ⟨none, .unsupported .traditionalDsa⟩ ∧
      loadAll none (around publicBlock publicBlock) none = .ok [.rsa zeroKey] ∧
      loadAll none (around publicBlock zeroBlock) none = .ok [.rsa zeroKey, .rsa zeroKey]) ∧
    loadAll none (around refusedBlock publicBlock) none =
      .error ⟨none, .unsupported .traditionalDsa⟩ ∧
    (∃ block before failing after,
      privateKeyBlocks (around publicBlock refusedBlock) =
          .ok (block :: (before ++ failing :: after)) ∧
        (∀ other ∈ before, ∃ key, readBlock none other = .ok key) ∧
        readBlock none failing = .error (.unsupported .traditionalDsa)) ∧
    (∃ blocks first rest, privateKeyBlocks (around publicBlock zeroBlock) = .ok blocks ∧
      blocks.map (readBlock none) = [PrivateKey.rsa zeroKey, .rsa zeroKey].map .ok ∧
      [PrivateKey.rsa zeroKey, .rsa zeroKey] = first :: rest ∧
      load none (around publicBlock zeroBlock) none = .ok first) ∧
    loadAll none (around publicBlock publicBlock ++ '\n' :: around publicBlock zeroBlock) none =
      .ok ([.rsa zeroKey] ++ [.rsa zeroKey, .rsa zeroKey]) := by
  have refusedFirst : load none (around refusedBlock publicBlock) none =
      .error ⟨none, .unsupported .traditionalDsa⟩ := by
    rw [load, firstKey_of_blocks (privateKeyBlocks_around (by decide))]
    rfl
  have refusedLast : privateKeyBlocks (around publicBlock refusedBlock) =
      .ok [zeroBlock, refusedBlock] :=
    privateKeyBlocks_around (by decide)
  have sound : load none (around publicBlock refusedBlock) none = .ok (.rsa zeroKey) := by
    rw [load, firstKey_of_blocks refusedLast, readBlock_zeroBlock]
    rfl
  have refused : loadAll none (around publicBlock refusedBlock) none =
      .error ⟨none, .unsupported .traditionalDsa⟩ := by
    rw [loadAll, allKeys_of_blocks refusedLast, List.mapM_cons, readBlock_zeroBlock]
    rfl
  have one : loadAll none (around publicBlock publicBlock) none = .ok [.rsa zeroKey] := by
    rw [loadAll, allKeys_of_blocks (privateKeyBlocks_around (by decide)), List.mapM_cons,
      readBlock_zeroBlock]
    rfl
  have two : loadAll none (around publicBlock zeroBlock) none =
      .ok [.rsa zeroKey, .rsa zeroKey] := by
    have read : [zeroBlock, zeroBlock].mapM (readBlock none) =
        .ok [.rsa zeroKey, .rsa zeroKey] := by
      rw [Outcome.mapM_eq_ok_iff, List.map_cons, List.map_cons, readBlock_zeroBlock]
      rfl
    rw [loadAll, allKeys_of_blocks (privateKeyBlocks_around (by decide))]
    exact Outcome.mapError_eq_ok.mpr read
  obtain ⟨each, alike, later, joined⟩ := keys_compose none none
  exact ⟨⟨refusedFirst, sound, refused, one, two⟩, alike _ _ refusedFirst,
    later _ _ _ sound refused, each _ _ two, (joined _ _ _ _ one two).1⟩

end Document

end KeyFile
