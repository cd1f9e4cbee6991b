import KeyFile.Document
import KeyFile.Proofs.Normalization
import KeyFile.Proofs.Pem.Documents
import KeyFile.Proofs.Pem.Found
import KeyFile.Proofs.Pem.Grammar

/-!
# Keys of documents

The blocks of a text decide what reading its keys comes down to: a fault of the armor, no key at
all, or the outcome of blocks that announce private keys. No payload is longer than the text, so the
keys of a text that a machine can hold are keys that the decoders give.
-/
namespace KeyFile

namespace Document

variable {text : Text} {password : Option Bytes} {keys : List PrivateKey} {key : PrivateKey}

/-! ## Blocks -/

theorem privateKeyBlocks_of_blocks {found : List Pem.Block} (parsed : Pem.blocks text = .ok found) :
    privateKeyBlocks text = .ok (found.filter (·.label.isPrivateKey)) := by
  rw [privateKeyBlocks, parsed]
  rfl

theorem privateKeyBlocks_ok {found : List Pem.Block} (done : privateKeyBlocks text = .ok found) :
    ∃ all, Pem.blocks text = .ok all ∧ all.filter (·.label.isPrivateKey) = found := by
  obtain ⟨all, parsed, filtered⟩ := Outcome.bind_eq_ok.mp done
  exact ⟨all, Outcome.mapError_eq_ok.mp parsed, Outcome.pure_eq_ok.mp filtered⟩

/-- The private key blocks among blocks that are written on lines of their own. -/
theorem privateKeyBlocks_render {written : List Pem.Block}
    (bare : ∀ block ∈ written, Pem.Bare block) :
    privateKeyBlocks (written.flatMap fun block => block.render ++ ['\n']) =
      .ok (written.filter (·.label.isPrivateKey)) :=
  privateKeyBlocks_of_blocks (Pem.blocks_render bare)

/-- The private key blocks of two texts that stand one after another. -/
theorem privateKeyBlocks_feed {left right : Text} {before after : List Pem.Block}
    (first : privateKeyBlocks left = .ok before) (second : privateKeyBlocks right = .ok after) :
    privateKeyBlocks (left ++ '\n' :: right) = .ok (before ++ after) := by
  obtain ⟨all, parsed, rfl⟩ := privateKeyBlocks_ok first
  obtain ⟨others, later, rfl⟩ := privateKeyBlocks_ok second
  have joined : Pem.blocks (left ++ '\n' :: right) = .ok (all ++ others) := by
    rw [Pem.blocks_feed parsed, later]
    rfl
  rw [privateKeyBlocks_of_blocks joined, List.filter_append]

theorem addressable_payload (addressable : Addressable (Text.utf8 text)) {found : List Pem.Block}
    (done : privateKeyBlocks text = .ok found) : ∀ block ∈ found, Addressable block.payload := by
  obtain ⟨all, parsed, rfl⟩ := privateKeyBlocks_ok done
  intro block member
  have size := Pem.length_payload_le parsed block (List.mem_filter.mp member).1
  exact Nat.lt_of_le_of_lt size addressable

/-! ## The first key -/

theorem firstKey_of_fault {cause : Pem.Error} (fault : Pem.blocks text = .error cause) :
    firstKey text password = .error (.malformedPem cause) := by
  rw [firstKey, privateKeyBlocks, fault]
  rfl

theorem firstKey_of_none {found : List Pem.Block} (parsed : Pem.blocks text = .ok found)
    (absent : found.filter (·.label.isPrivateKey) = []) :
    firstKey text password = .error .noKeyFound := by
  rw [firstKey, privateKeyBlocks_of_blocks parsed, absent]
  rfl

theorem firstKey_of_some {found rest : List Pem.Block} {block : Pem.Block}
    (parsed : Pem.blocks text = .ok found)
    (first : found.filter (·.label.isPrivateKey) = block :: rest) :
    firstKey text password = readBlock password block := by
  rw [firstKey, privateKeyBlocks_of_blocks parsed, first]
  rfl

theorem firstKey_ok (done : firstKey text password = .ok key) :
    ∃ block rest, privateKeyBlocks text = .ok (block :: rest) ∧
      readBlock password block = .ok key := by
  obtain ⟨found, blocks, done⟩ := Outcome.bind_eq_ok.mp done
  cases found with
  | nil => cases done
  | cons block rest => exact ⟨block, rest, blocks, done⟩

theorem firstKey_of_blocks {block : Pem.Block} {rest : List Pem.Block}
    (found : privateKeyBlocks text = .ok (block :: rest)) :
    firstKey text password = readBlock password block := by
  rw [firstKey, found]
  rfl

theorem produced_of_firstKey (addressable : Addressable (Text.utf8 text))
    (done : firstKey text password = .ok key) : Produced key := by
  obtain ⟨block, rest, found, given⟩ := firstKey_ok done
  exact .of_readBlock (addressable_payload addressable found block List.mem_cons_self) given

/-! ## All keys -/

theorem allKeys_ok (done : allKeys text password = .ok keys) :
    ∃ block rest, privateKeyBlocks text = .ok (block :: rest) ∧
      (block :: rest).mapM (readBlock password) = .ok keys := by
  obtain ⟨found, blocks, done⟩ := Outcome.bind_eq_ok.mp done
  cases found with
  | nil => cases done
  | cons block rest => exact ⟨block, rest, blocks, done⟩

theorem allKeys_of_blocks {block : Pem.Block} {rest : List Pem.Block}
    (found : privateKeyBlocks text = .ok (block :: rest)) :
    allKeys text password = (block :: rest).mapM (readBlock password) := by
  rw [allKeys, found]
  rfl

theorem exists_first (done : allKeys text password = .ok keys) :
    ∃ first rest, keys = first :: rest := by
  obtain ⟨block, rest, -, read⟩ := allKeys_ok done
  obtain ⟨first, -, others, -, rfl⟩ := Outcome.mapM_cons_eq_ok.mp read
  exact ⟨first, others, rfl⟩

theorem produced_of_mem (addressable : Addressable (Text.utf8 text))
    (done : allKeys text password = .ok keys) : ∀ key ∈ keys, Produced key := by
  obtain ⟨block, rest, found, read⟩ := allKeys_ok done
  intro key member
  obtain ⟨origin, present, given⟩ := Outcome.exists_of_mem_mapM read key member
  exact .of_readBlock (addressable_payload addressable found origin present) given

end Document

/-! ## Written keys -/

/-- The block of a produced key gives the key, whatever the password. -/
theorem Produced.readBlock_toBlock {key : PrivateKey} (produced : Produced key)
    (password : Option Bytes) : Document.readBlock password key.toBlock = .ok key := by
  obtain ⟨decoded, given⟩ := produced.decode_encode
  -- The label is the one for keys of any algorithm, and there is no header.
  have opened : Container.ofBlock key.toBlock =
      Container.info <$> PrivateKeyInfo.decode key.encode := rfl
  rw [decoded] at opened
  exact Outcome.bind_eq_ok.mpr ⟨_, opened, given⟩

theorem bare_toBlock (key : PrivateKey) : Pem.Bare key.toBlock where
  proper := by
    change Pem.Label.privateKey.Proper
    decide
  headers := rfl

end KeyFile
