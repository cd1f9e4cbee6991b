import KeyFile.Proofs.Composition
import KeyFile.Proofs.ErrorKinds

/-!
# Payloads that the armor encrypts

Headers of a block can say that its payload is encrypted, which makes the block unreadable whatever
it holds and whatever the password. Of several headers that could say so only the first is asked,
and if it does not, the block is read as if it had no headers.
-/
namespace KeyFile

/-! ## What headers say -/

namespace Pem

/-- The header is named `Proc-Type`, in whatever case. -/
def IsProcType (header : Text × Text) : Prop :=
  Text.sameIgnoringCase header.1 "Proc-Type".toList

instance : DecidablePred IsProcType := fun _ =>
  inferInstanceAs (Decidable (_ = true))

/-- The value has `ENCRYPTED` in it, in whatever case. -/
def SaysEncrypted (value : Text) : Prop :=
  ∃ word, word <:+: value ∧ "ENCRYPTED".toList = word.map Char.toUpper

theorem saysEncrypted_iff {value : Text} :
    SaysEncrypted value ↔ Text.contains "ENCRYPTED".toList (value.map Char.toUpper) := by
  rw [SaysEncrypted, Text.contains_iff, List.infix_map_iff]

instance : DecidablePred SaysEncrypted := fun _ =>
  decidable_of_iff _ saysEncrypted_iff.symm

/-- The first header with that name says that the payload is encrypted. -/
def AnnounceEncryption (headers : List (Text × Text)) : Prop :=
  ∃ before header after, headers = before ++ header :: after ∧
    (∀ other ∈ before, ¬ IsProcType other) ∧ IsProcType header ∧ SaysEncrypted header.2

theorem announceEncryption_iff {headers : List (Text × Text)} :
    AnnounceEncryption headers ↔
      ∃ header, headers.find? (fun header => IsProcType header) = some header ∧
        SaysEncrypted header.2 := by
  simp only [AnnounceEncryption, List.find?_eq_some_iff_append, decide_eq_true_iff,
    Bool.not_eq_true', decide_eq_false_iff_not]
  constructor
  · rintro ⟨before, header, after, split, others, named, encrypted⟩
    exact ⟨header, ⟨named, before, after, split, others⟩, encrypted⟩
  · rintro ⟨header, ⟨named, before, after, split, others⟩, encrypted⟩
    exact ⟨before, header, after, split, others, named, encrypted⟩

instance : DecidablePred AnnounceEncryption := fun _ =>
  decidable_of_iff _ announceEncryption_iff.symm

theorem isLegacyEncrypted_iff {block : Block} :
    block.isLegacyEncrypted ↔ AnnounceEncryption block.headers := by
  have same : (fun header => Text.sameIgnoringCase header.1 "Proc-Type".toList) =
      fun header : Text × Text => decide (IsProcType header) := by
    funext header
    exact Bool.decide_eq_true.symm
  rw [Block.isLegacyEncrypted, Block.header?, announceEncryption_iff, same]
  cases block.headers.find? fun header => IsProcType header with
  | none => simp
  | some header => simp [saysEncrypted_iff]

/-- Headers with that name that agree leave no doubt, wherever they stand. -/
theorem announceEncryption_of_agreement {headers : List (Text × Text)}
    (named : ∃ header ∈ headers, IsProcType header)
    (agree : ∀ header ∈ headers, IsProcType header → SaysEncrypted header.2) :
    AnnounceEncryption headers := by
  rw [announceEncryption_iff]
  cases found : headers.find? fun header => IsProcType header with
  | none =>
    obtain ⟨header, member, named⟩ := named
    exact absurd (decide_eq_true named) (List.find?_eq_none.mp found header member)
  | some header =>
    obtain ⟨first, -⟩ := List.find?_eq_some_iff_append.mp found
    exact ⟨header, rfl,
      agree header (List.mem_of_find?_eq_some found) (of_decide_eq_true first)⟩

end Pem

/-! ## Blocks and texts -/

namespace Document

variable {block : Pem.Block} {text : Text} {before after : List Pem.Block}

theorem readBlock_of_announced (encrypted : Pem.AnnounceEncryption block.headers)
    (password : Option Bytes) :
    readBlock password block = .error (.unsupported (.legacyEncryption block.label)) := by
  have refused : Container.ofBlock block = .error (.unsupported (.legacyEncryption block.label)) :=
    if_pos (Pem.isLegacyEncrypted_iff.mpr encrypted)
  rw [readBlock, refused]
  rfl

theorem current_of_unannounced (silent : ¬ Pem.AnnounceEncryption block.headers) :
    block.isLegacyEncrypted = false :=
  Bool.eq_false_iff.mpr (mt Pem.isLegacyEncrypted_iff.mp silent)

/-- Nothing but the headers says that a payload is encrypted by its armor. -/
theorem readBlock_ne_legacy (silent : ¬ Pem.AnnounceEncryption block.headers)
    (announced : block.label ∈ Pem.Label.privateKeys) (password : Option Bytes)
    (label : Pem.Label) :
    readBlock password block ≠ .error (.unsupported (.legacyEncryption label)) := by
  intro fault
  have current := current_of_unannounced silent
  -- Only the headers give this error; the payload fails in ways of its own.
  cases opened : Container.ofBlock block with
  | error refused =>
    have payload := Container.confined_ofBlock_of_current current announced _ opened
    rw [readBlock, opened] at fault
    cases fault
    exact payload
  | ok container =>
    rw [readBlock_of_ok opened] at fault
    obtain ⟨-, stored⟩ := Container.ofBlock_eq_ok.mp opened
    cases stored with
    | rsa => cases fault
    | ec => exact EcPrivateKey.confined_toPrivateKey none _ _ fault
    | @info info => exact info.confined_toPrivateKey _ fault
    | encrypted =>
      obtain payload | ⟨_, -, ⟨_, other⟩ | ⟨_, other⟩⟩ := EncryptedKeyInfo.toPrivateKey_error fault
      · exact payload
      · cases other
      · cases other

/-- Otherwise no header counts. -/
theorem readBlock_of_unannounced (silent : ¬ Pem.AnnounceEncryption block.headers)
    (password : Option Bytes) :
    readBlock password block = readBlock password { block with headers := [] } := by
  have current := current_of_unannounced silent
  have opened : Container.ofBlock block = Container.ofBlock { block with headers := [] } := by
    rw [Container.ofBlock, current]
    rfl
  rw [readBlock, readBlock, opened]

/-- Neither the first key nor all keys are read, because of such armor and for no other reason. -/
def LegacyRefused (origin : Option Text) (text : Text) (password : Option Bytes)
    (label : Pem.Label) : Prop :=
  load origin text password = .error ⟨origin, .unsupported (.legacyEncryption label)⟩ ∧
    loadAll origin text password = .error ⟨origin, .unsupported (.legacyEncryption label)⟩

theorem legacyRefused_of_firstKey {password : Option Bytes} {label : Pem.Label}
    (failed : firstKey text password = .error (.unsupported (.legacyEncryption label)))
    (origin : Option Text) : LegacyRefused origin text password label :=
  ⟨load_eq_error.mpr failed,
    Outcome.mapError_eq_error.mpr ⟨_, allKeys_of_firstKey_error failed, rfl⟩⟩

theorem privateKeyBlocks_of_first (parsed : Pem.blocks text = .ok (before ++ block :: after))
    (others : ∀ other ∈ before, other.label ∉ Pem.Label.privateKeys)
    (announced : block.label ∈ Pem.Label.privateKeys) :
    privateKeyBlocks text = .ok (block :: after.filter (·.label.isPrivateKey)) := by
  rw [privateKeyBlocks_of_blocks parsed, filter_eq_cons others announced]

/-- The payload of the first private key block counts as encrypted exactly if the first of its
headers named `Proc-Type` says so, as it does if all of them do. Then no key is read, whatever the
payload and the password. Otherwise the headers of the block make no difference, not even a later
one of that name. -/
theorem legacy_decided_by_first (parsed : Pem.blocks text = .ok (before ++ block :: after))
    (others : ∀ other ∈ before, other.label ∉ Pem.Label.privateKeys)
    (announced : block.label ∈ Pem.Label.privateKeys) (origin : Option Text)
    (password : Option Bytes) :
    (LegacyRefused origin text password block.label ↔ Pem.AnnounceEncryption block.headers) ∧
    ((∃ header ∈ block.headers, Pem.IsProcType header) →
      (∀ header ∈ block.headers, Pem.IsProcType header → Pem.SaysEncrypted header.2) →
        LegacyRefused origin text password block.label) ∧
    (¬ Pem.AnnounceEncryption block.headers → ∀ bare,
      Pem.blocks bare = .ok (before ++ { block with headers := [] } :: after) →
        load origin text password = load origin bare password ∧
          loadAll origin text password = loadAll origin bare password) := by
  have first := privateKeyBlocks_of_first parsed others announced
  have refused (encrypted : Pem.AnnounceEncryption block.headers) :
      LegacyRefused origin text password block.label := by
    refine legacyRefused_of_firstKey ?_ origin
    rw [firstKey_of_blocks first, readBlock_of_announced encrypted]
  refine ⟨⟨fun given => ?_, refused⟩,
    fun named agree => refused (Pem.announceEncryption_of_agreement named agree),
    fun silent bare stripped => ?_⟩
  · have fault := load_eq_error.mp given.1
    rw [firstKey_of_blocks first] at fault
    exact Decidable.not_not.mp fun silent => readBlock_ne_legacy silent announced _ _ fault
  · have second := privateKeyBlocks_of_first stripped others announced
    have alike := readBlock_of_unannounced silent password
    constructor
    · rw [load, load, firstKey_of_blocks first, firstKey_of_blocks second, alike]
    · rw [loadAll, loadAll, allKeys_of_blocks first, allKeys_of_blocks second, List.mapM_cons,
        List.mapM_cons, alike]

/-- A key of zeros under headers, and what is no private key before it. -/
def headed (headers : List (Text × Text)) : Pem.Block :=
  { zeroBlock with headers }

def headedText (headers : List (Text × Text)) : Text :=
  publicBlock.render ++ '\n' :: (headed headers).render

/-- Encryption is announced last, with letters of both cases. -/
def lateHeaders : List (Text × Text) :=
  [("DEK-Info".toList, "AES-128-CBC,00".toList), ("PROC-type".toList, "4,EncrypteD".toList)]

/-- Encryption is announced where something else has been announced before. -/
def repeatedHeaders : List (Text × Text) :=
  [("Proc-Type".toList, "4,MIC-CLEAR".toList), ("Proc-Type".toList, "4,ENCRYPTED".toList)]

theorem blocks_headedText : ∀ headers ∈ [[], lateHeaders, repeatedHeaders],
    (Pem.blocks (headedText headers)).toOption = some ([publicBlock] ++ headed headers :: []) := by
  decide +kernel

theorem silent_repeatedHeaders : ¬ Pem.AnnounceEncryption repeatedHeaders := by
  decide

/-- The key is refused under the first headers, and is the key that it is without headers under the
second. -/
theorem lateHeaders_refused :
    ((∀ headers ∈ [[], lateHeaders, repeatedHeaders],
        Pem.blocks (headedText headers) = .ok ([publicBlock] ++ headed headers :: [])) ∧
      (∀ other ∈ [publicBlock], other.label ∉ Pem.Label.privateKeys) ∧
      zeroBlock.label ∈ Pem.Label.privateKeys ∧
      ¬ Pem.AnnounceEncryption repeatedHeaders) ∧
    LegacyRefused none (headedText lateHeaders) (some [1]) .rsaPrivateKey ∧
    ¬ LegacyRefused none (headedText repeatedHeaders) none .rsaPrivateKey ∧
    load none (headedText repeatedHeaders) none = load none (headedText []) none := by
  have parsed : ∀ headers ∈ [[], lateHeaders, repeatedHeaders],
      Pem.blocks (headedText headers) = .ok ([publicBlock] ++ headed headers :: []) :=
    fun headers member => Outcome.toOption_eq_some.mp (blocks_headedText headers member)
  have others : ∀ other ∈ [publicBlock], other.label ∉ Pem.Label.privateKeys := by decide
  have announced : zeroBlock.label ∈ Pem.Label.privateKeys := by decide
  obtain ⟨-, refused, -⟩ := legacy_decided_by_first (parsed lateHeaders (by decide)) others
    announced none (some [1])
  obtain ⟨counted, -, bare⟩ := legacy_decided_by_first (parsed repeatedHeaders (by decide)) others
    announced none none
  exact ⟨⟨parsed, others, announced, silent_repeatedHeaders⟩, refused (by decide) (by decide),
    mt counted.mp silent_repeatedHeaders, (bare silent_repeatedHeaders _ (parsed [] (by decide))).1⟩

/-- The second header announces encryption, and still there is a key. -/
theorem repeatedHeaders_read :
    (Pem.blocks (headedText repeatedHeaders) =
        .ok ([publicBlock] ++ headed repeatedHeaders :: []) ∧
      (∀ other ∈ [publicBlock], other.label ∉ Pem.Label.privateKeys) ∧
      (headed repeatedHeaders).label ∈ Pem.Label.privateKeys ∧
      ∃ header ∈ (headed repeatedHeaders).headers,
        Pem.IsProcType header ∧ Pem.SaysEncrypted header.2) ∧
    load none (headedText repeatedHeaders) none = .ok (.rsa zeroKey) ∧
    loadAll none (headedText repeatedHeaders) none = .ok [.rsa zeroKey] := by
  have parsed := Outcome.toOption_eq_some.mp (blocks_headedText repeatedHeaders (by decide))
  have others : ∀ other ∈ [publicBlock], other.label ∉ Pem.Label.privateKeys := by decide
  have announced : (headed repeatedHeaders).label ∈ Pem.Label.privateKeys := by decide
  have first := privateKeyBlocks_of_first parsed others announced
  have read : readBlock none (headed repeatedHeaders) = .ok (.rsa zeroKey) :=
    (readBlock_of_unannounced silent_repeatedHeaders none).trans (readBlock_zeroBlock none)
  refine ⟨⟨parsed, others, announced, by decide⟩, ?_, ?_⟩
  · rw [load, firstKey_of_blocks first, read]
    rfl
  · rw [loadAll, allKeys_of_blocks first, List.mapM_cons, read]
    rfl

end Document

end KeyFile
