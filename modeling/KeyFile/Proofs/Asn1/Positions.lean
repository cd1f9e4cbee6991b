import KeyFile.Asn1.Operation
import KeyFile.Proofs.Asn1.HeaderFields
import KeyFile.Proofs.Asn1.Integers

/-!
# Where reads end

A read takes one element or nothing. What is wrong with the tag or the header is found while the
element is still there, and what is wrong with a content once it has been taken; so the error alone
tells which octets are left. The judgement of a content reads nothing more, whatever it consists of.
-/
namespace KeyFile.Asn1

/-! ## Kinds of errors -/

/-- What is found before an element is taken. -/
def Error.OfHeader : Error → Prop
  | .unexpectedEnd | .unexpectedTag _ _ | .highTagNumber | .lengthTooLong | .indefiniteLength
  | .truncated _ _ => True
  | _ => False

/-- What is found in the content of an element that has been taken. -/
def Error.OfContent : Error → Prop
  | .emptyInteger | .negativeInteger | .integerOverflow | .invalidNull | .invalidBitString _
  | .invalidObjectIdentifier _ => True
  | _ => False

theorem Error.OfContent.not_ofHeader {e : Error} (content : e.OfContent) : ¬ e.OfHeader := by
  intro header
  cases e <;> first | exact content | exact header

theorem LengthFault.ofHeader {input : Bytes} {e : Error} (fault : LengthFault input e) :
    e.OfHeader := by
  cases fault <;> trivial

theorem HeaderFault.ofHeader {input : Bytes} {e : Error} (fault : HeaderFault input e) :
    e.OfHeader := by
  cases fault with
  | length _ fault => exact fault.ofHeader
  | missing | highTagNumber | truncated => trivial

/-! ## Reads of one element -/

section Reads

variable {α β : Type}

/-- The outcome needs no octets, and only a content can be at fault. -/
def Judges (read : Read Error α) : Prop :=
  ∃ outcome, read = Read.ofExcept outcome ∧ ∀ e, outcome = .error e → e.OfContent

namespace Judges

theorem ofExcept {outcome : Except Error α} (content : ∀ e, outcome = .error e → e.OfContent) :
    Judges (Read.ofExcept outcome) :=
  ⟨outcome, rfl, content⟩

theorem mapError {ε : Type} {outcome : Except ε α} {wrap : ε → Error}
    (content : ∀ cause, (wrap cause).OfContent) :
    Judges (Read.ofExcept (outcome.mapError wrap)) := by
  refine ofExcept fun e fault => ?_
  obtain ⟨cause, -, rfl⟩ := Outcome.mapError_eq_error.mp fault
  exact content cause

theorem pure (a : α) : Judges (Pure.pure a : Read Error α) :=
  ⟨.ok a, rfl, fun _ fault => by cases fault⟩

theorem throw {e : Error} (content : e.OfContent) :
    Judges (MonadExcept.throw e : Read Error α) := by
  refine ⟨.error e, rfl, fun _ fault => ?_⟩
  cases fault
  exact content

theorem ite {c : Prop} [Decidable c] {yes no : Read Error α} (first : c → Judges yes)
    (second : ¬ c → Judges no) : Judges (if c then yes else no) := by
  split
  next holds => exact first holds
  next fails => exact second fails

/-- A check that throws, and what comes after it. -/
theorem check {c : Prop} [Decidable c] {e : Error} {next : Unit → Read Error α}
    (content : e.OfContent) (later : Judges (next ())) :
    Judges (if c then MonadExcept.throw e >>= next else next ()) :=
  .ite (fun _ => throw content) fun _ => later

end Judges

/-- The reads that take an element in one of three ways and then judge what they have taken. -/
inductive ReadsElement : {α : Type} → Read Error α → Prop where
  | any : ReadsElement readAny
  | whole : ReadsElement readElement
  | content (tag : Tag) : ReadsElement (readContent tag)
  | judged {α β : Type} {read : Read Error α} {next : α → Read Error β}
      (first : ReadsElement read) (judges : ∀ a, Judges (next a)) : ReadsElement (read >>= next)

namespace ReadsElement

theorem map {read : Read Error α} (reads : ReadsElement read) (f : α → β) :
    ReadsElement (f <$> read) :=
  reads.judged fun a => .pure (f a)

theorem integer : ReadsElement readInteger :=
  (content .integer).judged fun _ => .check trivial (.pure _)

theorem unsigned : ReadsElement readUnsigned :=
  integer.judged fun _ => .check trivial (.pure _)

theorem word : ReadsElement readWord :=
  integer.judged fun _ => .check trivial (.check trivial (.pure _))

theorem null : ReadsElement readNull :=
  (content .null).judged fun _ => .ite (fun _ => .throw trivial) fun _ => .pure ()

theorem bitString : ReadsElement readBitString :=
  (content .bitString).judged fun _ => .mapError fun _ => trivial

theorem objectIdentifier : ReadsElement readObjectIdentifier :=
  (content .objectIdentifier).judged fun _ => .mapError fun _ => trivial

end ReadsElement

/-- All operations are such reads, apart from the one that may take nothing. -/
theorem Operation.readsElement {operation : Operation}
    (required : ∀ slot, operation ≠ .optionalExplicit slot) : ReadsElement operation.run := by
  cases operation with
  | any => exact ReadsElement.any.judged fun _ => .pure _
  | element => exact ReadsElement.whole.map _
  | integer => exact ReadsElement.integer.map _
  | unsigned => exact ReadsElement.unsigned.map _
  | word => exact ReadsElement.word.map _
  | octetString | sequence | explicit slot => exact (ReadsElement.content _).map _
  | bitString => exact ReadsElement.bitString.map _
  | null => exact ReadsElement.null.judged fun _ => .pure _
  | objectIdentifier => exact ReadsElement.objectIdentifier.map _
  | optionalExplicit slot => exact absurd rfl (required slot)

/-! ## What such a read comes to -/

/-- What a read of one element comes to: an error with nothing read, or the element that any read
would take, with a result or with an error of its content. -/
inductive OneElement (input : Bytes) : Except Error α → Bytes → Prop
  | unread {e : Error} (header : e.OfHeader) : OneElement input (.error e) input
  | taken {found : Tag × Bytes} {rest : Bytes} {outcome : Except Error α}
      (next : readAny.run input = (.ok found, rest))
      (content : ∀ e, outcome = .error e → e.OfContent) : OneElement input outcome rest

def TakesOne (read : Read Error α) : Prop :=
  ∀ input, OneElement input (read.run input).1 (read.run input).2

namespace TakesOne

theorem bind {read : Read Error α} {next : α → Read Error β} (takes : TakesOne read)
    (judges : ∀ a, Judges (next a)) : TakesOne (read >>= next) := by
  intro input
  have first := takes input
  rw [Read.run_bind]
  rcases done : read.run input with ⟨_ | a, rest⟩
  case error e =>
    rw [done] at first
    cases first with
    | unread header => exact .unread header
    | taken found content => exact .taken found fun _ fault => content _ (by cases fault; rfl)
  case ok =>
    obtain ⟨outcome, same, content⟩ := judges a
    rw [done] at first
    cases first with
    | taken found _ =>
      -- The judgement leaves the octets where the read has left them.
      simp only [same]
      exact .taken found content

theorem map {read : Read Error α} (takes : TakesOne read) (f : α → β) : TakesOne (f <$> read) :=
  takes.bind fun a => .pure (f a)

end TakesOne

end Reads

/-! ## Single elements -/

theorem Framed.two_le_length {tag : Tag} {content : Bytes → Prop} {octets : Bytes}
    (framed : Framed .accepted tag content octets) : 2 ≤ octets.length := by
  cases framed with
  | intro canonical announces held =>
    cases announces <;> simp

/-- An element is taken off the front, and it has an identifier octet and a length field. -/
theorem readAny_advances {input rest : Bytes} {found : Tag × Bytes}
    (read : readAny.run input = (.ok found, rest)) :
    ∃ octets, 2 ≤ octets.length ∧ input = octets ++ rest := by
  obtain ⟨octets, framed, split⟩ := accepts_readAny.run_eq_ok.mp read
  exact ⟨octets, framed.two_le_length, split⟩

theorem readAny_ne_self {input : Bytes} {found : Tag × Bytes} :
    readAny.run input ≠ (.ok found, input) := by
  intro read
  obtain ⟨octets, filled, same⟩ := readAny_advances read
  rw [List.self_eq_append_left.mp same] at filled
  exact absurd filled (by decide)

namespace OneElement

variable {α : Type} {input rest : Bytes} {e : Error}

theorem cases_error (one : OneElement input (.error e : Except Error α) rest) :
    rest = input ∧ e.OfHeader ∨
      (∃ found, readAny.run input = (.ok found, rest)) ∧ e.OfContent := by
  cases one with
  | unread header => exact .inl ⟨rfl, header⟩
  | taken next content => exact .inr ⟨⟨_, next⟩, content e rfl⟩

theorem unread_iff (one : OneElement input (.error e : Except Error α) rest) :
    rest = input ↔ e.OfHeader := by
  rcases one.cases_error with ⟨same, header⟩ | ⟨⟨found, next⟩, content⟩
  · exact iff_of_true same header
  · refine iff_of_false ?_ content.not_ofHeader
    rintro rfl
    exact readAny_ne_self next

theorem passed_iff (one : OneElement input (.error e : Except Error α) rest) :
    (∃ found, readAny.run input = (.ok found, rest)) ↔ e.OfContent := by
  rcases one.cases_error with ⟨rfl, header⟩ | ⟨next, content⟩
  · refine iff_of_false ?_ fun content => content.not_ofHeader header
    rintro ⟨found, next⟩
    exact readAny_ne_self next
  · exact iff_of_true next content

theorem suffix {outcome : Except Error α} (one : OneElement input outcome rest) :
    rest <:+ input := by
  cases one with
  | unread _ => exact List.suffix_rfl
  | taken next _ =>
    obtain ⟨octets, -, rfl⟩ := readAny_advances next
    exact List.suffix_append octets rest

end OneElement

theorem takesOne_readAny : TakesOne readAny := by
  intro input
  cases found : readHeader input with
  | error e =>
    have unread : readAny.run input = (.error e, input) := by simp only [readAny, found]
    rw [unread]
    exact .unread (headerFault_of_readHeader found).ofHeader
  | ok header =>
    obtain ⟨tag, length, rest⟩ := header
    have read : readAny.run input = (.ok (tag, rest.take length), rest.drop length) := by
      simp only [readAny, found]
    rw [read]
    exact .taken read fun _ fault => by cases fault

theorem takesOne_readElement : TakesOne readElement := by
  intro input
  have first := takesOne_readAny input
  unfold readElement
  simp only
  rcases done : readAny.run input with ⟨_ | found, rest⟩
  case error e =>
    rw [done] at first
    cases first with
    | unread header => exact .unread header
    | taken next _ =>
      rw [done] at next
      cases next
  case ok => exact .taken done nofun

/-- The first octet has to announce the tag before the element is taken. -/
theorem readContent_cons {tag : Tag} {first : UInt8} {rest : Bytes} :
    (readContent tag).run (first :: rest) =
      if Tag.ofOctet first ≠ tag then
        (.error (.unexpectedTag tag (Tag.ofOctet first)), first :: rest)
      else (Prod.snd <$> readAny).run (first :: rest) := by
  rw [readContent, Read.run_peekTag_bind, List.head?_cons, Option.map_some]
  by_cases different : Tag.ofOctet first ≠ tag
  · simp only [if_pos different]
    rfl
  · simp only [if_neg different]
    rfl

theorem takesOne_readContent (tag : Tag) : TakesOne (readContent tag) := by
  intro input
  cases input with
  | nil => exact .unread trivial
  | cons first rest =>
    rw [readContent_cons]
    split
    next => exact .unread trivial
    next => exact takesOne_readAny.map Prod.snd (first :: rest)

theorem ReadsElement.takesOne {α : Type} {read : Read Error α} (reads : ReadsElement read) :
    TakesOne read := by
  induction reads with
  | any => exact takesOne_readAny
  | whole => exact takesOne_readElement
  | content tag => exact takesOne_readContent tag
  | judged _ judges ih => exact ih.bind judges

/-! ## All reads -/

namespace Operation

variable {operation : Operation} {input : Bytes}

/-- The wrapper that may be left out is not what comes next. -/
def Skips (operation : Operation) (input : Bytes) : Prop :=
  ∃ slot, operation = .optionalExplicit slot ∧ input.head?.map Tag.ofOctet ≠ some (.explicit slot)

theorem Skips.run_eq (skips : operation.Skips input) :
    operation.run.run input = (.ok .absent, input) := by
  obtain ⟨slot, rfl, other⟩ := skips
  have skipped : (readOptionalExplicit slot).run input = (.ok none, input) := by
    rw [readOptionalExplicit, Read.run_peekTag_bind, if_neg other, Read.run_pure]
  rw [run, Read.run_bind_of_ok skipped, Read.run_pure]

/-- A wrapper that is there is read like one that has to be. -/
theorem run_optionalExplicit {slot : UInt8}
    (present : input.head?.map Tag.ofOctet = some (.explicit slot)) :
    (optionalExplicit slot).run.run input = (explicit slot).run.run input := by
  have wrapped : (readOptionalExplicit slot).run input =
      (Option.some <$> readExplicit slot).run input := by
    rw [readOptionalExplicit, Read.run_peekTag_bind, if_pos present]
    rfl
  rw [run, run, Read.run_bind, wrapped, Read.run_map, Read.run_map]
  rcases (readExplicit slot).run input with ⟨_ | content, rest⟩ <;> rfl

theorem oneElement_of_not_skips (present : ¬ operation.Skips input) :
    OneElement input (operation.run.run input).1 (operation.run.run input).2 := by
  by_cases optional : ∃ slot, operation = .optionalExplicit slot
  · obtain ⟨slot, rfl⟩ := optional
    have next := Decidable.not_not.mp fun other => present ⟨slot, rfl, other⟩
    rw [run_optionalExplicit next]
    exact (readsElement fun _ same => by cases same).takesOne input
  · exact (readsElement fun slot same => optional ⟨slot, same⟩).takesOne input

/-- Where a read leaves the octets. -/
structure Positioned (operation : Operation) (input : Bytes) : Prop where
  skipped : operation.Skips input → operation.run.run input = (.ok .absent, input)
  advanced : ¬ operation.Skips input → ∀ value rest,
    operation.run.run input = (.ok value, rest) → ∃ found, readAny.run input = (.ok found, rest)
  unread : ∀ e rest, operation.run.run input = (.error e, rest) → (rest = input ↔ e.OfHeader)
  passed : ∀ e rest, operation.run.run input = (.error e, rest) →
    ((∃ found, readAny.run input = (.ok found, rest)) ↔ e.OfContent)
  untrailing : ∀ e rest, operation.run.run input = (.error e, rest) →
    ∀ count, e ≠ .trailingData count
  suffix : (operation.run.run input).2 <:+ input

theorem positioned (operation : Operation) (input : Bytes) : operation.Positioned input := by
  -- Either a missing wrapper is skipped, or what happens is that of a read of one element.
  by_cases skips : operation.Skips input
  · have nothing := skips.run_eq
    constructor <;> simp [nothing, skips]
  · have one := oneElement_of_not_skips skips
    have failed {e : Error} {rest : Bytes} (done : operation.run.run input = (.error e, rest)) :
        OneElement input (.error e : Except Error Value) rest := by
      rwa [done] at one
    refine ⟨fun skips' => absurd skips' skips, fun _ value rest done => ?_,
      fun e rest done => (failed done).unread_iff, fun e rest done => (failed done).passed_iff,
      fun e rest done count trailing => ?_, one.suffix⟩
    · rw [done] at one
      cases one with
      | taken next _ => exact ⟨_, next⟩
    · rcases (failed done).cases_error with ⟨-, header⟩ | ⟨-, content⟩
      · rw [trailing] at header
        exact header
      · rw [trailing] at content
        exact content

end Operation

/-- A read that succeeds takes the element that any read would take, unless it finds an optional
wrapper left out and takes nothing. A read that fails takes nothing exactly if the error is one of
the header, and takes that element exactly if the error is one of the content; there are no other
errors, and the parsers of the fields of a header add none. -/
theorem positions_exact :
    (∀ (operation : Operation) (input : Bytes), operation.Positioned input) ∧
      ∀ parsers : FieldParsers, parsers.Lawful →
        parsers.readAny = readAny.mapError Refusal.known ∧
          ∀ input kind rest, parsers.readAny.run input ≠ (.error (.parser kind), rest) := by
  refine ⟨Operation.positioned, fun parsers lawful => ⟨lawful.readAny_eq, ?_⟩⟩
  intro input kind rest fault
  rw [lawful.readAny_eq] at fault
  obtain ⟨e, -, unnamed⟩ := Outcome.mapError_eq_error.mp (congrArg Prod.fst fault)
  cases unnamed

/-- A negative integer, and another element after it. -/
def negativeElement : Bytes :=
  [0x02, 0x01, 0x80, 0x05, 0x00]

/-- It is taken when its sign is at fault, and stays when its tag is, or when it may be left out. -/
theorem negativeElement_positions :
    (Operation.unsigned.run.run negativeElement = (.error .negativeInteger, [0x05, 0x00]) ∧
        (∃ found, readAny.run negativeElement = (.ok found, [0x05, 0x00])) ∧
        Operation.null.run.run negativeElement =
          (.error (.unexpectedTag .null .integer), negativeElement) ∧
        FieldParsers.plain.Lawful) ∧
      Error.negativeInteger.OfContent ∧ (Error.unexpectedTag .null .integer).OfHeader ∧
      (Operation.optionalExplicit 0).run.run negativeElement = (.ok .absent, negativeElement) ∧
      FieldParsers.plain.readAny = readAny.mapError Refusal.known := by
  obtain ⟨positioned, named⟩ := positions_exact
  have negative : Operation.unsigned.run.run negativeElement =
      (.error .negativeInteger, [0x05, 0x00]) := rfl
  have mistagged : Operation.null.run.run negativeElement =
      (.error (.unexpectedTag .null .integer), negativeElement) := rfl
  have next : readAny.run negativeElement = (.ok (.integer, [0x80]), [0x05, 0x00]) := rfl
  refine ⟨⟨negative, ⟨_, next⟩, mistagged, FieldParsers.lawful_plain⟩, ?_, ?_, ?_,
    (named _ FieldParsers.lawful_plain).1⟩
  · exact ((positioned .unsigned negativeElement).passed _ _ negative).mp ⟨_, next⟩
  · exact ((positioned .null negativeElement).unread _ _ mistagged).mp rfl
  · exact (positioned (.optionalExplicit 0) negativeElement).skipped ⟨0, rfl, by decide⟩

end KeyFile.Asn1
