import KeyFile.Error
import KeyFile.Proofs.Asn1.Trees

/-!
# Fields of sequences

A sequence is read field by field and to its end. `ReadsAll` says of such a read which elements its
content has to spell for a given value to come out, and what has to hold of the value besides. It is
proved along the read, with one lemma for each way in which a field is read.
-/
namespace KeyFile

open Asn1

/-! ## Reads of parts of keys -/

theorem liftM_read {α : Type} (read : Read Asn1.Error α) :
    (liftM read : Read Error α) = read.mapError .malformedDer := rfl

theorem run_liftM_peekTag_bind {α : Type} (next : Option Tag → Read Error α) (input : Bytes) :
    ((liftM (peekTag : Read Asn1.Error (Option Tag)) : Read Error (Option Tag)) >>= next).run
        input =
      (next (input.head?.map Tag.ofOctet)).run input := rfl

theorem Asn1.Reads.lift {α : Type} {read : Read Asn1.Error α} {a : α} {octets : Bytes}
    (reads : Reads read a octets) : Reads (liftM read : Read KeyFile.Error α) a octets :=
  reads.mapError _

theorem Asn1.Accepts.lift {α : Type} {read : Read Asn1.Error α} {spelling : α → Bytes → Prop}
    (accepts : Accepts read spelling) : Accepts (liftM read : Read KeyFile.Error α) spelling :=
  accepts.mapError _

theorem decodeOnly_eq_ok {α : Type} {read : Read Asn1.Error α} {octets : Bytes} {a : α} :
    decodeOnly read octets = .ok a ↔ read.run octets = (.ok a, []) := by
  rcases found : read.only.run octets with ⟨outcome, rest⟩
  simp only [decodeOnly, Read.decode, Outcome.mapError_eq_ok, found]
  constructor
  · rintro rfl
    exact (Read.run_only_eq_ok.mp found).1
  · intro done
    have only := Read.run_only_eq_ok.mpr ⟨done, rfl⟩
    rw [found, Prod.mk.injEq] at only
    exact only.1

theorem decodeOnly_eq_ok_iff {α : Type} {read : Read Asn1.Error α} {spelling : α → Bytes → Prop}
    (accepts : Accepts read spelling) {octets : Bytes} {a : α} :
    decodeOnly read octets = .ok a ↔ spelling a octets := by
  simp only [decodeOnly_eq_ok, accepts.run_eq_ok, List.append_nil, exists_eq_right']

theorem decodeOnly_encode {α : Type} {read : Read Asn1.Error α} {a : α} {octets : Bytes}
    (reads : Reads read a octets) : decodeOnly read octets = .ok a :=
  decodeOnly_eq_ok.mpr reads.alone

/-- A sequence is opened before any of its fields is read. -/
theorem decodeSequence_eq_bind {α : Type} (fields : Read Error α) (octets : Bytes) :
    decodeSequence fields octets =
      decodeOnly readSequence octets >>= fun content => (fields.run content).1 := by
  simp only [decodeSequence, decodeOnly, Read.decode, liftM_read, Read.run_bind, Read.mapError]
  rcases readSequence.only.run octets with ⟨outcome, rest⟩
  cases outcome <;> rfl

theorem decodeSequence_eq_ok {α : Type} {fields : Read Error α} {octets : Bytes} {a : α} :
    decodeSequence fields octets = .ok a ↔ ∃ content,
      Framed .accepted .sequence (· = content) octets ∧
        ∃ left, fields.run content = (.ok a, left) := by
  have sequence (content : Bytes) : decodeOnly readSequence octets = .ok content ↔
      Framed .accepted .sequence (· = content) octets :=
    decodeOnly_eq_ok_iff (accepts_readContent .sequence)
  simp only [decodeSequence_eq_bind, Outcome.bind_eq_ok, sequence, Prod.ext_iff, exists_and_left,
    exists_eq', and_true]

/-- However a sequence of elements is spelled, decoding it comes down to reading the elements. -/
theorem decodeSequence_spelled {α : Type} {elements : List Element} {octets : Bytes}
    (spelled : (Element.sequence elements).Spelling .accepted octets) (fields : Read Error α) :
    ∃ content, Spellings .accepted elements content ∧
      decodeSequence fields octets = (fields.run content).1 := by
  obtain ⟨content, held, framed⟩ := Framed.exists_content spelled
  have opened : decodeOnly readSequence octets = .ok content :=
    (decodeOnly_eq_ok_iff (accepts_readContent .sequence)).mpr framed
  refine ⟨content, held, ?_⟩
  rw [decodeSequence_eq_bind, Outcome.bind_of_ok opened]

/-- What is written for a sequence holds what is written for its elements. -/
theorem decodeSequence_sequence {α : Type} {fields : Read Error α} {elements : List Element}
    (fits : (Element.sequence elements).encode.length < 2 ^ 64) :
    decodeSequence fields (Element.sequence elements).encode =
      (fields.run (encodeAll elements)).1 := by
  rw [decodeSequence_eq_bind, decodeOnly_encode (readSequence_encode fits), Outcome.bind_of_ok rfl]

/-! ## Contents that are read to their end -/

/-- The read takes the octets of a field if they begin with the tag, and none otherwise. -/
structure AcceptsOptional {ε α : Type} (read : Read ε (Option α)) (tag : Tag)
    (spelling : α → Bytes → Prop) : Prop where
  none_iff {input rest : Bytes} : read.run input = (.ok none, rest) ↔
    input.head?.map Tag.ofOctet ≠ some tag ∧ input = rest
  some_iff {a : α} {input rest : Bytes} : read.run input = (.ok (some a), rest) ↔
    ∃ octets, spelling a octets ∧ input = octets ++ rest

namespace AcceptsOptional

variable {ε α : Type} {read : Read ε (Option α)} {tag : Tag}

theorem lift {read : Read Asn1.Error (Option α)} {spelling : α → Bytes → Prop}
    (accepts : AcceptsOptional read tag spelling) :
    AcceptsOptional (liftM read : Read Error (Option α)) tag spelling where
  none_iff := Read.run_mapError_eq_ok.trans accepts.none_iff
  some_iff := Read.run_mapError_eq_ok.trans accepts.some_iff

/-- A read that looks at the tag, and only then reads the field. -/
theorem of_peek {spelling : α → Bytes → Prop} {field : Read ε α} (accepts : Accepts field spelling)
    (head : ∀ {a octets}, spelling a octets → octets.head?.map Tag.ofOctet = some tag)
    (present : ∀ {input : Bytes}, input.head?.map Tag.ofOctet = some tag →
      read.run input = (some <$> field).run input)
    (absent : ∀ {input : Bytes}, input.head?.map Tag.ofOctet ≠ some tag →
      read.run input = (.ok none, input)) : AcceptsOptional read tag spelling where
  none_iff := by
    intro input rest
    by_cases first : input.head?.map Tag.ofOctet = some tag
    · simp only [present first, Read.run_map_eq_ok, reduceCtorEq, and_false, exists_false, first,
        ne_eq, not_true_eq_false, false_and]
    · simp only [absent first, Prod.mk.injEq, true_and, first, ne_eq, not_false_eq_true]
  some_iff := by
    intro a input rest
    by_cases first : input.head?.map Tag.ofOctet = some tag
    · simp only [present first, Read.run_map_eq_ok, Option.some.injEq, exists_eq_right,
        accepts.run_eq_ok]
    · rw [absent first]
      constructor
      · nofun
      · -- The field would have announced itself by its tag.
        rintro ⟨octets, spelled, rfl⟩
        refine absurd ?_ first
        have given := head spelled
        cases octets with
        | nil => cases given
        | cons octet others => exact given

/-- The element of a field that is there stands in front of the rest. -/
theorem run_eq_ok_iff {kept : α → Prop} {written : α → Element}
    (accepts : AcceptsOptional read tag fun a octets =>
      kept a ∧ (written a).Spelling .accepted octets)
    {value : Option α} {input rest : Bytes} : read.run input = (.ok value, rest) ↔
      ((∀ a ∈ value, kept a) ∧ (value = none → rest.head?.map Tag.ofOctet ≠ some tag)) ∧
        ∃ octets, Spellings .accepted (value.toList.map written) octets ∧
          input = octets ++ rest := by
  cases value with
  | none =>
    rw [accepts.none_iff]
    constructor
    · rintro ⟨absent, rfl⟩
      exact ⟨⟨nofun, fun _ => absent⟩, [], rfl, rfl⟩
    · rintro ⟨⟨-, absent⟩, _, rfl, rfl⟩
      exact ⟨absent rfl, rfl⟩
  | some a =>
    rw [accepts.some_iff]
    constructor
    · rintro ⟨octets, ⟨held, spelled⟩, rfl⟩
      refine ⟨⟨?_, nofun⟩, octets, ⟨octets, [], spelled, rfl, (List.append_nil _).symm⟩, rfl⟩
      rintro _ ⟨⟩
      exact held
    · rintro ⟨⟨held, -⟩, _, ⟨octets, _, spelled, rfl, rfl⟩, rfl⟩
      exact ⟨octets, ⟨held a rfl, spelled⟩, by rw [List.append_nil]⟩

end AcceptsOptional

/-- The read gives the value exactly if the value is sound and its octets spell the elements. -/
def ReadsAll {ε α : Type} (fields : Read ε α) (a : α) (sound : Prop) (elements : List Element) :
    Prop :=
  ∀ content, (∃ left, fields.run content = (.ok a, left)) ↔
    sound ∧ Spellings .accepted elements content

/-- Where the last field may be absent, no octets begin with another tag than its own. -/
theorem head_last_ne {forms : Forms} {tag other : Tag} {β : Type} {written : β → Element}
    {content : β → Bytes → Prop}
    (framed : ∀ b, (written b).Spelling forms = Framed forms other (content b))
    (differs : other ≠ tag) {value : Option β} {octets : Bytes}
    (spelled : Spellings forms (value.toList.map written ++ []) octets) :
    octets.head?.map Tag.ofOctet ≠ some tag := by
  cases value with
  | none =>
    cases spelled
    nofun
  | some b =>
    obtain ⟨front, back, first, -, rfl⟩ := spelled
    rw [framed b] at first
    rw [first.head_append back, ne_eq, Option.some.injEq]
    exact differs

namespace ReadsAll

variable {ε α β : Type} {a : α} {sound : Prop} {elements : List Element}

theorem congr {fields : Read ε α} {other : Prop} (reads : ReadsAll fields a sound elements)
    (same : sound ↔ other) : ReadsAll fields a other elements := by
  intro content
  rw [reads content, same]

theorem finish {k : α} :
    ReadsAll (liftM Asn1.finish >>= fun _ => pure k : Read Error α) a (k = a) [] := by
  intro content
  simp only [liftM_read, Read.run_bind_eq_ok, Read.run_mapError_eq_ok, Read.run_finish_eq_ok,
    Read.run_pure_eq_ok, Spellings]
  constructor
  · rintro ⟨_, _, _, ⟨rfl, rfl⟩, same, rfl⟩
    exact ⟨same, rfl⟩
  · rintro ⟨same, rfl⟩
    exact ⟨[], (), [], ⟨rfl, rfl⟩, same, rfl⟩

/-- A field that has to be there; what comes out tells which value it has. -/
theorem bind_sound {first : Read ε β} {next : β → Read ε α} {kept given : β → Prop}
    {written : β → Element} {b : β}
    (accepts : Accepts first fun b octets => kept b ∧ (written b).Spelling .accepted octets)
    (only : ∀ {other}, given other → other = b)
    (reads : ∀ found, ReadsAll (next found) a (given found) elements) :
    ReadsAll (first >>= next) a (kept b ∧ given b) (written b :: elements) := by
  intro content
  simp only [accepts.run_bind_eq_ok, Spellings]
  constructor
  · rintro ⟨left, found, front, back, ⟨held, spelled⟩, done, rfl⟩
    -- What comes out at the end has the value of the field in it.
    obtain ⟨fixed, others⟩ := (reads found back).mp ⟨left, done⟩
    obtain rfl := only fixed
    exact ⟨⟨held, fixed⟩, front, back, spelled, others, rfl⟩
  · rintro ⟨⟨held, fixed⟩, front, back, spelled, others, rfl⟩
    obtain ⟨left, done⟩ := (reads b back).mpr ⟨fixed, others⟩
    exact ⟨left, b, front, back, ⟨held, spelled⟩, done, rfl⟩

theorem bind {first : Read ε β} {next : β → Read ε α} {given : β → Prop} {written : β → Element}
    {b : β} (accepts : Accepts first fun b => (written b).Spelling .accepted)
    (only : ∀ {other}, given other → other = b)
    (reads : ∀ found, ReadsAll (next found) a (given found) elements) :
    ReadsAll (first >>= next) a (given b) (written b :: elements) := by
  have whole : Accepts first fun b octets => True ∧ (written b).Spelling .accepted octets :=
    accepts.congr fun _ _ => iff_of_eq (true_and _).symm
  exact (bind_sound whole only reads).congr (iff_of_eq (true_and _))

/-- What a field means is settled apart from reading it. -/
theorem bind_ofExcept {outcome : Except ε β} {next : β → Read ε α} {given : β → Prop}
    (reads : ∀ b, ReadsAll (next b) a (given b) elements) :
    ReadsAll (Read.ofExcept outcome >>= next) a (∃ b, outcome = .ok b ∧ given b) elements := by
  intro content
  simp only [Read.run_bind_eq_ok, Read.run_ofExcept_eq_ok]
  constructor
  · rintro ⟨left, b, _, ⟨taken, rfl⟩, done⟩
    obtain ⟨fixed, spelled⟩ := (reads b content).mp ⟨left, done⟩
    exact ⟨⟨b, taken, fixed⟩, spelled⟩
  · rintro ⟨⟨b, taken, fixed⟩, spelled⟩
    obtain ⟨left, done⟩ := (reads b content).mpr ⟨fixed, spelled⟩
    exact ⟨left, b, content, ⟨taken, rfl⟩, done⟩

theorem check {c : Prop} [Decidable c] {e : ε} {next : Unit → Read ε α}
    (reads : ReadsAll (next ()) a sound elements) :
    ReadsAll (if c then throw e >>= next else next ()) a (¬ c ∧ sound) elements := by
  intro content
  simp only [Read.run_unless_eq_ok, exists_and_left, reads content, and_assoc]

/-- A field that may be absent takes nothing from what follows it. -/
theorem bind_optional {first : Read ε (Option β)} {next : Option β → Read ε α} {tag : Tag}
    {given : Option β → Prop} {kept : β → Prop} {written : β → Element} {value : Option β}
    (accepts : AcceptsOptional first tag fun b octets =>
      kept b ∧ (written b).Spelling .accepted octets)
    (apart : ∀ {octets}, Spellings .accepted elements octets →
      octets.head?.map Tag.ofOctet ≠ some tag)
    (only : ∀ {other}, given other → other = value)
    (reads : ∀ found, ReadsAll (next found) a (given found) elements) :
    ReadsAll (first >>= next) a ((∀ b ∈ value, kept b) ∧ given value)
      (value.toList.map written ++ elements) := by
  intro content
  simp only [Read.run_bind_eq_ok, accepts.run_eq_ok_iff, spellings_append]
  constructor
  · rintro ⟨left, found, middle, ⟨⟨held, -⟩, front, spelled, rfl⟩, more⟩
    obtain ⟨fixed, others⟩ := (reads found middle).mp ⟨left, more⟩
    obtain rfl := only fixed
    exact ⟨⟨held, fixed⟩, front, middle, spelled, others, rfl⟩
  · rintro ⟨⟨held, fixed⟩, front, back, spelled, others, rfl⟩
    -- If the field is absent, no later element is taken for it.
    obtain ⟨left, more⟩ := (reads value back).mpr ⟨fixed, others⟩
    exact ⟨left, value, back, ⟨⟨held, fun _ => apart others⟩, front, spelled, rfl⟩, more⟩

/-- One element and nothing else. -/
theorem only {read : Read Asn1.Error α} {kept : α → Prop} {written : α → Element}
    (accepts : Accepts read fun a octets => kept a ∧ (written a).Spelling .accepted octets) :
    ReadsAll read.only a (kept a) [written a] := by
  intro content
  simp only [Read.run_only_eq_ok, accepts.run_eq_ok, exists_and_left, exists_eq, and_true,
    List.append_nil, exists_eq_right', Spellings]
  constructor
  · rintro ⟨held, spelled⟩
    exact ⟨held, content, spelled, [], rfl, (List.append_nil content).symm⟩
  · rintro ⟨held, _, spelled, _, rfl, rfl⟩
    rw [List.append_nil]
    exact ⟨held, spelled⟩

/-- The element around the fields may have any length field. -/
theorem run_inside {tag : Tag} {input rest : Bytes} {fields : Read Asn1.Error α}
    (reads : ReadsAll fields a sound elements) :
    (readContent tag >>= fun content => Read.inside content fields).run input = (.ok a, rest) ↔
      ∃ octets, (sound ∧ Framed .accepted tag (Spellings .accepted elements) octets) ∧
        input = octets ++ rest := by
  simp only [(accepts_readContent tag).run_bind_eq_ok, Read.run_inside_eq_ok, reads _]
  constructor
  · rintro ⟨content, octets, _, framed, ⟨⟨given, spelled⟩, rfl⟩, rfl⟩
    exact ⟨octets, ⟨given, framed.of_content spelled⟩, rfl⟩
  · rintro ⟨octets, ⟨given, spelled⟩, rfl⟩
    obtain ⟨content, held, framed⟩ := spelled.exists_content
    exact ⟨content, octets, rest, framed, ⟨⟨given, held⟩, rfl⟩, rfl⟩

theorem decodeSequence_eq_ok_iff {fields : Read Error α} {octets : Bytes}
    (reads : ReadsAll fields a sound elements) :
    decodeSequence fields octets = .ok a ↔
      sound ∧ (Element.sequence elements).Spelling .accepted octets := by
  simp only [decodeSequence_eq_ok, reads _]
  constructor
  · rintro ⟨content, framed, given, spelled⟩
    exact ⟨given, framed.of_content spelled⟩
  · rintro ⟨given, spelled⟩
    obtain ⟨content, held, framed⟩ := Framed.exists_content spelled
    exact ⟨content, framed, given, held⟩

end ReadsAll

end KeyFile
