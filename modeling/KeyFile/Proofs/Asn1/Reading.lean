import KeyFile.Asn1.Element
import KeyFile.Error
import KeyFile.Proofs.Asn1.Identifiers
import KeyFile.Proofs.Asn1.Spelling

/-!
# Reads that succeed

A read that succeeds is taken apart along its definition, one equivalence for each way in which
reads are composed. On this rest two families of facts about single elements: `Reads` says that a
read takes exactly the octets that are written for a value, and the `_ok` lemmas say which octets
a read has taken. No read takes fewer octets than are written for what it gives.
-/
namespace KeyFile.Asn1

namespace Read

variable {ε ε' α β : Type} {input rest : Bytes}

theorem run_bind_eq_ok {first : Read ε α} {next : α → Read ε β} {b : β} :
    (first >>= next).run input = (.ok b, rest) ↔
      ∃ a middle, first.run input = (.ok a, middle) ∧ (next a).run middle = (.ok b, rest) := by
  rw [run_bind]
  constructor
  · intro done
    split at done
    next a middle found => exact ⟨a, middle, found, done⟩
    next => cases done
  · rintro ⟨a, middle, found, done⟩
    rw [found]
    exact done

theorem run_map_eq_ok {f : α → β} {read : Read ε α} {b : β} :
    (f <$> read).run input = (.ok b, rest) ↔
      ∃ a, read.run input = (.ok a, rest) ∧ f a = b := by
  rw [run_map]
  constructor
  · intro done
    split at done
    next a middle found =>
      cases done
      exact ⟨a, found, rfl⟩
    next => cases done
  · rintro ⟨a, found, rfl⟩
    rw [found]

theorem run_pure_eq_ok {a b : α} :
    (pure a : Read ε α).run input = (.ok b, rest) ↔ a = b ∧ input = rest := by
  simp only [run_pure, Prod.mk.injEq, Except.ok.injEq]

theorem run_ofExcept_eq_ok {outcome : Except ε α} {a : α} :
    (ofExcept outcome).run input = (.ok a, rest) ↔ outcome = .ok a ∧ input = rest := by
  simp only [ofExcept, Prod.mk.injEq]

theorem run_mapError_eq_ok {read : Read ε α} {rename : ε → ε'} {a : α} :
    (read.mapError rename).run input = (.ok a, rest) ↔ read.run input = (.ok a, rest) := by
  rcases found : read.run input with ⟨outcome, left⟩
  simp only [mapError, found, Prod.mk.injEq, Outcome.mapError_eq_ok]

theorem run_inside_eq_ok {content : Bytes} {read : Read ε α} {a : α} :
    (inside content read).run input = (.ok a, rest) ↔
      (∃ left, read.run content = (.ok a, left)) ∧ input = rest := by
  rcases found : read.run content with ⟨outcome, left⟩
  simp only [inside, found, Prod.mk.injEq, exists_and_left, exists_eq', and_true]

/-- A check that throws: what comes after it runs exactly if it does not. -/
theorem run_unless_eq_ok {c : Prop} [Decidable c] {e : ε} {next : Unit → Read ε α} {a : α} :
    (if c then throw e >>= next else next ()).run input = (.ok a, rest) ↔
      ¬ c ∧ (next ()).run input = (.ok a, rest) := by
  split
  next holds => simp [run_bind, holds]
  next fails => simp [fails]

theorem run_finish_eq_ok {u : Unit} :
    finish.run input = (.ok u, rest) ↔ input = [] ∧ rest = [] := by
  cases input with
  | nil =>
    simp only [finish, List.isEmpty_nil, if_true, Prod.mk.injEq, true_and]
    exact eq_comm
  | cons first others => simp [finish]

theorem run_only_eq_ok {read : Read Error α} {a : α} :
    read.only.run input = (.ok a, rest) ↔ read.run input = (.ok a, []) ∧ rest = [] := by
  simp only [only, run_bind_eq_ok, run_pure_eq_ok, run_finish_eq_ok]
  constructor
  · rintro ⟨_, _, found, _, _, ⟨rfl, rfl⟩, rfl, rfl⟩
    exact ⟨found, rfl⟩
  · rintro ⟨found, rfl⟩
    exact ⟨a, [], found, (), [], ⟨rfl, rfl⟩, rfl, rfl⟩

theorem run_peekTag_eq_ok {tag : Option Tag} :
    peekTag.run input = (.ok tag, rest) ↔ tag = input.head?.map Tag.ofOctet ∧ input = rest := by
  simp only [peekTag, Prod.mk.injEq, Except.ok.injEq, eq_comm]

theorem run_peekTag_bind (next : Option Tag → Read Error α) (input : Bytes) :
    (peekTag >>= next).run input = (next (input.head?.map Tag.ofOctet)).run input := rfl

end Read

/-! ## Octets that are read -/

/-- The read takes exactly these octets, whatever stands after them, and gives this value. -/
def Reads {ε α : Type} (read : Read ε α) (value : α) (octets : Bytes) : Prop :=
  ∀ rest, read.run (octets ++ rest) = (.ok value, rest)

namespace Reads

variable {ε ε' α β : Type} {read : Read ε α} {a : α} {octets : Bytes}

theorem run_bind (reads : Reads read a octets) (next : α → Read ε β) (rest : Bytes) :
    (read >>= next).run (octets ++ rest) = (next a).run rest :=
  Read.run_bind_of_ok (reads rest)

theorem map (reads : Reads read a octets) (f : α → β) : Reads (f <$> read) (f a) octets := by
  intro rest
  rw [Read.run_map, reads rest]

theorem mapError (reads : Reads read a octets) (rename : ε → ε') :
    Reads (read.mapError rename) a octets := fun rest =>
  Read.run_mapError_eq_ok.mpr (reads rest)

theorem alone (reads : Reads read a octets) : read.run octets = (.ok a, []) := by
  simpa using reads []

end Reads

/-- The read takes octets exactly if they spell what it gives, whatever stands after them. -/
def Accepts {ε α : Type} (read : Read ε α) (spelling : α → Bytes → Prop) : Prop :=
  ∀ value input rest, read.run input = (.ok value, rest) ↔
    ∃ octets, spelling value octets ∧ input = octets ++ rest

namespace Accepts

variable {ε ε' α β : Type} {read : Read ε α} {spelling : α → Bytes → Prop} {input rest : Bytes}
  {a : α}

theorem run_eq_ok (accepts : Accepts read spelling) : read.run input = (.ok a, rest) ↔
    ∃ octets, spelling a octets ∧ input = octets ++ rest :=
  accepts a input rest

theorem reads (accepts : Accepts read spelling) {octets : Bytes} (spelled : spelling a octets) :
    Reads read a octets := fun _ =>
  accepts.run_eq_ok.mpr ⟨octets, spelled, rfl⟩

/-- Where octets are taken apart, there is one value in front, and one rest. -/
theorem unique (accepts : Accepts read spelling) {b : α} {front front' back back' : Bytes}
    (here : spelling a front) (there : spelling b front') (same : front ++ back = front' ++ back') :
    a = b ∧ back = back' := by
  have first := accepts.reads here back
  rw [same, accepts.reads there back', Prod.mk.injEq, Except.ok.injEq] at first
  exact ⟨first.1.symm, first.2.symm⟩

theorem mapError (accepts : Accepts read spelling) (rename : ε → ε') :
    Accepts (read.mapError rename) spelling := fun _ _ _ =>
  Read.run_mapError_eq_ok.trans accepts.run_eq_ok

/-- Nothing more is read, and an outcome is taken instead. -/
theorem bind_ofExcept (accepts : Accepts read spelling) (next : α → Except ε β) :
    Accepts (read >>= fun a => Read.ofExcept (next a)) fun b octets =>
      ∃ a, next a = .ok b ∧ spelling a octets := by
  intro b input rest
  simp only [Read.run_bind_eq_ok, Read.run_ofExcept_eq_ok]
  constructor
  · rintro ⟨a, _, done, taken, rfl⟩
    obtain ⟨octets, spelled, split⟩ := accepts.run_eq_ok.mp done
    exact ⟨octets, ⟨a, taken, spelled⟩, split⟩
  · rintro ⟨octets, ⟨a, taken, spelled⟩, split⟩
    exact ⟨a, rest, accepts.run_eq_ok.mpr ⟨octets, spelled, split⟩, taken, rfl⟩

theorem congr (accepts : Accepts read spelling) {other : α → Bytes → Prop}
    (same : ∀ a octets, spelling a octets ↔ other a octets) : Accepts read other := by
  intro a input rest
  simp only [accepts.run_eq_ok, same]

theorem run_bind_eq_ok (accepts : Accepts read spelling) {next : α → Read ε β} {b : β} :
    (read >>= next).run input = (.ok b, rest) ↔
      ∃ a front back, spelling a front ∧ (next a).run back = (.ok b, rest) ∧
        input = front ++ back := by
  simp only [Read.run_bind_eq_ok, accepts.run_eq_ok]
  constructor
  · rintro ⟨a, back, ⟨front, spelled, rfl⟩, done⟩
    exact ⟨a, front, back, spelled, done, rfl⟩
  · rintro ⟨a, front, back, spelled, done, rfl⟩
    exact ⟨a, back, ⟨front, spelled, rfl⟩, done⟩

/-- No fewer octets are taken than are written for what is read. -/
theorem length_le {written : α → Element}
    (accepts : Accepts read fun a => (written a).Spelling .accepted)
    (done : read.run input = (.ok a, rest)) :
    (written a).encode.length + rest.length ≤ input.length := by
  obtain ⟨octets, spelled, rfl⟩ := accepts.run_eq_ok.mp done
  have shortest := ((written a).shortens spelled).le
  rw [List.length_append]
  omega

end Accepts

/-! ## Contents -/

namespace Framed

variable {forms : Forms} {tag : Tag} {content : Bytes → Prop} {octets : Bytes}

/-- The identifier octet announces the tag. -/
theorem head (framed : Framed forms tag content octets) :
    octets.head?.map Tag.ofOctet = some tag := by
  cases framed with
  | intro canonical => simp only [List.head?_cons, Option.map_some, canonical.1]

theorem head_append (framed : Framed forms tag content octets) (rest : Bytes) :
    (octets ++ rest).head?.map Tag.ofOctet = some tag := by
  have first := framed.head
  cases octets with
  | nil => cases first
  | cons octet others => exact first

end Framed

theorem accepts_readAny : Accepts readAny fun found => Framed .accepted found.1 (· = found.2) := by
  rintro ⟨tag, content⟩ input rest
  constructor
  · intro done
    cases found : readHeader input with
    | error e => simp [readAny, found] at done
    | ok result =>
      obtain ⟨actual, length, left⟩ := result
      simp only [readAny, found, Prod.mk.injEq, Except.ok.injEq] at done
      obtain ⟨⟨rfl, rfl⟩, rfl⟩ := done
      obtain ⟨field, canonical, announces, enough, rfl⟩ := readHeader_eq_ok_iff.mp found
      have taken : (left.take length).length = length := by
        rw [List.length_take]
        omega
      -- The field announces what is taken, since that many octets are there.
      rw [← taken] at announces
      exact ⟨actual.octet :: (field ++ left.take length), .intro canonical announces rfl, by simp⟩
  · rintro ⟨_, framed, rfl⟩
    cases framed with
    | @intro field inner canonical announces same =>
      subst same
      have enough : inner.length ≤ (inner ++ rest).length := by
        rw [List.length_append]
        omega
      have header := readHeader_eq_ok_iff.mpr ⟨field, canonical, announces, enough, rfl⟩
      simp only [List.cons_append, List.append_assoc, readAny, header, List.take_left,
        List.drop_left]

theorem head_of_readAny_ok {input rest : Bytes} {tag : Tag} {content : Bytes}
    (done : readAny.run input = (.ok (tag, content), rest)) :
    input.head?.map Tag.ofOctet = some tag := by
  obtain ⟨octets, framed, rfl⟩ := accepts_readAny.run_eq_ok.mp done
  exact framed.head_append rest

/-- Reading the content of an element is reading an element that has the tag. -/
theorem readContent_eq_ok_iff {input rest : Bytes} {tag : Tag} {content : Bytes} :
    (readContent tag).run input = (.ok content, rest) ↔
      readAny.run input = (.ok (tag, content), rest) := by
  constructor
  · intro done
    simp only [readContent, Read.run_bind_eq_ok, Read.run_peekTag_eq_ok] at done
    obtain ⟨first, _, ⟨announced, rfl⟩, done⟩ := done
    cases first with
    | none => simp at done
    | some actual =>
      simp only [Read.run_unless_eq_ok, Read.run_bind_eq_ok, Read.run_pure_eq_ok] at done
      obtain ⟨same, ⟨found, octets⟩, _, read, rfl, rfl⟩ := done
      -- What `peekTag` has seen is the tag that the header then announces.
      have agree := head_of_readAny_ok read
      rw [← announced, Option.some.injEq] at agree
      have expected : actual = tag := Decidable.not_not.mp same
      rw [← expected, agree]
      exact read
  · intro read
    rw [readContent, Read.run_peekTag_bind, head_of_readAny_ok read]
    simp only [ne_eq, not_true_eq_false, if_false]
    rw [Read.run_bind_of_ok read, Read.run_pure]

theorem accepts_readContent (tag : Tag) :
    Accepts (readContent tag) fun content => Framed .accepted tag (· = content) := by
  intro content input rest
  rw [readContent_eq_ok_iff, accepts_readAny.run_eq_ok]

/-- The beginning of an element is refused because it ends, and none of it is read. -/
theorem readContent_cut {tag : Tag} {content : Bytes → Prop} {octets short : Bytes}
    (framed : Framed .accepted tag content octets) (start : short <+: octets)
    (proper : short ≠ octets) :
    ∃ cause, cause.EndsEarly ∧ (readContent tag).run short = (.error cause, short) := by
  cases framed with
  | @intro field inner canonical announces held =>
    obtain ⟨cause, early, failed⟩ := readHeader_cut canonical announces start proper
    refine ⟨cause, early, ?_⟩
    -- Unless nothing is left, the tag is still the one that is expected.
    cases short with
    | nil =>
      cases failed
      rfl
    | cons first others =>
      obtain ⟨rfl, -⟩ := List.cons_prefix_cons.mp start
      rw [readContent, Read.run_peekTag_bind, List.head?_cons, Option.map_some, canonical.1]
      simp only [ne_eq, not_true_eq_false, if_false, Read.run_bind, readAny, failed]

section Contents

variable {tag : Tag} {content input rest : Bytes}

theorem readContent_element (fits : content.length < 2 ^ 64) (canonical : tag.Canonical) :
    Reads (readContent tag) content (element tag content) :=
  (accepts_readContent tag).reads (Framed.element Forms.admits_accepted canonical fits rfl)

/-- An element that is read is no shorter than the one that is written for its content. -/
theorem length_element_of_readContent (done : (readContent tag).run input = (.ok content, rest)) :
    (element tag content).length + rest.length ≤ input.length := by
  have accepts : Accepts (readContent tag) fun content =>
      (Element.tagged tag content).Spelling .accepted := accepts_readContent tag
  exact accepts.length_le done

theorem length_of_readContent (done : (readContent tag).run input = (.ok content, rest)) :
    content.length + rest.length < input.length := by
  have size := length_element_of_readContent done
  have larger := length_lt_length_element tag content
  omega

end Contents

/-! ## Single elements -/

theorem length_integerContent_word (value : UInt64) :
    (integerContent value.toNat).length ≤ 9 := by
  have octets := (BigEndian.length_ofNat_le_iff value.toNat 8).mpr value.toNat_lt
  -- Eight octets, and one more for the sign.
  unfold integerContent
  split
  · simp
  next first others spelled =>
    rw [spelled] at octets
    split <;> simp only [List.length_cons] at octets ⊢ <;> omega

/-- A content without a sign stands for the number that its octets spell. -/
theorem readUnsigned_eq : readUnsigned = do
    let content ← readInteger
    if negative content then throw .negativeInteger
    return BigEndian.toNat content := by
  unfold readUnsigned
  congr 1
  funext content
  by_cases sign : negative content
  · rw [if_pos (toInt_neg_iff.mpr sign), if_pos sign]
    rfl
  · have positive : negative content = false := by simpa using sign
    rw [if_neg (mt toInt_neg_iff.mp sign), if_neg sign, toInt_of_positive positive,
      Int.toNat_natCast]

theorem accepts_readUnsigned :
    Accepts readUnsigned fun value => (Element.unsigned value).Spelling .accepted := by
  intro value input rest
  simp only [readUnsigned_eq, readInteger, Read.run_bind_eq_ok, Read.run_unless_eq_ok,
    Read.run_pure_eq_ok, (accepts_readContent .integer).run_eq_ok]
  constructor
  · rintro ⟨content, _, ⟨_, _, ⟨octets, framed, rfl⟩, filled, rfl, rfl⟩, positive, spelled, rfl⟩
    exact ⟨octets, framed.of_content ⟨by simpa using filled, by simpa using positive, spelled⟩, rfl⟩
  · rintro ⟨octets, framed, rfl⟩
    obtain ⟨content, spells, framed⟩ := Framed.exists_content framed
    exact ⟨content, rest, ⟨content, rest, ⟨octets, framed, rfl⟩, by simpa using spells.filled, rfl,
      rfl⟩, by simp [spells.positive], spells.spelled, rfl⟩

/-- Eight octets at most are left without the zeros exactly if the number fits in a word, and then
the word is this number. -/
theorem readWord_eq : readWord = do
    let value ← readUnsigned
    if UInt64.size ≤ value then throw .integerOverflow
    return UInt64.ofNat value := by
  apply Read.ext_run
  intro input
  simp only [readWord, readUnsigned_eq, bind_assoc, Read.run_bind]
  rcases readInteger.run input with ⟨_ | content, rest⟩
  · rfl
  · by_cases sign : negative content
    · simp [sign, Read.run_bind]
    -- A number fits in a word exactly if it has eight octets or fewer without leading zeros.
    · have few := BigEndian.length_dropWhile_zero_le_iff content 8
      have whole : 256 ^ 8 = UInt64.size := by decide
      rw [whole] at few
      simp only [sign, Bool.false_eq_true, if_false, Read.run_pure]
      by_cases fits : BigEndian.toNat content < UInt64.size
      · have short := few.mpr fits
        have word : BigEndian.toWord (content.dropWhile (· = 0)) =
            UInt64.ofNat (BigEndian.toNat content) := by
          rw [← BigEndian.toNat_dropWhile_zero, ← BigEndian.toNat_toWord_of_length_le short,
            UInt64.ofNat_toNat]
        rw [if_neg (Nat.not_lt.mpr short), if_neg (Nat.not_le.mpr fits), word]
      · rw [if_pos (Nat.lt_of_not_le (mt few.mp fits)), if_pos (Nat.le_of_not_lt fits)]
        rfl

theorem accepts_readWord :
    Accepts readWord fun value => (Element.word value).Spelling .accepted := by
  intro value input rest
  simp only [readWord_eq, Read.run_bind_eq_ok, Read.run_unless_eq_ok, Read.run_pure_eq_ok]
  constructor
  · rintro ⟨number, _, read, fits, rfl, rfl⟩
    -- A number that fits in a word is not cut off by it.
    have same : (UInt64.ofNat number).toNat = number := by
      rw [UInt64.toNat_ofNat', Nat.mod_eq_of_lt (Nat.lt_of_not_le fits)]
    rw [Element.Spelling, same]
    exact accepts_readUnsigned.run_eq_ok.mp read
  · intro spelled
    exact ⟨value.toNat, rest, accepts_readUnsigned.run_eq_ok.mpr spelled,
      Nat.not_le.mpr value.toNat_lt, UInt64.ofNat_toNat, rfl⟩

theorem accepts_readOctetString :
    Accepts readOctetString fun octets => (Element.octetString octets).Spelling .accepted :=
  accepts_readContent .octetString

theorem ofValidContent_eq_ok_iff {octets : Bytes} {bits : BitString} :
    BitString.ofValidContent octets = .ok bits ↔ bits.Valid ∧ octets = bits.content := by
  cases octets with
  | nil =>
    constructor
    · nofun
    · rintro ⟨-, ⟨⟩⟩
  | cons unused data =>
    rw [BitString.ofValidContent, BitString.ofContent, Outcome.bind_of_ok rfl]
    constructor
    · intro done
      split at done
      next valid =>
        cases done
        exact ⟨valid, rfl⟩
      next => cases done
    · rintro ⟨valid, same⟩
      obtain ⟨rfl, rfl⟩ := List.cons.inj same
      exact if_pos valid

theorem ofValidContent_of_invalid {bits : BitString} (invalid : ¬ bits.Valid) :
    BitString.ofValidContent bits.content = .error (.unusedBits bits.unusedBits) :=
  if_neg invalid

/-- The content of a bit string is judged once its element has been read. -/
theorem run_readBitString {content octets : Bytes}
    (framed : Framed .accepted .bitString (· = content) octets) (rest : Bytes) :
    readBitString.run (octets ++ rest) =
      ((BitString.ofValidContent content).mapError .invalidBitString, rest) :=
  ((accepts_readContent .bitString).reads framed).run_bind _ rest

theorem accepts_readBitString : Accepts readBitString fun bits octets =>
    bits.Valid ∧ (Element.bitString bits).Spelling .accepted octets := by
  refine ((accepts_readContent .bitString).bind_ofExcept _).congr fun bits octets => ?_
  simp only [Outcome.mapError_eq_ok, ofValidContent_eq_ok_iff]
  constructor
  · rintro ⟨_, ⟨valid, rfl⟩, framed⟩
    exact ⟨valid, framed⟩
  · rintro ⟨valid, framed⟩
    exact ⟨_, ⟨valid, rfl⟩, framed⟩

theorem accepts_readNull : Accepts readNull fun _ => Element.null.Spelling .accepted := by
  intro value input rest
  have check (content : Bytes) (middle : Bytes) :
      (if ¬ content.isEmpty then throw .invalidNull else pure () : Read Error Unit).run middle =
        (.ok value, rest) ↔ content = [] ∧ middle = rest := by
    cases content <;> simp
  simp only [readNull, Read.run_bind_eq_ok, check, (accepts_readContent .null).run_eq_ok]
  constructor
  · rintro ⟨_, _, spelled, rfl, rfl⟩
    exact spelled
  · intro spelled
    exact ⟨[], rest, spelled, rfl, rfl⟩

theorem accepts_readObjectIdentifier : Accepts readObjectIdentifier fun identifier =>
    (Element.objectIdentifier identifier).Spelling .accepted := by
  refine ((accepts_readContent .objectIdentifier).bind_ofExcept _).congr fun identifier octets => ?_
  simp only [Outcome.mapError_eq_ok, ObjectIdentifier.ofContents_eq_ok_iff, exists_eq_left]
  rfl

/-! ## Written elements -/

section Encoded

theorem readUnsigned_encode {value : Nat} (fits : (Element.unsigned value).encode.length < 2 ^ 64) :
    Reads readUnsigned value (Element.unsigned value).encode :=
  accepts_readUnsigned.reads
    (.element Forms.admits_accepted (by decide) (length_content_lt fits) (.integerContent value))

theorem readWord_encode (value : UInt64) : Reads readWord value (Element.word value).encode := by
  have width := length_integerContent_word value
  exact accepts_readWord.reads
    (.element Forms.admits_accepted (by decide) (by omega) (.integerContent value.toNat))

theorem readOctetString_encode {octets : Bytes}
    (fits : (Element.octetString octets).encode.length < 2 ^ 64) :
    Reads readOctetString octets (Element.octetString octets).encode :=
  readContent_element (length_content_lt fits) (by decide)

theorem readSequence_encode {elements : List Element}
    (fits : (Element.sequence elements).encode.length < 2 ^ 64) :
    Reads readSequence (encodeAll elements) (Element.sequence elements).encode :=
  readContent_element (length_content_lt fits) (by decide)

theorem readExplicit_encode {slot : UInt8} (small : slot < 31) {elements : List Element}
    (fits : (Element.explicit slot elements).encode.length < 2 ^ 64) :
    Reads (readExplicit slot) (encodeAll elements) (Element.explicit slot elements).encode :=
  readContent_element (length_content_lt fits) (Tag.canonical_contextSpecific small true)

end Encoded

/-! ## Whole elements -/

/-- Octets that are one element and nothing else. -/
def Complete (octets : Bytes) : Prop :=
  readElement.run octets = (.ok octets, [])

/-- Whatever tag and content an element has, it is read as a whole. -/
theorem accepts_readElement : Accepts readElement fun whole octets =>
    whole = octets ∧ ∃ tag content, Framed .accepted tag (· = content) octets := by
  intro whole input rest
  constructor
  · intro done
    rcases found : readAny.run input with ⟨outcome, left⟩
    cases outcome with
    | error e => simp [readElement, found] at done
    | ok value =>
      obtain ⟨octets, framed, rfl⟩ := accepts_readAny.run_eq_ok.mp found
      simp only [readElement, found, List.length_append, Nat.add_sub_cancel, List.take_left,
        Prod.mk.injEq, Except.ok.injEq] at done
      obtain ⟨rfl, rfl⟩ := done
      exact ⟨octets, ⟨rfl, _, _, framed⟩, rfl⟩
  · rintro ⟨octets, ⟨rfl, tag, content, framed⟩, rfl⟩
    have read := accepts_readAny.reads (a := (tag, content)) framed rest
    simp only [readElement, read, List.length_append, Nat.add_sub_cancel, List.take_left]

theorem complete_iff_framed {octets : Bytes} :
    Complete octets ↔ ∃ tag content, Framed .accepted tag (· = content) octets := by
  rw [Complete, accepts_readElement.run_eq_ok]
  constructor
  · rintro ⟨_, ⟨rfl, framed⟩, _⟩
    exact framed
  · intro framed
    exact ⟨octets, ⟨rfl, framed⟩, (List.append_nil octets).symm⟩

theorem Framed.complete {tag : Tag} {content : Bytes → Prop} {octets : Bytes}
    (framed : Framed .accepted tag content octets) : Complete octets := by
  obtain ⟨inner, -, framed⟩ := framed.exists_content
  exact complete_iff_framed.mpr ⟨tag, inner, framed⟩

theorem complete_iff {octets : Bytes} : Complete octets ↔ Reads readElement octets octets := by
  constructor
  · intro complete
    exact accepts_readElement.reads ⟨rfl, complete_iff_framed.mp complete⟩
  · intro reads
    exact reads.alone

theorem Complete.ne_nil {octets : Bytes} (complete : Complete octets) : octets ≠ [] := by
  rintro rfl
  cases complete

end KeyFile.Asn1
