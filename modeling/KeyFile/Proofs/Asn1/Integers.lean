import KeyFile.Proofs.Asn1.HeaderFaults
import KeyFile.Proofs.Asn1.Reading

/-!
# Integers of any size and integers of 64 bits

A number is written as the shortest content that spells it in two's complement. Reading takes any
content, also one with needless octets, and refuses those that spell a negative number. Words are
read from the octets without looking at the number as a whole, and still agree with it on every
input: the same numbers come out unless they are too large, and everything else fails alike.
-/
namespace KeyFile.Asn1

/-! ## Contents -/

/-- The contents that spell an integer: the first bit counts negatively. -/
structure TwosComplement (value : Int) (content : Bytes) : Prop where
  filled : content ≠ []
  spelled : BigEndian.toInt content = value

theorem twosComplement_iff {value : Nat} {content : Bytes} :
    TwosComplement value content ↔ IntegerContent value content := by
  constructor
  · rintro ⟨filled, spelled⟩
    have positive : negative content = false := by
      rw [← Bool.not_eq_true, ← toInt_neg_iff, spelled]
      exact Int.not_lt.mpr (Int.natCast_nonneg value)
    rw [toInt_of_positive positive] at spelled
    exact ⟨filled, positive, Int.ofNat_inj.mp spelled⟩
  · rintro ⟨filled, positive, rfl⟩
    exact ⟨filled, toInt_of_positive positive⟩

theorem least_twosComplement_iff {value : Nat} {content : Bytes} :
    Least (TwosComplement value) content ↔ content = integerContent value := by
  have same : TwosComplement value = IntegerContent value := by
    funext other
    exact propext twosComplement_iff
  rw [same]
  exact Forms.least_integer_iff

/-- A zero octet that is not needed for the sign could be left out. -/
theorem high_of_least {value : Nat} {second : UInt8} {rest : Bytes}
    (least : Least (TwosComplement value) (0 :: second :: rest)) : 0x80 ≤ second := by
  apply UInt8.not_lt.mp
  intro low
  -- Without the zero in front the octets would spell the same number.
  have spells := twosComplement_iff.mp least.1
  have shorter : IntegerContent value (second :: rest) := by
    refine ⟨List.cons_ne_nil _ _, by simpa [negative, UInt8.not_le] using low, ?_⟩
    have spelled := spells.spelled
    rw [BigEndian.toNat_cons] at spelled
    simpa using spelled
  have fewer := least.2 _ (twosComplement_iff.mpr shorter)
  simp only [List.length_cons] at fewer
  omega

/-- The content that is written for a number. -/
structure Written (value : Nat) (content : Bytes) : Prop where
  encoded : (Element.unsigned value).encode = element .integer content
  least : ∀ other, Least (TwosComplement value) other ↔ other = content
  unpadded : ∀ second rest, content = 0 :: second :: rest → 0x80 ≤ second
  single : value = 0 → content = [0]

theorem written_integerContent (value : Nat) : Written value (integerContent value) where
  encoded := rfl
  least _ := least_twosComplement_iff
  unpadded second rest same := by
    apply high_of_least
    rw [← same]
    exact least_twosComplement_iff.mpr rfl
  single zero := by
    rw [zero]
    rfl

/-! ## Reading -/

private theorem sign_table : ∀ index : Fin 256,
    UInt8.ofFin index < 0x80 ↔ UInt8.ofFin index &&& 0x80 = 0 := by
  decide +kernel

theorem negative_cons_iff {first : UInt8} {others : Bytes} :
    negative (first :: others) = false ↔ first &&& 0x80 = 0 := by
  have high : first < 0x80 ↔ first &&& 0x80 = 0 := sign_table first.toFin
  rw [← high]
  simp [negative]

theorem run_readInteger {first : UInt8} {others octets : Bytes}
    (framed : Framed .accepted .integer (· = first :: others) octets) :
    Reads readInteger (first :: others) octets := by
  intro rest
  rw [readInteger, ((accepts_readContent .integer).reads framed).run_bind]
  rfl

/-- Any content is judged by its first bit, and the element has been read either way. -/
theorem run_readUnsigned {first : UInt8} {others octets : Bytes}
    (framed : Framed .accepted .integer (· = first :: others) octets) (rest : Bytes) :
    readUnsigned.run (octets ++ rest) =
      (if first &&& 0x80 = 0 then .ok (BigEndian.toNat (first :: others))
        else .error .negativeInteger, rest) := by
  rw [readUnsigned_eq, (run_readInteger framed).run_bind]
  by_cases positive : negative (first :: others) = false
  · rw [if_pos (negative_cons_iff.mp positive), positive]
    rfl
  · have sign : negative (first :: others) = true := by simpa using positive
    rw [if_neg (mt negative_cons_iff.mpr positive), sign]
    rfl

/-- What can be wrong before the content of an element is looked at. -/
theorem readContent_fault {tag : Tag} {input left : Bytes} {e : Error}
    (failed : (readContent tag).run input = (.error e, left)) :
    e = .unexpectedEnd ∨ (∃ actual, e = .unexpectedTag tag actual) ∨ HeaderFault input e := by
  rw [readContent, Read.run_peekTag_bind] at failed
  -- The tag is compared before anything is said about the header.
  cases input with
  | nil =>
    cases failed
    exact .inl rfl
  | cons first rest =>
    simp only [List.head?_cons, Option.map_some] at failed
    split at failed
    next different =>
      cases failed
      exact .inr (.inl ⟨_, rfl⟩)
    next expected =>
      cases found : readHeader (first :: rest) with
      | error cause =>
        simp only [Read.run_bind, readAny, found] at failed
        cases failed
        exact .inr (.inr (readHeader_eq_error_iff.mp found))
      | ok result =>
        simp only [Read.run_bind, readAny, found] at failed
        cases failed

theorem readUnsigned_ne_overflow (input : Bytes) :
    (readUnsigned.run input).1 ≠ .error .integerOverflow := by
  intro overflow
  simp only [readUnsigned_eq, readInteger, bind_assoc, Read.run_bind] at overflow
  rcases found : (readContent .integer).run input with ⟨_ | content, rest⟩
  · rw [found] at overflow
    cases overflow
    -- None of the faults of a header is an overflow.
    rcases readContent_fault found with early | ⟨actual, other⟩ | fault
    · cases early
    · cases other
    · cases fault with
      | length _ fault => cases fault
  · by_cases empty : content.isEmpty
    · simp [found, empty] at overflow
    · by_cases sign : negative content <;> simp [found, empty, sign] at overflow

/-! ## Words -/

section Words

variable {input rest : Bytes}

theorem run_readWord_of_fault {e : Error} (failed : readUnsigned.run input = (.error e, rest)) :
    readWord.run input = (.error e, rest) := by
  rw [readWord_eq, Read.run_bind_of_error failed]

theorem run_readWord_of_small {number : Nat}
    (read : readUnsigned.run input = (.ok number, rest)) (small : number < 2 ^ 64) :
    readWord.run input = (.ok (UInt64.ofNat number), rest) := by
  have fits : ¬ UInt64.size ≤ number := Nat.not_le.mpr small
  rw [readWord_eq, Read.run_bind_of_ok read]
  simp only [fits, if_false, Read.run_pure]

theorem run_readWord_of_large {number : Nat}
    (read : readUnsigned.run input = (.ok number, rest)) (large : 2 ^ 64 ≤ number) :
    readWord.run input = (.error .integerOverflow, rest) := by
  have exceeds : UInt64.size ≤ number := large
  rw [readWord_eq, Read.run_bind_of_ok read]
  simp only [exceeds, if_true]
  rfl

/-- Reading a word and reading a number come to the same, but for the numbers that are too large. -/
structure WordAgrees (input : Bytes) : Prop where
  value : ∀ number, (∃ word : UInt64, word.toNat = number ∧ (readWord.run input).1 = .ok word) ↔
    (readUnsigned.run input).1 = .ok number ∧ number < 2 ^ 64
  overflow : (readWord.run input).1 = .error .integerOverflow ↔
    ∃ number, (readUnsigned.run input).1 = .ok number ∧ 2 ^ 64 ≤ number
  fault : ∀ e, e ≠ .integerOverflow →
    ((readWord.run input).1 = .error e ↔ (readUnsigned.run input).1 = .error e)
  position : (readWord.run input).2 = (readUnsigned.run input).2

theorem wordAgrees (input : Bytes) : WordAgrees input := by
  rcases read : readUnsigned.run input with ⟨_ | number, rest⟩
  case error e =>
    have word := run_readWord_of_fault read
    have other : e ≠ .integerOverflow := by
      rintro rfl
      exact readUnsigned_ne_overflow input (by rw [read])
    constructor <;> simp [word, read, other]
  case ok =>
    -- A word comes out on one side of the bound, an overflow on the other.
    by_cases small : number < 2 ^ 64
    · have word := run_readWord_of_small read small
      have same : (UInt64.ofNat number).toNat = number := UInt64.toNat_ofNat_of_lt' small
      constructor
      case value =>
        intro other
        simp only [word, read, Except.ok.injEq]
        constructor
        · rintro ⟨_, rfl, rfl⟩
          exact ⟨same.symm, by rwa [same]⟩
        · rintro ⟨rfl, _⟩
          exact ⟨_, same, rfl⟩
      case overflow => simpa [word, read] using small
      all_goals simp [word, read]
    · have word := run_readWord_of_large read (Nat.le_of_not_lt small)
      constructor
      case fault =>
        intro e different
        simp [word, read, different.symm]
      case position => simp [word, read]
      all_goals simpa [word, read] using small

end Words

/-- The integers of the format. A number is written in the shortest form, and read back. Any content
that is not empty gives its number if its first bit is clear, and is refused as negative if not.
Words agree with numbers on all octets there are. -/
theorem integers_exact :
    (∀ value, ∃ content, Written value content ∧
      ((Element.unsigned value).encode.length < 2 ^ 64 →
        Reads readUnsigned value (Element.unsigned value).encode)) ∧
    (∀ (first : UInt8) (others octets rest : Bytes),
      Framed .accepted .integer (· = first :: others) octets →
        readUnsigned.run (octets ++ rest) =
          (if first &&& 0x80 = 0 then .ok (BigEndian.toNat (first :: others))
            else .error .negativeInteger, rest)) ∧
    (∀ input, WordAgrees input) := by
  refine ⟨?_, fun _ _ _ rest framed => run_readUnsigned framed rest, wordAgrees⟩
  intro value
  exact ⟨integerContent value, written_integerContent value, readUnsigned_encode⟩

/-- Two needless zeros before the one for the sign; the number is the largest word. -/
def paddedContent : Bytes :=
  [0x00, 0x00, 0x00, 0xff, 0xff, 0xff, 0xff, 0xff, 0xff, 0xff, 0xff]

theorem paddedContent_exact :
    readUnsigned.run (element .integer paddedContent ++ [0x05]) =
      (.ok 18446744073709551615, [0x05]) ∧
    (readWord.run (element .integer paddedContent ++ [0x05])).1 = .ok 18446744073709551615 ∧
    (readWord.run (element .integer paddedContent ++ [0x05])).2 = [0x05] ∧
    (readWord.run (Element.unsigned 18446744073709551616).encode).1 = .error .integerOverflow ∧
    readUnsigned.run (element .integer [0xff, 0x00] ++ [0x05]) =
      (.error .negativeInteger, [0x05]) ∧
    (readWord.run (element .integer [0xff, 0x00] ++ [0x05])).1 = .error .negativeInteger := by
  obtain ⟨written, read, agrees⟩ := integers_exact
  have padded : Framed .accepted .integer (· = paddedContent) (element .integer paddedContent) :=
    .element Forms.admits_accepted (by decide) (by decide) rfl
  have signed : Framed .accepted .integer (· = [0xff, 0x00]) (element .integer [0xff, 0x00]) :=
    .element Forms.admits_accepted (by decide) (by decide) rfl
  have largest := read 0x00 _ _ [0x05] padded
  have negative := read 0xff _ _ [0x05] signed
  obtain ⟨content, -, readBack⟩ := written 18446744073709551616
  have larger := readBack (by decide +kernel) []
  rw [List.append_nil] at larger
  refine ⟨largest, ?_, ?_, ?_, negative, ?_⟩
  · obtain ⟨word, same, given⟩ := ((agrees _).value 18446744073709551615).mpr
      ⟨congrArg Prod.fst largest, by decide⟩
    rw [given, Except.ok.injEq]
    exact UInt64.toNat_inj.mp same
  · rw [(agrees _).position, largest]
  · exact (agrees _).overflow.mpr ⟨_, congrArg Prod.fst larger, by decide⟩
  · exact ((agrees _).fault _ (by decide)).mpr (congrArg Prod.fst negative)

end KeyFile.Asn1
