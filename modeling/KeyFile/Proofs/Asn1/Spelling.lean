import KeyFile.Asn1.Element
import KeyFile.Proofs.Asn1.Headers

/-!
# How elements are spelled

The same element can be spelled in several ways: its length field may be longer than it has to be,
and so may the content of an integer. `Element.Spelling` says which octets spell a tree of elements,
given the length fields and the integers that are allowed. The octets that are written for a tree
are shorter than all others that are read as this tree, and they are the only ones with the least
length fields and the least integers.
-/
namespace KeyFile.Asn1

/-! ## Integers -/

theorem toInt_of_positive {content : Bytes} (positive : negative content = false) :
    BigEndian.toInt content = BigEndian.toNat content := by
  cases content with
  | nil => rfl
  | cons first rest =>
    have low : first < 0x80 := by simpa [negative, UInt8.not_le] using positive
    simp [BigEndian.toInt, low]

/-- A set first bit outweighs all the others. -/
theorem toInt_neg_iff {content : Bytes} : BigEndian.toInt content < 0 ↔ negative content := by
  cases sign : negative content with
  | false => simp [toInt_of_positive sign]
  | true =>
    cases content with
    | nil => simp [negative] at sign
    | cons first rest =>
      have high : ¬ first < 0x80 := UInt8.not_lt.mpr (by simpa [negative] using sign)
      have range : 256 ^ (first :: rest).length = 1 <<< (8 * (first :: rest).length) := by
        rw [Nat.one_shiftLeft, Nat.pow_mul]
      have below := Int.ofNat_lt.mpr (BigEndian.toNat_lt (first :: rest))
      rw [range] at below
      simp only [BigEndian.toInt, high, if_false, iff_true]
      exact Int.sub_neg_of_lt below

theorem integerContent_ne_nil (value : Nat) : integerContent value ≠ [] := by
  unfold integerContent
  split
  · simp
  · split <;> simp

theorem negative_integerContent (value : Nat) : negative (integerContent value) = false := by
  unfold integerContent
  split
  · rfl
  · split
    next low => simpa [negative, UInt8.le_iff_toNat_le, UInt8.lt_iff_toNat_lt] using low
    next high => rfl

@[simp] theorem toNat_integerContent (value : Nat) :
    BigEndian.toNat (integerContent value) = value := by
  have spelled := BigEndian.toNat_ofNat value
  unfold integerContent
  split
  next none =>
    rw [none] at spelled
    rw [← spelled]
    rfl
  next first others octets =>
    rw [octets] at spelled
    split
    · exact spelled
    · rw [BigEndian.toNat_cons]
      simpa using spelled

/-- No content that spells a number without being negative is shorter than the one that is
written. -/
theorem length_integerContent_le {content : Bytes} (filled : content ≠ [])
    (positive : negative content = false) :
    (integerContent (BigEndian.toNat content)).length ≤ content.length := by
  have shortest := BigEndian.length_ofNat_toNat_le content
  cases content with
  | nil => exact absurd rfl filled
  | cons lead tail =>
    unfold integerContent
    split
    · simp
    next first others octets =>
      rw [octets] at shortest
      split
      · exact shortest
      next high =>
        -- With as many octets as the content, the first octet would be the first of the content.
        rw [List.length_cons, List.length_cons] at shortest ⊢
        refine Nat.lt_of_le_of_ne shortest fun equal => ?_
        have spelled := BigEndian.toNat_ofNat (BigEndian.toNat (lead :: tail))
        have width : others.length = tail.length := by
          simpa using equal
        rw [octets, BigEndian.toNat_cons, BigEndian.toNat_cons, width] at spelled
        have below := BigEndian.toNat_lt tail
        have low : lead.toNat < 128 := by
          simpa [negative, UInt8.le_iff_toNat_le] using positive
        have large : 128 ≤ first.toNat := by
          simpa [UInt8.lt_iff_toNat_lt] using high
        have product := Nat.mul_le_mul_right (256 ^ tail.length)
          (show lead.toNat + 1 ≤ first.toNat by omega)
        rw [Nat.add_mul, Nat.one_mul] at product
        omega

/-- The contents that spell a number: it is not empty, and its first bit is the sign. -/
structure IntegerContent (value : Nat) (content : Bytes) : Prop where
  filled : content ≠ []
  positive : negative content = false
  spelled : BigEndian.toNat content = value

namespace IntegerContent

theorem integerContent (value : Nat) : IntegerContent value (integerContent value) where
  filled := integerContent_ne_nil value
  positive := negative_integerContent value
  spelled := toNat_integerContent value

/-- Any zeros that need not be there make the content longer. -/
theorem shortens {value : Nat} {content : Bytes} (spells : IntegerContent value content) :
    Shortens (Asn1.integerContent value) content := by
  obtain ⟨filled, positive, rfl⟩ := spells
  exact ⟨length_integerContent_le filled positive,
    fun width => BigEndian.eq_of_toNat_eq width (toNat_integerContent _)⟩

/-- A number of one octet is spelled by the last octet of the content, and the zeros in front of it
may stand before any such number. -/
theorem exists_last {value : Nat} {content : Bytes} (small : value < 128)
    (spells : IntegerContent value content) :
    ∃ zeros, content = zeros ++ [UInt8.ofNat value] ∧
      ∀ other < 128, IntegerContent other (zeros ++ [UInt8.ofNat other]) := by
  obtain ⟨filled, positive, spelled⟩ := spells
  rcases List.eq_nil_or_concat content with rfl | ⟨zeros, last, rfl⟩
  · exact absurd rfl filled
  rw [List.concat_eq_append] at *
  rw [BigEndian.toNat_append_singleton] at spelled
  have leading : BigEndian.toNat zeros = 0 := by omega
  have same : last = UInt8.ofNat value := by
    rw [← UInt8.toNat_inj, UInt8.toNat_ofNat']
    omega
  refine ⟨zeros, by rw [same], fun other few => ?_⟩
  have octet : (UInt8.ofNat other).toNat = other := by
    rw [UInt8.toNat_ofNat', Nat.mod_eq_of_lt (by omega)]
  refine ⟨by simp, ?_, ?_⟩
  · -- The sign is in the first octet, which is the last one if there are no zeros.
    cases zeros with
    | nil => simpa [negative, UInt8.le_iff_toNat_le, octet] using few
    | cons zero rest => exact positive
  · rw [BigEndian.toNat_append_singleton, leading, octet, Nat.zero_mul, Nat.zero_add]

end IntegerContent

/-! ## Spellings -/

/-- The length fields for a length, and the contents of integers for a number. -/
structure Forms where
  length : Nat → Bytes → Prop
  integer : Nat → Bytes → Prop

namespace Forms

/-- The forms that are read. -/
def accepted : Forms := ⟨LengthField, IntegerContent⟩

/-- Of the forms that are read, those with the fewest octets. -/
def least : Forms := ⟨fun length => Least (LengthField length),
  fun value => Least (IntegerContent value)⟩

/-- The forms that are written are allowed. -/
structure Admits (forms : Forms) : Prop where
  length {length : Nat} (fits : length < 2 ^ 64) : forms.length length (lengthOctets length)
  integer (value : Nat) : forms.integer value (integerContent value)

theorem least_length_iff {length : Nat} (fits : length < 2 ^ 64) {field : Bytes} :
    least.length length field ↔ field = lengthOctets length :=
  least_iff (.lengthOctets fits) fun _ => LengthField.shortens

theorem least_integer_iff {value : Nat} {content : Bytes} :
    least.integer value content ↔ content = integerContent value :=
  least_iff (.integerContent value) fun _ => IntegerContent.shortens

theorem admits_accepted : accepted.Admits where
  length := .lengthOctets
  integer := .integerContent

theorem admits_least : least.Admits where
  length fits := (least_length_iff fits).mpr rfl
  integer _ := least_integer_iff.mpr rfl

end Forms

/-- An element of that tag: its identifier octet, a length field and a content of that kind. -/
inductive Framed (forms : Forms) (tag : Tag) (content : Bytes → Prop) : Bytes → Prop where
  | intro {field octets : Bytes} (canonical : tag.Canonical)
    (length : forms.length octets.length field) (given : content octets) :
    Framed forms tag content (tag.octet :: (field ++ octets))

mutual

/-- The octets that spell an element. What is encoded already has one spelling. -/
def Element.Spelling (forms : Forms) : Element → Bytes → Prop
  | .unsigned value => Framed forms .integer (forms.integer value)
  | .word value => Framed forms .integer (forms.integer value.toNat)
  | .octetString octets => Framed forms .octetString (· = octets)
  | .bitString bits => Framed forms .bitString (· = bits.content)
  | .null => Framed forms .null (· = [])
  | .objectIdentifier identifier => Framed forms .objectIdentifier (· = identifier.contents)
  | .tagged tag content => Framed forms tag (· = content)
  | .encoded octets => (· = octets)
  | .sequence elements => Framed forms .sequence (Spellings forms elements)
  | .explicit slot elements => Framed forms (.explicit slot) (Spellings forms elements)

/-- The octets that spell elements one after another. -/
def Spellings (forms : Forms) : List Element → Bytes → Prop
  | [] => (· = [])
  | first :: rest => fun octets =>
    ∃ front back, first.Spelling forms front ∧ Spellings forms rest back ∧ octets = front ++ back

end

namespace Framed

variable {forms other : Forms} {tag : Tag} {content kind : Bytes → Prop} {octets short : Bytes}

theorem imp (framed : Framed forms tag content octets)
    (given : ∀ inner, content inner → kind inner) : Framed forms tag kind octets := by
  cases framed with
  | intro canonical length held => exact .intro canonical length (given _ held)

/-- The content is that of one element. -/
theorem exists_content (framed : Framed forms tag content octets) :
    ∃ inner, content inner ∧ Framed forms tag (· = inner) octets := by
  cases framed with
  | intro canonical length held => exact ⟨_, held, .intro canonical length rfl⟩

theorem of_content {inner : Bytes} (framed : Framed forms tag (· = inner) octets)
    (held : content inner) : Framed forms tag content octets := by
  refine framed.imp fun _ same => ?_
  rwa [same]

theorem element (admits : forms.Admits) (canonical : tag.Canonical)
    (fits : short.length < 2 ^ 64) (held : content short) :
    Framed forms tag content (Asn1.element tag short) :=
  .intro canonical (admits.length fits) held

/-- A shorter content makes a shorter element, whose length field is no longer. -/
theorem shortens (framed : Framed .accepted tag content octets)
    (shorter : ∀ inner, content inner → Shortens short inner) :
    Shortens (Asn1.element tag short) octets := by
  cases framed with
  | @intro field inner canonical announces held =>
    have fewer := shorter inner held
    have written := announces.shortens
    -- The length field changes twice: the content is shorter, and the field is the least one.
    have mono := length_lengthOctets_mono fewer.le
    have least := written.le
    have inside := fewer.le
    refine ⟨?_, fun same => ?_⟩
    · simp only [Asn1.element, List.length_cons, List.length_append]
      omega
    · simp only [Asn1.element, List.length_cons, List.length_append] at same
      -- Neither the field nor the content can make up for the other.
      have equal := fewer.eq_of_length (by omega)
      subst equal
      rw [Asn1.element, written.eq_of_length (by omega)]

/-- What is shorter than the content is short enough to be written. -/
theorem element_of_shorter (framed : Framed .accepted tag content octets) (admits : forms.Admits)
    (shorter : ∀ inner, content inner → short.length ≤ inner.length) (held : kind short) :
    Framed forms tag kind (Asn1.element tag short) := by
  cases framed with
  | intro canonical announces given =>
    exact .element admits canonical (Nat.lt_of_le_of_lt (shorter _ given) announces.fits) held

/-- With the least length field there is one element for each content. -/
theorem eq_element (framed : Framed .least tag content octets)
    (only : ∀ inner, content inner → inner = short) : octets = Asn1.element tag short := by
  cases framed with
  | intro canonical announces held =>
    rw [Asn1.element, ← only _ held, ← (Forms.least_length_iff announces.1.fits).mp announces]

end Framed

/-! ## The shortest spelling -/

-- The inductions are on the tree and its lists of children at once, as the spellings are defined.
mutual

/-- No other spelling of an element is as short as the one that is written. -/
theorem Element.shortens : (element : Element) → {octets : Bytes} →
    element.Spelling .accepted octets → Shortens element.encode octets
  | .unsigned _, _, spelled | .word _, _, spelled =>
    Framed.shortens spelled fun _ => IntegerContent.shortens
  | .octetString _, _, spelled | .bitString _, _, spelled | .null, _, spelled
  | .objectIdentifier _, _, spelled | .tagged _ _, _, spelled => by
    refine Framed.shortens spelled ?_
    rintro _ rfl
    exact .refl _
  | .encoded octets, _, spelled => by
    cases spelled
    exact .refl octets
  | .sequence elements, _, spelled | .explicit _ elements, _, spelled =>
    Framed.shortens spelled fun _ => shortens_encodeAll elements

theorem shortens_encodeAll : (elements : List Element) → {octets : Bytes} →
    Spellings .accepted elements octets → Shortens (encodeAll elements) octets
  | [], _, spelled => by
    cases spelled
    exact .refl []
  | first :: rest, _, ⟨_, _, front, back, same⟩ => by
    rw [same, encodeAll]
    exact (first.shortens front).append (shortens_encodeAll rest back)

end

mutual

/-- An element that can be spelled is spelled by what is written for it. -/
theorem Element.spelling_encode {forms : Forms} (admits : forms.Admits) : (element : Element) →
    {octets : Bytes} → element.Spelling .accepted octets → element.Spelling forms element.encode
  | .unsigned value, _, spelled =>
    Framed.element_of_shorter spelled admits (fun _ spells => spells.shortens.le)
      (admits.integer value)
  | .word value, _, spelled =>
    Framed.element_of_shorter spelled admits (fun _ spells => spells.shortens.le)
      (admits.integer value.toNat)
  | .octetString _, _, spelled | .bitString _, _, spelled | .null, _, spelled
  | .objectIdentifier _, _, spelled | .tagged _ _, _, spelled =>
    Framed.element_of_shorter spelled admits (fun _ same => Nat.le_of_eq (by rw [same])) rfl
  | .encoded _, _, _ => rfl
  | .sequence elements, _, spelled | .explicit _ elements, _, spelled => by
    -- The content that is written is no longer than the one that was there, so its length is still
    -- one that a length field can hold.
    obtain ⟨inner, held, framed⟩ := Framed.exists_content spelled
    refine Framed.element_of_shorter framed admits ?_ (spellings_encodeAll admits elements held)
    rintro _ rfl
    exact (shortens_encodeAll elements held).le

theorem spellings_encodeAll {forms : Forms} (admits : forms.Admits) : (elements : List Element) →
    {octets : Bytes} → Spellings .accepted elements octets →
      Spellings forms elements (encodeAll elements)
  | [], _, _ => rfl
  | first :: rest, _, ⟨_, _, front, back, _⟩ =>
    ⟨_, _, first.spelling_encode admits front, spellings_encodeAll admits rest back, rfl⟩

end

mutual

/-- With the least forms there is one spelling. -/
theorem Element.eq_encode : (element : Element) → {octets : Bytes} →
    element.Spelling .least octets → octets = element.encode
  | .unsigned _, _, spelled | .word _, _, spelled =>
    Framed.eq_element spelled fun _ => Forms.least_integer_iff.mp
  | .octetString _, _, spelled | .bitString _, _, spelled | .null, _, spelled
  | .objectIdentifier _, _, spelled | .tagged _ _, _, spelled =>
    Framed.eq_element spelled fun _ same => same
  | .encoded _, _, spelled => spelled
  | .sequence elements, _, spelled | .explicit _ elements, _, spelled =>
    Framed.eq_element spelled fun _ => eq_encodeAll elements

theorem eq_encodeAll : (elements : List Element) → {octets : Bytes} →
    Spellings .least elements octets → octets = encodeAll elements
  | [], _, spelled => spelled
  | first :: rest, _, ⟨_, _, front, back, same⟩ => by
    rw [same, first.eq_encode front, eq_encodeAll rest back, encodeAll]

end

theorem spellings_append {forms : Forms} {left right : List Element} {octets : Bytes} :
    Spellings forms (left ++ right) octets ↔
      ∃ front back, Spellings forms left front ∧ Spellings forms right back ∧
        octets = front ++ back := by
  induction left generalizing octets with
  | nil => simp [Spellings]
  | cons first rest ih =>
    simp only [List.cons_append, Spellings, ih]
    constructor
    · rintro ⟨here, _, spelled, ⟨front, back, first, second, rfl⟩, rfl⟩
      exact ⟨here ++ front, back, ⟨here, front, spelled, first, rfl⟩, second,
        (List.append_assoc ..).symm⟩
    · rintro ⟨_, back, ⟨here, front, spelled, first, rfl⟩, second, rfl⟩
      exact ⟨here, front ++ back, spelled, ⟨front, back, first, second, rfl⟩,
        List.append_assoc ..⟩

end KeyFile.Asn1
