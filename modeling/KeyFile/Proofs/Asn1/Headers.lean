import KeyFile.Asn1.Header
import KeyFile.Proofs.BigEndian
import KeyFile.Proofs.Outcomes

/-!
# Headers that are written and headers that are read

A header is an identifier octet and a length field, and it is read in front of any octets that hold
its content. Several length fields announce the same length; the one that is written is shorter than
all others.
-/
namespace KeyFile.Asn1

/-! ## Shortest forms -/

/-- The first octets are fewer than the others, or they are the same. -/
structure Shortens (short long : Bytes) : Prop where
  le : short.length ≤ long.length
  eq_of_length : short.length = long.length → short = long

namespace Shortens

theorem refl (octets : Bytes) : Shortens octets octets :=
  ⟨Nat.le_refl _, fun _ => rfl⟩

theorem append {short long other another : Bytes} (front : Shortens short long)
    (back : Shortens other another) : Shortens (short ++ other) (long ++ another) := by
  have first := front.le
  have second := back.le
  refine ⟨by simp only [List.length_append]; omega, fun same => ?_⟩
  -- Neither part can make up for the other, so both are as long as they were.
  simp only [List.length_append] at same
  rw [front.eq_of_length (by omega), back.eq_of_length (by omega)]

end Shortens

/-- One of the forms, and none of them has fewer octets. -/
def Least (forms : Bytes → Prop) (form : Bytes) : Prop :=
  forms form ∧ ∀ other, forms other → form.length ≤ other.length

/-- A form that shortens all others is the only least one. -/
theorem least_iff {forms : Bytes → Prop} {short form : Bytes} (known : forms short)
    (shortens : ∀ other, forms other → Shortens short other) : Least forms form ↔ form = short := by
  constructor
  · rintro ⟨given, least⟩
    have shortest := shortens form given
    exact (shortest.eq_of_length (Nat.le_antisymm shortest.le (least short known))).symm
  · rintro rfl
    exact ⟨known, fun other given => (shortens other given).le⟩

/-! ## Tags -/

/-- A tag that is read from the octet that is written for it, and that octet starts a header. -/
def Tag.Canonical (tag : Tag) : Prop :=
  Tag.ofOctet tag.octet = tag ∧ tag.octet &&& 0x1f ≠ 0x1f

instance : DecidablePred Tag.Canonical := fun _ =>
  inferInstanceAs (Decidable (_ ∧ _))

private theorem canonical_table : ∀ slot : Fin 31, ∀ constructed : Bool,
    (Tag.contextSpecific (UInt8.ofNat slot) constructed).Canonical := by
  decide

/-- Slot 31 would announce a long tag number, and higher slots lose bits. -/
theorem Tag.canonical_contextSpecific {slot : UInt8} (small : slot < 31) (constructed : Bool) :
    (Tag.contextSpecific slot constructed).Canonical := by
  have bound : slot.toNat < 31 := by simpa [UInt8.lt_iff_toNat_lt] using small
  simpa using canonical_table ⟨slot.toNat, bound⟩ constructed

private theorem octet_table : ∀ index : Fin 256,
    (Tag.ofOctet (UInt8.ofFin index)).octet = UInt8.ofFin index := by
  decide +kernel

theorem Tag.octet_ofOctet (octet : UInt8) : (Tag.ofOctet octet).octet = octet :=
  octet_table octet.toFin

/-! ## Length fields -/

/-- The octets that announce a length: the length itself, or the number of the octets that spell it,
and these octets, which may begin with zeros. -/
inductive LengthField (length : Nat) : Bytes → Prop where
  | short {first : UInt8} (value : first.toNat = length) (small : length < 0x80) :
    LengthField length [first]
  | long {first : UInt8} {octets : Bytes} (count : first.toNat = 0x80 + octets.length)
    (filled : 0 < octets.length) (few : octets.length ≤ 8)
    (value : BigEndian.toNat octets = length) : LengthField length (first :: octets)

theorem length_lengthOctets {length : Nat} (fits : length < 2 ^ 64) :
    (lengthOctets length).length ≤ 9 := by
  unfold lengthOctets
  split
  · simp
  · have octets := (BigEndian.length_ofNat_le_iff length 8).mpr fits
    simp only [List.length_cons]
    omega

/-- Longer contents never have shorter length fields. -/
theorem length_lengthOctets_mono {short long : Nat} (le : short ≤ long) :
    (lengthOctets short).length ≤ (lengthOctets long).length := by
  -- The long form is the only one whose length varies, and its octets do so with the number.
  have octets : (BigEndian.ofNat short).length ≤ (BigEndian.ofNat long).length :=
    (BigEndian.length_ofNat_le_iff _ _).mpr
      (Nat.lt_of_le_of_lt le ((BigEndian.length_ofNat_le_iff _ _).mp (Nat.le_refl _)))
  unfold lengthOctets
  split <;> split <;> simp only [List.length_cons, List.length_nil] <;> omega

theorem readLength_short {first : UInt8} (short : first.toNat < 0x80) (rest : Bytes) :
    readLength (first :: rest) = .ok (first.toNat, rest) := by
  have small : first < 0x80 := UInt8.lt_iff_toNat_lt.mpr short
  simp only [readLength, small, if_true]

/-- The first octet of the long form says how many octets have to follow. -/
theorem readLength_long {first : UInt8} {width : Nat} (count : first.toNat = 0x80 + width)
    (filled : 0 < width) (few : width ≤ 8) (others : Bytes) :
    readLength (first :: others) =
      if others.length < width then .error .unexpectedEnd
      else .ok (BigEndian.toNat (others.take width), others.drop width) := by
  have large : ¬ first < 0x80 := by
    rw [UInt8.lt_iff_toNat_lt, count]
    simp
  have definite : first ≠ 0x80 := by
    intro equal
    rw [equal] at count
    simp only [UInt8.reduceToNat] at count
    omega
  have number : first.toNat - 0x80 = width := by omega
  -- A word holds what eight octets spell, so no bit of the length is lost.
  have whole : (BigEndian.toWord (others.take width)).toNat = BigEndian.toNat (others.take width) :=
    BigEndian.toNat_toWord_of_length_le (by rw [List.length_take]; omega)
  simp only [readLength, large, definite, number, if_false, if_neg (Nat.not_lt.mpr few), whole]

/-- A length field is read, whatever stands after it, and nothing else is. -/
theorem readLength_eq_ok_iff {input rest : Bytes} {length : Nat} :
    readLength input = .ok (length, rest) ↔
      ∃ field, LengthField length field ∧ input = field ++ rest := by
  constructor
  · intro done
    cases input with
    | nil => cases done
    | cons first others =>
      -- The first octet is the length itself, or else it says how many octets spell the length.
      by_cases short : first.toNat < 0x80
      · rw [readLength_short short] at done
        cases done
        exact ⟨[first], .short rfl short, rfl⟩
      · have octet := first.toNat_lt
        simp only [readLength, UInt8.lt_iff_toNat_lt, UInt8.reduceToNat, short, if_false] at done
        split at done
        · cases done
        next definite =>
          split at done
          · cases done
          next few =>
            split at done
            · cases done
            next enough =>
              simp only [Except.ok.injEq, Prod.mk.injEq] at done
              obtain ⟨rfl, rfl⟩ := done
              have taken : (others.take (first.toNat - 0x80)).length = first.toNat - 0x80 := by
                rw [List.length_take]
                omega
              have indefinite : first.toNat ≠ 0x80 :=
                fun equal => definite (UInt8.toNat_inj.mp equal)
              have whole : (BigEndian.toWord (others.take (first.toNat - 0x80))).toNat =
                  BigEndian.toNat (others.take (first.toNat - 0x80)) :=
                BigEndian.toNat_toWord_of_length_le (by omega)
              exact ⟨first :: others.take (first.toNat - 0x80),
                .long (by omega) (by omega) (by omega) whole.symm, by simp⟩
  · rintro ⟨field, announces, rfl⟩
    cases announces with
    | short value small =>
      rw [List.singleton_append, readLength_short (by omega), value]
    | @long _ octets count filled few value =>
      have enough : ¬ (octets ++ rest).length < octets.length := by
        rw [List.length_append]
        omega
      rw [List.cons_append, readLength_long count filled few, if_neg enough, List.take_left,
        List.drop_left, value]

/-- A length field that is cut off ends too early wherever it is cut. -/
theorem readLength_cut {length : Nat} {field short : Bytes} (announces : LengthField length field)
    (start : short <+: field) (proper : short ≠ field) :
    readLength short = .error .unexpectedEnd := by
  cases short with
  | nil => rfl
  | cons first others =>
    -- The first octet is whole, so it still asks for as many octets as there were.
    have fewer : others.length + 1 < field.length :=
      Nat.lt_of_le_of_ne start.length_le fun same => proper (start.eq_of_length same)
    cases announces with
    | short value small =>
      simp only [List.length_singleton] at fewer
      omega
    | long count filled few value =>
      obtain ⟨rfl, -⟩ := List.cons_prefix_cons.mp start
      rw [readLength_long count filled few, if_pos (Nat.lt_of_succ_lt_succ fewer)]

namespace LengthField

variable {length : Nat} {field : Bytes}

theorem fits (announces : LengthField length field) : length < 2 ^ 64 := by
  cases announces with
  | short _ small => omega
  | @long _ octets _ _ few value =>
    rw [← value]
    exact BigEndian.toNat_lt_of_length_le few

theorem lengthOctets (fits : length < 2 ^ 64) : LengthField length (lengthOctets length) := by
  unfold Asn1.lengthOctets
  split
  next small => exact .short (by rw [UInt8.toNat_ofNat']; omega) small
  next large =>
    have few := (BigEndian.length_ofNat_le_iff length 8).mpr fits
    have filled : 0 < (BigEndian.ofNat length).length := by
      have zero := BigEndian.length_ofNat_le_iff length 0
      omega
    exact .long (by rw [UInt8.toNat_ofNat']; omega) filled few (BigEndian.toNat_ofNat length)

/-- No other length field for the length is as short as the one that is written. -/
theorem shortens (announces : LengthField length field) :
    Shortens (Asn1.lengthOctets length) field := by
  by_cases small : length < 0x80
  · have written : Asn1.lengthOctets length = [UInt8.ofNat length] := if_pos small
    rw [written]
    cases announces with
    | short value _ =>
      rw [← value, UInt8.ofNat_toNat]
      exact .refl _
    | long _ filled _ _ =>
      -- One octet would have been enough, and here there are at least two.
      refine ⟨?_, fun same => ?_⟩
      · simp only [List.length_cons, List.length_nil]
        omega
      · simp only [List.length_cons, List.length_nil] at same
        omega
  · have written : Asn1.lengthOctets length =
        UInt8.ofNat (0x80 + (BigEndian.ofNat length).length) :: BigEndian.ofNat length :=
      if_neg small
    rw [written]
    cases announces with
    | short _ below => exact absurd below small
    | @long first octets count _ _ value =>
      have shortest := BigEndian.length_ofNat_toNat_le octets
      rw [value] at shortest
      refine ⟨by simpa using shortest, fun same => ?_⟩
      have width : (BigEndian.ofNat length).length = octets.length := by simpa using same
      have spelled : BigEndian.ofNat length = octets :=
        BigEndian.eq_of_toNat_eq width ((BigEndian.toNat_ofNat length).trans value.symm)
      rw [spelled, ← count, UInt8.ofNat_toNat]

end LengthField

/-! ## Elements -/

/-- An element is its content after at most ten octets. -/
theorem length_element_le (tag : Tag) (content : Bytes) (fits : content.length < 2 ^ 64) :
    (element tag content).length ≤ content.length + 10 := by
  have field := length_lengthOctets fits
  simp only [element, List.length_cons, List.length_append]
  omega

theorem length_lt_length_element (tag : Tag) (content : Bytes) :
    content.length < (element tag content).length := by
  simp only [element, List.length_cons, List.length_append]
  omega

/-- What stands in an element fits wherever the element fits. -/
theorem length_content_lt {tag : Tag} {content : Bytes} {bound : Nat}
    (fits : (element tag content).length < bound) : content.length < bound :=
  Nat.lt_trans (length_lt_length_element tag content) fits

/-- Longer contents make longer elements. -/
theorem length_element_mono (tag : Tag) {short long : Bytes} (le : short.length ≤ long.length) :
    (element tag short).length ≤ (element tag long).length := by
  have field := length_lengthOctets_mono le
  simp only [element, List.length_cons, List.length_append]
  omega

/-- A header that is read is an identifier octet and a length field in front of octets that hold
the content. -/
theorem readHeader_eq_ok_iff {input rest : Bytes} {tag : Tag} {length : Nat} :
    readHeader input = .ok (tag, length, rest) ↔ ∃ field, tag.Canonical ∧
      LengthField length field ∧ length ≤ rest.length ∧ input = tag.octet :: (field ++ rest) := by
  constructor
  · intro done
    match input with
    | [] => cases done
    | first :: others =>
      simp only [readHeader] at done
      split at done
      · cases done
      next number =>
        obtain ⟨⟨declared, left⟩, found, done⟩ := Outcome.bind_eq_ok.mp done
        obtain ⟨enough, done⟩ := Outcome.unless_eq_ok.mp done
        cases Outcome.pure_eq_ok.mp done
        obtain ⟨field, announces, rfl⟩ := readLength_eq_ok_iff.mp found
        have octet := Tag.octet_ofOctet first
        exact ⟨field, ⟨by rw [octet], by rwa [octet]⟩, announces, by omega, by rw [octet]⟩
  · rintro ⟨field, canonical, announces, enough, rfl⟩
    simp only [readHeader, canonical.2, if_false, canonical.1]
    rw [Outcome.bind_of_ok (readLength_eq_ok_iff.mpr ⟨field, announces, rfl⟩)]
    exact if_neg (Nat.not_lt.mpr enough)

/-- The octets end before the element does. -/
def Error.EndsEarly : Error → Prop
  | .unexpectedEnd | .truncated _ _ => True
  | _ => False

/-- An element that is cut off has no header, or one that announces more octets than are left. -/
theorem readHeader_cut {tag : Tag} {field content short : Bytes} (canonical : tag.Canonical)
    (announces : LengthField content.length field)
    (start : short <+: tag.octet :: (field ++ content))
    (proper : short ≠ tag.octet :: (field ++ content)) :
    ∃ cause, cause.EndsEarly ∧ readHeader short = .error cause := by
  cases short with
  | nil => exact ⟨.unexpectedEnd, trivial, rfl⟩
  | cons first others =>
    obtain ⟨rfl, later⟩ := List.cons_prefix_cons.mp start
    simp only [readHeader, canonical.2, if_false]
    -- The cut is behind the length field or within it.
    by_cases whole : field <+: others
    · obtain ⟨part, rfl⟩ := whole
      have inner := (List.prefix_append_right_inj field).mp later
      have fewer : part.length < content.length :=
        Nat.lt_of_le_of_ne inner.length_le fun same => proper (by rw [inner.eq_of_length same])
      rw [Outcome.bind_of_ok (readLength_eq_ok_iff.mpr ⟨field, announces, rfl⟩)]
      exact ⟨.truncated content.length part.length, trivial, if_pos fewer⟩
    · have within : others <+: field :=
        (List.prefix_or_prefix_of_prefix later (List.prefix_append field content)).resolve_right
          whole
      have cut := readLength_cut announces within fun same => whole (same ▸ List.prefix_rfl)
      rw [cut]
      exact ⟨.unexpectedEnd, trivial, rfl⟩

end KeyFile.Asn1
