import KeyFile.Asn1.ObjectIdentifier
import KeyFile.Proofs.BigEndian
import Mathlib.Data.List.Basic

/-!
# Numbers in groups of seven bits

The contents of object identifiers have one group of octets for each number: all octets of a group
but the last have their high bit set. A group is read if it does not begin with a digit of zero and
its number fits in a word, and what is written for a number is such a group.
-/
namespace KeyFile.Asn1.ObjectIdentifier

/-! ## Groups -/

/-- The number that octets spell with seven bits each, most significant first. -/
def base128 (octets : Bytes) : Nat :=
  octets.foldl (fun value octet => value * 128 + octet.toNat % 128) 0

/-- The octets of one number: the last one is the first without the high bit. -/
inductive Group : Bytes → Prop where
  | last {octet : UInt8} (ends : octet < 0x80) : Group [octet]
  | continued {octet : UInt8} {rest : Bytes} (more : 0x80 ≤ octet) (group : Group rest) :
      Group (octet :: rest)

/-- A group that is read: it begins with no empty digit, and its number fits in a word. -/
structure SoundGroup (octets : Bytes) : Prop where
  complete : Group octets
  minimal : octets.head? ≠ some 0x80
  fits : base128 octets < 2 ^ 64

theorem base128_eq_digits (octets : Bytes) :
    base128 octets = Digits.toNat 128 (octets.map fun octet => octet.toNat % 128) := by
  rw [base128, Digits.toNat, List.foldl_map]

theorem base128_append_singleton (octets : Bytes) (octet : UInt8) :
    base128 (octets ++ [octet]) = base128 octets * 128 + octet.toNat % 128 := by
  rw [base128_eq_digits, base128_eq_digits, List.map_append, List.map_singleton,
    Digits.toNat_concat]

theorem base128_cons (first : UInt8) (rest : Bytes) :
    base128 (first :: rest) = first.toNat % 128 * 128 ^ rest.length + base128 rest := by
  rw [base128_eq_digits, base128_eq_digits, List.map_cons, Digits.toNat_cons, List.length_map]

/-! ## Groups that are read -/

/-- Reading one more group. The present number is `before`, and its groups are not empty. -/
theorem readSubidentifiers_cons (started : Option Nat) (octet : UInt8) (rest : Bytes)
    (minimal : ¬ (started.isNone ∧ octet = 0x80)) (fits : started.getD 0 * 128 < UInt64.size) :
    readSubidentifiers started (octet :: rest) =
      if octet < 0x80 then
        ((started.getD 0 * 128 + octet.toNat % 128) :: ·) <$> readSubidentifiers none rest
      else readSubidentifiers (some (started.getD 0 * 128 + octet.toNat % 128)) rest := by
  simp only [readSubidentifiers, if_neg minimal, if_neg (Nat.not_le.mpr fits)]

/-- One group is read off the front. The number before it has to leave room for its digits. -/
theorem Group.read {octets : Bytes} (group : Group octets) (started : Option Nat) (rest : Bytes)
    (minimal : started = none → octets.head? ≠ some 0x80)
    (fits : started.getD 0 * 128 ^ octets.length + base128 octets < UInt64.size) :
    readSubidentifiers started (octets ++ rest) =
      ((started.getD 0 * 128 ^ octets.length + base128 octets) :: ·) <$>
        readSubidentifiers none rest := by
  -- The induction goes along the group; what is known of the number grows by a digit each time.
  induction group generalizing started with
  | @last octet ends =>
    have small : octet.toNat % 128 = base128 [octet] := by simp [base128]
    have single : [octet].length = 1 := rfl
    rw [single, Nat.pow_one] at fits ⊢
    rw [List.singleton_append, readSubidentifiers_cons, if_pos ends, small]
    · rintro ⟨first, empty⟩
      exact minimal (by simpa using first) (by simp [empty])
    · omega
  | @continued octet inner more group ih =>
    have notLast : ¬ octet < 0x80 := UInt8.not_lt.mpr more
    have value : started.getD 0 * 128 ^ (octet :: inner).length + base128 (octet :: inner) =
        (started.getD 0 * 128 + octet.toNat % 128) * 128 ^ inner.length + base128 inner := by
      rw [base128_cons, List.length_cons, Nat.pow_succ', Nat.add_mul, Nat.mul_assoc, Nat.add_assoc]
    rw [value] at fits ⊢
    rw [List.cons_append, readSubidentifiers_cons, if_neg notLast]
    · exact ih _ (by simp) fits
    · rintro ⟨first, empty⟩
      exact minimal (by simpa using first) (by simp [empty])
    · have room : 1 ≤ 128 ^ inner.length := Nat.pow_pos (by decide)
      have larger := Nat.mul_le_mul_left (started.getD 0 * 128 + octet.toNat % 128) room
      omega

/-- Groups one after another are read as their numbers. -/
theorem readSubidentifiers_flatten {groups : List Bytes}
    (sound : ∀ group ∈ groups, SoundGroup group) :
    readSubidentifiers none groups.flatten = .ok (groups.map base128) := by
  induction groups with
  | nil => rfl
  | cons first others ih =>
    have front := sound first List.mem_cons_self
    have later := ih fun group member => sound group (List.mem_cons_of_mem first member)
    have read := front.complete.read none others.flatten (fun _ => front.minimal)
      (by simpa using front.fits)
    rw [List.flatten_cons, read, later]
    simp [Functor.map, Except.map]

/-! ## Groups that are written -/

theorem groups_le_iff (number width : Nat) :
    (BigEndian.bitLength number + 6) / 7 ≤ width ↔ number < 128 ^ width := by
  have bits : (128 : Nat) ^ width = 2 ^ (7 * width) := by rw [Nat.pow_mul]
  rw [bits, ← BigEndian.bitLength_le_iff]
  omega

private theorem group_concat {front : Bytes} {last : UInt8}
    (continued : ∀ octet ∈ front, 0x80 ≤ octet) (ends : last < 0x80) :
    Group (front ++ [last]) := by
  induction front with
  | nil => exact .last ends
  | cons first rest ih =>
    apply Group.continued (continued first List.mem_cons_self)
    exact ih fun octet member => continued octet (List.mem_cons_of_mem first member)

private theorem continuedGroups_eq_digits (width number : Nat) :
    continuedGroups width number =
      (Digits.ofNat 128 width number).map fun digit => UInt8.ofNat (128 + digit) := by
  induction width generalizing number with
  | zero => rfl
  | succ width ih =>
    rw [continuedGroups, Digits.ofNat, List.map_append, List.map_singleton, ih]

private theorem toNat_marked {digit : Nat} (small : digit < 128) :
    (UInt8.ofNat (128 + digit)).toNat = 128 + digit := by
  rw [UInt8.toNat_ofNat']
  omega

private theorem continued_of_mem {width number : Nat} :
    ∀ octet ∈ continuedGroups width number, 0x80 ≤ octet := by
  rw [continuedGroups_eq_digits, List.forall_mem_map]
  intro digit member
  have small := Digits.lt_of_mem_ofNat (by decide) width number digit member
  rw [UInt8.le_iff_toNat_le, toNat_marked small]
  exact Nat.le_add_right 128 digit

private theorem base128_continuedGroups {width number : Nat} (fits : number < 128 ^ width) :
    base128 (continuedGroups width number) = number := by
  have back : ∀ digit ∈ Digits.ofNat 128 width number,
      (UInt8.ofNat (128 + digit)).toNat % 128 = digit := by
    intro digit member
    have small := Digits.lt_of_mem_ofNat (by decide) width number digit member
    rw [toNat_marked small]
    omega
  rw [base128_eq_digits, continuedGroups_eq_digits, List.map_map]
  simp only [Function.comp_def]
  rw [List.map_congr_left back, List.map_id', Digits.toNat_ofNat, Nat.mod_eq_of_lt fits]

/-- The first digit of a number that needs all of the groups is not zero. -/
private theorem head_continuedGroups {width number : Nat} (large : 128 ^ width ≤ number)
    (fits : number < 128 ^ (width + 1)) :
    (continuedGroups (width + 1) number).head? ≠ some 0x80 := by
  induction width generalizing number with
  | zero =>
    intro first
    have digit := congrArg (Option.map UInt8.toNat) first
    simp only [continuedGroups, List.nil_append, List.head?_cons, Option.map_some,
      toNat_marked (Nat.mod_lt number (by decide)), Option.some.injEq, UInt8.reduceToNat] at digit
    omega
  | succ width ih =>
    rw [Nat.pow_succ] at large
    rw [Nat.pow_succ] at fits
    have higher := @ih (number / 128) (by omega) (by omega)
    -- The first digit of the number is the first digit of what is left of it without the last.
    have filled : continuedGroups (width + 1) (number / 128) ≠ [] := by
      simp [continuedGroups]
    rw [continuedGroups, List.head?_append_of_ne_nil _ filled]
    exact higher

/-- What is written for a number is a group that spells it and that is read. -/
theorem soundGroup_subidentifier {number : Nat} (fits : number < 2 ^ 64) :
    SoundGroup (subidentifier number) ∧ base128 (subidentifier number) = number := by
  have least := groups_le_iff (number / 128)
  have octet : (UInt8.ofNat (number % 128)).toNat = number % 128 := by
    rw [UInt8.toNat_ofNat']
    omega
  have value : base128 (subidentifier number) = number := by
    rw [subidentifier, base128_append_singleton,
      base128_continuedGroups ((least _).mp (Nat.le_refl _)), octet]
    omega
  have ends : UInt8.ofNat (number % 128) < 0x80 := by
    rw [UInt8.lt_iff_toNat_lt, octet]
    exact Nat.mod_lt _ (by decide)
  refine ⟨⟨group_concat continued_of_mem ends, ?_, by rwa [value]⟩, value⟩
  unfold subidentifier
  generalize width : (BigEndian.bitLength (number / 128) + 6) / 7 = count
  rw [width] at least
  cases count with
  | zero =>
    intro first
    rw [continuedGroups, List.nil_append, List.head?_cons, Option.some.injEq] at first
    rw [first] at ends
    exact absurd ends (by decide)
  | succ count =>
    have filled : continuedGroups (count + 1) (number / 128) ≠ [] := by
      simp [continuedGroups]
    rw [List.head?_append_of_ne_nil _ filled]
    -- One group fewer would not do, so the number reaches into the first one.
    have large : ¬ number / 128 < 128 ^ count := by
      intro small
      have fewer := (least count).mpr small
      omega
    exact head_continuedGroups (Nat.le_of_not_lt large) ((least _).mp (Nat.le_refl _))

end KeyFile.Asn1.ObjectIdentifier
