import Mathlib.Algebra.Group.Nat.Defs

/-!
# Digits

Octets, bits, and groups of six or seven bits all spell numbers by their places, the most
significant one first. In any base, the low digits of a number spell it up to a power of the base,
and digits are the low digits of the number that they spell. A kind of digits is given by its signs:
which digit a sign stands for, and which sign is written for a digit.
-/
namespace KeyFile.Digits

/-- The low `width` digits of a number. -/
def ofNat (base : Nat) : Nat → Nat → List Nat
  | 0, _ => []
  | width + 1, number => ofNat base width (number / base) ++ [number % base]

/-- The number that digits spell. -/
def toNat (base : Nat) (digits : List Nat) : Nat :=
  digits.foldl (fun number digit => number * base + digit) 0

variable {base : Nat} {digits : List Nat}

@[simp] theorem length_ofNat (base width number : Nat) :
    (ofNat base width number).length = width := by
  induction width generalizing number with
  | zero => rfl
  | succ width ih => rw [ofNat, List.length_append, ih, List.length_singleton]

theorem lt_of_mem_ofNat (positive : 0 < base) (width number : Nat) :
    ∀ digit ∈ ofNat base width number, digit < base := by
  induction width generalizing number with
  | zero => exact List.forall_mem_nil _
  | succ width ih =>
    intro digit member
    rw [ofNat, List.mem_append, List.mem_singleton] at member
    rcases member with high | rfl
    · exact ih _ digit high
    · exact Nat.mod_lt _ positive

theorem toNat_concat (base : Nat) (digits : List Nat) (last : Nat) :
    toNat base (digits ++ [last]) = toNat base digits * base + last := by
  simp only [toNat, List.foldl_append, List.foldl_cons, List.foldl_nil]

/-- A number to which digits are added moves up by as many places. -/
theorem foldl_digits (base : Nat) (digits : List Nat) (start : Nat) :
    digits.foldl (fun number digit => number * base + digit) start =
      start * base ^ digits.length + toNat base digits := by
  induction digits generalizing start with
  | nil => simp [toNat]
  | cons first rest ih =>
    rw [toNat, List.foldl_cons, List.foldl_cons, ih, ih (0 * base + first), List.length_cons,
      Nat.pow_succ']
    simp only [Nat.add_mul, Nat.mul_assoc, Nat.zero_mul, Nat.zero_add, Nat.add_assoc]

/-- The first digit counts as often as its place says. -/
theorem toNat_cons (base first : Nat) (rest : List Nat) :
    toNat base (first :: rest) = first * base ^ rest.length + toNat base rest := by
  rw [toNat, List.foldl_cons, foldl_digits, Nat.zero_mul, Nat.zero_add]

theorem toNat_ofNat (base width number : Nat) :
    toNat base (ofNat base width number) = number % base ^ width := by
  induction width generalizing number with
  | zero =>
    rw [Nat.pow_zero, Nat.mod_one]
    rfl
  | succ width ih =>
    have split : number % base ^ (width + 1) =
        base * (number / base % base ^ width) + number % base := by
      rw [Nat.pow_succ, Nat.mul_comm, Nat.mod_mul, Nat.add_comm]
    rw [ofNat, toNat_concat, ih, split, Nat.mul_comm]

theorem toNat_lt (small : ∀ digit ∈ digits, digit < base) :
    toNat base digits < base ^ digits.length := by
  induction digits with
  | nil => exact Nat.zero_lt_one
  | cons first rest ih =>
    obtain ⟨digit, later⟩ := List.forall_mem_cons.mp small
    have below := ih later
    rw [toNat_cons, List.length_cons, Nat.pow_succ']
    calc first * base ^ rest.length + toNat base rest
        < first * base ^ rest.length + base ^ rest.length := by omega
      _ = (first + 1) * base ^ rest.length := by rw [Nat.add_mul, Nat.one_mul]
      _ ≤ base * base ^ rest.length := Nat.mul_le_mul_right _ digit

/-- Digits are the low digits of the number that they spell. -/
theorem ofNat_toNat (small : ∀ digit ∈ digits, digit < base) :
    ofNat base digits.length (toNat base digits) = digits := by
  induction width : digits.length generalizing digits with
  | zero =>
    rw [List.length_eq_zero_iff.mp width]
    rfl
  | succ width ih =>
    -- `ofNat` splits off the last digit, so the digits are taken apart from their end.
    rcases List.eq_nil_or_concat digits with rfl | ⟨init, last, rfl⟩
    · cases width
    · rw [List.concat_eq_append] at small ⊢
      have digit : last < base := small last (List.mem_append_right init List.mem_cons_self)
      have shorter := ih (fun other member => small other (List.mem_append_left [last] member))
        (by simpa using width)
      have high : (toNat base init * base + last) / base = toNat base init := by
        rw [Nat.mul_comm, Nat.mul_add_div (Nat.zero_lt_of_lt digit), Nat.div_eq_of_lt digit,
          Nat.add_zero]
      have low : (toNat base init * base + last) % base = last := by
        rw [Nat.mul_comm, Nat.mul_add_mod, Nat.mod_eq_of_lt digit]
      rw [toNat_concat, ofNat, high, low, shorter]

/-! ## Signs -/

/-- Signs for the digits of a base: each stands for a digit, and each digit has its sign. -/
structure Signs {α : Type} (base : Nat) (digit : α → Nat) (sign : Nat → α) : Prop where
  small : ∀ a, digit a < base
  read : ∀ value < base, digit (sign value) = value
  written : ∀ a, sign (digit a) = a

namespace Signs

variable {α : Type} {digit : α → Nat} {sign : Nat → α}

theorem lt_of_mem (signs : Signs base digit sign) (items : List α) :
    ∀ value ∈ items.map digit, value < base := by
  simp only [List.forall_mem_map]
  exact fun a _ => signs.small a

theorem toNat_lt (signs : Signs base digit sign) (items : List α) :
    toNat base (items.map digit) < base ^ items.length := by
  have below := Digits.toNat_lt (signs.lt_of_mem items)
  rwa [List.length_map] at below

/-- What is written for a number spells it as far as it reaches. -/
theorem toNat_ofNat (signs : Signs base digit sign) (width number : Nat) :
    toNat base (((ofNat base width number).map sign).map digit) = number % base ^ width := by
  have positive : 0 < base := Nat.zero_lt_of_lt (signs.small (sign 0))
  have back : ∀ value ∈ ofNat base width number, (digit ∘ sign) value = value :=
    fun value member => signs.read value (lt_of_mem_ofNat positive width number value member)
  rw [List.map_map, List.map_congr_left back, List.map_id', Digits.toNat_ofNat]

/-- Signs are what is written for the number that they spell. -/
theorem ofNat_toNat (signs : Signs base digit sign) (items : List α) :
    (ofNat base items.length (toNat base (items.map digit))).map sign = items := by
  have digits := Digits.ofNat_toNat (signs.lt_of_mem items)
  have back : ∀ a ∈ items, (sign ∘ digit) a = a := fun a _ => signs.written a
  rw [List.length_map] at digits
  rw [digits, List.map_map, List.map_congr_left back, List.map_id']

end Signs

end KeyFile.Digits
