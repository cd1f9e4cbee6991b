import KeyFile.Bytes.BigEndian
import KeyFile.Proofs.Digits

/-!
# Numbers and their octets

Octets spell a number by their places, and `ofNat` writes a number in the fewest octets that spell
it: `k` octets are enough exactly for the numbers below `256 ^ k`. A word holds the numbers of eight
octets, however many zeros stand before them.
-/
namespace KeyFile.BigEndian

/-! ## Octets as digits -/

theorem octetSigns : Digits.Signs 256 UInt8.toNat UInt8.ofNat where
  small := UInt8.toNat_lt
  read _ small := UInt8.toNat_ofNat_of_lt' small
  written _ := UInt8.ofNat_toNat

theorem toNat_eq_digits (bytes : Bytes) :
    toNat bytes = Digits.toNat 256 (bytes.map UInt8.toNat) := by
  rw [toNat, Digits.toNat, List.foldl_map]

theorem octets_eq_digits (width number : Nat) :
    octets width number = (Digits.ofNat 256 width number).map UInt8.ofNat := by
  induction width generalizing number with
  | zero => rfl
  | succ width ih =>
    have last : UInt8.ofNat (number % 256) = UInt8.ofNat number := UInt8.ofNat_mod_size
    rw [octets, Digits.ofNat, List.map_append, List.map_singleton, last, ih]

@[simp] theorem length_octets (width number : Nat) : (octets width number).length = width := by
  rw [octets_eq_digits, List.length_map, Digits.length_ofNat]

/-- The first octet counts as often as its place says. -/
theorem toNat_cons (first : UInt8) (rest : Bytes) :
    toNat (first :: rest) = first.toNat * 256 ^ rest.length + toNat rest := by
  simp only [toNat_eq_digits, List.map_cons, Digits.toNat_cons, List.length_map]

theorem toNat_octets (width number : Nat) : toNat (octets width number) = number % 256 ^ width := by
  rw [toNat_eq_digits, octets_eq_digits, octetSigns.toNat_ofNat]

theorem toNat_lt (bytes : Bytes) : toNat bytes < 256 ^ bytes.length := by
  rw [toNat_eq_digits]
  exact octetSigns.toNat_lt bytes

/-- Octets are the low octets of the number that they spell. -/
theorem octets_toNat (bytes : Bytes) : octets bytes.length (toNat bytes) = bytes := by
  rw [octets_eq_digits, toNat_eq_digits, octetSigns.ofNat_toNat]

/-! ## The fewest octets -/

theorem eq_of_toNat_eq {left right : Bytes} (width : left.length = right.length)
    (same : toNat left = toNat right) : left = right := by
  rw [← octets_toNat left, ← octets_toNat right, width, same]

theorem bitLength_le_iff (number bits : Nat) : bitLength number ≤ bits ↔ number < 2 ^ bits := by
  unfold bitLength
  split
  next zero => simp only [zero, Nat.zero_le, Nat.two_pow_pos]
  next positive => rw [Nat.succ_le_iff, Nat.log2_lt positive]

theorem length_ofNat_le_iff (number width : Nat) :
    (ofNat number).length ≤ width ↔ number < 256 ^ width := by
  have bits : (256 : Nat) ^ width = 2 ^ (8 * width) := by rw [Nat.pow_mul]
  rw [bits, ← bitLength_le_iff, ofNat, length_octets]
  omega

@[simp] theorem toNat_ofNat (number : Nat) : toNat (ofNat number) = number := by
  have fits : number < 256 ^ (ofNat number).length := (length_ofNat_le_iff _ _).mp (Nat.le_refl _)
  rw [ofNat, length_octets] at fits
  rw [ofNat, toNat_octets, Nat.mod_eq_of_lt fits]

/-- No octets that spell a number are fewer than the ones that are written for it. -/
theorem length_ofNat_toNat_le (bytes : Bytes) : (ofNat (toNat bytes)).length ≤ bytes.length :=
  (length_ofNat_le_iff _ _).mpr (toNat_lt bytes)

/-! ## Words -/

/-- One step of the sum in 64 bits: the shift makes room for the octet, and drops what no longer
fits. -/
private theorem toNat_shift_or (value : UInt64) (octet : UInt8) :
    (value <<< 8 ||| octet.toUInt64).toNat = (value.toNat * 256 + octet.toNat) % 2 ^ 64 := by
  have octetSmall : octet.toNat < 2 ^ 8 := octet.toNat_lt
  -- The low octet of the shifted word is zero, so that the two numbers share no bits.
  have shifted : (value <<< 8).toNat = (value.toNat % 2 ^ 56) <<< 8 := by
    rw [UInt64.toNat_shiftLeft]
    simp [Nat.shiftLeft_eq]
    omega
  rw [UInt64.toNat_or, shifted, UInt8.toNat_toUInt64, ← Nat.shiftLeft_add_eq_or_of_lt octetSmall,
    Nat.shiftLeft_eq]
  omega

/-- A word keeps the low 64 bits of the number. -/
theorem toNat_toWord (bytes : Bytes) : (toWord bytes).toNat = toNat bytes % 2 ^ 64 := by
  induction width : bytes.length generalizing bytes with
  | zero => simp [List.length_eq_zero_iff.mp width, toWord]
  | succ width ih =>
    rcases List.eq_nil_or_concat bytes with rfl | ⟨init, last, rfl⟩
    · simp at width
    · have shorter := ih init (by simpa using width)
      rw [List.concat_eq_append, toWord_append_singleton, toNat_append_singleton, toNat_shift_or,
        shorter]
      omega

theorem toNat_lt_of_length_le {bytes : Bytes} (few : bytes.length ≤ 8) : toNat bytes < 2 ^ 64 := by
  calc toNat bytes < 256 ^ bytes.length := toNat_lt bytes
    _ ≤ 256 ^ 8 := Nat.pow_le_pow_right (by decide) few
    _ = 2 ^ 64 := by decide

/-- Eight octets are kept whole. -/
theorem toNat_toWord_of_length_le {bytes : Bytes} (few : bytes.length ≤ 8) :
    (toWord bytes).toNat = toNat bytes := by
  rw [toNat_toWord, Nat.mod_eq_of_lt (toNat_lt_of_length_le few)]

/-! ## Leading zeros -/

@[simp] theorem toNat_dropWhile_zero (bytes : Bytes) :
    toNat (bytes.dropWhile (· = 0)) = toNat bytes := by
  induction bytes with
  | nil => rfl
  | cons first rest ih =>
    by_cases zero : first = 0
    · simp [zero, toNat_cons, ih]
    · simp [zero]

/-- Without its leading zeros a number has as many octets as it needs. -/
theorem length_dropWhile_zero_le_iff (bytes : Bytes) (width : Nat) :
    (bytes.dropWhile (· = 0)).length ≤ width ↔ toNat bytes < 256 ^ width := by
  constructor
  · intro short
    calc toNat bytes = toNat (bytes.dropWhile (· = 0)) := (toNat_dropWhile_zero bytes).symm
      _ < 256 ^ (bytes.dropWhile (· = 0)).length := toNat_lt _
      _ ≤ 256 ^ width := Nat.pow_le_pow_right (by decide) short
  · intro small
    induction bytes with
    | nil => simp
    | cons first rest ih =>
      by_cases zero : first = 0
      · subst zero
        simpa using ih (by simpa [toNat_cons] using small)
      · -- The first octet counts, so with more octets the number would be too large.
        have positive : 0 < first.toNat := by
          apply Nat.pos_of_ne_zero
          intro equal
          exact zero (UInt8.toNat_inj.mp equal)
        simp only [zero, decide_false, List.dropWhile_cons, Bool.false_eq_true, if_false,
          List.length_cons]
        apply Nat.lt_of_not_le
        intro long
        have place : 256 ^ width ≤ 256 ^ rest.length := Nat.pow_le_pow_right (by decide) long
        have share : 256 ^ rest.length ≤ first.toNat * 256 ^ rest.length :=
          Nat.le_mul_of_pos_left _ positive
        rw [toNat_cons] at small
        omega

end KeyFile.BigEndian
