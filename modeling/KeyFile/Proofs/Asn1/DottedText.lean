import KeyFile.Proofs.Asn1.Identifiers
import KeyFile.Proofs.Text

/-!
# Dotted text is read back

An arc in decimal is read back, as it fits in 64 bits and has digits only. No digit is a point, so
the parts between the points are the arcs. Reading also takes plus signs and leading zeros, and the
texts without them are the ones that are written.
-/
namespace KeyFile

/-! ## Decimal numbers -/

namespace Decimal

theorem le_ofDigitChars (digits : Text) (value : Nat) :
    value ≤ Nat.ofDigitChars 10 digits value := by
  induction digits generalizing value with
  | nil => exact Nat.le_refl value
  | cons c rest ih =>
    rw [Nat.ofDigitChars_cons]
    have later := ih (10 * value + (c.toNat - '0'.toNat))
    omega

theorem readDigits_digits {digits : Text} (digit : ∀ c ∈ digits, c.isDigit) {value : Nat}
    (fits : Nat.ofDigitChars 10 digits value < UInt64.size) :
    readDigits value digits = .ok (Nat.ofDigitChars 10 digits value) := by
  induction digits generalizing value with
  | nil => rfl
  | cons c rest ih =>
    rw [Nat.ofDigitChars_cons, Nat.mul_comm] at fits ⊢
    -- What has been read never becomes smaller, so it fits at each digit.
    have small := Nat.lt_of_le_of_lt (le_ofDigitChars rest _) fits
    have later := ih (fun d member => digit d (List.mem_cons_of_mem c member)) fits
    rw [readDigits, if_pos (digit c List.mem_cons_self)]
    exact (if_pos small).trans later

theorem isDigit_of_mem_text {number : Nat} : ∀ c ∈ text number, c.isDigit :=
  fun _ member => Nat.isDigit_of_mem_toDigits (by decide) (by decide) member

theorem ofDigitChars_text (number : Nat) : Nat.ofDigitChars 10 (text number) 0 = number :=
  Nat.ofDigitChars_toDigits (by decide) (by decide)

theorem text_injective {left right : Nat} (same : text left = text right) : left = right := by
  rw [← ofDigitChars_text left, same, ofDigitChars_text]

theorem read_text {number : Nat} (fits : number < UInt64.size) :
    read (text number) = .ok number := by
  have value := ofDigitChars_text number
  have digits := readDigits_digits isDigit_of_mem_text (value ▸ fits : _ < UInt64.size)
  rw [value] at digits
  cases written : text number with
  | nil => exact absurd written Nat.toDigits_ne_nil
  | cons c rest =>
    have digit : c.isDigit := isDigit_of_mem_text c (written ▸ List.mem_cons_self)
    have unsigned : c ≠ '+' := by
      rintro rfl
      exact absurd digit (by decide)
    rw [written] at digits
    unfold read
    split
    next empty => cases empty
    next sign => exact absurd (List.cons.inj sign).1 unsigned
    next sign => exact absurd (List.cons.inj sign).1 unsigned
    next => exact digits

/-! ### Decimals that are written -/

/-- No plus sign, and no zero in front of other digits. -/
structure Plain (part : Text) : Prop where
  unsigned : part.head? ≠ some '+'
  minimal : part.head? = some '0' → part = ['0']

theorem eq_of_readDigits {digits : Text} {value number : Nat}
    (done : readDigits value digits = .ok number) :
    (∀ c ∈ digits, c.isDigit) ∧ Nat.ofDigitChars 10 digits value = number := by
  -- The value so far is where the rest of the digits starts from.
  induction digits generalizing value with
  | nil =>
    cases done
    exact ⟨nofun, rfl⟩
  | cons c rest ih =>
    simp only [readDigits] at done
    split at done
    next digit =>
      split at done
      next =>
        obtain ⟨others, same⟩ := ih done
        rw [Nat.mul_comm] at same
        exact ⟨List.forall_mem_cons.mpr ⟨digit, others⟩, same⟩
      next => cases done
    next => cases done

/-- A text without a sign that is read consists of the digits of its number. -/
theorem digits_of_read {part : Text} {number : Nat} (unsigned : part.head? ≠ some '+')
    (done : read part = .ok number) :
    part ≠ [] ∧ (∀ c ∈ part, c.isDigit) ∧ Nat.ofDigitChars 10 part 0 = number := by
  unfold read at done
  split at done
  next => cases done
  next => cases done
  next => exact absurd rfl unsigned
  next filled _ _ => exact ⟨filled, eq_of_readDigits done⟩

theorem text_of_small {number : Nat} (small : number < 10) : text number = [number.digitChar] :=
  Nat.toDigits_of_lt_base small

/-- The last digit of a number comes after the digits of what is left of it. -/
theorem text_append {high low : Nat} (positive : 0 < high) (small : low < 10) :
    text (10 * high + low) = text high ++ [low.digitChar] := by
  have digits := Nat.toDigits_append_toDigits (by decide : 1 < 10) positive small
  rw [Nat.toDigits_of_lt_base small] at digits
  exact digits.symm

theorem head_text_ne_zero {number : Nat} (positive : 0 < number) :
    (text number).head? ≠ some '0' := by
  induction number using Nat.strongRecOn with
  | _ number ih =>
    by_cases small : number < 10
    · have each : ∀ digit < 10, 0 < digit → digit.digitChar ≠ '0' := by decide
      simpa [text_of_small small] using each number small positive
    · have parts : 10 * (number / 10) + number % 10 = number := Nat.div_add_mod number 10
      have filled : text (number / 10) ≠ [] := Nat.toDigits_ne_nil
      rw [← parts, text_append (by omega) (Nat.mod_lt _ (by decide)),
        List.head?_append_of_ne_nil _ filled]
      exact ih (number / 10) (by omega) (by omega)

theorem digitChar_of_isDigit {c : Char} (digit : c.isDigit) :
    c.toNat - '0'.toNat < 10 ∧ (c.toNat - '0'.toNat).digitChar = c := by
  have range : 48 ≤ c.toNat ∧ c.toNat ≤ 57 := by
    simpa [Char.isDigit, UInt32.le_iff_toNat_le] using digit
  have each : ∀ value < 10, value.digitChar = Char.ofNat (48 + value) := by decide
  have zero : '0'.toNat = 48 := rfl
  refine ⟨by omega, ?_⟩
  rw [each _ (by omega), zero, Nat.add_sub_cancel' range.1, Char.ofNat_toNat]

/-- Digits without a zero in front are the text of their number. -/
theorem text_ofDigitChars {digits : Text} (filled : digits ≠ []) (digit : ∀ c ∈ digits, c.isDigit)
    (minimal : digits.head? = some '0' → digits = ['0']) :
    text (Nat.ofDigitChars 10 digits 0) = digits := by
  -- The digits are taken off the end, so that those in front begin the same way.
  induction digits using List.reverseRecOn with
  | nil => exact absurd rfl filled
  | append_singleton front last ih =>
    obtain ⟨front_digit, last_digit⟩ := List.forall_mem_append.mp digit
    obtain ⟨small, same⟩ := digitChar_of_isDigit (last_digit last List.mem_cons_self)
    rw [Nat.ofDigitChars_append, Nat.ofDigitChars_cons, Nat.ofDigitChars_nil]
    by_cases single : front = []
    · subst single
      rw [Nat.ofDigitChars_nil, Nat.mul_zero, Nat.zero_add, text_of_small small, same,
        List.nil_append]
    · rw [List.head?_append_of_ne_nil _ single] at minimal
      have nonzero : front.head? ≠ some '0' := by
        intro zero
        have length := congrArg List.length (minimal zero)
        have longer := List.length_pos_iff.mpr single
        simp only [List.length_append, List.length_singleton] at length
        omega
      have higher := ih single front_digit fun zero => absurd zero nonzero
      have positive : 0 < Nat.ofDigitChars 10 front 0 := by
        apply Nat.pos_of_ne_zero
        intro zero
        rw [zero, text_of_small (by decide)] at higher
        rw [← higher] at nonzero
        exact nonzero rfl
      rw [text_append positive small, higher, same]

/-- The text of a number that is read is the one that was read exactly if that is plain. -/
theorem text_of_read_iff {part : Text} {number : Nat} (done : read part = .ok number) :
    text number = part ↔ Plain part := by
  constructor
  · rintro rfl
    refine ⟨?_, ?_⟩
    · intro sign
      exact absurd (isDigit_of_mem_text '+' (List.mem_of_mem_head? sign)) (by decide)
    · intro first
      -- Of all numbers only zero begins with the digit of zero, and it has no other digit.
      cases number with
      | zero => rfl
      | succ number => exact absurd first (head_text_ne_zero number.succ_pos)
  · rintro ⟨unsigned, minimal⟩
    obtain ⟨filled, digit, rfl⟩ := digits_of_read unsigned done
    exact text_ofDigitChars filled digit minimal

end Decimal

/-! ## Object identifiers -/

namespace Asn1.ObjectIdentifier

theorem arcs_lt (identifier : ObjectIdentifier) : ∀ arc ∈ identifier.arcs, arc < UInt64.size := by
  obtain ⟨arcs, valid⟩ := identifier
  match arcs, valid with
  | first :: second :: rest, ⟨_, _, fits, small⟩ =>
    exact List.forall_mem_cons.mpr ⟨by omega, List.forall_mem_cons.mpr ⟨by omega, small⟩⟩

@[simp] theorem arcs_inj {left right : ObjectIdentifier} :
    left.arcs = right.arcs ↔ left = right := by
  cases left
  cases right
  simp

theorem arcs_ne_nil (identifier : ObjectIdentifier) : identifier.arcs ≠ [] := by
  intro empty
  have valid := identifier.valid
  rw [empty] at valid
  exact valid

/-- The parts between the points are the arcs. -/
theorem split_text (identifier : ObjectIdentifier) :
    Text.split '.' identifier.text = identifier.arcs.map Decimal.text := by
  have pointless : ∀ part ∈ identifier.arcs.map Decimal.text, '.' ∉ part := by
    intro part member point
    obtain ⟨arc, -, rfl⟩ := List.mem_map.mp member
    exact absurd (Decimal.isDigit_of_mem_text '.' point) (by decide)
  exact Text.split_join (fun empty => identifier.arcs_ne_nil (List.map_eq_nil_iff.mp empty))
    pointless

/-- Reading the parts of a dotted text, and only then naming the text in a fault. -/
theorem ofText_eq_ok_iff {text : Text} {identifier : ObjectIdentifier} :
    ofText text = .ok identifier ↔
      (Text.split '.' text).mapM Decimal.read = .ok identifier.arcs := by
  unfold ofText
  simp only [Outcome.bind_eq_ok, Outcome.mapM_mapError_eq_ok]
  constructor
  · rintro ⟨arcs, read, done⟩
    rwa [arcs_of_ofArcs done]
  · intro read
    exact ⟨identifier.arcs, read, ofArcs_arcs identifier⟩

/-- Every object identifier is read back from its dotted text. -/
theorem ofText_text (identifier : ObjectIdentifier) : ofText identifier.text = .ok identifier := by
  rw [ofText_eq_ok_iff, split_text]
  exact Outcome.mapM_map_eq_ok fun arc member => Decimal.read_text (identifier.arcs_lt arc member)

private theorem map_text_eq_iff {parts : List Text} {arcs : List Nat}
    (read : parts.mapM Decimal.read = .ok arcs) :
    arcs.map Decimal.text = parts ↔ ∀ part ∈ parts, Decimal.Plain part := by
  induction parts generalizing arcs with
  | nil =>
    cases read
    exact iff_of_true rfl nofun
  | cons part others ih =>
    obtain ⟨arc, first, rest, later, rfl⟩ := Outcome.mapM_cons_eq_ok.mp read
    rw [List.map_cons, List.cons.injEq, ih later, Decimal.text_of_read_iff first,
      List.forall_mem_cons]

/-- What is read is written as the same text exactly if all parts of that are plain. -/
theorem text_of_ofText_iff {text : Text} {identifier : ObjectIdentifier}
    (read : ofText text = .ok identifier) :
    identifier.text = text ↔ ∀ part ∈ Text.split '.' text, Decimal.Plain part := by
  rw [← map_text_eq_iff (ofText_eq_ok_iff.mp read), ← split_text]
  -- Two texts are equal exactly if their parts between the points are.
  constructor
  · intro same
    rw [same]
  · intro same
    have joined := congrArg (Text.join '.') same
    rwa [Text.join_split, Text.join_split] at joined

theorem text_injective {left right : ObjectIdentifier} (same : left.text = right.text) :
    left = right := by
  have read := left.ofText_text
  rw [same, right.ofText_text, Except.ok.injEq] at read
  exact read.symm

@[simp] theorem text_inj {left right : ObjectIdentifier} : left.text = right.text ↔ left = right :=
  ⟨text_injective, congrArg text⟩

end Asn1.ObjectIdentifier

end KeyFile
