import KeyFile.Proofs.Outcomes
import KeyFile.Text.Utf8
import Mathlib.Data.List.Infix

/-!
# Laws of text

ASCII text is read back from its octets. Splitting, trimming and dropping characters leave a sublist
of the text, so the octets of what is left are no more than those of the text.
-/
namespace KeyFile.Text

/-! ## Octets -/

theorem toNat_ofUInt8 (octet : UInt8) : (Char.ofUInt8 octet).toNat = octet.toNat := rfl

theorem utf8EncodeChar_ascii {c : Char} (ascii : c.toNat < 128) :
    String.utf8EncodeChar c = [UInt8.ofNat c.toNat] := by
  have small : c.val.toNat ≤ 127 := Nat.le_of_lt_succ ascii
  simp only [String.utf8EncodeChar, if_pos small]
  rfl

theorem utf8_ascii {text : Text} (ascii : ∀ c ∈ text, c.toNat < 128) :
    utf8 text = text.map fun c => UInt8.ofNat c.toNat := by
  induction text with
  | nil => rfl
  | cons c rest ih =>
    have later := ih fun d member => ascii d (List.mem_cons_of_mem _ member)
    rw [utf8, List.flatMap_cons, utf8EncodeChar_ascii (ascii c List.mem_cons_self)]
    rw [utf8] at later
    rw [later]
    rfl

theorem utf8_map_ofUInt8 {octets : Bytes} (ascii : ∀ octet ∈ octets, octet.toNat < 128) :
    utf8 (octets.map Char.ofUInt8) = octets := by
  rw [utf8_ascii]
  · simp only [List.map_map]
    have same : (fun c : Char => UInt8.ofNat c.toNat) ∘ Char.ofUInt8 = id := by
      funext octet
      simp only [Function.comp_apply, toNat_ofUInt8, UInt8.ofNat_toNat, id_eq]
    rw [same, List.map_id]
  · intro c member
    obtain ⟨octet, present, rfl⟩ := List.mem_map.mp member
    exact ascii octet present

theorem decodeFrom_ascii {text : Text} (ascii : ∀ c ∈ text, c.toNat < 128) (index : Nat) :
    Utf8.decodeFrom index (utf8 text) = .ok text := by
  rw [utf8_ascii ascii]
  induction text generalizing index with
  | nil =>
    rw [List.map_nil, Utf8.decodeFrom]
  | cons c rest ih =>
    have small := ascii c List.mem_cons_self
    have later := ih (fun d member => ascii d (List.mem_cons_of_mem _ member)) (index + 1)
    have octet : (UInt8.ofNat c.toNat).toNat = c.toNat := by
      rw [UInt8.toNat_ofNat']
      omega
    -- An octet below 128 is a character of its own.
    have lead : UInt8.ofNat c.toNat < 0x80 := by
      rw [UInt8.lt_iff_toNat_lt, octet]
      exact small
    rw [List.map_cons, Utf8.decodeFrom.eq_def]
    simp only [if_pos lead, octet, Char.ofNat_toNat]
    exact Outcome.map_eq_ok.mpr ⟨rest, later, rfl⟩

/-- ASCII text is read back from its octets. -/
theorem decode_ascii {text : Text} (ascii : ∀ c ∈ text, c.toNat < 128) :
    Utf8.decode (utf8 text) = .ok text :=
  decodeFrom_ascii ascii 0

theorem length_utf8_le {left right : Text} (sublist : left.Sublist right) :
    (utf8 left).length ≤ (utf8 right).length := by
  induction sublist with
  | slnil => exact Nat.le_refl _
  | cons c _ ih =>
    simp only [utf8, List.flatMap_cons, List.length_append] at ih ⊢
    omega
  | cons_cons c _ ih =>
    simp only [utf8, List.flatMap_cons, List.length_append] at ih ⊢
    omega

/-! ## Lines -/

private theorem trim_prefix_dropWhile (text : Text) : trim text <+: text.dropWhile isBlank := by
  have back := List.dropWhile_suffix isBlank (l := (text.dropWhile isBlank).reverse)
  have front := List.reverse_prefix.mpr back
  rwa [List.reverse_reverse] at front

theorem trim_isInfix (text : Text) : trim text <:+: text :=
  (trim_prefix_dropWhile text).isInfix.trans (List.dropWhile_suffix isBlank).isInfix

private theorem head_dropWhile {text : Text} {c : Char}
    (first : (text.dropWhile isBlank).head? = some c) : isBlank c = false := by
  have kept := List.head?_dropWhile_not isBlank text
  rw [first] at kept
  exact kept

/-- Trimming leaves no blank at either end. -/
theorem head_trim {text : Text} : ∀ c ∈ (trim text).head?, isBlank c = false := by
  intro c first
  obtain ⟨rest, whole⟩ := trim_prefix_dropWhile text
  have kept : (text.dropWhile isBlank).head? = some c := by
    rw [← whole, List.head?_append, Option.mem_def.mp first]
    rfl
  exact head_dropWhile kept

theorem getLast_trim {text : Text} : ∀ c ∈ (trim text).getLast?, isBlank c = false := by
  intro c last
  rw [trim, List.getLast?_reverse] at last
  exact head_dropWhile last

private theorem dropWhile_eq_self {text : Text} (first : ∀ c ∈ text.head?, isBlank c = false) :
    text.dropWhile isBlank = text := by
  cases text with
  | nil => rfl
  | cons c rest => rw [List.dropWhile_cons_of_neg]; rw [first c rfl]; exact Bool.false_ne_true

/-- A text with no blank at its ends is not trimmed. -/
theorem trim_eq_self {text : Text} (first : ∀ c ∈ text.head?, isBlank c = false)
    (last : ∀ c ∈ text.getLast?, isBlank c = false) : trim text = text := by
  have back : text.reverse.dropWhile isBlank = text.reverse :=
    dropWhile_eq_self (by rwa [List.head?_reverse])
  rw [trim, dropWhile_eq_self first, back, List.reverse_reverse]

@[simp] theorem trim_trim (text : Text) : trim (trim text) = trim text :=
  trim_eq_self head_trim getLast_trim

theorem trim_cons_blank {c : Char} (blank : isBlank c) (text : Text) :
    trim (c :: text) = trim text := by
  rw [trim, List.dropWhile_cons_of_pos blank, ← trim]

theorem trim_concat_blank {c : Char} (blank : isBlank c) (text : Text) :
    trim (text ++ [c]) = trim text := by
  rw [trim, List.dropWhile_append]
  by_cases empty : text.dropWhile isBlank = []
  · rw [empty, List.isEmpty_nil, if_pos rfl, List.dropWhile_cons_of_pos blank, trim, empty]
    rfl
  · rw [List.isEmpty_eq_false_iff.mpr empty, if_neg Bool.false_ne_true, List.reverse_append,
      List.reverse_singleton, List.singleton_append, List.dropWhile_cons_of_pos blank, ← trim]

theorem notMem_of_mem_split {separator : Char} {text part : Text}
    (member : part ∈ split separator text) : separator ∉ part := by
  induction text generalizing part with
  | nil =>
    cases List.mem_singleton.mp member
    exact List.not_mem_nil
  | cons c rest ih =>
    rw [split] at member
    by_cases equal : c = separator
    · rw [if_pos equal] at member
      rcases List.mem_cons.mp member with rfl | later
      · exact List.not_mem_nil
      · exact ih later
    · rw [if_neg equal] at member
      cases parts : split separator rest with
      | nil => exact absurd parts (split_ne_nil separator rest)
      | cons first others =>
        rw [parts] at member ih
        rcases List.mem_cons.mp member with rfl | later
        -- The character joins the first part of the rest, which has no separator either.
        · intro present
          rcases List.mem_cons.mp present with same | inside
          · exact equal same.symm
          · exact ih List.mem_cons_self inside
        · exact ih (List.mem_cons_of_mem _ later)

/-- What stands before all separators goes to the first part. -/
theorem split_append_left {separator : Char} {front text first : Text} {others : List Text}
    (absent : separator ∉ front) (parts : split separator text = first :: others) :
    split separator (front ++ text) = (front ++ first) :: others := by
  induction front with
  | nil => exact parts
  | cons c rest ih =>
    obtain ⟨different, absent⟩ := List.ne_and_not_mem_of_not_mem_cons absent
    rw [List.cons_append, split, if_neg (Ne.symm different), ih absent]
    rfl

theorem split_of_notMem {separator : Char} {part : Text} (absent : separator ∉ part) :
    split separator part = [part] := by
  have parts := split_append_left absent (show split separator [] = [[]] from rfl)
  rwa [List.append_nil] at parts

/-- A separator divides the parts before it from the parts after it. -/
theorem split_append (separator : Char) (left right : Text) :
    split separator (left ++ separator :: right) =
      split separator left ++ split separator right := by
  induction left with
  | nil =>
    have first : split separator (separator :: right) = [] :: split separator right := by
      rw [split, if_pos rfl]
    rw [List.nil_append, first]
    rfl
  | cons c rest ih =>
    rw [List.cons_append, split, split, ih]
    by_cases equal : c = separator
    · rw [if_pos equal, if_pos equal]
      rfl
    · rw [if_neg equal, if_neg equal]
      cases parts : split separator rest with
      | nil => exact absurd parts (split_ne_nil separator rest)
      | cons first others => rfl

/-- Parts without the separator are found again between the separators. -/
theorem split_join {separator : Char} {parts : List Text} (filled : parts ≠ [])
    (absent : ∀ part ∈ parts, separator ∉ part) :
    split separator (join separator parts) = parts := by
  induction parts with
  | nil => exact absurd rfl filled
  | cons part others ih =>
    have first := split_of_notMem (absent part List.mem_cons_self)
    cases others with
    | nil => exact first
    | cons next rest =>
      have later := ih (List.cons_ne_nil next rest) fun other member =>
        absent other (List.mem_cons_of_mem part member)
      rw [join, split_append, first, later]
      rfl

/-- Splitting drops the separators and nothing else. -/
theorem flatten_split (separator : Char) (text : Text) :
    (split separator text).flatten = text.filter (· ≠ separator) := by
  induction text with
  | nil => rfl
  | cons c rest ih =>
    rw [split]
    -- A separator opens an empty part; any other character joins the first part of the rest.
    by_cases equal : c = separator
    · subst equal
      rw [if_pos rfl, List.flatten_cons, List.nil_append, ih]
      simp
    · rw [if_neg equal, List.filter_cons_of_pos (by simpa using equal), ← ih]
      cases parts : split separator rest with
      | nil => exact absurd parts (split_ne_nil separator rest)
      | cons first others => rfl

theorem join_append_separator {separator : Char} {parts : List Text} (filled : parts ≠ []) :
    join separator parts ++ [separator] = parts.flatMap (· ++ [separator]) := by
  induction parts with
  | nil => exact absurd rfl filled
  | cons part others ih =>
    cases others with
    | nil => simp [join]
    | cons next others =>
      rw [join, List.append_assoc, List.cons_append, ih (List.cons_ne_nil _ _)]
      simp

theorem flatten_map_trim_sublist (lines : List Text) :
    ((lines.map trim).flatten).Sublist lines.flatten := by
  induction lines with
  | nil => exact List.Sublist.slnil
  | cons line others ih => exact (trim_isInfix line).sublist.append ih

/-! ## Parts -/

theorem contains_iff {part text : Text} : contains part text ↔ part <:+: text := by
  induction text with
  | nil => rw [contains, List.isEmpty_iff, List.infix_nil]
  | cons c rest ih =>
    rw [contains, Bool.or_eq_true, ih, List.isPrefixOf_iff_prefix, List.infix_cons_iff]

end KeyFile.Text
