import KeyFile.Command.Json
import KeyFile.Proofs.Asn1.DottedText

/-!
# JSON text tells values apart

No two values are rendered alike, also where other text follows: a string ends at the first quote
that is not escaped, a number before the first character that is no digit, and an array or an object
where a line goes on without a comma.
-/
namespace KeyFile

/-! ## Numbers -/

/-- No digit comes first. -/
def Text.Digitless (text : Text) : Prop :=
  ∀ c ∈ text.head?, c.isDigit = false

namespace Decimal

theorem takeWhile_text_append (number : Nat) {rest : Text} (apart : rest.Digitless) :
    (text number ++ rest).takeWhile Char.isDigit = text number := by
  have ended : rest.takeWhile Char.isDigit = [] := by
    cases rest with
    | nil => rfl
    | cons c others => rw [List.takeWhile_cons, apart c rfl]; rfl
  rw [List.takeWhile_append_of_pos isDigit_of_mem_text, ended, List.append_nil]

theorem toList_toString (number : Nat) : (toString number).toList = text number := by
  rw [Nat.toString_eq_repr, Nat.toList_repr, text]

theorem eq_of_text_append {left right : Nat} {rest others : Text} (apart : rest.Digitless)
    (apart' : others.Digitless) (same : text left ++ rest = text right ++ others) :
    left = right ∧ rest = others := by
  have digits : text left = text right := by
    rw [← takeWhile_text_append left apart, same, takeWhile_text_append right apart']
  exact ⟨text_injective digits, List.append_cancel_left (digits ▸ same)⟩

end Decimal

namespace Json

/-! ## Strings -/

/-- The number that a hexadecimal digit stands for. -/
def digitValue (c : Char) : Nat :=
  if c.isDigit then c.toNat - '0'.toNat else c.toNat - 'a'.toNat + 10

/-- The character that an escape of one letter stands for. -/
def unescaped (letter : Char) : Char :=
  if letter = 'n' then '\n'
  else if letter = 'r' then '\r'
  else if letter = 't' then '\t'
  else if letter = 'b' then '\x08'
  else if letter = 'f' then '\x0c'
  else letter

/-- Reads a string to its closing quote. -/
def readQuoted : Text → Text × Text
  | [] => ([], [])
  | '"' :: rest => ([], rest)
  | '\\' :: 'u' :: _ :: _ :: high :: low :: rest =>
    let (value, others) := readQuoted rest
    (Char.ofNat (16 * digitValue high + digitValue low) :: value, others)
  | '\\' :: letter :: rest =>
    let (value, others) := readQuoted rest
    (unescaped letter :: value, others)
  | c :: rest =>
    let (value, others) := readQuoted rest
    (c :: value, others)

theorem digitValue_digitChar (number : Nat) (small : number < 16) :
    digitValue (Nat.digitChar number) = number := by
  revert number
  decide

/-- Two digits are read back. -/
theorem digitValue_digits (number : Nat) (small : number < 256) :
    16 * digitValue (Nat.digitChar (number / 16)) +
      digitValue (Nat.digitChar (number % 16)) = number := by
  rw [digitValue_digitChar _ (by omega), digitValue_digitChar _ (by omega)]
  omega

/-- Each character is read back, whether it is escaped by a letter, by its number or not at all. -/
theorem readQuoted_escaped (c : Char) (rest : Text) :
    readQuoted (escaped c ++ rest) = (c :: (readQuoted rest).1, (readQuoted rest).2) := by
  rw [escaped]
  split_ifs with quote backslash feed carriage tab back form control
  · rw [quote]; rfl
  · rw [backslash]; rfl
  · rw [feed]; rfl
  · rw [carriage]; rfl
  · rw [tab]; rfl
  · rw [back]; rfl
  · rw [form]; rfl
  · simp only [List.cons_append, List.nil_append, readQuoted]
    rw [digitValue_digits _ (by omega), Char.ofNat_toNat]
  -- A character that is not escaped is none of those that are read in another way.
  · rw [List.singleton_append, readQuoted]
    · exact quote
    · exact fun _ _ _ _ _ same _ => backslash same
    · exact fun _ _ same _ => backslash same

theorem readQuoted_quoted (value rest : Text) :
    readQuoted (value.flatMap escaped ++ '"' :: rest) = (value, rest) := by
  induction value with
  | nil => rfl
  | cons c others ih => rw [List.flatMap_cons, List.append_assoc, readQuoted_escaped, ih]

theorem toList_quoted (value : String) :
    (quoted value).toList = '"' :: (value.toList.flatMap escaped ++ ['"']) := by
  simp only [quoted, String.toList_append, String.toList_ofList]
  rfl

theorem eq_of_quoted_append {left right : String} {rest others : Text}
    (same : (quoted left).toList ++ rest = (quoted right).toList ++ others) :
    left = right ∧ rest = others := by
  simp only [toList_quoted, List.cons_append, List.append_assoc, List.nil_append,
    List.cons.injEq, true_and] at same
  have read := congrArg readQuoted same
  rw [readQuoted_quoted, readQuoted_quoted, Prod.mk.injEq, String.toList_inj] at read
  exact read

/-! ## Lists of entries -/

/-- A line feed and the indentation, as characters. -/
def indentation (level : Nat) : Text :=
  '\n' :: List.replicate (2 * level) ' '

theorem toList_newLine (level : Nat) : (newLine level).toList = indentation level := by
  simp only [newLine, String.toList_append, String.toList_ofList]
  rfl

section Entries

variable {α : Type}

/-- Entries after the first one, each behind a comma and on a line of its own. -/
def further (level : Nat) (entry : α → Text) (entries : List α) : Text :=
  entries.flatMap fun a => ',' :: (indentation level ++ entry a)

/-- Entries between brackets, one level further in. -/
def enclosed (level : Nat) (opening closing : Char) (entry : α → Text) : List α → Text
  | [] => [opening, closing]
  | first :: rest =>
    opening :: (indentation (level + 1) ++ entry first ++ further (level + 1) entry rest ++
      indentation level ++ [closing])

/-- What is written for the value is told apart from what is written for others, as long as no digit
follows. -/
def ToldApart (written : α → Text) (a : α) : Prop :=
  ∀ (other : α) (rest rest' : Text), rest.Digitless → rest'.Digitless →
    written a ++ rest = written other ++ rest' → a = other ∧ rest = rest'

variable {entry : α → Text} {entries : List α}

/-- The entries after the first go on with a comma or else with the next line. -/
theorem digitless_further (level outer : Nat) (entry : α → Text) (entries : List α) (rest : Text) :
    Text.Digitless (further level entry entries ++ (indentation outer ++ rest)) := by
  cases entries with
  | nil => rintro c ⟨⟩; rfl
  | cons first others => rintro c ⟨⟩; rfl

theorem eq_of_further_append {level outer : Nat} (each : ∀ a ∈ entries, ToldApart entry a)
    {others : List α} {rest rest' : Text}
    (same : further level entry entries ++ (indentation outer ++ rest) =
      further level entry others ++ (indentation outer ++ rest')) :
    entries = others ∧ rest = rest' := by
  induction entries generalizing others with
  | nil =>
    cases others with
    | nil => exact ⟨rfl, List.append_cancel_left same⟩
    -- A list that goes on has a comma where the other one has a line feed.
    | cons first tail => cases (List.cons.inj same).1
  | cons first tail ih =>
    obtain ⟨here, later⟩ := List.forall_mem_cons.mp each
    cases others with
    | nil => cases (List.cons.inj same).1
    | cons first' tail' =>
      simp only [further, List.flatMap_cons, List.cons_append, List.append_assoc, List.cons.injEq,
        true_and] at same
      obtain ⟨rfl, behind⟩ := here _ _ _ (digitless_further level outer entry tail _)
        (digitless_further level outer entry tail' _) (List.append_cancel_left same)
      obtain ⟨rfl, ends⟩ := ih later behind
      exact ⟨rfl, ends⟩

/-- Brackets tell lists apart whose entries are told apart. -/
theorem toldApart_enclosed {level : Nat} {opening closing : Char} (ends : closing ≠ '\n')
    (each : ∀ a ∈ entries, ToldApart entry a) :
    ToldApart (enclosed level opening closing entry) entries := by
  intro others rest rest' _ _ same
  cases entries with
  | nil =>
    cases others with
    | nil => exact ⟨rfl, List.append_cancel_left same⟩
    -- Behind the opening bracket, a list with entries goes on with a line feed.
    | cons first tail => exact absurd (List.cons.inj (List.cons.inj same).2).1 ends
  | cons first tail =>
    obtain ⟨here, later⟩ := List.forall_mem_cons.mp each
    cases others with
    | nil => exact absurd (List.cons.inj (List.cons.inj same).2).1.symm ends
    | cons first' tail' =>
      simp only [enclosed, List.cons_append, List.append_assoc, List.nil_append, List.cons.injEq,
        true_and] at same
      obtain ⟨rfl, behind⟩ := here _ _ _ (digitless_further (level + 1) level entry tail _)
        (digitless_further (level + 1) level entry tail' _) (List.append_cancel_left same)
      obtain ⟨rfl, closed⟩ := eq_of_further_append later behind
      exact ⟨rfl, (List.cons.inj closed).2⟩

end Entries

/-! ## Values -/

/-- A value that begins on a line of that level, as characters. -/
def itemText (level : Nat) (value : Json) : Text :=
  (renderAt level value).toList

def memberText (level : Nat) (member : String × Json) : Text :=
  (quoted member.1).toList ++ ([':', ' '] ++ itemText level member.2)

section Rendered

variable (level : Nat)

attribute [local simp] renderAt renderItems renderMembers

theorem itemText_string (value : String) :
    itemText level (.string value) = (quoted value).toList := by
  simp [itemText]

theorem itemText_number (value : Nat) : itemText level (.number value) = Decimal.text value := by
  simp [itemText, ← Decimal.toList_toString]

theorem toList_items (items : List Json) :
    (renderItems level items).toList = further level (itemText level) items := by
  induction items with
  | nil => simp [further]
  | cons item rest ih => simp [further, itemText, toList_newLine, ih]

theorem toList_members (members : List (String × Json)) :
    (renderMembers level members).toList = further level (memberText level) members := by
  induction members with
  | nil => simp [further]
  | cons member rest ih =>
    simp [further, memberText, itemText, toList_newLine, ih]

theorem itemText_array (items : List Json) :
    itemText level (.array items) = enclosed level '[' ']' (itemText (level + 1)) items := by
  cases items with
  | nil => simp [itemText, enclosed]
  | cons first rest => simp [itemText, enclosed, toList_newLine, toList_items]

theorem itemText_object (members : List (String × Json)) :
    itemText level (.object members) =
      enclosed level '\x7b' '\x7d' (memberText (level + 1)) members := by
  cases members with
  | nil => simp [itemText, enclosed]
  | cons member rest =>
    simp [itemText, memberText, enclosed, toList_newLine, toList_members]

end Rendered

/-! ## Kinds of values -/

inductive Kind where
  | string
  | number
  | array
  | object

def kind : Json → Kind
  | .string _ => .string
  | .number _ => .number
  | .array _ => .array
  | .object _ => .object

/-- The kind of the values that begin with a character. -/
def Kind.ofFirst (c : Char) : Kind :=
  if c = '"' then .string
  else if c = '[' then .array
  else if c = '\x7b' then .object
  else .number

theorem Kind.ofFirst_digit {c : Char} (digit : c.isDigit) : ofFirst c = .number := by
  have other (d : Char) (sign : d.isDigit = false) : c ≠ d := by
    rintro rfl
    rw [digit] at sign
    cases sign
  rw [ofFirst, if_neg (other _ (by decide)), if_neg (other _ (by decide)),
    if_neg (other _ (by decide))]

theorem head_enclosed {α : Type} (level : Nat) (opening closing : Char) (entry : α → Text)
    (entries : List α) (rest : Text) :
    (enclosed level opening closing entry entries ++ rest).head? = some opening := by
  cases entries <;> rfl

theorem head_itemText (level : Nat) (value : Json) (rest : Text) :
    (itemText level value ++ rest).head?.map Kind.ofFirst = some value.kind := by
  cases value with
  | string text => rw [itemText_string, toList_quoted]; rfl
  | number count =>
    rw [itemText_number]
    cases digits : Decimal.text count with
    | nil => exact absurd digits Nat.toDigits_ne_nil
    | cons c others =>
      have digit := Decimal.isDigit_of_mem_text c (digits ▸ List.mem_cons_self)
      exact congrArg some (Kind.ofFirst_digit digit)
  | array items => rw [itemText_array, head_enclosed]; rfl
  | object members => rw [itemText_object, head_enclosed]; rfl

theorem kind_eq_of_itemText {level : Nat} {left right : Json} {rest others : Text}
    (same : itemText level left ++ rest = itemText level right ++ others) :
    left.kind = right.kind := by
  have first := head_itemText level left rest
  rw [same, head_itemText, Option.some.injEq] at first
  exact first.symm

/-! ## Telling apart

The first character tells the kind, so that only values of one kind are compared. -/

section Constructors

variable {level : Nat}

theorem toldApart_string (value : String) : ToldApart (itemText level) (.string value) := by
  intro other rest rest' _ _ same
  cases other with
  | string value' =>
    rw [itemText_string, itemText_string] at same
    obtain ⟨rfl, ends⟩ := eq_of_quoted_append same
    exact ⟨rfl, ends⟩
  | _ => cases kind_eq_of_itemText same

theorem toldApart_number (value : Nat) : ToldApart (itemText level) (.number value) := by
  intro other rest rest' apart apart' same
  cases other with
  | number value' =>
    rw [itemText_number, itemText_number] at same
    obtain ⟨rfl, ends⟩ := Decimal.eq_of_text_append apart apart' same
    exact ⟨rfl, ends⟩
  | _ => cases kind_eq_of_itemText same

theorem toldApart_array {items : List Json}
    (each : ∀ item ∈ items, ToldApart (itemText (level + 1)) item) :
    ToldApart (itemText level) (.array items) := by
  intro other rest rest' apart apart' same
  cases other with
  | array items' =>
    rw [itemText_array, itemText_array] at same
    obtain ⟨rfl, ends⟩ := toldApart_enclosed (by decide) each _ _ _ apart apart' same
    exact ⟨rfl, ends⟩
  | _ => cases kind_eq_of_itemText same

theorem toldApart_object {members : List (String × Json)}
    (each : ∀ member ∈ members, ToldApart (memberText (level + 1)) member) :
    ToldApart (itemText level) (.object members) := by
  intro other rest rest' apart apart' same
  cases other with
  | object members' =>
    rw [itemText_object, itemText_object] at same
    obtain ⟨rfl, ends⟩ := toldApart_enclosed (by decide) each _ _ _ apart apart' same
    exact ⟨rfl, ends⟩
  | _ => cases kind_eq_of_itemText same

theorem toldApart_member (name : String) {value : Json}
    (told : ToldApart (itemText level) value) : ToldApart (memberText level) (name, value) := by
  intro other rest rest' apart apart' same
  obtain ⟨name', value'⟩ := other
  simp only [memberText, List.append_assoc] at same
  obtain ⟨rfl, values⟩ := eq_of_quoted_append same
  obtain ⟨rfl, ends⟩ := told _ _ _ apart apart' (List.append_cancel_left values)
  exact ⟨rfl, ends⟩

end Constructors

mutual

/-- Every value is told apart from all others, whatever it holds. -/
theorem toldApart (level : Nat) : (value : Json) → ToldApart (itemText level) value
  | .string value => toldApart_string value
  | .number value => toldApart_number value
  | .array items => toldApart_array (toldApart_items (level + 1) items)
  | .object members => toldApart_object (toldApart_members (level + 1) members)

theorem toldApart_items (level : Nat) :
    (items : List Json) → ∀ item ∈ items, ToldApart (itemText level) item
  | [] => List.forall_mem_nil _
  | first :: rest =>
    List.forall_mem_cons.mpr ⟨toldApart level first, toldApart_items level rest⟩

theorem toldApart_members (level : Nat) :
    (members : List (String × Json)) → ∀ member ∈ members, ToldApart (memberText level) member
  | [] => List.forall_mem_nil _
  | (name, value) :: rest =>
    List.forall_mem_cons.mpr
      ⟨toldApart_member name (toldApart level value), toldApart_members level rest⟩

end

theorem digitless_feed (rest : Text) : Text.Digitless ('\n' :: rest) := by
  rintro c ⟨⟩
  rfl

/-- Values that are rendered one after another are told apart by the line feeds after them. -/
theorem eq_of_flatMap_render {left right : List Json}
    (same : (left.flatMap fun value => value.render.toList ++ ['\n']) =
      right.flatMap fun value => value.render.toList ++ ['\n']) : left = right := by
  induction left generalizing right with
  | nil =>
    cases right with
    | nil => rfl
    | cons value rest => simp at same
  | cons first tail ih =>
    cases right with
    | nil => simp at same
    | cons first' tail' =>
      simp only [List.flatMap_cons, List.append_assoc, List.singleton_append] at same
      obtain ⟨rfl, lines⟩ := toldApart 0 first first' _ _ (digitless_feed _) (digitless_feed _) same
      rw [ih (List.cons.inj lines).2]

end Json

end KeyFile
