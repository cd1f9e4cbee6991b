import KeyFile.Bytes

/-!
# Text

Text is a list of characters. Blank characters are those with the Unicode property White_Space;
armor trims its lines of them, while base64 bodies drop only the five ASCII blanks.
-/
namespace KeyFile

/-- Text as its characters in order. -/
abbrev Text := List Char

namespace Text

/-- The characters with the Unicode property White_Space. -/
def blanks : List Char :=
  ['\t', '\n', '\x0b', '\x0c', '\r', ' ', '\u0085', '\u00a0', '\u1680', '\u2000', '\u2001',
    '\u2002', '\u2003', '\u2004', '\u2005', '\u2006', '\u2007', '\u2008', '\u2009', '\u200a',
    '\u2028', '\u2029', '\u202f', '\u205f', '\u3000']

/-- Whether a character is White_Space. -/
def isBlank (c : Char) : Bool :=
  blanks.contains c

/-- Whether a character is a space, a tab, a line feed, a form feed or a carriage return. -/
def isAsciiBlank (c : Char) : Bool :=
  c = ' ' || c = '\t' || c = '\n' || c = '\x0c' || c = '\r'

/-- The text without the blanks at its two ends. -/
def trim (text : Text) : Text :=
  ((text.dropWhile isBlank).reverse.dropWhile isBlank).reverse

/-- The parts between the separators; one more than there are separators. -/
def split (separator : Char) : Text → List Text
  | [] => [[]]
  | c :: rest =>
    if c = separator then [] :: split separator rest
    else
      match split separator rest with
      | [] => [[c]]
      | first :: others => (c :: first) :: others

/-- The parts with the separator between them. -/
def join (separator : Char) : List Text → Text
  | [] => []
  | [part] => part
  | part :: next :: others => part ++ separator :: join separator (next :: others)

/-- Whether `part` stands somewhere in the text. -/
def contains (part : Text) : Text → Bool
  | [] => part.isEmpty
  | c :: rest => part.isPrefixOf (c :: rest) || contains part rest

/-- Whether two texts are equal when ASCII capitals are read as small letters. -/
def sameIgnoringCase (left right : Text) : Bool :=
  left.map Char.toLower = right.map Char.toLower

/-- The UTF-8 octets of a text. -/
def utf8 (text : Text) : Bytes :=
  text.flatMap String.utf8EncodeChar

theorem blank_of_asciiBlank (c : Char) (blank : isAsciiBlank c) : isBlank c := by
  simp only [isAsciiBlank, Bool.or_eq_true, decide_eq_true_eq] at blank
  rcases blank with (((rfl | rfl) | rfl) | rfl) | rfl <;> decide

theorem split_ne_nil (separator : Char) (text : Text) : split separator text ≠ [] := by
  induction text with
  | nil => simp [split]
  | cons c rest ih =>
    rw [split]
    split
    · simp
    · split <;> simp

/-- Joining the parts gives the text back. -/
theorem join_split (separator : Char) (text : Text) :
    join separator (split separator text) = text := by
  induction text with
  | nil => rfl
  | cons c rest ih =>
    rw [split]
    split
    next equal =>
      subst equal
      match h : split c rest with
      | [] => exact absurd h (split_ne_nil c rest)
      | first :: others => rw [h] at ih; simp [join, ih]
    next different =>
      match h : split separator rest with
      | [] => exact absurd h (split_ne_nil separator rest)
      | [first] => rw [h] at ih; simpa [join] using ih
      | first :: next :: others => rw [h] at ih; simpa [join] using ih

end Text

end KeyFile
