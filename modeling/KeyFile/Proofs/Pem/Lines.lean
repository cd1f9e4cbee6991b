import KeyFile.Pem.Scan
import KeyFile.Proofs.Text

/-!
# Lines of armored text

Separating boundaries works line by line, since a line feed ends every run of dashes. A whole line
is one that is not cut, and a plain line is one that comes through unchanged; boundary lines and
lines without dashes are plain. A line is a boundary exactly if it is one that is written for a
label.
-/
namespace KeyFile.Pem

open Block

/-! ## Runs of dashes -/

theorem separateFrom_append {c : Char} (other : c ≠ '-') (seen : Nat) (left right : Text) :
    separateFrom seen (left ++ c :: right) =
      separateFrom seen left ++ c :: separateFrom 0 right := by
  -- The dashes that have been passed are written out at `c`, so the count starts anew after it.
  induction left generalizing seen with
  | nil => rw [List.nil_append, separateFrom, separateFrom, if_pos other]
  | cons d rest ih =>
    rw [List.cons_append, separateFrom, separateFrom]
    by_cases dash : d = '-'
    · rw [if_neg (not_not_intro dash), if_neg (not_not_intro dash)]
      split
      · exact ih (seen + 1)
      · rw [ih 0]
        simp only [List.append_assoc, List.cons_append]
    · rw [if_pos dash, if_pos dash, ih 0, List.append_assoc, List.cons_append]

theorem separateFrom_replicate {seen count : Nat} (few : seen + count ≤ 9) (rest : Text) :
    separateFrom seen (List.replicate count '-' ++ rest) = separateFrom (seen + count) rest := by
  induction count generalizing seen with
  | zero => rfl
  | succ count ih =>
    rw [List.replicate_succ, List.cons_append, separateFrom, if_neg (not_not_intro rfl),
      if_pos (by omega), ih (by omega)]
    congr 1
    omega

theorem separateFrom_clean {left : Text} (clean : '-' ∉ left) (right : Text) :
    separateFrom 0 (left ++ right) = left ++ separateFrom 0 right := by
  induction left with
  | nil => rfl
  | cons c rest ih =>
    obtain ⟨other, clean⟩ := List.ne_and_not_mem_of_not_mem_cons clean
    rw [List.cons_append, separateFrom, if_pos (Ne.symm other), ih clean]
    rfl

/-- Five dashes are never ten when something else stands after them. -/
theorem separateFrom_framed {middle : Text} (filled : middle ≠ []) (clean : '-' ∉ middle)
    (rest : Text) :
    separateFrom 0 (dashes ++ middle ++ rest) = dashes ++ middle ++ separateFrom 0 rest := by
  obtain ⟨c, others, rfl⟩ := List.exists_cons_of_ne_nil filled
  obtain ⟨other, clean⟩ := List.ne_and_not_mem_of_not_mem_cons clean
  rw [dashes, List.append_assoc, separateFrom_replicate (by decide), List.cons_append,
    separateFrom, if_pos (Ne.symm other), separateFrom_clean clean, List.append_assoc]
  rfl

/-- Only line feeds are put in. -/
theorem filter_separateFrom {seen : Nat} (few : seen ≤ 9) (text : Text) :
    (separateFrom seen text).filter (· ≠ '\n') =
      List.replicate seen '-' ++ text.filter (· ≠ '\n') := by
  have kept (count : Nat) : (List.replicate count '-').filter (· ≠ '\n') =
      List.replicate count '-' := by
    rw [List.filter_replicate_of_pos (by decide)]
  induction text generalizing seen with
  | nil => rw [separateFrom, kept, List.filter_nil, List.append_nil]
  | cons c rest ih =>
    rw [separateFrom]
    by_cases dash : c = '-'
    · subst dash
      rw [if_neg (not_not_intro rfl), List.filter_cons_of_pos (by decide)]
      split
      · rw [ih (by omega), List.replicate_succ', List.append_assoc, List.singleton_append]
      -- At the tenth dash five and five are written, and the line feed between them is dropped.
      · have ten : seen = 9 := by omega
        subst ten
        rw [List.filter_append, List.filter_append, List.filter_cons_of_neg (by decide),
          ih (by decide), dashes, kept]
        rfl
    · rw [if_pos dash, List.filter_append, kept]
      congr 1
      by_cases feed : c = '\n'
      · subst feed
        rw [List.filter_cons_of_neg (by decide), List.filter_cons_of_neg (by decide),
          ih (by decide)]
        rfl
      · rw [List.filter_cons_of_pos (by simpa using feed),
          List.filter_cons_of_pos (by simpa using feed), ih (by decide)]
        rfl

/-- The lines hold characters of the text only, in order. -/
theorem flatten_linesOf_sublist (text : Text) : ((linesOf text).flatten).Sublist text := by
  have trimmed := Text.flatten_map_trim_sublist (Text.split '\n' (separateBoundaries text))
  rw [Text.flatten_split, separateBoundaries, filter_separateFrom (Nat.zero_le 9)] at trimmed
  exact trimmed.trans List.filter_sublist

/-! ## Plain lines -/

/-- A line that stays in one piece. -/
structure Whole (line : Text) : Prop where
  calm : separateFrom 0 line = line
  single : '\n' ∉ line

/-- A line that is judged as it was written. -/
structure Plain (line : Text) : Prop extends Whole line where
  trimmed : Text.trim line = line

/-- What stands before a line feed and what stands after it are judged apart. -/
theorem linesOf_append (left right : Text) :
    linesOf (left ++ '\n' :: right) = linesOf left ++ linesOf right := by
  have separated : separateBoundaries (left ++ '\n' :: right) =
      separateBoundaries left ++ '\n' :: separateBoundaries right :=
    separateFrom_append (by decide) 0 left right
  rw [linesOf, separated, Text.split_append, List.map_append, ← linesOf, ← linesOf]

theorem Whole.linesOf {line : Text} (whole : Whole line) : linesOf line = [Text.trim line] := by
  rw [Pem.linesOf, separateBoundaries, whole.calm, Text.split_of_notMem whole.single]
  rfl

/-- Lines that are each written with a line feed after them. -/
theorem linesOf_flatMap {lines : List Text} (whole : ∀ line ∈ lines, Whole line) (rest : Text) :
    linesOf (lines.flatMap (· ++ ['\n']) ++ rest) = lines.map Text.trim ++ linesOf rest := by
  induction lines with
  | nil => rfl
  | cons line others ih =>
    have first := whole line List.mem_cons_self
    have later := ih fun other member => whole other (List.mem_cons_of_mem _ member)
    rw [List.flatMap_cons, List.append_assoc, List.append_assoc, List.singleton_append,
      linesOf_append, first.linesOf, later]
    rfl

/-- Blanks and dashes aside, any line is plain. -/
theorem plain_of_clean {line : Text} (clean : '-' ∉ line)
    (filled : ∀ c ∈ line, Text.isBlank c = false) : Plain line where
  calm := by
    have same := separateFrom_clean clean []
    rw [List.append_nil] at same
    rw [same]
    exact List.append_nil line
  single feed := Bool.false_ne_true ((filled _ feed).symm.trans (by decide))
  trimmed := Text.trim_eq_self (fun c first => filled c (List.mem_of_mem_head? first))
    (fun c last => filled c (List.mem_of_mem_getLast? last))

/-! ## Boundaries -/

/-- A label that boundary lines can hold. -/
def Label.Proper (label : Label) : Prop :=
  label.text ≠ [] ∧ label.text.all isLabelChar

instance (label : Label) : Decidable label.Proper :=
  inferInstanceAs (Decidable (_ ∧ _))

theorem Label.Proper.isLabelChar {label : Label} (proper : label.Proper) :
    ∀ c ∈ label.text, Pem.isLabelChar c :=
  List.all_eq_true.mp proper.2

theorem Label.Proper.notMem {label : Label} (proper : label.Proper) {c : Char}
    (other : Pem.isLabelChar c = false) : c ∉ label.text := by
  intro member
  rw [proper.isLabelChar c member] at other
  cases other

/-- Five dashes, something without dashes or line feeds, and five dashes. -/
private theorem plain_framed {middle : Text} (filled : middle ≠ []) (clean : '-' ∉ middle)
    (single : '\n' ∉ middle) : Plain (dashes ++ middle ++ dashes) where
  calm := by
    have five : separateFrom 0 dashes = dashes := by decide
    rw [separateFrom_framed filled clean, five]
  single feed := by
    have outside : '\n' ∉ dashes := by decide
    simp only [List.mem_append, outside, false_or, or_false] at feed
    exact single feed
  trimmed := by
    apply Text.trim_eq_self
    · intro c first
      cases first
      decide
    · intro c last
      have dash : (dashes ++ middle ++ dashes).getLast? = some '-' := by
        rw [List.getLast?_append]
        rfl
      rw [dash] at last
      cases last
      decide

private theorem plain_boundary {label : Label} (proper : label.Proper) {word : Text}
    (filled : word ≠ []) (clean : '-' ∉ word) (single : '\n' ∉ word) :
    Plain (dashes ++ word ++ label.text ++ dashes) := by
  have dash : '-' ∉ label.text := proper.notMem (by decide)
  have feed : '\n' ∉ label.text := proper.notMem (by decide)
  rw [List.append_assoc dashes word label.text]
  apply plain_framed
  · exact List.append_ne_nil_of_left_ne_nil filled _
  · rw [List.mem_append, not_or]
    exact ⟨clean, dash⟩
  · rw [List.mem_append, not_or]
    exact ⟨single, feed⟩

theorem plain_beginLine {label : Label} (proper : label.Proper) : Plain (beginLine label) :=
  plain_boundary proper (by decide) (by decide) (by decide)

theorem plain_endLine {label : Label} (proper : label.Proper) : Plain (endLine label) :=
  plain_boundary proper (by decide) (by decide) (by decide)

/-- A label is found exactly between a word and the closing dashes. -/
theorem labelAfter_eq_some_iff {word line : Text} {label : Label} :
    labelAfter? word line = some label ↔
      label.Proper ∧ line = dashes ++ word ++ label.text ++ dashes := by
  simp only [labelAfter?, Option.bind_eq_bind, Option.bind_eq_some_iff,
    List.isPrefixOf?_eq_some_iff_append_eq]
  constructor
  · rintro ⟨rest, rfl, found⟩
    split at found
    next framed =>
      cases found
      have whole := List.takeWhile_append_dropWhile (p := isLabelChar) (l := rest)
      rw [framed.2] at whole
      refine ⟨⟨framed.1, List.all_takeWhile⟩, ?_⟩
      rw [List.append_assoc (dashes ++ word), whole]
    next => cases found
  · rintro ⟨proper, rfl⟩
    refine ⟨label.text ++ dashes, by rw [List.append_assoc (dashes ++ word)], ?_⟩
    -- The label goes as far as there are characters that a label may have, and no dash is one.
    have taken : (label.text ++ dashes).takeWhile isLabelChar = label.text := by
      rw [List.takeWhile_append_of_pos proper.isLabelChar]
      simp [dashes, List.replicate_succ, show isLabelChar '-' = false by decide]
    have left : (label.text ++ dashes).dropWhile isLabelChar = dashes := by
      rw [List.dropWhile_append_of_pos proper.isLabelChar]
      rfl
    rw [taken, left, if_pos ⟨proper.1, rfl⟩]

theorem ofLine_eq_opening_iff {line : Text} {label : Label} :
    Boundary.ofLine? line = some (.opening label) ↔ label.Proper ∧ line = beginLine label := by
  rw [beginLine, ← labelAfter_eq_some_iff, Boundary.ofLine?]
  cases labelAfter? beginWord line with
  | none => simp
  | some found => simp

theorem ofLine_eq_closing_iff {line : Text} {label : Label} :
    Boundary.ofLine? line = some (.closing label) ↔ label.Proper ∧ line = endLine label := by
  constructor
  · intro found
    rw [Boundary.ofLine?] at found
    cases opened : labelAfter? beginWord line with
    | none =>
      simp only [opened, Option.map_eq_some_iff, Boundary.closing.injEq] at found
      obtain ⟨closed, found, rfl⟩ := found
      exact labelAfter_eq_some_iff.mp found
    | some other => simp [opened] at found
  · rintro ⟨proper, rfl⟩
    -- The first letters of the two words differ.
    have other : labelAfter? beginWord (endLine label) = none := rfl
    have closed : labelAfter? endWord (endLine label) = some label :=
      labelAfter_eq_some_iff.mpr ⟨proper, rfl⟩
    rw [Boundary.ofLine?, other, closed]
    rfl

theorem ofLine_beginLine {label : Label} (proper : label.Proper) :
    Boundary.ofLine? (beginLine label) = some (.opening label) :=
  ofLine_eq_opening_iff.mpr ⟨proper, rfl⟩

theorem ofLine_endLine {label : Label} (proper : label.Proper) :
    Boundary.ofLine? (endLine label) = some (.closing label) :=
  ofLine_eq_closing_iff.mpr ⟨proper, rfl⟩

/-- What is on no boundary line keeps a line from being one. -/
theorem ofLine_eq_none {line : Text}
    (opened : ∀ label : Label, label.Proper → line ≠ beginLine label)
    (closed : ∀ label : Label, label.Proper → line ≠ endLine label) :
    Boundary.ofLine? line = none := by
  cases found : Boundary.ofLine? line with
  | none => rfl
  | some boundary =>
    cases boundary with
    | opening label =>
      obtain ⟨proper, same⟩ := ofLine_eq_opening_iff.mp found
      exact absurd same (opened label proper)
    | closing label =>
      obtain ⟨proper, same⟩ := ofLine_eq_closing_iff.mp found
      exact absurd same (closed label proper)

/-- A boundary line begins with a dash. -/
theorem ofLine_of_clean {line : Text} (clean : '-' ∉ line) : Boundary.ofLine? line = none := by
  apply ofLine_eq_none
  · rintro label - rfl
    exact clean List.mem_cons_self
  · rintro label - rfl
    exact clean List.mem_cons_self

/-- A boundary line has no colon. -/
theorem ofLine_of_colon {line : Text} (colon : ':' ∈ line) : Boundary.ofLine? line = none := by
  have outside {label : Label} (proper : label.Proper) : ':' ∉ label.text :=
    proper.notMem (by decide)
  have dashed : ':' ∉ dashes := by decide
  have begun : ':' ∉ beginWord := by decide
  have ended : ':' ∉ endWord := by decide
  apply ofLine_eq_none
  · rintro label proper rfl
    simp only [beginLine, List.mem_append, dashed, begun, outside proper, or_self] at colon
  · rintro label proper rfl
    simp only [endLine, List.mem_append, dashed, ended, outside proper, or_self] at colon

end KeyFile.Pem
