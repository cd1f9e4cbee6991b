import KeyFile.Proofs.Pem.Grammar

/-!
# The layout of armored text

Blanks at the ends of lines and blank lines do not count, so whatever blanks stand around a line
feed, the same blocks or the same error is found. With that, the blocks of a text are those that its
lines spell, and the error is the one of the first line at fault.
-/
namespace KeyFile.Pem

open Block

/-! ## Blanks at the ends of lines -/

private theorem trim_split_concat {c : Char} (blank : Text.isBlank c) (other : c ≠ '\n')
    (text : Text) :
    (Text.split '\n' (text ++ [c])).map Text.trim = (Text.split '\n' text).map Text.trim := by
  by_cases feed : '\n' ∈ text
  · obtain ⟨before, after, rfl, first⟩ := List.eq_append_cons_of_mem feed
    have shorter : after.length < (before ++ '\n' :: after).length := by
      rw [List.length_append, List.length_cons]
      omega
    have later := trim_split_concat blank other after
    rw [List.append_assoc, List.cons_append, Text.split_append, Text.split_append,
      List.map_append, List.map_append, later]
  · have single : '\n' ∉ text ++ [c] := by
      rw [List.mem_append, List.mem_singleton, not_or]
      exact ⟨feed, Ne.symm other⟩
    rw [Text.split_of_notMem feed, Text.split_of_notMem single, List.map_singleton,
      List.map_singleton, Text.trim_concat_blank blank]
termination_by text.length

section Blank

variable {c : Char} (blank : Text.isBlank c) (other : c ≠ '\n') (text : Text)

include blank

private theorem ne_dash_of_blank : c ≠ '-' := by
  rintro rfl
  exact absurd blank (by decide)

include other

theorem linesOf_concat_blank : linesOf (text ++ [c]) = linesOf text := by
  have separated : separateBoundaries (text ++ [c]) = separateBoundaries text ++ [c] :=
    separateFrom_append (ne_dash_of_blank blank) 0 text []
  rw [linesOf, separated, trim_split_concat blank other, ← linesOf]

theorem linesOf_cons_blank : linesOf (c :: text) = linesOf text := by
  have separated : separateBoundaries (c :: text) = c :: separateBoundaries text := by
    rw [separateBoundaries, separateFrom, if_pos (ne_dash_of_blank blank)]
    rfl
  obtain ⟨first, others, parts⟩ :=
    List.exists_cons_of_ne_nil (Text.split_ne_nil '\n' (separateBoundaries text))
  have longer : Text.split '\n' ([c] ++ separateBoundaries text) = ([c] ++ first) :: others :=
    Text.split_append_left (by simpa using Ne.symm other) parts
  rw [List.singleton_append] at longer
  rw [linesOf, linesOf, separated, longer, parts, List.map_cons, List.map_cons,
    List.singleton_append, Text.trim_cons_blank blank]

end Blank

/-! ## Blank lines -/

private theorem scan_blank (state : Option Draft) (rest : List Text) :
    scan state ([] :: rest) = scan state rest := by
  cases state <;> rfl

private theorem scan_cons_congr {rest others : List Text}
    (same : ∀ state, scan state rest = scan state others) (state : Option Draft) (line : Text) :
    scan state (line :: rest) = scan state (line :: others) := by
  cases state <;> simp only [scan, same]

/-- The lines that are not blank. -/
def filledLines (text : Text) : List Text :=
  (linesOf text).filter (· ≠ [])

theorem scan_filter (lines : List Text) (state : Option Draft) :
    scan state (lines.filter (· ≠ [])) = scan state lines := by
  induction lines generalizing state with
  | nil => rfl
  | cons line rest ih =>
    by_cases blank : line = []
    · rw [blank, List.filter_cons_of_neg (by decide), ih, scan_blank]
    · rw [List.filter_cons_of_pos (by simpa using blank)]
      exact scan_cons_congr ih state line

theorem blocks_eq_of_filledLines {text other : Text} (same : filledLines text = filledLines other) :
    blocks text = blocks other := by
  rw [blocks, blocks, ← scan_filter, ← scan_filter (linesOf other)]
  exact congrArg (scan none) same

theorem filledLines_feed (left right : Text) :
    filledLines (left ++ '\n' :: right) = filledLines left ++ filledLines right := by
  rw [filledLines, linesOf_append, List.filter_append, ← filledLines, ← filledLines]

theorem filledLines_blanks_append {gap : Text} (blank : ∀ c ∈ gap, Text.isBlank c) (text : Text) :
    filledLines (gap ++ text) = filledLines text := by
  induction gap with
  | nil => rfl
  | cons c rest ih =>
    have later := ih fun d member => blank d (List.mem_cons_of_mem c member)
    rw [List.cons_append]
    by_cases feed : c = '\n'
    · have split := filledLines_feed [] (rest ++ text)
      rw [feed]
      exact split.trans later
    · rw [filledLines, linesOf_cons_blank (blank c List.mem_cons_self) feed, ← filledLines, later]

theorem filledLines_append_blanks {gap : Text} (blank : ∀ c ∈ gap, Text.isBlank c) (text : Text) :
    filledLines (text ++ gap) = filledLines text := by
  induction gap generalizing text with
  | nil => rw [List.append_nil]
  | cons c rest ih =>
    have later := ih fun d member => blank d (List.mem_cons_of_mem c member)
    by_cases feed : c = '\n'
    · have unfilled : filledLines rest = [] := later []
      rw [feed, filledLines_feed, unfilled, List.append_nil]
    · have moved : text ++ c :: rest = text ++ [c] ++ rest := by
        rw [List.append_assoc, List.singleton_append]
      rw [moved, later, filledLines,
        linesOf_concat_blank (blank c List.mem_cons_self) feed, ← filledLines]

/-- Blanks around a line feed change nothing, be they spaces, carriage returns or line feeds. -/
theorem blocks_gap {gap : Text} (blank : ∀ c ∈ gap, Text.isBlank c) (feed : '\n' ∈ gap)
    (left right : Text) : blocks (left ++ gap ++ right) = blocks (left ++ '\n' :: right) := by
  obtain ⟨before, after, rfl⟩ := List.append_of_mem feed
  have front : ∀ c ∈ before, Text.isBlank c := fun c member =>
    blank c (List.mem_append_left _ member)
  have back : ∀ c ∈ after, Text.isBlank c := fun c member =>
    blank c (List.mem_append_right _ (List.mem_cons_of_mem _ member))
  -- The line feed parts the text, and all blanks fall to one of its parts.
  apply blocks_eq_of_filledLines
  calc filledLines (left ++ (before ++ '\n' :: after) ++ right)
      = filledLines (left ++ before) ++ filledLines (after ++ right) := by
        rw [← filledLines_feed]
        simp only [List.append_assoc, List.cons_append]
    _ = filledLines left ++ filledLines right := by
        rw [filledLines_append_blanks front, filledLines_blanks_append back]
    _ = filledLines (left ++ '\n' :: right) := (filledLines_feed left right).symm

/-! ## Lines that say the same -/

/-- Lines that differ in a remark, in a blank line or in how the body of a block is broken. -/
inductive Rearranged : List Text → List Text → Prop where
  | remark {front rest : List Text} {found : List Block} {line : Text}
      (spelled : Spelled front found) (ordinary : Ordinary line) :
      Rearranged (front ++ line :: rest) (front ++ rest)
  | blank {front rest : List Text} : Rearranged (front ++ [] :: rest) (front ++ rest)
  | body {front inner other rest : List Text} {label : Label} (proper : label.Proper)
      (contents : Contents inner) (others : Contents other)
      (headers : headersOf (headLines inner) = headersOf (headLines other))
      (same : bodyOf inner = bodyOf other) :
      Rearranged (front ++ (beginLine label :: inner ++ endLine label :: rest))
        (front ++ (beginLine label :: other ++ endLine label :: rest))

private theorem scan_append_congr {rest others : List Text}
    (same : ∀ state, scan state rest = scan state others) (front : List Text)
    (state : Option Draft) : scan state (front ++ rest) = scan state (front ++ others) := by
  induction front generalizing state with
  | nil => exact same state
  | cons line front ih => exact scan_cons_congr ih state line

theorem Rearranged.scan {lines others : List Text} (rearranged : Rearranged lines others) :
    Pem.scan none lines = Pem.scan none others := by
  cases rearranged with
  | remark spelled ordinary =>
    rw [spelled.scan, spelled.scan, Pem.scan, ofLine_eq_none_iff.mpr ordinary]
  | blank => exact scan_append_congr (fun state => scan_blank state _) _ none
  | body proper contents others headers same =>
    apply scan_append_congr
    intro state
    cases state with
    | none =>
      rw [scan_opened proper contents, scan_opened proper others, draftOf, draftOf, headers, same]
    -- Within an open block, the line that begins another one is at fault.
    | some draft =>
      rw [List.cons_append, List.cons_append, Pem.scan, Pem.scan, ofLine_beginLine proper]

/-! ## The blocks of a text -/

/-- A text gives the blocks that its lines spell, and otherwise the error of the first line at which
they are broken, or of their end. Blanks around line feeds, remarks and breaks in a body do not
count. -/
theorem blocks_exact (text : Text) :
    (∀ found, blocks text = .ok found ↔ Spelled (linesOf text) found) ∧
      (∀ error, blocks text = .error error ↔ Faulty (linesOf text) error) ∧
      (∀ left gap right, text = left ++ gap ++ right → (∀ c ∈ gap, Text.isBlank c) → '\n' ∈ gap →
        blocks text = blocks (left ++ '\n' :: right)) ∧
      ∀ other, Rearranged (linesOf text) (linesOf other) → blocks text = blocks other := by
  refine ⟨fun _ => scan_eq_ok_iff, fun _ => scan_eq_error_iff, ?_,
    fun _ rearranged => rearranged.scan⟩
  rintro left gap right rfl blank feed
  exact blocks_gap blank feed left right

/-- A boundary, line feeds with blanks around them, and a block with its body in two lines. -/
def openingLine : Text := "-----BEGIN A-----".toList
def wideGap : Text := "\r\n \t\r\n ".toList
def brokenBody : Text := "B : c\n\n AQ\nID\n-----END A-----".toList
def wholeBody : Text := "B : c\n\n AQID\n-----END A-----".toList

theorem wideGap_ignored :
    ((∀ c ∈ wideGap, Text.isBlank c) ∧ '\n' ∈ wideGap ∧
        Rearranged (linesOf (openingLine ++ '\n' :: brokenBody))
          (linesOf (openingLine ++ '\n' :: wholeBody))) ∧
      blocks (openingLine ++ wideGap ++ brokenBody) = blocks (openingLine ++ '\n' :: brokenBody) ∧
      blocks (openingLine ++ '\n' :: brokenBody) = blocks (openingLine ++ '\n' :: wholeBody) ∧
      Spelled (linesOf (openingLine ++ wideGap ++ brokenBody))
        [⟨⟨['A']⟩, [(['B'], ['c'])], [1, 2, 3]⟩] := by
  have blank : ∀ c ∈ wideGap, Text.isBlank c := List.all_eq_true.mp (by decide)
  have feed : '\n' ∈ wideGap := by decide
  have broken : linesOf (openingLine ++ '\n' :: brokenBody) =
      [] ++ (beginLine ⟨['A']⟩ :: ["B : c".toList, [], "AQ".toList, "ID".toList] ++
        endLine ⟨['A']⟩ :: []) := by decide +kernel
  have whole : linesOf (openingLine ++ '\n' :: wholeBody) =
      [] ++ (beginLine ⟨['A']⟩ :: ["B : c".toList, [], "AQID".toList] ++
        endLine ⟨['A']⟩ :: []) := by decide +kernel
  have rearranged : Rearranged (linesOf (openingLine ++ '\n' :: brokenBody))
      (linesOf (openingLine ++ '\n' :: wholeBody)) := by
    rw [broken, whole]
    exact .body (by decide) (by decide) (by decide) (by decide) (by decide)
  obtain ⟨found, -, gap, -⟩ := blocks_exact (openingLine ++ wideGap ++ brokenBody)
  have narrow := gap openingLine wideGap brokenBody rfl blank feed
  have same := (blocks_exact (openingLine ++ '\n' :: brokenBody)).2.2.2 _ rearranged
  have read : blocks (openingLine ++ '\n' :: brokenBody) =
      .ok [⟨⟨['A']⟩, [(['B'], ['c'])], [1, 2, 3]⟩] :=
    Outcome.toOption_eq_some.mp (by decide +kernel)
  exact ⟨⟨blank, feed, rearranged⟩, narrow, same, (found _).mp (narrow.trans read)⟩

end KeyFile.Pem
