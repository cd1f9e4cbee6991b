import KeyFile.Proofs.Pem.Dashes

/-!
# Header lines

A header line is divided at its first colon, and blanks around the name and the value do not count.
So a header is read back from the line that is written for it if its name is there and has no colon,
and neither of the two has blanks at its ends.
-/
namespace KeyFile.Pem

open Block

/-- A header that is read back from its line. -/
structure ProperHeader (header : Text × Text) : Prop where
  named : header.1 ≠ []
  colonless : ':' ∉ header.1
  name : Text.trim header.1 = header.1
  value : Text.trim header.2 = header.2
  single : '\n' ∉ header.1 ∧ '\n' ∉ header.2

instance (header : Text × Text) : Decidable (ProperHeader header) :=
  decidable_of_iff (header.1 ≠ [] ∧ ':' ∉ header.1 ∧ Text.trim header.1 = header.1 ∧
      Text.trim header.2 = header.2 ∧ '\n' ∉ header.1 ∧ '\n' ∉ header.2)
    ⟨fun ⟨named, colonless, name, value, single⟩ => ⟨named, colonless, name, value, single⟩,
      fun proper => ⟨proper.named, proper.colonless, proper.name, proper.value, proper.single⟩⟩

namespace Draft

/-- As long as there is no body, the first colon of a line divides name and value. -/
theorem push_colon {draft : Draft} (bodiless : draft.body = []) {before : Text}
    (colonless : ':' ∉ before) (after : Text) :
    draft.push (before ++ ':' :: after) =
      if Text.trim before = [] then .error (.invalidHeader (before ++ ':' :: after))
      else
        .ok { draft with headers := draft.headers ++ [(Text.trim before, Text.trim after)] } := by
  have all : ∀ c ∈ before, decide (c ≠ ':') = true := by
    intro c member
    rw [decide_eq_true_eq]
    rintro rfl
    exact colonless member
  have taken : (before ++ ':' :: after).takeWhile (· ≠ ':') = before := by
    rw [List.takeWhile_append_of_pos all, List.takeWhile_cons_of_neg (by decide), List.append_nil]
  have left : (before ++ ':' :: after).dropWhile (· ≠ ':') = ':' :: after := by
    rw [List.dropWhile_append_of_pos all, List.dropWhile_cons_of_neg (by decide)]
  -- So the line is no empty one, and it is divided where it should be.
  have filled : before ++ ':' :: after ≠ [] :=
    List.append_ne_nil_of_right_ne_nil before (List.cons_ne_nil ':' after)
  have colon : ':' ∈ before ++ ':' :: after := List.mem_append_right before List.mem_cons_self
  rw [push, if_neg filled, if_pos ⟨bodiless, colon⟩, taken, left]
  rfl

/-- Once there is a body, and without a colon, a line is body. -/
theorem push_body {draft : Draft} {line : Text} (other : draft.body = [] → ':' ∉ line) :
    draft.push line =
      .ok { draft with body := draft.body ++ line.filter fun c => !Text.isAsciiBlank c } := by
  rw [push]
  by_cases empty : line = []
  · subst empty
    rw [if_pos rfl, List.filter_nil, List.append_nil]
  · rw [if_neg empty, if_neg fun header => other header.1 header.2]

/-- A line that is taken in is a header or body. -/
theorem push_cases {draft pushed : Draft} {line : Text} (done : draft.push line = .ok pushed) :
    (∃ before after, draft.body = [] ∧ line = before ++ ':' :: after ∧ ':' ∉ before ∧
      Text.trim before ≠ [] ∧
      pushed = { draft with headers := draft.headers ++ [(Text.trim before, Text.trim after)] }) ∨
    pushed = { draft with body := draft.body ++ line.filter fun c => !Text.isAsciiBlank c } := by
  by_cases header : draft.body = [] ∧ ':' ∈ line
  · obtain ⟨bodiless, colon⟩ := header
    obtain ⟨before, after, rfl, colonless⟩ := List.eq_append_cons_of_mem colon
    rw [push_colon bodiless colonless] at done
    by_cases nameless : Text.trim before = []
    · rw [if_pos nameless] at done
      cases done
    · rw [if_neg nameless] at done
      cases done
      exact .inl ⟨before, after, bodiless, rfl, colonless, nameless, rfl⟩
  · rw [push_body fun bodiless colon => header ⟨bodiless, colon⟩] at done
    cases done
    exact .inr rfl

end Draft

/-- Inside of a block, a line that is no boundary is taken in. -/
theorem scan_inside {line : Text} (inside : Boundary.ofLine? line = none) {draft pushed : Draft}
    (push : draft.push line = .ok pushed) (rest : List Text) :
    scan (some draft) (line :: rest) = scan (some pushed) rest := by
  rw [scan, inside]
  simp only [push]
  rfl

/-! ## Reading headers back -/

namespace ProperHeader

variable {header : Text × Text}

/-- The name at its front and the colon keep a line from being trimmed, up to what follows them. -/
private theorem trim_named (proper : ProperHeader header) {after : Text}
    (last : ∀ c ∈ after.getLast?, Text.isBlank c = false) :
    Text.trim (header.1 ++ ':' :: after) = header.1 ++ ':' :: after := by
  apply Text.trim_eq_self
  · intro c first
    rw [List.head?_append_of_ne_nil _ proper.named, ← proper.name] at first
    exact Text.head_trim c first
  · intro c final
    rw [List.getLast?_append_of_ne_nil _ (List.cons_ne_nil ':' after)] at final
    cases after with
    | nil =>
      cases final
      decide
    | cons d rest =>
      rw [List.getLast?_cons_cons] at final
      exact last c final

/-- Of a header without a value, the blank after the colon is trimmed, too. -/
theorem trim_headerLine (proper : ProperHeader header) :
    ∃ after, Text.trim (headerLine header) = header.1 ++ ':' :: after ∧
      Text.trim after = header.2 := by
  by_cases valued : header.2 = []
  · refine ⟨[], ?_, valued.symm⟩
    have line : headerLine header = header.1 ++ [':'] ++ [' '] := by
      rw [headerLine, valued, List.append_assoc]
      rfl
    rw [line, Text.trim_concat_blank (by decide)]
    apply proper.trim_named
    intro c last
    cases last
  · refine ⟨' ' :: header.2, ?_, ?_⟩
    · apply proper.trim_named
      intro c last
      obtain ⟨d, rest, value⟩ := List.exists_cons_of_ne_nil valued
      rw [value, List.getLast?_cons_cons, ← value, ← proper.value] at last
      exact Text.getLast_trim c last
    · rw [Text.trim_cons_blank (by decide), proper.value]

theorem push (proper : ProperHeader header) {draft : Draft} (bodiless : draft.body = []) :
    draft.push (Text.trim (headerLine header)) =
      .ok { draft with headers := draft.headers ++ [header] } := by
  obtain ⟨after, line, value⟩ := proper.trim_headerLine
  rw [line, Draft.push_colon bodiless proper.colonless, proper.name, if_neg proper.named, value]

theorem ofLine (proper : ProperHeader header) :
    Boundary.ofLine? (Text.trim (headerLine header)) = none := by
  obtain ⟨after, line, -⟩ := proper.trim_headerLine
  rw [line]
  exact ofLine_of_colon (List.mem_append_right header.1 List.mem_cons_self)

theorem whole (proper : ProperHeader header) (calm : Calm (headerLine header)) :
    Whole (headerLine header) := by
  apply whole_of_calm calm
  intro feed
  rcases List.mem_append.mp feed with inName | after
  · exact proper.single.1 inName
  · rcases List.mem_cons.mp after with colon | after
    · cases colon
    · rcases List.mem_cons.mp after with blank | inValue
      · cases blank
      · exact proper.single.2 inValue

end ProperHeader

/-- The lines written for headers give the headers, in order. -/
theorem scan_headerLines {headers : List (Text × Text)}
    (proper : ∀ header ∈ headers, ProperHeader header) (draft : Draft) (bodiless : draft.body = [])
    (rest : List Text) :
    scan (some draft) ((headers.map headerLine).map Text.trim ++ rest) =
      scan (some { draft with headers := draft.headers ++ headers }) rest := by
  induction headers generalizing draft with
  | nil =>
    rw [List.append_nil]
    rfl
  | cons header others ih =>
    have first := proper header List.mem_cons_self
    have later := ih (fun other member => proper other (List.mem_cons_of_mem _ member))
      { draft with headers := draft.headers ++ [header] } bodiless
    rw [List.map_cons, List.map_cons, List.cons_append,
      scan_inside first.ofLine (first.push bodiless), later, List.append_assoc]
    rfl

end KeyFile.Pem
