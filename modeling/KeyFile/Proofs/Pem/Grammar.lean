import KeyFile.Proofs.Pem.Base64
import KeyFile.Proofs.Pem.Headers

/-!
# The grammar of armored text

Lines spell blocks if boundaries open and close blocks in turn, each closed under the label that it
was opened under, if each header has a name and if the bodies are base64. Any other lines are broken
at a first place, and the kind of that place is the error. No lines are both, so the blocks and the
error that are found are exactly those of the grammar.
-/
namespace KeyFile.Pem

open Block

/-! ## Lines of a block -/

/-- A line that neither begins nor ends a block. -/
def Ordinary (line : Text) : Prop :=
  ∀ label : Label, label.Proper → line ≠ beginLine label ∧ line ≠ endLine label

/-- Whether a line has a colon or nothing but blanks, and so begins no body. -/
def beginsNoBody (line : Text) : Bool :=
  ':' ∈ line || line.all Text.isAsciiBlank

/-- The lines before the body. -/
def headLines (inner : List Text) : List Text :=
  inner.takeWhile beginsNoBody

/-- What stands before the first colon of a line and after it, without blanks at the ends. -/
def headerOf (line : Text) : Text × Text :=
  (Text.trim (line.takeWhile (· ≠ ':')), Text.trim ((line.dropWhile (· ≠ ':')).drop 1))

def headersOf (heads : List Text) : List (Text × Text) :=
  (heads.filter (':' ∈ ·)).map headerOf

/-- The lines without their blanks, in one piece. -/
def joined (lines : List Text) : Text :=
  lines.flatten.filter fun c => !Text.isAsciiBlank c

def bodyOf (inner : List Text) : Text :=
  joined (inner.dropWhile beginsNoBody)

/-- Every header has a name. -/
def Named (heads : List Text) : Prop :=
  ∀ line ∈ heads, ':' ∈ line → (headerOf line).1 ≠ []

/-- The lines of an open block, none of which is at fault. -/
structure Contents (inner : List Text) : Prop where
  ordinary : ∀ line ∈ inner, Ordinary line
  named : Named (headLines inner)

/-! ## Spelled and broken lines -/

/-- The lines spell the blocks, with remarks around them. -/
inductive Spelled : List Text → List Block → Prop where
  | nothing : Spelled [] []
  | remark {line : Text} {rest : List Text} {found : List Block} (ordinary : Ordinary line)
      (later : Spelled rest found) : Spelled (line :: rest) found
  | block {label : Label} {inner rest : List Text} {payload : Bytes} {found : List Block}
      (proper : label.Proper) (contents : Contents inner)
      (written : Text.utf8 (bodyOf inner) = Base64.encode payload) (later : Spelled rest found) :
      Spelled (beginLine label :: inner ++ endLine label :: rest)
        (⟨label, headersOf (headLines inner), payload⟩ :: found)

/-- The lines are at fault before any block of theirs is whole. -/
inductive Broken : List Text → Error → Prop where
  /-- A block ends that did not begin. -/
  | stray {label : Label} {rest : List Text} (proper : label.Proper) :
      Broken (endLine label :: rest) .missingBegin
  /-- A block begins within another one. -/
  | nested {label other : Label} {inner rest : List Text} (proper : label.Proper)
      (contents : Contents inner) (again : other.Proper) :
      Broken (beginLine label :: inner ++ beginLine other :: rest) (.missingEnd label)
  | unended {label : Label} {inner : List Text} (proper : label.Proper)
      (contents : Contents inner) : Broken (beginLine label :: inner) (.missingEnd label)
  | mismatched {label other : Label} {inner rest : List Text} (proper : label.Proper)
      (contents : Contents inner) (ended : other.Proper) (different : label ≠ other) :
      Broken (beginLine label :: inner ++ endLine other :: rest) (.labelMismatch label other)
  /-- A line before the body has a colon but no name before it. -/
  | nameless {label : Label} {heads rest : List Text} {line : Text} (proper : label.Proper)
      (contents : Contents heads) (bodiless : ∀ head ∈ heads, beginsNoBody head)
      (colon : ':' ∈ line) (unnamed : (headerOf line).1 = []) :
      Broken (beginLine label :: heads ++ line :: rest) (.invalidHeader line)
  /-- The body is not what is written for any payload. -/
  | unwritten {label : Label} {inner rest : List Text} {cause : Base64.Error}
      (proper : label.Proper) (contents : Contents inner)
      (unwritten : ∀ payload, Text.utf8 (bodyOf inner) ≠ Base64.encode payload)
      (given : Base64.decode (Text.utf8 (bodyOf inner)) = .error cause) :
      Broken (beginLine label :: inner ++ endLine label :: rest) (.base64 cause)

/-! ## Scanning a block -/

theorem ofLine_eq_none_iff {line : Text} : Boundary.ofLine? line = none ↔ Ordinary line := by
  constructor
  · intro inside label proper
    refine ⟨?_, ?_⟩
    · rintro rfl
      rw [ofLine_beginLine proper] at inside
      cases inside
    · rintro rfl
      rw [ofLine_endLine proper] at inside
      cases inside
  · intro ordinary
    exact ofLine_eq_none (fun label proper => (ordinary label proper).1)
      fun label proper => (ordinary label proper).2

instance (line : Text) : Decidable (Ordinary line) :=
  decidable_of_iff _ ofLine_eq_none_iff

instance (inner : List Text) : Decidable (Contents inner) :=
  decidable_of_iff ((∀ line ∈ inner, Ordinary line) ∧
      ∀ line ∈ headLines inner, ':' ∈ line → (headerOf line).1 ≠ [])
    ⟨fun ⟨ordinary, named⟩ => ⟨ordinary, named⟩,
      fun contents => ⟨contents.ordinary, contents.named⟩⟩

namespace Draft

theorem push_header {draft : Draft} (bodiless : draft.body = []) {line : Text}
    (colon : ':' ∈ line) :
    draft.push line = if (headerOf line).1 = [] then .error (.invalidHeader line)
      else .ok { draft with headers := draft.headers ++ [headerOf line] } := by
  have filled : line ≠ [] := List.ne_nil_of_mem colon
  rw [push, if_neg filled, if_pos ⟨bodiless, colon⟩]
  rfl

theorem push_blank (draft : Draft) {line : Text} (colonless : ':' ∉ line)
    (blank : beginsNoBody line) : draft.push line = .ok draft := by
  have blanks : line.all Text.isAsciiBlank := by
    simpa only [beginsNoBody, colonless, decide_false, Bool.false_or] using blank
  have nothing : (line.filter fun c => !Text.isAsciiBlank c) = [] := by
    rw [List.filter_eq_nil_iff]
    intro c member
    rw [List.all_eq_true.mp blanks c member]
    exact Bool.false_ne_true
  rw [push_body fun _ => colonless, nothing, List.append_nil]

end Draft

theorem headersOf_cons {head : Text} (colon : ':' ∈ head) (others : List Text) :
    headersOf (head :: others) = headerOf head :: headersOf others := by
  simp only [headersOf, List.filter_cons, colon, decide_true, if_true, List.map_cons]

theorem headersOf_cons_blank {head : Text} (colonless : ':' ∉ head) (others : List Text) :
    headersOf (head :: others) = headersOf others := by
  simp only [headersOf, List.filter_cons, colonless, decide_false, Bool.false_eq_true, if_false]

theorem joined_cons (line : Text) (others : List Text) :
    joined (line :: others) = joined [line] ++ joined others := by
  simp only [joined, List.flatten_cons, List.flatten_nil, List.append_nil, List.filter_append]

theorem joined_ne_nil {line : Text} (begins : beginsNoBody line = false) : joined [line] ≠ [] := by
  intro empty
  simp only [joined, List.flatten_cons, List.flatten_nil, List.append_nil,
    List.filter_eq_nil_iff] at empty
  have blanks : line.all Text.isAsciiBlank :=
    List.all_eq_true.mpr fun c member => by simpa using empty c member
  rw [beginsNoBody, blanks, Bool.or_true] at begins
  cases begins

/-- The lines before the body are taken in as headers. -/
theorem scan_heads {heads : List Text} (bodiless : ∀ head ∈ heads, beginsNoBody head)
    (ordinary : ∀ head ∈ heads, Ordinary head) (named : Named heads) (draft : Draft)
    (started : draft.body = []) (rest : List Text) :
    scan (some draft) (heads ++ rest) =
      scan (some { draft with headers := draft.headers ++ headersOf heads }) rest := by
  induction heads generalizing draft with
  | nil =>
    rw [headersOf, List.filter_nil, List.map_nil, List.append_nil]
    rfl
  | cons head others ih =>
    have inside := ofLine_eq_none_iff.mpr (ordinary head List.mem_cons_self)
    have later := ih (fun other member => bodiless other (.tail _ member))
      (fun other member => ordinary other (.tail _ member))
      (fun other member => named other (.tail _ member))
    rw [List.cons_append]
    -- A line with a colon is kept as a header, and one without has nothing of a body.
    by_cases colon : ':' ∈ head
    · have push := Draft.push_header started colon
      rw [if_neg (named head List.mem_cons_self colon)] at push
      have taken := later { draft with headers := draft.headers ++ [headerOf head] } started
      rw [scan_inside inside push, taken, headersOf_cons colon, List.append_assoc]
      rfl
    · have push := draft.push_blank colon (bodiless head List.mem_cons_self)
      rw [scan_inside inside push, later draft started, headersOf_cons_blank colon]

/-- Once a line begins a body, all lines are body. -/
theorem scan_body {lines : List Text} (ordinary : ∀ line ∈ lines, Ordinary line) (draft : Draft)
    (begins : draft.body = [] → ∀ line ∈ lines.head?, beginsNoBody line = false)
    (rest : List Text) :
    scan (some draft) (lines ++ rest) =
      scan (some { draft with body := draft.body ++ joined lines }) rest := by
  induction lines generalizing draft with
  | nil =>
    rw [joined, List.flatten_nil, List.filter_nil, List.append_nil]
    rfl
  | cons line others ih =>
    have inside := ofLine_eq_none_iff.mpr (ordinary line List.mem_cons_self)
    have push : draft.push line = .ok { draft with body := draft.body ++ joined [line] } := by
      rw [joined, List.flatten_cons, List.flatten_nil, List.append_nil]
      apply Draft.push_body
      intro bodiless colon
      have begun := begins bodiless line rfl
      rw [beginsNoBody, decide_eq_true colon, Bool.true_or] at begun
      cases begun
    -- From the first line on there is a body, whatever the other lines are.
    have started : draft.body ++ joined [line] ≠ [] := by
      intro empty
      obtain ⟨bodiless, blank⟩ := List.append_eq_nil_iff.mp empty
      exact joined_ne_nil (begins bodiless line rfl) blank
    have later := ih (fun other member => ordinary other (.tail _ member))
      { draft with body := draft.body ++ joined [line] } fun bodiless => absurd bodiless started
    rw [List.cons_append, scan_inside inside push, later, joined_cons line others,
      List.append_assoc]

/-- The draft that the lines of a block come to. -/
def draftOf (label : Label) (inner : List Text) : Draft :=
  ⟨label, headersOf (headLines inner), bodyOf inner⟩

theorem scan_contents {label : Label} {inner : List Text} (contents : Contents inner)
    (rest : List Text) :
    scan (some { label }) (inner ++ rest) = scan (some (draftOf label inner)) rest := by
  have whole : headLines inner ++ inner.dropWhile beginsNoBody = inner :=
    List.takeWhile_append_dropWhile
  have part {lines : List Text} (sublist : lines.Sublist inner) : ∀ line ∈ lines, Ordinary line :=
    fun line member => contents.ordinary line (sublist.subset member)
  have bodiless : ∀ head ∈ headLines inner, beginsNoBody head :=
    List.all_eq_true.mp List.all_takeWhile
  -- The first line that is left begins the body, by the way it was found.
  have begins : ∀ line ∈ (inner.dropWhile beginsNoBody).head?, beginsNoBody line = false := by
    intro line first
    have kept := List.head?_dropWhile_not beginsNoBody inner
    rw [Option.mem_def.mp first] at kept
    exact kept
  have heads := scan_heads bodiless (part (List.takeWhile_sublist _)) contents.named { label } rfl
    (inner.dropWhile beginsNoBody ++ rest)
  have body := scan_body (part (List.dropWhile_sublist _))
    { label, headers := headersOf (headLines inner) } (fun _ => begins) rest
  rw [← List.append_assoc, whole] at heads
  rw [heads]
  exact body

theorem scan_opened {label : Label} (proper : label.Proper) {inner : List Text}
    (contents : Contents inner) (rest : List Text) :
    scan none (beginLine label :: inner ++ rest) = scan (some (draftOf label inner)) rest := by
  rw [List.cons_append, scan, ofLine_beginLine proper]
  exact scan_contents contents rest

theorem scan_closed {label : Label} (proper : label.Proper) {inner : List Text}
    (contents : Contents inner) (rest : List Text) :
    scan none (beginLine label :: inner ++ endLine label :: rest) =
      (Base64.decode (Text.utf8 (bodyOf inner))).mapError .base64 >>= fun payload =>
        (⟨label, headersOf (headLines inner), payload⟩ :: ·) <$> scan none rest := by
  have same : ¬ (draftOf label inner).label ≠ label := not_not_intro rfl
  rw [scan_opened proper contents, scan, ofLine_endLine proper]
  exact (if_neg same).trans (bind_assoc ..)

/-! ## The grammar decides -/

theorem Spelled.scan {lines : List Text} {found : List Block} (spelled : Spelled lines found)
    (rest : List Text) : Pem.scan none (lines ++ rest) = (found ++ ·) <$> Pem.scan none rest := by
  induction spelled with
  | nothing =>
    rw [List.nil_append]
    cases Pem.scan none rest <;> rfl
  | remark ordinary _ ih =>
    rw [List.cons_append, Pem.scan, ofLine_eq_none_iff.mpr ordinary]
    exact ih
  | @block label inner others payload found proper contents written _ ih =>
    have parts : beginLine label :: inner ++ endLine label :: others ++ rest =
        beginLine label :: inner ++ endLine label :: (others ++ rest) := List.append_assoc ..
    have read : (Base64.decode (Text.utf8 (bodyOf inner))).mapError Error.base64 = .ok payload :=
      Outcome.mapError_eq_ok.mpr (Base64.decode_eq_ok_iff.mpr written)
    rw [parts, scan_closed proper contents, Outcome.bind_of_ok read, ih]
    cases Pem.scan none rest <;> rfl

theorem Broken.scan {lines : List Text} {error : Error} (broken : Broken lines error) :
    Pem.scan none lines = .error error := by
  cases broken with
  | stray proper => rw [Pem.scan, ofLine_endLine proper]
  | nested proper contents again =>
    rw [scan_opened proper contents, Pem.scan, ofLine_beginLine again]
    rfl
  | unended proper contents =>
    have opened := scan_opened proper contents []
    rw [List.append_nil] at opened
    rw [opened]
    rfl
  | mismatched proper contents ended different =>
    rw [scan_opened proper contents, Pem.scan, ofLine_endLine ended]
    simp only [draftOf, ne_eq, different, not_false_eq_true, if_true]
  | @nameless label heads rest line proper contents bodiless colon unnamed =>
    -- None of these lines begins a body, so the colon still makes a header of the next one.
    have started : (draftOf label heads).body = [] := by
      have all : heads.dropWhile beginsNoBody = [] := by
        rw [← List.append_nil heads, List.dropWhile_append_of_pos bodiless]
        rfl
      rw [draftOf, bodyOf, all]
      rfl
    have push := Draft.push_header started colon
    rw [if_pos unnamed] at push
    rw [scan_opened proper contents, Pem.scan, ofLine_of_colon colon, push]
    rfl
  | unwritten proper contents _ given =>
    rw [scan_closed proper contents, given]
    rfl

/-- After whole blocks and remarks, the lines are broken. -/
def Faulty (lines : List Text) (error : Error) : Prop :=
  ∃ front found rest, lines = front ++ rest ∧ Spelled front found ∧ Broken rest error

theorem scan_of_spelled {lines : List Text} {found : List Block} (spelled : Spelled lines found) :
    scan none lines = .ok found := by
  have whole := spelled.scan []
  rw [List.append_nil] at whole
  rw [whole]
  exact congrArg Except.ok (List.append_nil found)

theorem scan_of_faulty {lines : List Text} {error : Error} (faulty : Faulty lines error) :
    scan none lines = .error error := by
  obtain ⟨front, found, rest, rfl, spelled, broken⟩ := faulty
  rw [spelled.scan, broken.scan]
  rfl

/-! ## The grammar is complete -/

/-- The lines of a block are sound, or there is a first header without a name. -/
theorem contents_or_nameless {inner : List Text} (ordinary : ∀ line ∈ inner, Ordinary line) :
    Contents inner ∨ ∃ heads line rest, inner = heads ++ line :: rest ∧ Contents heads ∧
      (∀ head ∈ heads, beginsNoBody head) ∧ ':' ∈ line ∧ (headerOf line).1 = [] := by
  induction inner with
  | nil => exact .inl ⟨ordinary, List.forall_mem_nil _⟩
  | cons line rest ih =>
    have first := ordinary line List.mem_cons_self
    have others : ∀ other ∈ rest, Ordinary other := fun other member =>
      ordinary other (List.mem_cons_of_mem line member)
    cases begins : beginsNoBody line with
    | false =>
      have headless : headLines (line :: rest) = [] := by
        rw [headLines, List.takeWhile_cons_of_neg (by rw [begins]; exact Bool.false_ne_true)]
      exact .inl ⟨ordinary, headless ▸ List.forall_mem_nil _⟩
    | true =>
      by_cases nameless : ':' ∈ line ∧ (headerOf line).1 = []
      · have empty : Contents [] := ⟨List.forall_mem_nil _, List.forall_mem_nil _⟩
        exact .inr ⟨[], line, rest, rfl, empty, List.forall_mem_nil _, nameless.1, nameless.2⟩
      -- The first line is sound, and stands before the body whatever comes after it.
      · have sound {lines : List Text} (contents : Contents lines) : Contents (line :: lines) := by
          refine ⟨List.forall_mem_cons.mpr ⟨first, contents.ordinary⟩, ?_⟩
          rw [headLines, List.takeWhile_cons_of_pos begins]
          exact List.forall_mem_cons.mpr
            ⟨fun colon unnamed => nameless ⟨colon, unnamed⟩, contents.named⟩
        rcases ih others with contents | ⟨heads, later, more, rfl, contents, bodiless, fault⟩
        · exact .inl (sound contents)
        · exact .inr ⟨line :: heads, later, more, rfl, sound contents,
            List.forall_mem_cons.mpr ⟨begins, bodiless⟩, fault⟩

/-- Ordinary lines come up to a boundary or to the end. -/
theorem exists_boundary (lines : List Text) :
    (∀ line ∈ lines, Ordinary line) ∨ ∃ inner line rest boundary,
      lines = inner ++ line :: rest ∧ (∀ other ∈ inner, Ordinary other) ∧
        Boundary.ofLine? line = some boundary := by
  induction lines with
  | nil => exact .inl (List.forall_mem_nil _)
  | cons line rest ih =>
    cases found : Boundary.ofLine? line with
    | some boundary =>
      exact .inr ⟨[], line, rest, boundary, rfl, List.forall_mem_nil _, found⟩
    | none =>
      have first := ofLine_eq_none_iff.mp found
      rcases ih with all | ⟨inner, other, more, boundary, rfl, ordinary, last⟩
      · exact .inl (List.forall_mem_cons.mpr ⟨first, all⟩)
      · exact .inr ⟨line :: inner, other, more, boundary, rfl,
          List.forall_mem_cons.mpr ⟨first, ordinary⟩, last⟩

/-- A block that is opened is whole with what is left after it, or broken. -/
theorem block_or_broken {label : Label} (proper : label.Proper) (lines : List Text) :
    (∃ inner rest payload, lines = inner ++ endLine label :: rest ∧ Contents inner ∧
      Text.utf8 (bodyOf inner) = Base64.encode payload) ∨
    ∃ error, Broken (beginLine label :: lines) error := by
  -- Up to the next boundary, a header without a name is the only fault.
  rcases exists_boundary lines with ordinary | ⟨inner, line, rest, boundary, rfl, ordinary, last⟩
  · rcases contents_or_nameless ordinary with
      contents | ⟨heads, line, rest, rfl, contents, bodiless, colon, unnamed⟩
    · exact .inr ⟨_, .unended proper contents⟩
    · exact .inr ⟨_, .nameless proper contents bodiless colon unnamed⟩
  · rcases contents_or_nameless ordinary with
      contents | ⟨heads, fault, more, rfl, contents, bodiless, colon, unnamed⟩
    · cases boundary with
      | opening other =>
        obtain ⟨again, rfl⟩ := ofLine_eq_opening_iff.mp last
        exact .inr ⟨_, .nested proper contents again⟩
      | closing other =>
        obtain ⟨ended, rfl⟩ := ofLine_eq_closing_iff.mp last
        by_cases different : label ≠ other
        · exact .inr ⟨_, .mismatched proper contents ended different⟩
        · cases Decidable.not_not.mp different
          cases given : Base64.decode (Text.utf8 (bodyOf inner)) with
          | ok payload =>
            exact .inl ⟨inner, rest, payload, rfl, contents, Base64.decode_eq_ok_iff.mp given⟩
          | error cause =>
            refine .inr ⟨_, .unwritten proper contents ?_ given⟩
            intro payload written
            rw [Base64.decode_eq_ok_iff.mpr written] at given
            cases given
    · rw [List.append_assoc, List.cons_append]
      exact .inr ⟨_, .nameless proper contents bodiless colon unnamed⟩

/-- All lines spell blocks or are at fault. -/
theorem spelled_or_faulty (lines : List Text) :
    (∃ found, Spelled lines found) ∨ ∃ error, Faulty lines error := by
  match lines with
  | [] => exact .inl ⟨[], .nothing⟩
  | line :: rest =>
    cases boundary : Boundary.ofLine? line with
    | none =>
      have ordinary := ofLine_eq_none_iff.mp boundary
      rcases spelled_or_faulty rest with
        ⟨found, spelled⟩ | ⟨error, front, found, last, rfl, spelled, broken⟩
      · exact .inl ⟨found, .remark ordinary spelled⟩
      · exact .inr ⟨error, line :: front, found, last, rfl, .remark ordinary spelled, broken⟩
    | some kind =>
      cases kind with
      | closing label =>
        obtain ⟨proper, rfl⟩ := ofLine_eq_closing_iff.mp boundary
        exact .inr ⟨_, [], [], _, rfl, .nothing, .stray proper⟩
      | opening label =>
        obtain ⟨proper, rfl⟩ := ofLine_eq_opening_iff.mp boundary
        rcases block_or_broken proper rest with
          ⟨inner, others, payload, rfl, contents, written⟩ | ⟨error, broken⟩
        -- The recursion goes on after the block, whose own lines have been used up.
        · have shorter : others.length <
              (beginLine label :: (inner ++ endLine label :: others)).length := by
            simp only [List.length_cons, List.length_append]
            omega
          rcases spelled_or_faulty others with
            ⟨found, spelled⟩ | ⟨error, front, found, last, rfl, spelled, broken⟩
          · exact .inl ⟨_, .block proper contents written spelled⟩
          · refine .inr ⟨error, _, _, last, ?_, .block proper contents written spelled, broken⟩
            simp only [List.cons_append, List.append_assoc]
        · exact .inr ⟨error, [], [], _, rfl, .nothing, broken⟩
termination_by lines.length

theorem scan_eq_ok_iff {lines : List Text} {found : List Block} :
    scan none lines = .ok found ↔ Spelled lines found := by
  constructor
  · intro done
    rcases spelled_or_faulty lines with ⟨other, spelled⟩ | ⟨error, faulty⟩
    · rw [scan_of_spelled spelled, Except.ok.injEq] at done
      rwa [← done]
    · rw [scan_of_faulty faulty] at done
      cases done
  · exact scan_of_spelled

theorem scan_eq_error_iff {lines : List Text} {error : Error} :
    scan none lines = .error error ↔ Faulty lines error := by
  constructor
  · intro fault
    rcases spelled_or_faulty lines with ⟨found, spelled⟩ | ⟨other, faulty⟩
    · rw [scan_of_spelled spelled] at fault
      cases fault
    · rw [scan_of_faulty faulty, Except.error.injEq] at fault
      rwa [← fault]
  · exact scan_of_faulty

/-- After whole blocks and a line feed, a text is read as if it stood alone. -/
theorem blocks_feed {left : Text} {found : List Block} (done : blocks left = .ok found)
    (right : Text) : blocks (left ++ '\n' :: right) = (found ++ ·) <$> blocks right := by
  rw [blocks, linesOf_append, (scan_eq_ok_iff.mp done).scan, ← blocks]

end KeyFile.Pem
