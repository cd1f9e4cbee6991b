import KeyFile.Proofs.Pem.Blocks

/-!
# What is found in a text

Every block that is found has a label that boundary lines can hold and headers that came from lines
of the text, and its payload is no longer than the text.
-/
namespace KeyFile.Pem

open Block

/-! ## Steps -/

/-- What one line does to the open draft, and the blocks that it completes. -/
inductive Step (line : Text) : Option Draft → Option Draft → List Block → Prop where
  | ignored (inside : Boundary.ofLine? line = none) : Step line none none []
  | opened {label : Label} (boundary : Boundary.ofLine? line = some (.opening label)) :
    Step line none (some { label }) []
  | taken {draft pushed : Draft} (inside : Boundary.ofLine? line = none)
    (push : draft.push line = .ok pushed) : Step line (some draft) (some pushed) []
  | closed {draft : Draft} {block : Block}
    (boundary : Boundary.ofLine? line = some (.closing draft.label))
    (close : draft.close = .ok block) : Step line (some draft) none [block]

/-- At the end of the lines no draft may be open. -/
theorem scan_nil_eq_ok {state : Option Draft} {found : List Block} :
    scan state [] = .ok found ↔ state = none ∧ found = [] := by
  cases state with
  | none =>
    rw [scan, Except.ok.injEq]
    constructor
    · rintro rfl
      exact ⟨rfl, rfl⟩
    · rintro ⟨-, rfl⟩
      rfl
  | some draft =>
    constructor
    · intro done
      cases done
    · rintro ⟨closed, -⟩
      cases closed

/-- Scanning goes on after a line exactly if there is a step for it. -/
theorem scan_cons_eq_ok {state : Option Draft} {line : Text} {rest : List Text}
    {found : List Block} :
    scan state (line :: rest) = .ok found ↔
      ∃ next given later, Step line state next given ∧ scan next rest = .ok later ∧
        given ++ later = found := by
  constructor
  · intro done
    -- Each branch that goes on is a step; the other branches are errors.
    cases state with
    | none =>
      rw [scan] at done
      split at done
      next boundary => exact ⟨_, [], found, .opened boundary, done, rfl⟩
      next => cases done
      next inside => exact ⟨_, [], found, .ignored inside, done, rfl⟩
    | some draft =>
      rw [scan] at done
      split at done
      next => cases done
      next label boundary =>
        by_cases other : draft.label ≠ label
        · rw [if_pos other] at done
          cases done
        · rw [if_neg other] at done
          obtain ⟨block, close, done⟩ := Outcome.bind_eq_ok.mp done
          obtain ⟨later, scanned, rfl⟩ := Outcome.map_eq_ok.mp done
          rw [← not_ne_iff.mp other] at boundary
          exact ⟨none, [block], later, .closed boundary close, scanned, rfl⟩
      next inside =>
        obtain ⟨pushed, push, done⟩ := Outcome.bind_eq_ok.mp done
        exact ⟨some pushed, [], found, .taken inside push, done, rfl⟩
  · rintro ⟨next, given, later, step, scanned, rfl⟩
    cases step with
    | ignored inside =>
      rw [scan, inside]
      exact scanned
    | opened boundary =>
      rw [scan, boundary]
      exact scanned
    | taken inside push => rwa [scan_inside inside push]
    | closed boundary close =>
      rw [scan, boundary]
      simp only [ne_eq, not_true_eq_false, if_false]
      exact Outcome.bind_eq_ok.mpr ⟨_, close, Outcome.map_eq_ok.mpr ⟨later, scanned, rfl⟩⟩

/-- What holds of the open draft after each step, and of a block when its draft is closed, holds of
all blocks that are found. -/
theorem forall_of_scan (opened : Draft → Prop) (whole : Block → Prop) {lines : List Text}
    (steps : ∀ line ∈ lines, ∀ state next given, Step line state next given →
      (∀ draft ∈ state, opened draft) →
        (∀ draft ∈ next, opened draft) ∧ ∀ block ∈ given, whole block)
    {state : Option Draft} (before : ∀ draft ∈ state, opened draft) {found : List Block}
    (done : scan state lines = .ok found) : ∀ block ∈ found, whole block := by
  -- The open draft carries the invariant; a block is judged in the step that closes it.
  induction lines generalizing state found with
  | nil =>
    obtain ⟨rfl, rfl⟩ := scan_nil_eq_ok.mp done
    intro block member
    cases member
  | cons line rest ih =>
    obtain ⟨next, given, later, step, scanned, rfl⟩ := scan_cons_eq_ok.mp done
    obtain ⟨after, completed⟩ := steps line List.mem_cons_self state next given step before
    have others :=
      ih (fun other member => steps other (List.mem_cons_of_mem _ member)) after scanned
    intro block member
    rcases List.mem_append.mp member with now | afterwards
    · exact completed block now
    · exact others block afterwards

/-! ## Sizes -/

/-- The body that has been collected so far. -/
def collected : Option Draft → Text
  | none => []
  | some draft => draft.body

/-- A step keeps no more than it had and what the line adds, and completes no more than it had. -/
theorem Step.sizes {line : Text} {state next : Option Draft} {given : List Block}
    (step : Step line state next given) :
    (collected next).Sublist (collected state ++ line) ∧
      ∀ block ∈ given, block.payload.length ≤ (Text.utf8 (collected state)).length := by
  cases step with
  | ignored =>
    refine ⟨List.nil_sublist _, ?_⟩
    intro block member
    cases member
  | opened =>
    refine ⟨List.nil_sublist _, ?_⟩
    intro block member
    cases member
  | taken _ push =>
    constructor
    -- A line is kept as a header, and adds nothing, or as body text without some of its characters.
    · rcases Draft.push_cases push with ⟨before, after, -, -, -, -, rfl⟩ | rfl
      · exact List.sublist_append_left _ _
      · exact (List.Sublist.refl _).append List.filter_sublist
    · intro block member
      cases member
  | closed _ close =>
    refine ⟨List.nil_sublist _, ?_⟩
    intro block member
    cases List.mem_singleton.mp member
    obtain ⟨payload, read, done⟩ := Outcome.bind_eq_ok.mp close
    cases Outcome.pure_eq_ok.mp done
    exact Base64.length_of_decode (Outcome.mapError_eq_ok.mp read)

/-- What scanning gives is no longer than what has been collected and what is left. -/
theorem length_payload_of_scan {state : Option Draft} {lines : List Text} {found : List Block}
    (done : scan state lines = .ok found) :
    ∀ block ∈ found,
      block.payload.length ≤ (Text.utf8 (collected state ++ lines.flatten)).length := by
  induction lines generalizing state found with
  | nil =>
    obtain ⟨rfl, rfl⟩ := scan_nil_eq_ok.mp done
    intro block member
    cases member
  | cons line rest ih =>
    obtain ⟨next, given, later, step, scanned, rfl⟩ := scan_cons_eq_ok.mp done
    obtain ⟨kept, completed⟩ := step.sizes
    intro block member
    rcases List.mem_append.mp member with now | afterwards
    · refine Nat.le_trans (completed block now) (Text.length_utf8_le ?_)
      exact List.sublist_append_left _ _
    -- Whatever the step keeps of the line, what it leaves is no longer than before.
    · refine Nat.le_trans (ih scanned block afterwards) (Text.length_utf8_le ?_)
      rw [List.flatten_cons, ← List.append_assoc]
      exact kept.append (List.Sublist.refl _)

/-- No payload is longer than the text that it was found in. -/
theorem length_payload_le {text : Text} {found : List Block} (done : blocks text = .ok found) :
    ∀ block ∈ found, block.payload.length ≤ (Text.utf8 text).length := by
  intro block member
  have size := length_payload_of_scan done block member
  exact Nat.le_trans size (Text.length_utf8_le (flatten_linesOf_sublist text))

/-! ## Headers -/

/-- A header that came from a line of a text. Such a line can have ten dashes in a row, but only at
its beginning. -/
structure Collected (header : Text × Text) : Prop extends ProperHeader header where
  calm : Calm (headerLine header) ↔ ¬ tenDashes <+: header.1

theorem Judged.collected {before after : Text} (judged : Judged (before ++ ':' :: after))
    (colonless : ':' ∉ before) (named : Text.trim before ≠ []) :
    Collected (Text.trim before, Text.trim after) := by
  have front : Text.trim before <:+: before := Text.trim_isInfix before
  have back : Text.trim after <:+: after := Text.trim_isInfix after
  have inside : after <:+: before ++ ':' :: after :=
    ((List.suffix_cons ':' after).trans (List.suffix_append before _)).isInfix
  have settledName : Settled (Text.trim before) :=
    judged.settled.part (front.trans (List.prefix_append before _).isInfix)
  -- The colon stands before the value, so there are no ten dashes in it.
  have calmValue : Calm (Text.trim after) := (judged.settled.calm_after (by decide)).part back
  refine ⟨⟨named, fun colon => colonless (front.subset colon), Text.trim_trim before,
    Text.trim_trim after, ?_, ?_⟩, ?_⟩
  · intro feed
    exact judged.single (List.mem_append_left _ (front.subset feed))
  · intro feed
    exact judged.single (inside.subset (back.subset feed))
  · rw [headerLine, calm_append_iff (by decide), settledName.calm_iff]
    constructor
    · intro calm
      exact calm.1
    · intro begins
      have blank : Calm ([] ++ ' ' :: Text.trim after) :=
        (calm_append_iff (by decide)).mpr ⟨by decide, calmValue⟩
      exact ⟨begins, blank⟩

/-- The label and the headers of a draft or a block. -/
structure Gathered (label : Label) (headers : List (Text × Text)) : Prop where
  proper : label.Proper
  collected : ∀ header ∈ headers, Collected header

theorem Gathered.push {draft pushed : Draft} (gathered : Gathered draft.label draft.headers)
    {line : Text} (judged : Judged line) (done : draft.push line = .ok pushed) :
    Gathered pushed.label pushed.headers := by
  rcases Draft.push_cases done with ⟨before, after, -, rfl, colonless, named, rfl⟩ | rfl
  · refine ⟨gathered.proper, ?_⟩
    intro header member
    rcases List.mem_append.mp member with earlier | last
    · exact gathered.collected header earlier
    · cases List.mem_singleton.mp last
      exact judged.collected colonless named
  · exact gathered

/-- A step with a line of a text keeps what has been gathered, and closing a draft hands it on. -/
theorem Step.gathered {line : Text} (judged : Judged line) {state next : Option Draft}
    {given : List Block} (step : Step line state next given)
    (before : ∀ draft ∈ state, Gathered draft.label draft.headers) :
    (∀ draft ∈ next, Gathered draft.label draft.headers) ∧
      ∀ block ∈ given, Gathered block.label block.headers := by
  have unopened : ∀ draft ∈ (none : Option Draft), Gathered draft.label draft.headers := by
    intro draft member
    cases member
  have incomplete : ∀ block ∈ ([] : List Block), Gathered block.label block.headers := by
    intro block member
    cases member
  cases step with
  | ignored inside => exact ⟨unopened, incomplete⟩
  | opened boundary =>
    refine ⟨?_, incomplete⟩
    intro draft member
    cases member
    -- A boundary line holds a proper label, and there are no headers yet.
    refine ⟨(ofLine_eq_opening_iff.mp boundary).1, ?_⟩
    intro header member
    cases member
  | taken inside push =>
    refine ⟨?_, incomplete⟩
    intro draft member
    cases member
    exact (before _ rfl).push judged push
  | closed boundary close =>
    refine ⟨unopened, ?_⟩
    intro block member
    cases List.mem_singleton.mp member
    obtain ⟨payload, -, done⟩ := Outcome.bind_eq_ok.mp close
    cases Outcome.pure_eq_ok.mp done
    exact before _ rfl

/-- Every block that is found in a text has a proper label, and its headers came from lines. -/
theorem gathered_of_blocks {text : Text} {found : List Block} (done : blocks text = .ok found) :
    ∀ block ∈ found, Gathered block.label block.headers := by
  refine forall_of_scan (fun draft => Gathered draft.label draft.headers) _ ?_ ?_ done
  · intro line member state next given step
    exact step.gathered (judged_of_mem_linesOf member)
  · intro draft member
    cases member

end KeyFile.Pem
