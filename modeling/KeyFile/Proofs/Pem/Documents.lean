import KeyFile.Proofs.Pem.Blocks

/-!
# Documents

A document is any number of written blocks with text between them. The text is nothing, so that the
last line of one block and the first line of the next stand glued on one line, or it is set off by
line feeds; as long as it holds no boundary, the blocks are found again in order.
-/
namespace KeyFile.Pem

open Block

/-! ## Text between blocks -/

/-- Text that may stand after a block. -/
inductive Between : Text → Prop where
  | glued : Between []
  | feed : Between ['\n']
  | remark {text : Text} (ignored : ∀ line ∈ linesOf text, Boundary.ofLine? line = none) :
    Between ('\n' :: text ++ ['\n'])

theorem scan_ignored {lines : List Text} (ignored : ∀ line ∈ lines, Boundary.ofLine? line = none)
    (rest : List Text) : scan none (lines ++ rest) = scan none rest := by
  induction lines with
  | nil => rfl
  | cons line others ih =>
    have first := ignored line List.mem_cons_self
    have later := ih fun other member => ignored other (List.mem_cons_of_mem _ member)
    rw [List.cons_append, scan, first]
    exact later

/-- What can stand after a last line on the same line. -/
inductive Glued : Text → Prop where
  | nothing : Glued []
  | block (rest : Text) : Glued (dashes ++ beginWord ++ rest)

theorem glued_render (block : Block) (rest : Text) : Glued (block.render ++ rest) := by
  rw [render_eq, frontLines, List.cons_append, List.cons_append, List.flatMap_cons, beginLine]
  simp only [List.append_assoc]
  rw [← List.append_assoc dashes]
  exact .block _

/-- Two glued boundaries make ten dashes, which are cut in the middle. -/
private theorem linesOf_glued {label : Label} (proper : label.Proper) (rest : Text) :
    linesOf (endLine label ++ (dashes ++ beginWord ++ rest)) =
      endLine label :: linesOf (dashes ++ beginWord ++ rest) := by
  have ended : endWord ++ label.text ≠ [] := List.append_ne_nil_of_left_ne_nil (by decide) _
  have clean : '-' ∉ endWord ++ label.text := by
    rw [List.mem_append, not_or]
    exact ⟨by decide, proper.notMem (by decide)⟩
  have begun : separateFrom 0 (dashes ++ beginWord ++ rest) =
      dashes ++ separateFrom 0 (beginWord ++ rest) := by
    rw [separateFrom_framed (by decide) (by decide), separateFrom_clean (by decide),
      List.append_assoc]
  -- The last five dashes of one boundary and the first five of the next.
  have ten : endLine label ++ (dashes ++ beginWord ++ rest) =
      dashes ++ (endWord ++ label.text) ++ (tenDashes ++ (beginWord ++ rest)) := by
    simp only [endLine, tenDashes, dashes, List.append_assoc, List.replicate_succ,
      List.replicate_zero, List.cons_append, List.nil_append]
  have cut : separateBoundaries (endLine label ++ (dashes ++ beginWord ++ rest)) =
      endLine label ++ '\n' :: separateBoundaries (dashes ++ beginWord ++ rest) := by
    rw [separateBoundaries, separateBoundaries, ten, separateFrom_framed ended clean,
      separateFrom_tenDashes, ← begun, endLine]
    simp only [List.append_assoc]
  have plain := plain_endLine proper
  rw [linesOf, cut, Text.split_append, List.map_append, Text.split_of_notMem plain.single,
    List.map_singleton, plain.trimmed, ← linesOf]
  rfl

/-- However the next block is set off, its lines are judged as if they stood alone. -/
theorem linesOf_endLine {label : Label} (proper : label.Proper) {text next : Text}
    (between : Between text) (follows : Glued next) :
    ∃ lines, linesOf (endLine label ++ (text ++ next)) = endLine label :: lines ∧
      scan none lines = scan none (linesOf next) := by
  have plain := plain_endLine proper
  have last : linesOf (endLine label) = [endLine label] := by rw [plain.linesOf, plain.trimmed]
  cases between with
  | glued =>
    cases follows with
    -- Nothing comes after the line, so there is not even an empty line.
    | nothing => exact ⟨[], by rw [List.append_nil, List.append_nil, last], rfl⟩
    | block rest => exact ⟨_, linesOf_glued proper rest, rfl⟩
  | feed =>
    exact ⟨_, by rw [List.singleton_append, linesOf_append, last, List.singleton_append], rfl⟩
  | @remark text ignored =>
    refine ⟨linesOf text ++ linesOf next, ?_, scan_ignored ignored _⟩
    rw [List.cons_append, List.cons_append, linesOf_append, last, List.append_assoc,
      List.singleton_append, List.singleton_append, linesOf_append]

/-! ## Blocks in a document -/

/-- Each block with the text that stands after it. -/
def document (parts : List (Block × Text)) : Text :=
  parts.flatMap fun part => part.1.render ++ part.2

theorem glued_document (parts : List (Block × Text)) : Glued (document parts) := by
  cases parts with
  | nil => exact .nothing
  | cons part others =>
    rw [document, List.flatMap_cons, List.append_assoc]
    exact glued_render part.1 _

/-- Reading takes one block from the front. -/
theorem scan_render {block : Block} (writable : Writable block) {text next : Text}
    (between : Between text) (follows : Glued next) :
    scan none (linesOf (block.render ++ (text ++ next))) =
      (block :: ·) <$> scan none (linesOf next) := by
  obtain ⟨lines, ended, same⟩ := linesOf_endLine writable.proper between follows
  have whole : ∀ line ∈ frontLines block, Whole line := fun _ => writable.whole
  rw [render_eq, List.append_assoc, linesOf_flatMap whole, writable.scan_frontLines, ended,
    writable.scan_endLine, same]

theorem scan_document {parts : List (Block × Text)}
    (written : ∀ part ∈ parts, Writable part.1 ∧ Between part.2) :
    scan none (linesOf (document parts)) = .ok (parts.map (·.1)) := by
  induction parts with
  | nil => rfl
  | cons part others ih =>
    obtain ⟨writable, between⟩ := written part List.mem_cons_self
    have later := ih fun other member => written other (List.mem_cons_of_mem _ member)
    -- What stands after the first block and its text is a document again.
    have next := glued_document others
    rw [document] at next later ⊢
    rw [List.flatMap_cons, List.append_assoc, scan_render writable between next, later]
    rfl

/-- The blocks of a document are found again, whatever stands between them. -/
theorem blocks_document {parts : List (Block × Text)}
    (written : ∀ part ∈ parts, Writable part.1 ∧ Between part.2) :
    blocks (document parts) = .ok (parts.map (·.1)) :=
  scan_document written

/-- An empty block, a block with headers glued to it, and one after a remark. -/
def sampleParts : List (Block × Text) :=
  [(⟨⟨"A 1".toList⟩, [], []⟩, []),
    (⟨.privateKey, [("Proc-Type".toList, "4,ENCRYPTED".toList), ("--Note".toList, [])],
        [1, 2, 3, 4]⟩,
      '\n' :: "BEGIN: ----------END A-----x".toList ++ ['\n']),
    (⟨⟨"B".toList⟩, [], [255]⟩, ['\n'])]

theorem sampleParts_found :
    (∀ part ∈ sampleParts, Writable part.1 ∧ Between part.2) ∧
      blocks (document sampleParts) = .ok (sampleParts.map (·.1)) := by
  have written : ∀ part ∈ sampleParts, Writable part.1 ∧ Between part.2 := by
    simp only [sampleParts, List.forall_mem_cons]
    refine ⟨⟨by decide, .glued⟩, ⟨by decide, .remark (by decide)⟩, ⟨by decide, .feed⟩, ?_⟩
    intro part member
    cases member
  exact ⟨written, blocks_document written⟩

/-- Blocks without headers are found again in their written form. -/
theorem blocks_render {written : List Block} (bare : ∀ block ∈ written, Bare block) :
    blocks (written.flatMap fun block => block.render ++ ['\n']) = .ok written := by
  have parts : (written.flatMap fun block => block.render ++ ['\n']) =
      document (written.map fun block => (block, ['\n'])) := by
    rw [document, List.flatMap_map]
  have each : ∀ part ∈ written.map fun block => (block, ['\n']),
      Writable part.1 ∧ Between part.2 := by
    intro part member
    obtain ⟨block, present, rfl⟩ := List.mem_map.mp member
    exact ⟨(bare block present).writable, .feed⟩
  rw [blocks, parts, scan_document each, List.map_map]
  exact congrArg _ (List.map_id written)

end KeyFile.Pem
