import KeyFile.Proofs.Pem.Documents
import KeyFile.Proofs.Pem.Found

/-!
# Writing a found block again

A block that was found in a text is found again in its written form, unless the name of one of its
headers begins with ten dashes. Such a name comes from a line that the cut at ten dashes has left
with more of them; in the written form the same dashes are cut again, and five of them become the
beginning of the body, where no dash may stand.
-/
namespace KeyFile.Pem

open Block

/-! ## Bodies that begin with a dash -/

/-- Such a draft is never closed. -/
def Spoiled (draft : Draft) : Prop :=
  ∃ rest, draft.body = '-' :: rest

theorem Spoiled.push {draft pushed : Draft} (spoiled : Spoiled draft) {line : Text}
    (done : draft.push line = .ok pushed) : Spoiled pushed := by
  obtain ⟨rest, body⟩ := spoiled
  rcases Draft.push_cases done with ⟨before, after, bodiless, -⟩ | rfl
  · rw [body] at bodiless
    cases bodiless
  · exact ⟨_, by rw [body, List.cons_append]⟩

theorem Spoiled.close_ne_ok {draft : Draft} (spoiled : Spoiled draft) (block : Block) :
    draft.close ≠ .ok block := by
  intro close
  obtain ⟨rest, body⟩ := spoiled
  obtain ⟨payload, read, -⟩ := Outcome.bind_eq_ok.mp close
  have dash : Text.utf8 ('-' :: rest) = 45 :: Text.utf8 rest := rfl
  rw [body, dash] at read
  have written := Base64.isWritten_of_decode (Outcome.mapError_eq_ok.mp read)
  revert written
  decide

theorem Spoiled.scan_ne_ok {draft : Draft} (spoiled : Spoiled draft) (lines : List Text)
    (found : List Block) : scan (some draft) lines ≠ .ok found := by
  induction lines generalizing draft found with
  | nil =>
    intro done
    cases done
  | cons line rest ih =>
    intro done
    -- A step either adds to the body or tries to close the draft.
    obtain ⟨next, given, later, step, scanned, -⟩ := scan_cons_eq_ok.mp done
    cases step with
    | taken inside push => exact ih (spoiled.push push) later scanned
    | closed boundary close => exact spoiled.close_ne_ok _ close

/-! ## Headers that begin with ten dashes -/

/-- The first such header of a written block spoils the draft. -/
theorem scan_tenDashes {headers : List (Text × Text)}
    (collected : ∀ header ∈ headers, Collected header)
    (ten : ∃ header ∈ headers, tenDashes <+: header.1) {draft : Draft} (bodiless : draft.body = [])
    (rest : Text) (found : List Block) :
    scan (some draft) (linesOf ((headers.map headerLine).flatMap (· ++ ['\n']) ++ rest)) ≠
      .ok found := by
  induction headers generalizing draft with
  | nil =>
    obtain ⟨header, member, -⟩ := ten
    cases member
  | cons header others ih =>
    have first := collected header List.mem_cons_self
    rw [List.map_cons, List.flatMap_cons, List.append_assoc, List.append_assoc,
      List.singleton_append]
    by_cases begins : tenDashes <+: header.1
    -- The cut leaves five dashes on a line of their own, which becomes body.
    · obtain ⟨more, name⟩ := begins
      rw [headerLine, ← name, List.append_assoc, List.append_assoc]
      obtain ⟨lines, cut⟩ := linesOf_tenDashes (more ++ (':' :: ' ' :: header.2 ++ '\n' ::
        ((others.map headerLine).flatMap (· ++ ['\n']) ++ rest)))
      have inside : Boundary.ofLine? dashes = none := by decide
      have push : draft.push dashes = .ok { draft with body := dashes } := by
        rw [Draft.push_body fun _ => by decide, bodiless]
        rfl
      rw [cut, scan_inside inside push]
      exact Spoiled.scan_ne_ok ⟨List.replicate 4 '-', rfl⟩ lines found
    -- Any other header is read back, and the one in question is still to come.
    · have calm := first.calm.mpr begins
      have later : ∃ header ∈ others, tenDashes <+: header.1 := by
        obtain ⟨other, member, dashed⟩ := ten
        rcases List.mem_cons.mp member with rfl | member
        · exact absurd dashed begins
        · exact ⟨other, member, dashed⟩
      rw [linesOf_append, (first.whole calm).linesOf, List.singleton_append,
        scan_inside first.ofLine (first.push bodiless)]
      exact ih (fun other member => collected other (List.mem_cons_of_mem _ member)) later bodiless

/-! ## Blocks that were found -/

theorem Gathered.writable {block : Block} (gathered : Gathered block.label block.headers)
    (calm : ∀ header ∈ block.headers, ¬ tenDashes <+: header.1) : Writable block where
  proper := gathered.proper
  headers header member := (gathered.collected header member).toProperHeader
  calm header member := (gathered.collected header member).calm.mpr (calm header member)

theorem firstBlock_render {block : Block} (writable : Writable block) :
    firstBlock block.render = .ok block := by
  have scanned := scan_render writable .glued .nothing
  rw [List.append_nil, List.append_nil] at scanned
  rw [firstBlock, blocks, scanned]
  rfl

theorem firstBlock_render_tenDashes {block : Block}
    (gathered : Gathered block.label block.headers)
    (ten : ∃ header ∈ block.headers, tenDashes <+: header.1) :
    ∃ error, firstBlock block.render = .error error := by
  have plain := plain_beginLine gathered.proper
  have refused (found : List Block) : blocks block.render ≠ .ok found := by
    rw [blocks, render_eq, frontLines, List.cons_append, List.cons_append, List.flatMap_cons,
      List.append_assoc, List.append_assoc, List.singleton_append, linesOf_append, plain.linesOf,
      plain.trimmed, List.singleton_append, scan, ofLine_beginLine gathered.proper,
      List.append_assoc, List.flatMap_append, List.append_assoc]
    exact scan_tenDashes gathered.collected ten rfl _ found
  cases outcome : blocks block.render with
  | error e => exact ⟨e, by rw [firstBlock, outcome]; rfl⟩
  | ok found => exact absurd outcome (refused found)

/-- A found block is found again in its written form exactly if none of its header names begins with
ten dashes; otherwise the written form is refused. -/
theorem rearmored_iff {text : Text} {found : List Block} (done : blocks text = .ok found) :
    ∀ block ∈ found,
      (firstBlock block.render = .ok block ↔ ∀ header ∈ block.headers, ¬ tenDashes <+: header.1) ∧
        ((∃ header ∈ block.headers, tenDashes <+: header.1) →
          ∃ error, firstBlock block.render = .error error) := by
  intro block member
  have gathered := gathered_of_blocks done block member
  refine ⟨⟨?_, fun calm => firstBlock_render (gathered.writable calm)⟩,
    firstBlock_render_tenDashes gathered⟩
  intro again header present ten
  obtain ⟨error, refused⟩ := firstBlock_render_tenDashes gathered ⟨header, present, ten⟩
  rw [again] at refused
  cases refused

/-- Two blocks with a header, the first with nine dashes, the second with fifteen in a row. -/
def dashedText : Text :=
  Text.join '\n' (["-----BEGIN A-----", "---------X: y", "AQID", "-----END A-----",
    "-----BEGIN B---------------X: y", "AQID", "-----END B-----"].map String.toList)

def nineDashes : Block :=
  ⟨⟨['A']⟩, [("---------X".toList, ['y'])], [1, 2, 3]⟩

/-- The line of its header was cut off after the first ten of fifteen dashes. -/
def spilled : Block :=
  ⟨⟨['B']⟩, [("----------X".toList, ['y'])], [1, 2, 3]⟩

theorem dashedText_found : (blocks dashedText).toOption = some [nineDashes, spilled] := by
  decide +kernel

theorem dashedText_rearmored :
    blocks dashedText = .ok [nineDashes, spilled] ∧
      firstBlock nineDashes.render = .ok nineDashes ∧
        ∃ error, firstBlock spilled.render = .error error := by
  have found := Outcome.toOption_eq_some.mp dashedText_found
  refine ⟨found, (rearmored_iff found nineDashes (by decide)).1.mpr (by decide), ?_⟩
  exact (rearmored_iff found spilled (by decide)).2 (by decide)

/-- The block is found, but its written form is refused for a dash at the start of its body. -/
theorem spilled_not_rearmored :
    blocks dashedText = .ok [nineDashes, spilled] ∧
      firstBlock spilled.render = .error (.base64 (.invalidSymbol 45 0)) := by
  refine ⟨Outcome.toOption_eq_some.mp dashedText_found, ?_⟩
  rfl

end KeyFile.Pem
