import KeyFile.Proofs.Pem.Base64
import KeyFile.Proofs.Pem.Headers
import KeyFile.Proofs.Pieces

/-!
# A written block is found again

The first line of a written block opens a draft, its header lines give the headers, its body lines
collect the payload in base64, and its last line closes the draft. What comes after the block may
follow at once or after other text.
-/
namespace KeyFile.Pem

open Block

/-! ## Characters of a body -/

/-- A character that a body line holds as it is. -/
def BodyChar (c : Char) : Prop :=
  c.toNat < 128 ∧ Text.isBlank c = false ∧ c ≠ '-' ∧ c ≠ ':'

instance (c : Char) : Decidable (BodyChar c) :=
  inferInstanceAs (Decidable (_ ∧ _))

private theorem bodyChar_table : ∀ value : Fin 256, Base64.isWritten (UInt8.ofNat value) →
    BodyChar (Char.ofUInt8 (UInt8.ofNat value)) := by
  decide +kernel

theorem bodyChar_ofUInt8 {octet : UInt8} (written : Base64.isWritten octet) :
    BodyChar (Char.ofUInt8 octet) := by
  have entry := bodyChar_table ⟨octet.toNat, octet.toNat_lt⟩
  simp only [UInt8.ofNat_toNat] at entry
  exact entry written

/-- A line of base64. -/
def BodyLine (line : Text) : Prop :=
  line ≠ [] ∧ ∀ c ∈ line, BodyChar c

theorem flatten_bodyLines (payload : Bytes) :
    (bodyLines payload).flatten = (Base64.encode payload).map Char.ofUInt8 :=
  flatten_pieces (by decide) _

theorem bodyLine_of_mem {payload : Bytes} {line : Text} (member : line ∈ bodyLines payload) :
    BodyLine line := by
  have positive : 0 < 64 := by decide
  refine ⟨ne_nil_of_mem_pieces positive _ line member, ?_⟩
  intro c present
  obtain ⟨octet, written, rfl⟩ := List.mem_map.mp (mem_of_mem_pieces positive member c present)
  exact bodyChar_ofUInt8 (Base64.isWritten_of_mem_encode written)

namespace BodyLine

variable {line : Text}

theorem clean (body : BodyLine line) : '-' ∉ line :=
  fun dash => (body.2 _ dash).2.2.1 rfl

theorem plain (body : BodyLine line) : Plain line :=
  plain_of_clean body.clean fun c member => (body.2 c member).2.1

theorem push (body : BodyLine line) (draft : Draft) :
    draft.push line = .ok { draft with body := draft.body ++ line } := by
  have noColon : ':' ∉ line := fun colon => (body.2 _ colon).2.2.2 rfl
  have kept : line.filter (fun c => !Text.isAsciiBlank c) = line := by
    rw [List.filter_eq_self]
    intro c member
    have filled := (body.2 c member).2.1
    -- An ASCII blank would be a blank.
    cases ascii : Text.isAsciiBlank c with
    | false => rfl
    | true => rw [Text.blank_of_asciiBlank c ascii] at filled; cases filled
  rw [Draft.push_body fun _ => noColon, kept]

end BodyLine

theorem decode_bodyLines (payload : Bytes) :
    Base64.decode (Text.utf8 (bodyLines payload).flatten) = .ok payload := by
  rw [flatten_bodyLines, Text.utf8_map_ofUInt8, Base64.decode_encode]
  intro octet written
  exact (bodyChar_ofUInt8 (Base64.isWritten_of_mem_encode written)).1

/-! ## Reading a block back -/

theorem scan_bodyLines {lines : List Text} (body : ∀ line ∈ lines, BodyLine line) (draft : Draft)
    (rest : List Text) :
    scan (some draft) (lines.map Text.trim ++ rest) =
      scan (some { draft with body := draft.body ++ lines.flatten }) rest := by
  induction lines generalizing draft with
  | nil =>
    rw [List.flatten_nil, List.append_nil]
    rfl
  | cons line others ih =>
    have first := body line List.mem_cons_self
    have later := ih fun other member => body other (List.mem_cons_of_mem _ member)
    rw [List.map_cons, List.cons_append, first.plain.trimmed,
      scan_inside (ofLine_of_clean first.clean) (first.push draft), later, List.flatten_cons,
      List.append_assoc]

/-- A block that is found again. Its header lines may not be cut. -/
structure Writable (block : Block) : Prop where
  proper : block.label.Proper
  headers : ∀ header ∈ block.headers, ProperHeader header
  calm : ∀ header ∈ block.headers, Calm (headerLine header)

instance (block : Block) : Decidable (Writable block) :=
  decidable_of_iff (block.label.Proper ∧ (∀ header ∈ block.headers, ProperHeader header) ∧
      ∀ header ∈ block.headers, Calm (headerLine header))
    ⟨fun ⟨proper, headers, calm⟩ => ⟨proper, headers, calm⟩,
      fun writable => ⟨writable.proper, writable.headers, writable.calm⟩⟩

/-- The lines before the last. -/
def frontLines (block : Block) : List Text :=
  beginLine block.label :: block.headers.map headerLine ++
    (if block.headers.isEmpty then [] else [[]]) ++ bodyLines block.payload

theorem lines_eq (block : Block) : block.lines = frontLines block ++ [endLine block.label] := rfl

theorem render_append_feed (block : Block) :
    block.render ++ ['\n'] = block.lines.flatMap (· ++ ['\n']) := by
  apply Text.join_append_separator
  rw [lines]
  exact List.cons_ne_nil _ _

theorem render_eq (block : Block) :
    block.render = (frontLines block).flatMap (· ++ ['\n']) ++ endLine block.label := by
  have fed := render_append_feed block
  rw [lines_eq, List.flatMap_append, List.flatMap_singleton, ← List.append_assoc] at fed
  exact List.append_cancel_right fed

namespace Writable

variable {block : Block}

theorem whole (writable : Writable block) {line : Text} (member : line ∈ frontLines block) :
    Whole line := by
  rw [frontLines, List.cons_append, List.cons_append, List.mem_cons, List.mem_append,
    List.mem_append] at member
  rcases member with rfl | (headed | blank) | body
  · exact (plain_beginLine writable.proper).toWhole
  · obtain ⟨header, present, rfl⟩ := List.mem_map.mp headed
    exact (writable.headers header present).whole (writable.calm header present)
  · split at blank
    · cases blank
    · cases List.mem_singleton.mp blank
      exact ⟨rfl, List.not_mem_nil⟩
  · exact (bodyLine_of_mem body).plain.toWhole

/-- All lines but the last leave the whole block in the draft. -/
theorem scan_frontLines (writable : Writable block) (rest : List Text) :
    scan none ((frontLines block).map Text.trim ++ rest) =
      scan (some ⟨block.label, block.headers, (bodyLines block.payload).flatten⟩) rest := by
  -- The first line opens a draft that the other lines fill.
  have opened : Text.trim (beginLine block.label) = beginLine block.label :=
    (plain_beginLine writable.proper).trimmed
  have headed := scan_headerLines writable.headers { label := block.label } rfl
  -- The blank line after headers leaves the draft as it is.
  have blank (draft : Draft) (rest : List Text) :
      scan (some draft) ((if block.headers.isEmpty then [] else [[]]).map Text.trim ++ rest) =
        scan (some draft) rest := by
    split
    · rfl
    · exact scan_inside (ofLine_of_clean List.not_mem_nil) rfl rest
  have written : ∀ line ∈ bodyLines block.payload, BodyLine line := fun _ => bodyLine_of_mem
  rw [frontLines, List.cons_append, List.cons_append, List.map_cons, opened, List.cons_append, scan,
    ofLine_beginLine writable.proper]
  simp only [List.map_append, List.append_assoc]
  rw [headed, blank, scan_bodyLines written]
  rfl

/-- The last line closes the block. -/
theorem scan_endLine (writable : Writable block) (rest : List Text) :
    scan (some ⟨block.label, block.headers, (bodyLines block.payload).flatten⟩)
        (endLine block.label :: rest) = (block :: ·) <$> scan none rest := by
  have closed : Draft.close ⟨block.label, block.headers, (bodyLines block.payload).flatten⟩ =
      .ok block :=
    Outcome.bind_eq_ok.mpr
      ⟨block.payload, Outcome.mapError_eq_ok.mpr (decode_bodyLines block.payload), rfl⟩
  rw [scan, ofLine_endLine writable.proper]
  simp only [ne_eq, not_true_eq_false, if_false, closed]
  rfl

end Writable

/-- A block that can be written without headers. -/
structure Bare (block : Block) : Prop where
  proper : block.label.Proper
  headers : block.headers = []

instance (block : Block) : Decidable (Bare block) :=
  decidable_of_iff (block.label.Proper ∧ block.headers = [])
    ⟨fun parts => ⟨parts.1, parts.2⟩, fun bare => ⟨bare.proper, bare.headers⟩⟩

theorem Bare.writable {block : Block} (bare : Bare block) : Writable block := by
  refine ⟨bare.proper, ?_, ?_⟩
  all_goals
    rw [bare.headers]
    intro header member
    cases member

theorem lines_bare {block : Block} (bare : Bare block) :
    block.lines = beginLine block.label :: (bodyLines block.payload ++ [endLine block.label]) := by
  rw [lines, bare.headers]
  rfl

end KeyFile.Pem
