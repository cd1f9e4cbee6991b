import KeyFile.Pem.Block

/-!
# Finding blocks in text

A text is cut into lines; two boundaries that were written without a line feed between them are
separated first, and blanks at both ends of a line do not count. Boundary lines open and close
blocks. Inside a block, lines with a colon are headers as long as no body has begun, and all other
lines are body. Whatever stands outside of blocks is ignored, and the first fault from the top is
reported.
-/
namespace KeyFile.Pem

inductive Error where
  /-- A block ends that did not begin, or there is no block where one is needed. -/
  | missingBegin
  /-- A block does not end. -/
  | missingEnd (label : Label)
  | labelMismatch (opened closed : Label)
  /-- A header line without a name. -/
  | invalidHeader (line : Text)
  | base64 (cause : Base64.Error)
  deriving DecidableEq, Repr

def Error.message : Error → String
  | .missingBegin => "missing a pre encapsulation boundary"
  | .missingEnd label =>
    s!"missing a post encapsulation boundary for {String.ofList label.text}"
  | .labelMismatch opened closed =>
    s!"label doesn't match: BEGIN {String.ofList opened.text}, END {String.ofList closed.text}"
  | .invalidHeader line => s!"invalid encapsulated header: {String.ofList line}"
  | .base64 cause => s!"base64 decode: {cause.message}"

/-- A boundary line. -/
inductive Boundary where
  | opening (label : Label)
  | closing (label : Label)
  deriving DecidableEq, Repr

/-- Labels hold capitals, digits and spaces. -/
def isLabelChar (c : Char) : Bool :=
  c.isUpper || c.isDigit || c = ' '

/-- The label that stands between a word and the closing dashes. -/
def labelAfter? (word line : Text) : Option Label := do
  let rest ← (Block.dashes ++ word).isPrefixOf? line
  let label := rest.takeWhile isLabelChar
  if label ≠ [] ∧ rest.dropWhile isLabelChar = Block.dashes then some ⟨label⟩ else none

def Boundary.ofLine? (line : Text) : Option Boundary :=
  match labelAfter? Block.beginWord line with
  | some label => some (.opening label)
  | none => (labelAfter? Block.endWord line).map .closing

/-- Puts a line feed into the middle of every ten dashes, from the left. `seen` dashes of the
present ten have been passed, and are written as soon as it is known whether ten come together. -/
def separateFrom (seen : Nat) : Text → Text
  | [] => List.replicate seen '-'
  | c :: rest =>
    if c ≠ '-' then List.replicate seen '-' ++ c :: separateFrom 0 rest
    else if seen < 9 then separateFrom (seen + 1) rest
    -- The tenth dash: five close one boundary and five open the next.
    else Block.dashes ++ '\n' :: Block.dashes ++ separateFrom 0 rest

def separateBoundaries (text : Text) : Text :=
  separateFrom 0 text

/-- The lines that are judged. -/
def linesOf (text : Text) : List Text :=
  (Text.split '\n' (separateBoundaries text)).map Text.trim

/-- A block that has not ended yet. -/
structure Draft where
  label : Label
  headers : List (Text × Text) := []
  body : Text := []
  deriving DecidableEq, Repr

namespace Draft

/-- Takes in a line that is no boundary. -/
def push (draft : Draft) (line : Text) : Except Error Draft :=
  if line = [] then .ok draft
  else if draft.body = [] ∧ ':' ∈ line then
    let name := Text.trim (line.takeWhile (· ≠ ':'))
    let value := Text.trim ((line.dropWhile (· ≠ ':')).drop 1)
    if name = [] then .error (.invalidHeader line)
    else .ok { draft with headers := draft.headers ++ [(name, value)] }
  else .ok { draft with body := draft.body ++ line.filter (fun c => !Text.isAsciiBlank c) }

/-- Ends the block. -/
def close (draft : Draft) : Except Error Block := do
  let payload ← (Base64.decode (Text.utf8 draft.body)).mapError .base64
  return ⟨draft.label, draft.headers, payload⟩

end Draft

/-- The blocks in the lines, given the block that is open before them. -/
def scan : Option Draft → List Text → Except Error (List Block)
  | none, [] => .ok []
  | some draft, [] => .error (.missingEnd draft.label)
  | none, line :: rest =>
    match Boundary.ofLine? line with
    | some (.opening label) => scan (some { label }) rest
    | some (.closing _) => .error .missingBegin
    | none => scan none rest
  | some draft, line :: rest =>
    match Boundary.ofLine? line with
    | some (.opening _) => .error (.missingEnd draft.label)
    | some (.closing label) =>
      if draft.label ≠ label then .error (.labelMismatch draft.label label)
      else do
        let block ← draft.close
        (block :: ·) <$> scan none rest
    | none => do
      let draft ← draft.push line
      scan (some draft) rest

/-- All blocks of a text, in order. -/
def blocks (text : Text) : Except Error (List Block) :=
  scan none (linesOf text)

/-- The first block of a text, all of which has to be sound. -/
def firstBlock (text : Text) : Except Error Block := do
  match ← blocks text with
  | [] => throw .missingBegin
  | block :: _ => return block

end KeyFile.Pem
