import KeyFile.Proofs.Pem.Grammar

/-!
# Texts that are joined

A line feed between two texts keeps them apart: no run of dashes and no line goes across it, and
after whole blocks nothing is open. So the blocks of the first come before those of the second, and
what is at fault in the first is at fault in both. Only a block that has no end in the first text
may still get one from the second.
-/
namespace KeyFile.Pem

/-- The fault of a block stays one unless it is that the block does not end. -/
theorem Broken.append {lines : List Text} {error : Error} (broken : Broken lines error)
    (ended : ∀ label, error ≠ .missingEnd label) (more : List Text) :
    Broken (lines ++ more) error := by
  cases broken with
  | stray proper => exact .stray proper
  | nested | unended => exact absurd rfl (ended _)
  | mismatched proper contents closed different =>
    rw [List.append_assoc]
    exact .mismatched proper contents closed different
  | nameless proper contents bodiless colon unnamed =>
    rw [List.append_assoc]
    exact .nameless proper contents bodiless colon unnamed
  | unwritten proper contents unwritten given =>
    rw [List.append_assoc]
    exact .unwritten proper contents unwritten given

theorem Faulty.append {lines : List Text} {error : Error} (faulty : Faulty lines error)
    (ended : ∀ label, error ≠ .missingEnd label) (more : List Text) :
    Faulty (lines ++ more) error := by
  obtain ⟨front, found, rest, rfl, spelled, broken⟩ := faulty
  exact ⟨front, found, rest ++ more, List.append_assoc .., spelled, broken.append ended more⟩

/-- No text mends what is at fault before it. -/
theorem blocks_feed_of_error {left : Text} {error : Error} (failed : blocks left = .error error)
    (ended : ∀ label, error ≠ .missingEnd label) (right : Text) :
    blocks (left ++ '\n' :: right) = .error error := by
  rw [blocks, linesOf_append]
  exact scan_of_faulty ((scan_eq_error_iff.mp failed).append ended (linesOf right))

/-- If each of many texts has its blocks, then joined they have all of these in order. -/
theorem blocks_join {texts : List Text} {found : List (List Block)}
    (done : texts.mapM blocks = .ok found) :
    blocks (Text.join '\n' texts) = .ok found.flatten := by
  induction texts generalizing found with
  | nil =>
    cases done
    rfl
  | cons text others ih =>
    obtain ⟨first, here, later, there, rfl⟩ := Outcome.mapM_cons_eq_ok.mp done
    cases others with
    | nil =>
      cases there
      rw [Text.join, here, List.flatten_cons]
      exact congrArg Except.ok (List.append_nil first).symm
    | cons next more =>
      rw [Text.join, blocks_feed here, ih there]
      rfl

/-- Joined by a line feed, two texts have the blocks of both in order, or the error of the second
if the first has none. An error of the first is that of both, unless a block in it does not end. So
any number of texts that have their blocks have all of these when they are joined. -/
theorem joining_exact :
    (∀ left right,
      (∀ found, blocks left = .ok found →
        (∀ others, blocks right = .ok others →
          blocks (left ++ '\n' :: right) = .ok (found ++ others)) ∧
        ∀ error, blocks right = .error error → blocks (left ++ '\n' :: right) = .error error) ∧
      ∀ error, blocks left = .error error → (∀ label, error ≠ .missingEnd label) →
        blocks (left ++ '\n' :: right) = .error error) ∧
    ∀ texts found, texts.mapM blocks = .ok found →
      blocks (Text.join '\n' texts) = .ok found.flatten := by
  refine ⟨fun left right => ⟨fun found done => ?_, fun error failed ended => ?_⟩,
    fun texts found done => blocks_join done⟩
  · have both := blocks_feed done right
    refine ⟨fun others later => ?_, fun error later => ?_⟩
    · rw [both, later]
      rfl
    · rw [both, later]
      rfl
  · exact blocks_feed_of_error failed ended right

/-- A block whose lines end in a carriage return and a line feed. -/
def framedText : Text :=
  "-----BEGIN A-----\r\nAQID\r\n-----END A-----".toList

/-- A block that ends under another label. -/
def mismatchedText : Text :=
  "-----BEGIN A-----\nAQID\n-----END B-----".toList

def framed : Block :=
  ⟨⟨['A']⟩, [], [1, 2, 3]⟩

theorem framedText_found : (blocks framedText).toOption = some [framed] := by
  decide +kernel

/-- The dashes on both sides of the joint are no run of ten, and a wrong label is reported from
either side. -/
theorem framedText_joined :
    (blocks framedText = .ok [framed] ∧
      blocks mismatchedText = .error (.labelMismatch ⟨['A']⟩ ⟨['B']⟩)) ∧
    blocks (framedText ++ '\n' :: framedText) = .ok [framed, framed] ∧
    blocks (framedText ++ '\n' :: mismatchedText) =
      .error (.labelMismatch ⟨['A']⟩ ⟨['B']⟩) ∧
    blocks (mismatchedText ++ '\n' :: framedText) =
      .error (.labelMismatch ⟨['A']⟩ ⟨['B']⟩) ∧
    blocks (Text.join '\n' [framedText, framedText, framedText]) =
      .ok [framed, framed, framed] := by
  have whole := Outcome.toOption_eq_some.mp framedText_found
  have broken : blocks mismatchedText = .error (.labelMismatch ⟨['A']⟩ ⟨['B']⟩) := by rfl
  have each : [framedText, framedText, framedText].mapM blocks =
      .ok [[framed], [framed], [framed]] := by
    rw [Outcome.mapM_eq_ok_iff]
    simp only [List.map_cons, List.map_nil, whole]
  obtain ⟨pairs, many⟩ := joining_exact
  exact ⟨⟨whole, broken⟩, ((pairs framedText framedText).1 _ whole).1 _ whole,
    ((pairs framedText mismatchedText).1 _ whole).2 _ broken,
    (pairs mismatchedText framedText).2 _ broken nofun, many _ _ each⟩

end KeyFile.Pem
