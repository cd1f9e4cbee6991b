import KeyFile.Proofs.Pem.Lines

/-!
# Ten dashes in a row

Ten dashes are taken for the end of one boundary and the beginning of the next, wherever they stand.
A calm line has no ten dashes in a row, so it is not cut. The lines of a text are not all calm: the
cut leaves five dashes at the beginning of a line, and when more follow, there are ten in a row
again. That is the only place in a line where this can happen.
-/
namespace KeyFile.Pem

open Block

/-- The dashes at which lines are cut. -/
def tenDashes : Text := List.replicate 10 '-'

/-- No ten dashes stand in a row. -/
def Calm (line : Text) : Prop :=
  ¬ tenDashes <:+: line

instance (line : Text) : Decidable (Calm line) :=
  inferInstanceAs (Decidable (¬ _))

theorem Calm.part {part line : Text} (calm : Calm line) (inside : part <:+: line) : Calm part :=
  fun ten => calm (ten.trans inside)

theorem calm_replicate {count : Nat} (few : count ≤ 9) : Calm (List.replicate count '-') := by
  intro ten
  have length := ten.length_le
  rw [tenDashes, List.length_replicate, List.length_replicate] at length
  omega

/-- Any other character parts the dashes. -/
theorem calm_append_iff {c : Char} (other : c ≠ '-') {left right : Text} :
    Calm (left ++ c :: right) ↔ Calm left ∧ Calm right := by
  constructor
  · intro calm
    constructor
    · exact calm.part (List.prefix_append left _).isInfix
    · exact calm.part ((List.suffix_cons c right).trans (List.suffix_append left _)).isInfix
  · rintro ⟨calmLeft, calmRight⟩ ten
    rcases List.infix_append_iff.mp ten with inLeft | inRight | ⟨first, second, whole, ends, begins⟩
    · exact calmLeft inLeft
    · rcases List.infix_cons_iff.mp inRight with front | later
      · rw [tenDashes, List.replicate_succ, List.cons_prefix_cons] at front
        exact other front.1.symm
      · exact calmRight later
    · -- Dashes that go on to the right would have `c` among them.
      rcases List.prefix_cons_iff.mp begins with rfl | ⟨rest, rfl, -⟩
      · rw [List.append_nil] at whole
        exact calmLeft (whole ▸ ends.isInfix)
      · have member : c ∈ tenDashes := by
          rw [whole]
          exact List.mem_append_right first List.mem_cons_self
        exact other (List.eq_of_mem_replicate member)

/-- Without ten dashes in a row nothing is put in. -/
theorem separateFrom_calm {seen : Nat} (few : seen ≤ 9) {line : Text}
    (calm : Calm (List.replicate seen '-' ++ line)) :
    separateFrom seen line = List.replicate seen '-' ++ line := by
  induction line generalizing seen with
  | nil => rw [separateFrom, List.append_nil]
  | cons c rest ih =>
    rw [separateFrom]
    by_cases dash : c = '-'
    · subst dash
      rw [if_neg (not_not_intro rfl)]
      have longer : List.replicate seen '-' ++ '-' :: rest =
          List.replicate (seen + 1) '-' ++ rest := by
        rw [List.replicate_succ', List.append_assoc]
        rfl
      rw [longer] at calm ⊢
      split
      · exact ih (by omega) calm
      next full =>
        -- The tenth dash would complete ten.
        have nine : seen = 9 := by omega
        subst nine
        exact absurd (List.prefix_append tenDashes rest).isInfix calm
    · have later := ((calm_append_iff dash).mp calm).2
      have kept : separateFrom 0 rest = rest := ih (by decide) later
      rw [if_pos dash, kept]

theorem whole_of_calm {line : Text} (calm : Calm line) (single : '\n' ∉ line) : Whole line where
  calm := separateFrom_calm (Nat.zero_le 9) calm
  single := single

/-- Ten dashes at the front are cut in the middle. -/
theorem separateFrom_tenDashes (rest : Text) :
    separateFrom 0 (tenDashes ++ rest) = dashes ++ '\n' :: (dashes ++ separateFrom 0 rest) := by
  have nine : tenDashes ++ rest = List.replicate 9 '-' ++ '-' :: rest := rfl
  rw [nine, separateFrom_replicate (by decide), separateFrom, if_neg (not_not_intro rfl),
    if_neg (by decide), List.append_assoc]
  rfl

theorem linesOf_tenDashes (rest : Text) :
    ∃ others, linesOf (tenDashes ++ rest) = dashes :: others := by
  have single : '\n' ∉ dashes := by decide
  rw [linesOf, separateBoundaries, separateFrom_tenDashes, Text.split_append,
    Text.split_of_notMem single]
  exact ⟨_, rfl⟩

/-! ## The lines of a text -/

/-- Wherever ten dashes stand in a row, nothing but dashes stands before them. -/
def Settled (line : Text) : Prop :=
  ∀ before after, line = before ++ tenDashes ++ after → ∀ c ∈ before, c = '-'

theorem Calm.settled {line : Text} (calm : Calm line) : Settled line := by
  intro before after same
  exact absurd ⟨before, after, same.symm⟩ calm

theorem Settled.part {part line : Text} (settled : Settled line) (inside : part <:+: line) :
    Settled part := by
  obtain ⟨front, back, rfl⟩ := inside
  rintro before after rfl c member
  apply settled (front ++ before) (after ++ back)
  · simp only [List.append_assoc]
  · exact List.mem_append_right front member

/-- After any other character there are no ten dashes. -/
theorem Settled.calm_after {c : Char} (other : c ≠ '-') {before after : Text}
    (settled : Settled (before ++ c :: after)) : Calm after := by
  rintro ⟨left, right, rfl⟩
  apply other
  apply settled (before ++ c :: left) right
  · simp only [List.append_assoc, List.cons_append]
  · exact List.mem_append_right before List.mem_cons_self

/-- Then ten dashes in a row can only be at the very beginning. -/
theorem Settled.calm_iff {line : Text} (settled : Settled line) :
    Calm line ↔ ¬ tenDashes <+: line := by
  constructor
  · intro calm begins
    exact calm begins.isInfix
  · rintro begins ⟨before, after, rfl⟩
    have dashed := List.eq_replicate_of_mem (settled before after rfl)
    apply begins
    refine ⟨before ++ after, ?_⟩
    rw [dashed, tenDashes, ← List.append_assoc, List.replicate_append_replicate,
      List.replicate_append_replicate, Nat.add_comm]

theorem settled_dashes_append {line : Text} (calm : Calm line) : Settled (dashes ++ line) := by
  intro before after same c member
  rw [List.append_assoc] at same
  rcases List.append_eq_append_iff.mp same with ⟨more, rfl, rest⟩ | ⟨more, whole, -⟩
  · -- Then all ten stand after the five.
    exact absurd ⟨more, after, by rw [rest, List.append_assoc]⟩ calm
  · have inside : c ∈ dashes := whole ▸ List.mem_append_left more member
    exact List.eq_of_mem_replicate inside

/-- The first part goes on with the present line, and is calm up to where something else comes; each
later part begins a line, with five dashes or without. -/
private theorem settled_of_split {seen : Nat} (few : seen ≤ 9) (text : Text) :
    ∃ first others, Text.split '\n' (separateFrom seen text) = first :: others ∧ Calm first ∧
      ∀ part ∈ others, Settled part := by
  have single (count : Nat) : '\n' ∉ List.replicate count '-' :=
    fun feed => absurd (List.eq_of_mem_replicate feed) (by decide)
  induction text generalizing seen with
  | nil =>
    refine ⟨_, _, Text.split_of_notMem (single seen), calm_replicate few, ?_⟩
    intro part member
    cases member
  | cons c rest ih =>
    rw [separateFrom]
    obtain ⟨first, others, parts, calm, settled⟩ := ih (Nat.zero_le 9)
    by_cases dash : c = '-'
    · rw [if_neg (not_not_intro dash)]
      split
      · exact ih (by omega)
      · -- Five dashes end this part and five begin the next.
        have next := Text.split_append_left (single 5) parts
        refine ⟨dashes, (dashes ++ first) :: others, ?_, calm_replicate (by decide), ?_⟩
        · rw [dashes, List.append_assoc, List.cons_append, Text.split_append,
            Text.split_of_notMem (single 5), next]
          rfl
        · exact List.forall_mem_cons.mpr ⟨settled_dashes_append calm, settled⟩
    · rw [if_pos dash]
      by_cases feed : c = '\n'
      -- The dashes that were held back are a part of their own.
      · subst feed
        refine ⟨List.replicate seen '-', first :: others, ?_, calm_replicate few, ?_⟩
        · rw [Text.split_append, Text.split_of_notMem (single seen), parts]
          rfl
        · exact List.forall_mem_cons.mpr ⟨calm.settled, settled⟩
      -- Any other character goes on with the present part, after the dashes that were held back.
      · have next : Text.split '\n' ([c] ++ separateFrom 0 rest) = (c :: first) :: others :=
          Text.split_append_left (by simpa using Ne.symm feed) parts
        refine ⟨List.replicate seen '-' ++ c :: first, others,
          Text.split_append_left (single seen) next, ?_, settled⟩
        exact (calm_append_iff dash).mpr ⟨calm_replicate few, calm⟩

/-- What holds of every line that is judged. -/
structure Judged (line : Text) : Prop where
  single : '\n' ∉ line
  trimmed : Text.trim line = line
  settled : Settled line

theorem judged_of_mem_linesOf {text line : Text} (member : line ∈ linesOf text) : Judged line := by
  obtain ⟨part, cut, rfl⟩ := List.mem_map.mp member
  have inside := Text.trim_isInfix part
  obtain ⟨first, others, parts, calm, settled⟩ := settled_of_split (Nat.zero_le 9) text
  refine ⟨?_, Text.trim_trim part, ?_⟩
  · intro feed
    exact Text.notMem_of_mem_split cut (inside.subset feed)
  · rw [separateBoundaries, parts] at cut
    rcases List.mem_cons.mp cut with rfl | later
    · exact (calm.part inside).settled
    · exact (settled part later).part inside

end KeyFile.Pem
