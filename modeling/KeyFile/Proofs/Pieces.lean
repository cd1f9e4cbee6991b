import KeyFile.Bytes

/-!
# Pieces of a list

Pieces of a positive size are the whole list when they are put together again, and none is empty.
Pieces of one length are what a list of them is cut into.
-/
namespace KeyFile

variable {α : Type} {size : Nat}

private theorem flatten_cut (positive : 0 < size) (count : Nat) (items : List α)
    (enough : items.length ≤ count) : (pieces.cut size count items).flatten = items := by
  induction count generalizing items with
  | zero =>
    have empty : items = [] := List.length_eq_zero_iff.mp (by omega)
    simp [empty, pieces.cut]
  | succ count ih =>
    rw [pieces.cut]
    split
    next empty => simpa using List.isEmpty_iff.mp empty
    next filled =>
      have fewer : (items.drop size).length ≤ count := by
        rw [List.length_drop]
        omega
      rw [List.flatten_cons, ih _ fewer, List.take_append_drop]

theorem flatten_pieces (positive : 0 < size) (items : List α) :
    (pieces size items).flatten = items :=
  flatten_cut positive items.length items (Nat.le_refl _)

private theorem ne_nil_of_mem_cut (positive : 0 < size) (count : Nat) (items : List α) :
    ∀ piece ∈ pieces.cut size count items, piece ≠ [] := by
  induction count generalizing items with
  | zero => simp [pieces.cut]
  | succ count ih =>
    rw [pieces.cut]
    split
    next empty => simp
    next filled =>
      intro piece member
      rcases List.mem_cons.mp member with rfl | later
      · intro taken
        rcases List.take_eq_nil_iff.mp taken with zero | empty
        · omega
        · exact filled (List.isEmpty_iff.mpr empty)
      · exact ih _ piece later

theorem ne_nil_of_mem_pieces (positive : 0 < size) (items : List α) :
    ∀ piece ∈ pieces size items, piece ≠ [] :=
  ne_nil_of_mem_cut positive items.length items

/-- What holds of all items holds of the items of each piece. -/
theorem mem_of_mem_pieces (positive : 0 < size) {items piece : List α}
    (member : piece ∈ pieces size items) : ∀ item ∈ piece, item ∈ items := by
  intro item inside
  rw [← flatten_pieces positive items]
  exact List.mem_flatten.mpr ⟨piece, member, inside⟩

private theorem cut_flatten (positive : 0 < size) (count : Nat) {blocks : List (List α)}
    (whole : ∀ block ∈ blocks, block.length = size) (enough : blocks.length ≤ count) :
    pieces.cut size count blocks.flatten = blocks := by
  induction blocks generalizing count with
  | nil =>
    cases count with
    | zero => rfl
    | succ count => rfl
  | cons block rest ih =>
    obtain ⟨count, rfl⟩ : ∃ fewer, count = fewer + 1 :=
      ⟨count - 1, by rw [List.length_cons] at enough; omega⟩
    have length : block.length = size := whole block List.mem_cons_self
    have later := ih count (fun other member => whole other (List.mem_cons_of_mem _ member))
      (Nat.le_of_succ_le_succ enough)
    have filled : (block ++ rest.flatten).isEmpty = false := by
      rw [List.isEmpty_eq_false_iff]
      exact List.append_ne_nil_of_left_ne_nil (List.ne_nil_of_length_pos (by omega)) _
    rw [List.flatten_cons, pieces.cut, filled, if_neg Bool.false_ne_true,
      List.take_left' length, List.drop_left' length, later]

theorem length_flatten_blocks {blocks : List (List α)}
    (whole : ∀ block ∈ blocks, block.length = size) :
    blocks.flatten.length = blocks.length * size := by
  rw [List.length_flatten, List.map_congr_left whole, List.map_const', List.sum_replicate_nat]

/-- Blocks of one length are found again when they are put together. -/
theorem pieces_flatten (positive : 0 < size) {blocks : List (List α)}
    (whole : ∀ block ∈ blocks, block.length = size) : pieces size blocks.flatten = blocks := by
  apply cut_flatten positive _ whole
  rw [length_flatten_blocks whole]
  exact Nat.le_mul_of_pos_right _ positive

private theorem length_of_mem_cut (count : Nat) (items : List α)
    (whole : size ∣ items.length) : ∀ piece ∈ pieces.cut size count items, piece.length = size := by
  induction count generalizing items with
  | zero => simp [pieces.cut]
  | succ count ih =>
    rw [pieces.cut]
    split
    next empty => simp
    next filled =>
      -- A positive multiple of the size is no less than the size.
      have positive : 0 < items.length :=
        List.length_pos_iff.mpr fun empty => filled (by simp [empty])
      have enough : size ≤ items.length := Nat.le_of_dvd positive whole
      intro piece member
      rcases List.mem_cons.mp member with rfl | later
      · rw [List.length_take, Nat.min_eq_left enough]
      · apply ih _ _ piece later
        rw [List.length_drop]
        exact Nat.dvd_sub whole (Nat.dvd_refl size)

/-- A list that is a whole number of pieces has no shorter piece. -/
theorem length_of_mem_pieces {items : List α} (whole : size ∣ items.length) :
    ∀ piece ∈ pieces size items, piece.length = size :=
  length_of_mem_cut items.length items whole

end KeyFile
