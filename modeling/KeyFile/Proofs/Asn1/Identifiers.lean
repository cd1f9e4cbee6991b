import KeyFile.Proofs.Asn1.Base128
import KeyFile.Proofs.Outcomes

/-!
# Content octets of object identifiers

Every object identifier is read back from the content octets that are written for it, and from no
others. The numbers are written in the fewest groups, so that no first group is empty.
-/
namespace KeyFile.Asn1.ObjectIdentifier

theorem read_subidentifier {number : Nat} (fits : number < UInt64.size) (rest : Bytes) :
    readSubidentifiers none (subidentifier number ++ rest) =
      (number :: ·) <$> readSubidentifiers none rest := by
  obtain ⟨sound, value⟩ := soundGroup_subidentifier fits
  have read := sound.complete.read none rest (fun _ => sound.minimal) (by simpa using sound.fits)
  simpa [value] using read

theorem read_subidentifiers {numbers : List Nat}
    (fits : ∀ number ∈ numbers, number < UInt64.size) :
    readSubidentifiers none (numbers.flatMap subidentifier) = .ok numbers := by
  induction numbers with
  | nil => rfl
  | cons first others ih =>
    rw [List.flatMap_cons, read_subidentifier (fits first List.mem_cons_self),
      ih fun number member => fits number (List.mem_cons_of_mem _ member)]
    rfl

theorem ofArcs_arcs (identifier : ObjectIdentifier) : ofArcs identifier.arcs = .ok identifier := by
  obtain ⟨arcs, valid⟩ := identifier
  match arcs, valid with
  | first :: second :: rest, ⟨most, below, fits, small⟩ =>
    have inRange : ¬ (first < 2 ∧ 40 ≤ second) := by
      rintro ⟨low, high⟩
      exact absurd (below low) (Nat.not_lt.mpr high)
    rw [ofArcs, dif_neg inRange, dif_neg (Nat.not_lt.mpr most), dif_pos ⟨fits, small⟩]

theorem packed_lt (identifier : ObjectIdentifier) :
    ∀ number ∈ identifier.packed, number < UInt64.size := by
  obtain ⟨arcs, valid⟩ := identifier
  match arcs, valid with
  | first :: second :: rest, ⟨_, _, fits, small⟩ => simpa [packed] using ⟨fits, small⟩

theorem unpacked_packed (identifier : ObjectIdentifier) :
    unpacked identifier.packed = identifier.arcs := by
  obtain ⟨arcs, valid⟩ := identifier
  match arcs, valid with
  | first :: second :: rest, ⟨most, below, _, _⟩ =>
    simp only [packed, unpacked]
    split
    next low =>
      have zero : first = 0 := by omega
      simp [zero]
    next high =>
      split
      next low =>
        have one : first = 1 := by omega
        simp [one]
      next highest =>
        have two : first = 2 := by omega
        simp [two]

theorem contents_ne_nil (identifier : ObjectIdentifier) : identifier.contents ≠ [] := by
  obtain ⟨arcs, valid⟩ := identifier
  match arcs, valid with
  | first :: second :: rest, _ => simp [contents, packed, subidentifier]

/-- An object identifier is read back from its content octets. -/
theorem ofContents_contents (identifier : ObjectIdentifier) :
    ofContents identifier.contents = .ok identifier := by
  have filled : ¬ identifier.contents.isEmpty := by
    simpa using contents_ne_nil identifier
  rw [ofContents, if_neg filled, contents, read_subidentifiers (packed_lt identifier)]
  change ofArcs (unpacked identifier.packed) = .ok identifier
  rw [unpacked_packed, ofArcs_arcs]

/-! ## The only content octets -/

/-- The number fits in so many groups of seven bits, and in no fewer. -/
private def Fewest (width number : Nat) : Prop :=
  ∀ count, width ≤ count ↔ number < 128 ^ count

private theorem fewest_zero : Fewest 0 0 :=
  fun _ => iff_of_true (Nat.zero_le _) (Nat.pow_pos (by decide))

/-- A digit more takes a group more, provided that the first digit is not zero. -/
private theorem Fewest.concat {width number digit : Nat} (fewest : Fewest width number)
    (small : digit < 128) (filled : width = 0 → digit ≠ 0) :
    Fewest (width + 1) (number * 128 + digit) := by
  intro count
  cases count with
  | zero =>
    have first := fewest 0
    simp only [Nat.pow_zero] at first ⊢
    omega
  | succ count =>
    have fewer := fewest count
    rw [Nat.pow_succ]
    omega

private theorem Fewest.groups_eq {width number : Nat} (fewest : Fewest width number) :
    (BigEndian.bitLength number + 6) / 7 = width :=
  Nat.le_antisymm ((groups_le_iff _ _).mpr ((fewest _).mp (Nat.le_refl _)))
    ((fewest _).mpr ((groups_le_iff _ _).mp (Nat.le_refl _)))

private theorem div_mod_concat (number : Nat) {digit : Nat} (small : digit < 128) :
    (number * 128 + digit) / 128 = number ∧ (number * 128 + digit) % 128 = digit := by
  omega

/-- The octet that ends a number is the one that is written for its last digit. -/
private theorem subidentifier_concat {width number : Nat} {octet : UInt8}
    (fewest : Fewest width number) (last : octet < 0x80) :
    subidentifier (number * 128 + octet.toNat % 128) = continuedGroups width number ++ [octet] := by
  have parts := div_mod_concat number (Nat.mod_lt octet.toNat (by decide : 128 > 0))
  have whole : octet.toNat % 128 = octet.toNat := by
    rw [UInt8.lt_iff_toNat_lt] at last
    exact Nat.mod_eq_of_lt last
  rw [subidentifier, parts.1, parts.2, fewest.groups_eq, whole, UInt8.ofNat_toNat]

private theorem continuedGroups_concat (width number : Nat) {octet : UInt8}
    (continued : ¬ octet < 0x80) :
    continuedGroups (width + 1) (number * 128 + octet.toNat % 128) =
      continuedGroups width number ++ [octet] := by
  have parts := div_mod_concat number (Nat.mod_lt octet.toNat (by decide : 128 > 0))
  have marked : 128 + octet.toNat % 128 = octet.toNat := by
    have bound := octet.toNat_lt
    simp only [UInt8.lt_iff_toNat_lt, UInt8.reduceToNat] at continued
    omega
  rw [continuedGroups, parts.1, parts.2, marked, UInt8.ofNat_toNat]

/-- What is known of the present number after its groups so far have been read. -/
private def progress (width number : Nat) : Option Nat :=
  if width = 0 then none else some number

private theorem Fewest.progress_getD {width number : Nat} (fewest : Fewest width number) :
    (progress width number).getD 0 = number := by
  unfold progress
  split
  next empty =>
    have small := (fewest 0).mp (Nat.le_of_eq empty)
    exact (Nat.lt_one_iff.mp small).symm
  · rfl

/-- The octets that are read are those of the numbers that they give, also in the midst of a number,
of which `width` groups have been read. -/
private theorem front_readSubidentifiers {width number : Nat} {octets : Bytes}
    {numbers : List Nat} (fewest : Fewest width number)
    (done : readSubidentifiers (progress width number) octets = .ok numbers) :
    continuedGroups width number ++ octets = numbers.flatMap subidentifier := by
  induction octets generalizing width number numbers with
  | nil =>
    by_cases fresh : width = 0
    · subst fresh
      simp only [readSubidentifiers, progress, if_true, Option.isSome_none, Bool.false_eq_true,
        if_false] at done
      cases done
      rfl
    · simp [readSubidentifiers, progress, fresh] at done
  | cons octet rest ih =>
    simp only [readSubidentifiers, fewest.progress_getD] at done
    split at done
    · cases done
    next minimal =>
      split at done
      · cases done
      next fits =>
        split at done
        next last =>
          obtain ⟨later, read, rfl⟩ := Outcome.map_eq_ok.mp done
          have others := ih fewest_zero read
          rw [List.flatMap_cons, subidentifier_concat fewest last, List.append_assoc, ← others]
          rfl
        next continued =>
          -- A first group of zero is refused, so the number is not zero.
          have filled : width = 0 → octet.toNat % 128 ≠ 0 := by
            intro fresh empty
            have bound := octet.toNat_lt
            simp only [UInt8.lt_iff_toNat_lt, UInt8.reduceToNat] at continued
            have marked : octet.toNat = 128 := by omega
            exact minimal ⟨by simp [progress, fresh], UInt8.toNat_inj.mp marked⟩
          have more := fewest.concat (Nat.mod_lt _ (by decide)) filled
          have others := ih more (by simpa [progress] using done)
          rwa [continuedGroups_concat width number continued, List.append_assoc] at others

theorem arcs_of_ofArcs {arcs : List Nat} {identifier : ObjectIdentifier}
    (done : ofArcs arcs = .ok identifier) : identifier.arcs = arcs := by
  unfold ofArcs at done
  split at done
  · split at done
    · cases done
    · split at done
      · cases done
      · split at done
        · cases done
          rfl
        · cases done
  · cases done

/-- Arcs that stand for numbers are written as these numbers. -/
theorem packed_of_unpacked {numbers : List Nat} {identifier : ObjectIdentifier}
    (same : identifier.arcs = unpacked numbers) : identifier.packed = numbers := by
  cases numbers with
  | nil =>
    have valid := identifier.valid
    rw [same] at valid
    exact valid.elim
  | cons first rest =>
    -- The number tells the first arc by its range.
    rw [unpacked] at same
    split at same
    next low =>
      rw [packed, same]
      simp
    next high =>
      split at same
      next low =>
        have sum : 1 * 40 + (first - 40) = first := by omega
        rw [packed, same]
        simp only [sum]
      next highest =>
        have sum : 2 * 40 + (first - 80) = first := by omega
        rw [packed, same]
        simp only [sum]

/-- Numbers that are read are written with the same octets. -/
theorem flatMap_subidentifier {octets : Bytes} {numbers : List Nat}
    (read : readSubidentifiers none octets = .ok numbers) :
    numbers.flatMap subidentifier = octets := by
  have written := front_readSubidentifiers fewest_zero read
  rw [← written]
  rfl

/-- Content octets that are read are the ones that are written. -/
theorem contents_of_ofContents {octets : Bytes} {identifier : ObjectIdentifier}
    (done : ofContents octets = .ok identifier) : identifier.contents = octets := by
  unfold ofContents at done
  split at done
  · cases done
  · obtain ⟨numbers, read, done⟩ := Outcome.bind_eq_ok.mp done
    rw [contents, packed_of_unpacked (arcs_of_ofArcs done), flatMap_subidentifier read]

theorem ofContents_eq_ok_iff {octets : Bytes} {identifier : ObjectIdentifier} :
    ofContents octets = .ok identifier ↔ octets = identifier.contents := by
  constructor
  · intro done
    exact (contents_of_ofContents done).symm
  · rintro rfl
    exact ofContents_contents identifier

end KeyFile.Asn1.ObjectIdentifier
