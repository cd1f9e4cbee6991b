import KeyFile.Proofs.Asn1.DottedText

/-!
# Object identifiers and their contents

The contents that are read are the sequences of groups, and the object identifiers that come out are
written as the same octets again. However an object identifier is made, from arcs, from text or from
octets, it has the arcs that were stated, and the first two of them are packed into a word without
loss.
-/
namespace KeyFile.Asn1.ObjectIdentifier

/-! ## Contents -/

/-- Numbers that fit in words stand for the arcs of an object identifier. -/
theorem validArcs_unpacked {numbers : List Nat} (filled : numbers ≠ [])
    (fits : ∀ number ∈ numbers, number < UInt64.size) : ValidArcs (unpacked numbers) := by
  cases numbers with
  | nil => exact absurd rfl filled
  | cons first rest =>
    obtain ⟨whole, others⟩ := List.forall_mem_cons.mp fits
    -- The range of the first number decides on the first arc.
    by_cases low : first < 40
    · rw [unpacked, if_pos low]
      exact ⟨by omega, by omega, by omega, others⟩
    by_cases middle : first < 80
    · rw [unpacked, if_neg low, if_pos middle]
      exact ⟨by omega, by omega, by omega, others⟩
    · rw [unpacked, if_neg low, if_neg middle]
      exact ⟨by omega, by omega, by omega, others⟩

/-- The contents that are read are sequences of groups, at least one, and each group is the number
that comes out of it. -/
theorem ofContents_eq_ok_iff_groups {octets : Bytes} {identifier : ObjectIdentifier} :
    ofContents octets = .ok identifier ↔ ∃ groups, groups ≠ [] ∧ octets = groups.flatten ∧
      (∀ group ∈ groups, SoundGroup group) ∧ groups.map base128 = identifier.packed := by
  rw [ofContents_eq_ok_iff]
  constructor
  · intro written
    -- The groups are the ones that are written for the numbers.
    have each : ∀ number ∈ identifier.packed,
        SoundGroup (subidentifier number) ∧ base128 (subidentifier number) = number :=
      fun number member => soundGroup_subidentifier (packed_lt identifier number member)
    have filled : identifier.packed ≠ [] := by
      intro empty
      exact contents_ne_nil identifier (by simp [contents, empty])
    refine ⟨identifier.packed.map subidentifier, by simpa using filled, ?_, ?_, ?_⟩
    · rw [written, contents, List.flatMap_def]
    · intro group member
      obtain ⟨number, present, rfl⟩ := List.mem_map.mp member
      exact (each number present).1
    · rw [List.map_map]
      have same : ∀ number ∈ identifier.packed, (base128 ∘ subidentifier) number = id number :=
        fun number member => (each number member).2
      rw [List.map_congr_left same, List.map_id]
  · rintro ⟨groups, -, rfl, sound, numbers⟩
    rw [contents, ← numbers, flatMap_subidentifier (readSubidentifiers_flatten sound)]

/-- Every sequence of groups is read. -/
theorem exists_of_groups {groups : List Bytes} (filled : groups ≠ [])
    (sound : ∀ group ∈ groups, SoundGroup group) :
    ∃ identifier, ofContents groups.flatten = .ok identifier := by
  have fits : ∀ number ∈ groups.map base128, number < UInt64.size := by
    intro number member
    obtain ⟨group, present, rfl⟩ := List.mem_map.mp member
    exact (sound group present).fits
  -- The arcs that the numbers stand for are packed into the same numbers again.
  have valid := validArcs_unpacked (by simpa using filled) fits
  have packed : packed ⟨unpacked (groups.map base128), valid⟩ = groups.map base128 :=
    packed_of_unpacked rfl
  exact ⟨_, ofContents_eq_ok_iff_groups.mpr ⟨groups, filled, rfl, sound, packed.symm⟩⟩

/-! ## Arcs -/

/-- The ways to an object identifier, each with the arcs that it states. -/
inductive Made (identifier : ObjectIdentifier) : List Nat → Prop where
  | arcs {arcs : List Nat} (built : ofArcs arcs = .ok identifier) : Made identifier arcs
  | text {text : Text} {arcs : List Nat}
      (parts : (Text.split '.' text).mapM Decimal.read = .ok arcs)
      (built : ofText text = .ok identifier) : Made identifier arcs
  | contents {octets : Bytes} {numbers : List Nat}
      (groups : readSubidentifiers none octets = .ok numbers)
      (built : ofContents octets = .ok identifier) : Made identifier (unpacked numbers)

/-- Arcs of which the first two make one number that a word holds, also when the number is worked
out in words. -/
structure Packable (first second : Nat) (rest : List Nat) : Prop where
  most : first ≤ 2
  below : first < 2 → second < 40
  fits : first * 40 + second < 2 ^ 64
  whole : (UInt64.ofNat first * 40 + UInt64.ofNat second).toNat = first * 40 + second
  small : ∀ arc ∈ rest, arc < 2 ^ 64

theorem exists_ofArcs_iff {arcs : List Nat} :
    (∃ identifier, ofArcs arcs = .ok identifier) ↔ ValidArcs arcs := by
  constructor
  · rintro ⟨identifier, done⟩
    rw [← arcs_of_ofArcs done]
    exact identifier.valid
  · intro valid
    exact ⟨⟨arcs, valid⟩, ofArcs_arcs ⟨arcs, valid⟩⟩

theorem packable_of_valid {arcs : List Nat} (valid : ValidArcs arcs) :
    ∃ first second rest, arcs = first :: second :: rest ∧ Packable first second rest := by
  match arcs, valid with
  | first :: second :: rest, ⟨most, below, fits, small⟩ =>
    refine ⟨first, second, rest, rfl, most, below, fits, ?_, small⟩
    have word : UInt64.size = 2 ^ 64 := rfl
    -- Both arcs fit in words, and so does what they come to.
    simp only [UInt64.toNat_add, UInt64.toNat_mul, UInt64.toNat_ofNat', UInt64.reduceToNat]
    omega

/-- However an object identifier is made, its arcs are the ones that were stated. -/
theorem Made.arcs_eq {identifier : ObjectIdentifier} {arcs : List Nat}
    (made : Made identifier arcs) : identifier.arcs = arcs := by
  cases made with
  | arcs built => exact arcs_of_ofArcs built
  | text parts built =>
    have read := ofText_eq_ok_iff.mp built
    rw [parts, Except.ok.injEq] at read
    exact read.symm
  | @contents octets numbers groups built =>
    have written := ofContents_eq_ok_iff.mp built
    rw [written, ObjectIdentifier.contents, read_subidentifiers (packed_lt identifier),
      Except.ok.injEq] at groups
    rw [← groups, unpacked_packed]

/-! ## One content for each object identifier -/

/-- Object identifiers and the contents that are read correspond one to one. Every way to make an
object identifier gives the arcs that it states, and their first two share a number that a word
holds; what is written is read as the same value, what is read is written as the same octets, and
the contents that are read are the sequences of groups. -/
theorem contents_bijective :
    (∀ arcs, (∃ identifier, ofArcs arcs = .ok identifier) ↔ ValidArcs arcs) ∧
    (∀ identifier arcs, Made identifier arcs → identifier.arcs = arcs ∧
      ∃ first second rest, arcs = first :: second :: rest ∧ Packable first second rest) ∧
    (∀ identifier, ofContents identifier.contents = .ok identifier) ∧
    (∀ octets identifier, ofContents octets = .ok identifier → identifier.contents = octets) ∧
    (∀ octets, (∃ identifier, ofContents octets = .ok identifier) ↔
      ∃ groups, groups ≠ [] ∧ octets = groups.flatten ∧ ∀ group ∈ groups, SoundGroup group) := by
  refine ⟨fun _ => exists_ofArcs_iff, ?_, ofContents_contents,
    fun _ _ => contents_of_ofContents, ?_⟩
  · intro identifier arcs made
    have stated := made.arcs_eq
    exact ⟨stated, packable_of_valid (stated ▸ identifier.valid)⟩
  · intro octets
    constructor
    · rintro ⟨identifier, read⟩
      obtain ⟨groups, filled, parts, sound, -⟩ := ofContents_eq_ok_iff_groups.mp read
      exact ⟨groups, filled, parts, sound⟩
    · rintro ⟨groups, filled, rfl, sound⟩
      exact exists_of_groups filled sound

/-- The largest second arc and the largest later one fill a word each, in ten groups. -/
theorem largestArcs_bijective : ∃ identifier,
    ofArcs [2, 18446744073709551535, 18446744073709551615] = .ok identifier ∧
    identifier.arcs = [2, 18446744073709551535, 18446744073709551615] ∧
    identifier.contents =
      [0x81, 0xff, 0xff, 0xff, 0xff, 0xff, 0xff, 0xff, 0xff, 0x7f,
        0x81, 0xff, 0xff, 0xff, 0xff, 0xff, 0xff, 0xff, 0xff, 0x7f] ∧
    ofContents identifier.contents = .ok identifier ∧
    ∃ groups, groups ≠ [] ∧ identifier.contents = groups.flatten ∧
      ∀ group ∈ groups, SoundGroup group := by
  obtain ⟨built, stated, read, -, grouped⟩ := contents_bijective
  obtain ⟨identifier, made⟩ := (built [2, 18446744073709551535, 18446744073709551615]).mpr
    (by decide +kernel)
  obtain ⟨arcs, -⟩ := stated identifier _ (.arcs made)
  refine ⟨identifier, made, arcs, ?_, read identifier, (grouped _).mp ⟨_, read identifier⟩⟩
  rw [contents, packed, arcs]
  decide +kernel

end KeyFile.Asn1.ObjectIdentifier
