import KeyFile.Proofs.Asn1.HeaderFaults
import KeyFile.Proofs.Asn1.Positions

/-!
# What follows an element

A read looks at the octets of one element, and what stands after them has no part in what it gives.
Octets that are appended are left over by it, and they can change the outcome only where the octets
had ended too early. So reading element after element cuts octets into elements and a rest, and when
octets are appended, it goes on from that rest.
-/
namespace KeyFile.Asn1

/-! ## Octets that are appended -/

theorem LengthFault.append {input : Bytes} {e : Error} (fault : LengthFault input e)
    (decided : ¬ e.EndsEarly) (more : Bytes) : LengthFault (input ++ more) e := by
  cases fault with
  | indefinite => exact .indefinite
  | tooLong many => exact .tooLong many
  | missing | cut => exact absurd trivial decided

theorem HeaderFault.append {input : Bytes} {e : Error} (fault : HeaderFault input e)
    (decided : ¬ e.EndsEarly) (more : Bytes) : HeaderFault (input ++ more) e := by
  cases fault with
  | highTagNumber high => exact .highTagNumber high
  | length low fault => exact .length low (fault.append decided more)
  | missing | truncated => exact absurd trivial decided

section Reads

variable {α β : Type}

theorem Accepts.append {ε : Type} {read : Read ε α} {spelling : α → Bytes → Prop}
    (accepts : Accepts read spelling) {input rest : Bytes} {a : α}
    (done : read.run input = (.ok a, rest)) (more : Bytes) :
    read.run (input ++ more) = (.ok a, rest ++ more) := by
  obtain ⟨octets, spelled, rfl⟩ := accepts.run_eq_ok.mp done
  rw [List.append_assoc]
  exact accepts.reads spelled (rest ++ more)

/-- The read does the same when octets are appended, and leaves them, unless it has come to the end
of the octets too early. -/
structure Local (read : Read Error α) (input : Bytes) : Prop where
  ok : ∀ a rest, read.run input = (.ok a, rest) →
    ∀ more, read.run (input ++ more) = (.ok a, rest ++ more)
  error : ∀ e rest, read.run input = (.error e, rest) → ¬ e.EndsEarly →
    ∀ more, read.run (input ++ more) = (.error e, rest ++ more)

namespace Local

variable {input : Bytes}

/-- Only these octets count, and what stands after them. -/
theorem congr {read other : Read Error α} (first : Local other input)
    (same : ∀ more, read.run (input ++ more) = other.run (input ++ more)) : Local read input := by
  have alone : read.run input = other.run input := by simpa using same []
  constructor
  · intro a rest done more
    rw [alone] at done
    rw [same more]
    exact first.ok a rest done more
  · intro e rest failed decided more
    rw [alone] at failed
    rw [same more]
    exact first.error e rest failed decided more

theorem ofExcept (outcome : Except Error α) : Local (Read.ofExcept outcome) input where
  ok _ _ done more := by cases done; rfl
  error _ _ failed _ more := by cases failed; rfl

theorem bind {read : Read Error α} {next : α → Read Error β} (first : Local read input)
    (second : ∀ a rest, Local (next a) rest) : Local (read >>= next) input where
  ok b rest done more := by
    obtain ⟨a, middle, found, done⟩ := Read.run_bind_eq_ok.mp done
    rw [Read.run_bind_of_ok (first.ok a middle found more)]
    exact (second a middle).ok b rest done more
  error e rest failed decided more := by
    rcases found : read.run input with ⟨_ | a, middle⟩
    case error cause =>
      rw [Read.run_bind_of_error found] at failed
      cases failed
      exact Read.run_bind_of_error (first.error e rest found decided more)
    case ok =>
      rw [Read.run_bind_of_ok found] at failed
      rw [Read.run_bind_of_ok (first.ok a middle found more)]
      exact (second a middle).error e rest failed decided more

theorem map {read : Read Error α} (first : Local read input) (f : α → β) :
    Local (f <$> read) input :=
  first.bind fun a _ => .ofExcept (.ok (f a))

end Local

end Reads

/-! ## Single elements -/

variable {input : Bytes}

theorem local_readAny : Local readAny input where
  ok _ _ done := accepts_readAny.append done
  error e rest failed decided more := by
    cases found : readHeader input with
    | error cause =>
      simp only [readAny, found] at failed
      cases failed
      have fault := (headerFault_of_readHeader found).append decided more
      simp only [readAny, fault.readHeader_eq]
    | ok header =>
      simp only [readAny, found] at failed
      cases failed

theorem run_readElement_of_error {rest : Bytes} {e : Error} :
    readElement.run input = (.error e, rest) ↔ readAny.run input = (.error e, rest) := by
  rcases found : readAny.run input with ⟨_ | value, left⟩ <;> simp [readElement, found]

theorem local_readElement : Local readElement input where
  ok _ _ done := accepts_readElement.append done
  error e rest failed decided more := by
    rw [run_readElement_of_error] at failed ⊢
    exact local_readAny.error e rest failed decided more

theorem local_readContent (tag : Tag) : Local (readContent tag) input where
  ok _ _ done := (accepts_readContent tag).append done
  error e rest failed decided more := by
    cases input with
    | nil =>
      cases failed
      exact absurd trivial decided
    | cons first others =>
      -- The octet that announces the tag is there, and it stays the first one.
      rw [List.cons_append, readContent_cons] at *
      split at failed
      next different =>
        cases failed
        exact if_pos different
      next expected =>
        rw [if_neg expected]
        exact (local_readAny.map Prod.snd).error e rest failed decided more

theorem ReadsElement.isLocal {α : Type} {read : Read Error α} (reads : ReadsElement read)
    (input : Bytes) : Local read input := by
  induction reads generalizing input with
  | any => exact local_readAny
  | whole => exact local_readElement
  | content tag => exact local_readContent tag
  | judged _ judges ih =>
    refine (ih input).bind fun a rest => ?_
    obtain ⟨outcome, same, -⟩ := judges a
    rw [same]
    exact .ofExcept outcome

namespace Operation

/-- With any first octet, an optional wrapper is there or not whatever stands after it. -/
theorem local_run_cons (operation : Operation) (first : UInt8) (others : Bytes) :
    Local operation.run (first :: others) := by
  by_cases optional : ∃ slot, operation = .optionalExplicit slot
  · obtain ⟨slot, rfl⟩ := optional
    by_cases present : Tag.ofOctet first = .explicit slot
    · have required := @readsElement (.explicit slot) (by rintro _ ⟨⟩)
      exact (required.isLocal _).congr fun more => run_optionalExplicit (congrArg some present)
    · refine (Local.ofExcept (.ok .absent)).congr fun more => ?_
      exact Skips.run_eq ⟨slot, rfl, fun same => present (Option.some.inj same)⟩
  · exact (readsElement fun slot same => optional ⟨slot, same⟩).isLocal _

end Operation

/-! ## Elements one after the other -/

theorem readElement_takes {rest octets : Bytes}
    (done : readElement.run input = (.ok octets, rest)) :
    Complete octets ∧ 2 ≤ octets.length ∧ input = octets ++ rest := by
  obtain ⟨_, ⟨rfl, tag, content, framed⟩, split⟩ := accepts_readElement.run_eq_ok.mp done
  exact ⟨framed.complete, framed.two_le_length, split⟩

theorem readElement_shrinks {rest octets : Bytes}
    (done : readElement.run input = (.ok octets, rest)) : rest.length < input.length := by
  obtain ⟨-, filled, rfl⟩ := readElement_takes done
  rw [List.length_append]
  omega

/-- A read of a whole element takes it or nothing, since nothing in it is judged. -/
theorem readElement_stays {left : Bytes} {e : Error}
    (failed : readElement.run input = (.error e, left)) : left = input := by
  rw [run_readElement_of_error] at failed
  have one := takesOne_readAny input
  rw [failed] at one
  cases one with
  | unread _ => rfl
  | taken next _ =>
    rw [failed] at next
    cases next

/-- The elements that have been read, the octets that are left, and the error that has stopped the
reads, if it was one. -/
structure Sliced where
  slices : List Bytes
  left : Bytes
  stopped : Option Error
  deriving DecidableEq, Repr

/-- Reads elements until nothing is left or a read fails. -/
def slice (input : Bytes) : Sliced :=
  if input = [] then ⟨[], input, none⟩
  else
    match done : readElement.run input with
    | (.error e, left) => ⟨[], left, some e⟩
    | (.ok octets, rest) =>
      have := readElement_shrinks done
      let later := slice rest
      { later with slices := octets :: later.slices }
termination_by input.length

/-- The octets are elements, and then something that is not one. -/
structure Sliced.Partitions (sliced : Sliced) (input : Bytes) : Prop where
  flatten : sliced.slices.flatten ++ sliced.left = input
  complete : ∀ octets ∈ sliced.slices, Complete octets
  few : sliced.slices.length ≤ input.length / 2
  ended : sliced.stopped = none → sliced.left = []
  failed : ∀ e, sliced.stopped = some e → readElement.run sliced.left = (.error e, sliced.left)

theorem slice_partitions (input : Bytes) : (slice input).Partitions input := by
  fun_induction slice input with
  | case1 => exact ⟨rfl, nofun, Nat.zero_le _, fun _ => rfl, nofun⟩
  | case2 input filled e left failed =>
    obtain rfl := readElement_stays failed
    refine ⟨rfl, nofun, Nat.zero_le _, nofun, fun cause same => ?_⟩
    cases same
    exact failed
  | case3 input filled octets rest done shorter later ih =>
    obtain ⟨complete, two, rfl⟩ := readElement_takes done
    refine ⟨?_, ?_, ?_, ih.ended, ih.failed⟩
    · rw [List.flatten_cons, List.append_assoc, ih.flatten]
    · intro other member
      rcases List.mem_cons.mp member with rfl | behind
      · exact complete
      · exact ih.complete other behind
    · -- Each element has at least the two octets that make it one more.
      have fewer : later.slices.length ≤ rest.length / 2 := ih.few
      simp only [List.length_cons, List.length_append]
      omega

theorem slice_of_done {rest octets : Bytes} (done : readElement.run input = (.ok octets, rest)) :
    slice input = { slice rest with slices := octets :: (slice rest).slices } := by
  have filled : input ≠ [] := by
    rintro rfl
    cases done
  rw [slice, if_neg filled]
  split
  next failed =>
    rw [done] at failed
    cases failed
  next found =>
    rw [done] at found
    cases found
    rfl

/-- The elements stay what they are when octets are appended, and the reads go on where they have
stopped. -/
theorem slice_append (input more : Bytes) :
    slice (input ++ more) =
      { slice ((slice input).left ++ more) with
        slices := (slice input).slices ++ (slice ((slice input).left ++ more)).slices } := by
  fun_induction slice input with
  | case1 => rfl
  | case2 input filled e left failed =>
    obtain rfl := readElement_stays failed
    rfl
  | case3 input filled octets rest done shorter later ih =>
    rw [slice_of_done (local_readElement.ok octets rest done more), ih]
    rfl

/-- Reads are local. What a read gives, or fails with for another reason than that the octets end,
does not depend on what stands behind it; the exception is the absence of an optional wrapper where
nothing is left. So the reads of whole elements split the octets, and go on where they have stopped
when octets are appended; and what any read takes has the tag that is seen before it. -/
theorem reads_local :
    (∀ (operation : Operation) (input : Bytes),
      ¬ (input = [] ∧ ∃ slot, operation = .optionalExplicit slot) →
        (∀ value rest, operation.run.run input = (.ok value, rest) →
          ∀ more, operation.run.run (input ++ more) = (.ok value, rest ++ more)) ∧
        ∀ e rest, operation.run.run input = (.error e, rest) → ¬ e.EndsEarly →
          ∀ more, operation.run.run (input ++ more) = (.error e, rest ++ more)) ∧
    (∀ input, (slice input).Partitions input) ∧
    (∀ input more, slice (input ++ more) =
      { slice ((slice input).left ++ more) with
        slices := (slice input).slices ++ (slice ((slice input).left ++ more)).slices }) ∧
    ∀ input tag content rest, readAny.run input = (.ok (tag, content), rest) →
      peekTag.run input = (.ok (some tag), input) := by
  refine ⟨?_, slice_partitions, slice_append, ?_⟩
  · intro operation input present
    have steady : Local operation.run input := by
      cases input with
      | nil =>
        have required (slot : UInt8) (same : operation = .optionalExplicit slot) : False :=
          present ⟨rfl, slot, same⟩
        exact (Operation.readsElement required).isLocal []
      | cons first others => exact operation.local_run_cons first others
    exact ⟨steady.ok, steady.error⟩
  · intro input tag content rest read
    exact Read.run_peekTag_eq_ok.mpr ⟨(head_of_readAny_ok read).symm, rfl⟩

/-- Two elements, and a third one that is cut off. -/
def cutElements : Bytes :=
  [0x30, 0x03, 0x05, 0x00, 0x05, 0x02, 0x01, 0x80, 0x04, 0x02, 0xff]

/-- With the octet that is missing the first two are still what they were, and only the third is
read otherwise. -/
theorem cutElements_local :
    (Operation.sequence.run.run cutElements =
        (.ok (.inner [0x05, 0x00, 0x05]), cutElements.drop 5) ∧
      Operation.unsigned.run.run (cutElements.drop 5) =
        (.error .negativeInteger, cutElements.drop 8) ∧
      readAny.run cutElements = (.ok (.sequence, [0x05, 0x00, 0x05]), cutElements.drop 5)) ∧
    Operation.sequence.run.run (cutElements ++ [0xfe]) =
      (.ok (.inner [0x05, 0x00, 0x05]), cutElements.drop 5 ++ [0xfe]) ∧
    Operation.unsigned.run.run (cutElements.drop 5 ++ [0xfe]) =
      (.error .negativeInteger, cutElements.drop 8 ++ [0xfe]) ∧
    Operation.octetString.run.run (cutElements.drop 8) =
      (.error (.truncated 2 1), cutElements.drop 8) ∧
    Operation.octetString.run.run (cutElements.drop 8 ++ [0xfe]) =
      (.ok (.octets [0xff, 0xfe]), []) ∧
    (slice cutElements).slices.length ≤ 5 ∧
    (slice (cutElements ++ [0xfe])).slices =
      (slice cutElements).slices ++ (slice ((slice cutElements).left ++ [0xfe])).slices ∧
    peekTag.run cutElements = (.ok (some .sequence), cutElements) := by
  obtain ⟨steady, partitions, resumed, announced⟩ := reads_local
  have inner : Operation.sequence.run.run cutElements =
      (.ok (.inner [0x05, 0x00, 0x05]), cutElements.drop 5) := rfl
  have negative : Operation.unsigned.run.run (cutElements.drop 5) =
      (.error .negativeInteger, cutElements.drop 8) := rfl
  have first : readAny.run cutElements =
      (.ok (.sequence, [0x05, 0x00, 0x05]), cutElements.drop 5) := rfl
  refine ⟨⟨inner, negative, first⟩, ?_, ?_, rfl, rfl, (partitions cutElements).few,
    congrArg Sliced.slices (resumed cutElements [0xfe]), announced _ _ _ _ first⟩
  · exact (steady _ cutElements (by rintro ⟨_, slot, ⟨⟩⟩)).1 _ _ inner [0xfe]
  · exact (steady _ (cutElements.drop 5) (by rintro ⟨_, slot, ⟨⟩⟩)).2 _ _ negative id [0xfe]

end KeyFile.Asn1
