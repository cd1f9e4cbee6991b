import KeyFile.Asn1.Read
import KeyFile.Proofs.Asn1.Headers

/-!
# Headers read with general parsers

The fields of a header can be read with parsers that know nothing of headers: one for an octet and
one for a number of octets. Such parsers fail in their own ways, for a lack of octets or with a
fault of some kind, and most kinds mean nothing here. The ways in which a header can fail all have
a meaning, so that nothing is left over when they are translated, and the header that comes out is
the one that is read directly.
-/
namespace KeyFile.Asn1

/-! ## Faults of parsers -/

/-- The kinds of faults that parsers have. -/
inductive FaultKind where
  | eof
  | tag
  | tooLarge
  | other (name : String)
  deriving DecidableEq, Repr

/-- How a parser fails. -/
inductive FieldFault where
  /-- More octets may help. -/
  | incomplete
  /-- Another parser may be tried. -/
  | recoverable (kind : FaultKind)
  | final (kind : FaultKind)
  deriving DecidableEq, Repr

/-- The two ways to say that octets are missing. -/
def FieldFault.EndsEarly (fault : FieldFault) : Prop :=
  fault = .incomplete ∨ fault = .recoverable .eof

/-- What a header is refused for: a cause that has a meaning, or any other kind of fault. -/
inductive Refusal where
  | known (cause : Error)
  | parser (kind : FaultKind)
  deriving DecidableEq, Repr

namespace Refusal

def ofKind : FaultKind → Refusal
  | .eof => .known .unexpectedEnd
  | .tag => .known .highTagNumber
  | .tooLarge => .known .lengthTooLong
  | .other name => .parser (.other name)

def ofFault : FieldFault → Refusal
  | .incomplete => .known .unexpectedEnd
  | .recoverable kind | .final kind => ofKind kind

theorem ofFault_of_endsEarly {fault : FieldFault} (early : fault.EndsEarly) :
    ofFault fault = .known .unexpectedEnd := by
  rcases early with rfl | rfl <;> rfl

end Refusal

/-! ## Fields -/

/-- Parsers for one octet and for a number of octets; they give the octets after these. -/
structure FieldParsers where
  octet : Bytes → Except FieldFault (UInt8 × Bytes)
  take : Nat → Bytes → Except FieldFault (Bytes × Bytes)

/-- The length that a field declares. -/
inductive DeclaredLength where
  | definite (length : UInt64)
  | indefinite

def DeclaredLength.value : DeclaredLength → Except Refusal Nat
  | .definite length => .ok length.toNat
  | .indefinite => .error (.known .indefiniteLength)

namespace FieldParsers

/-- The parsers take octets from the front; where there are too few, they say that octets are
missing. -/
structure Lawful (parsers : FieldParsers) : Prop where
  octet_cons : ∀ first rest, parsers.octet (first :: rest) = .ok (first, rest)
  octet_nil : ∃ fault, parsers.octet [] = .error fault ∧ fault.EndsEarly
  take_enough : ∀ count input, count ≤ input.length →
    parsers.take count input = .ok (input.take count, input.drop count)
  take_short : ∀ count input, input.length < count →
    ∃ fault, parsers.take count input = .error fault ∧ fault.EndsEarly

/-- Without an octet more of them may help, while fewer than a number of octets are the end. -/
def plain : FieldParsers where
  octet
    | [] => .error .incomplete
    | first :: rest => .ok (first, rest)
  take count input :=
    if input.length < count then .error (.recoverable .eof)
    else .ok (input.take count, input.drop count)

theorem lawful_plain : plain.Lawful where
  octet_cons _ _ := rfl
  octet_nil := ⟨.incomplete, rfl, .inl rfl⟩
  take_enough _ _ enough := if_neg (Nat.not_lt.mpr enough)
  take_short _ _ short := ⟨.recoverable .eof, if_pos short, .inr rfl⟩

variable (parsers : FieldParsers)

def tag (input : Bytes) : Except FieldFault (Tag × Bytes) := do
  let (first, rest) ← parsers.octet input
  if first &&& 0x1f = 0x1f then throw (.final .tag)
  return (Tag.ofOctet first, rest)

def length (input : Bytes) : Except FieldFault (DeclaredLength × Bytes) := do
  let (first, rest) ← parsers.octet input
  if first = 0x80 then return (.indefinite, rest)
  if first &&& 0x80 = 0x80 then
    let count := first &&& 0x7f
    if 8 < count then throw (.final .tooLarge)
    let (octets, rest) ← parsers.take count.toNat rest
    return (.definite (BigEndian.toWord octets), rest)
  return (.definite first.toUInt64, rest)

/-- Reads a header, and gives the octets after it, which hold the whole content. -/
def header (input : Bytes) : Except Refusal (Tag × Nat × Bytes) := do
  let (tag, rest) ← (parsers.tag input).mapError Refusal.ofFault
  let (length, rest) ← (parsers.length rest).mapError Refusal.ofFault
  let declared ← length.value
  if rest.length < declared then throw (.known (.truncated declared rest.length))
  return (tag, declared, rest)

/-- Reads one element of any kind by such a header. -/
def readAny : Read Refusal (Tag × Bytes) :=
  ⟨fun input =>
    match parsers.header input with
    | .error refusal => (.error refusal, input)
    | .ok (tag, length, rest) => (.ok (tag, rest.take length), rest.drop length)⟩

/-! ## Nothing is left over -/

private theorem mark_table : ∀ index : Fin 256,
    (UInt8.ofFin index &&& 0x80 = 0x80 ↔ ¬ UInt8.ofFin index < 0x80) ∧
      (¬ UInt8.ofFin index < 0x80 →
        (UInt8.ofFin index &&& 0x7f).toNat = (UInt8.ofFin index).toNat - 0x80) := by
  decide +kernel

/-- The high bit marks the long form. -/
theorem long_iff {first : UInt8} : first &&& 0x80 = 0x80 ↔ ¬ first < 0x80 :=
  (mark_table first.toFin).1

theorem toNat_count {first : UInt8} (long : ¬ first < 0x80) :
    (first &&& 0x7f).toNat = first.toNat - 0x80 :=
  (mark_table first.toFin).2 long

namespace Lawful

variable {parsers : FieldParsers} (lawful : parsers.Lawful)

include lawful

/-- Without an octet the two fields of a header are refused alike. -/
theorem mapError_octet_nil {α : Type} (next : UInt8 × Bytes → Except FieldFault α) :
    (parsers.octet [] >>= next).mapError Refusal.ofFault = .error (.known .unexpectedEnd) := by
  obtain ⟨fault, failed, early⟩ := lawful.octet_nil
  rw [failed]
  exact congrArg Except.error (Refusal.ofFault_of_endsEarly early)

/-- The tag is that of the first octet, unless it announces a long tag number. -/
theorem mapError_tag_cons (first : UInt8) (rest : Bytes) :
    (parsers.tag (first :: rest)).mapError Refusal.ofFault =
      if first &&& 0x1f = 0x1f then .error (.known .highTagNumber)
      else .ok (Tag.ofOctet first, rest) := by
  rw [tag, lawful.octet_cons, Outcome.bind_of_ok rfl]
  by_cases high : first &&& 0x1f = 0x1f
  · simp only [high, if_true]
    rfl
  · simp only [high, if_false]
    rfl

theorem length_cons (first : UInt8) (rest : Bytes) :
    parsers.length (first :: rest) =
      if first = 0x80 then .ok (.indefinite, rest)
      else if first &&& 0x80 = 0x80 then
        if 8 < first &&& 0x7f then .error (.final .tooLarge)
        else (fun (octets, rest) => (.definite (BigEndian.toWord octets), rest)) <$>
          parsers.take (first &&& 0x7f).toNat rest
      else .ok (.definite first.toUInt64, rest) := by
  rw [length, lawful.octet_cons, Outcome.bind_of_ok rfl]
  by_cases indefinite : first = 0x80
  · simp only [indefinite, if_true]
    rfl
  · by_cases long : first &&& 0x80 = 0x80
    · by_cases many : 8 < first &&& 0x7f
      · simp only [indefinite, long, many, if_true, if_false]
        rfl
      · simp only [indefinite, long, many, if_true, if_false]
        rfl
    · simp only [indefinite, long, if_false]
      rfl

/-- Of a field that has a length, the parsers read the length that is read directly. -/
theorem length_value (input : Bytes) :
    (do
      let (length, rest) ← (parsers.length input).mapError Refusal.ofFault
      let declared ← length.value
      return (declared, rest)) = (readLength input).mapError Refusal.known := by
  cases input with
  | nil => rw [length, lawful.mapError_octet_nil]; rfl
  | cons first rest =>
    rw [lawful.length_cons, readLength]
    by_cases short : first < 0x80
    · have definite : first ≠ 0x80 := by
        rintro rfl
        exact absurd short (by decide)
      rw [if_neg definite, if_neg (not_not_intro short ∘ long_iff.mp), if_pos short]
      rfl
    · by_cases indefinite : first = 0x80
      · rw [if_pos indefinite, if_neg short, if_pos indefinite]
        rfl
      · have count := toNat_count short
        have large : 8 < first &&& 0x7f ↔ 8 < first.toNat - 0x80 := by
          rw [UInt8.lt_iff_toNat_lt, count]
          rfl
        rw [if_neg indefinite, if_pos (long_iff.mpr short), if_neg short, if_neg indefinite]
        by_cases many : 8 < first.toNat - 0x80
        · rw [if_pos (large.mpr many)]
          simp only [many, if_true]
          rfl
        · rw [if_neg (mt large.mp many), count]
          simp only [many, if_false]
          by_cases fewer : rest.length < first.toNat - 0x80
          · obtain ⟨fault, failed, early⟩ := lawful.take_short _ _ fewer
            have refused := Refusal.ofFault_of_endsEarly early
            rw [failed, if_pos fewer]
            exact congrArg Except.error refused
          · rw [lawful.take_enough _ _ (Nat.le_of_not_lt fewer), if_neg fewer]
            generalize first.toNat - 0x80 = number
            rfl

/-- The header that the parsers give is the one that is read directly, and so is its error. -/
theorem header_eq (input : Bytes) :
    parsers.header input = (readHeader input).mapError Refusal.known := by
  cases input with
  | nil =>
    rw [header, tag, lawful.mapError_octet_nil]
    rfl
  | cons first rest =>
    rw [header, lawful.mapError_tag_cons, readHeader]
    by_cases high : first &&& 0x1f = 0x1f
    · rw [if_pos high, if_pos high]
      rfl
    · rw [if_neg high, if_neg high, Outcome.bind_of_ok rfl]
      -- What is left to do asks for the length only, as a number or as a refusal.
      calc _ = (do
              let (length, rest) ← (parsers.length rest).mapError Refusal.ofFault
              let declared ← length.value
              return (declared, rest)) >>= fun found => do
            if found.2.length < found.1 then
              throw (.known (.truncated found.1 found.2.length))
            return (Tag.ofOctet first, found.1, found.2) := by
              simp only [bind_assoc, pure_bind]
        _ = _ := by
          rw [lawful.length_value]
          cases readLength rest with
          | error e => rfl
          | ok result =>
            obtain ⟨declared, left⟩ := result
            rw [Outcome.bind_of_ok (Outcome.mapError_eq_ok.mpr rfl), Outcome.bind_of_ok rfl]
            by_cases fewer : left.length < declared
            · simp only [fewer, if_true]
              rfl
            · simp only [fewer, if_false]
              rfl

/-- No read that takes its elements by such headers fails in a way that has no meaning. -/
theorem readAny_eq : parsers.readAny = Asn1.readAny.mapError Refusal.known := by
  apply Read.ext_run
  intro input
  simp only [readAny, lawful.header_eq, Read.mapError, Asn1.readAny]
  cases readHeader input <;> rfl

end Lawful

end FieldParsers

end KeyFile.Asn1
