import KeyFile.Asn1.Header

/-!
# Reading elements

A read takes the octets left and gives its result together with the octets left after it, also when
it fails. A read that is stopped by a tag or a header leaves the octets as they were; a read that is
stopped by a content has consumed that element and nothing else.
-/
namespace KeyFile.Asn1

/-- A read with faults of type `ε` and results of type `α`. -/
structure Read (ε α : Type) where
  run : Bytes → Except ε α × Bytes

namespace Read

variable {ε ε' α β : Type}

instance : Monad (Read ε) where
  pure a := ⟨fun input => (.ok a, input)⟩
  bind first next := ⟨fun input =>
    match first.run input with
    | (.ok a, rest) => (next a).run rest
    | (.error e, rest) => (.error e, rest)⟩

instance : MonadExceptOf ε (Read ε) where
  throw e := ⟨fun input => (.error e, input)⟩
  tryCatch first handle := ⟨fun input =>
    match first.run input with
    | (.ok a, rest) => (.ok a, rest)
    | (.error e, rest) => (handle e).run rest⟩

/-- An outcome that needs no octets. -/
def ofExcept (outcome : Except ε α) : Read ε α :=
  ⟨fun input => (outcome, input)⟩

instance : MonadLift (Except ε) (Read ε) where
  monadLift := ofExcept

@[simp] theorem run_pure (a : α) (input : Bytes) :
    (pure a : Read ε α).run input = (.ok a, input) := rfl

@[simp] theorem run_throw (e : ε) (input : Bytes) :
    (throw e : Read ε α).run input = (.error e, input) := rfl

theorem run_bind (first : Read ε α) (next : α → Read ε β) (input : Bytes) :
    (first >>= next).run input =
      match first.run input with
      | (.ok a, rest) => (next a).run rest
      | (.error e, rest) => (.error e, rest) := rfl

@[simp] theorem run_map (f : α → β) (read : Read ε α) (input : Bytes) :
    (f <$> read).run input =
      match read.run input with
      | (.ok a, rest) => (.ok (f a), rest)
      | (.error e, rest) => (.error e, rest) := rfl

theorem ext_run {left right : Read ε α} (same : ∀ input, left.run input = right.run input) :
    left = right := by
  cases left
  cases right
  exact congrArg Read.mk (funext same)

instance : LawfulMonad (Read ε) :=
  LawfulMonad.mk' (Read ε)
    (fun read => ext_run fun input => by
      rw [run_map]
      rcases read.run input with ⟨outcome, rest⟩
      cases outcome <;> rfl)
    (fun _ _ => rfl)
    (fun read next last => ext_run fun input => by
      simp only [run_bind]
      rcases read.run input with ⟨outcome, rest⟩
      cases outcome <;> rfl)

theorem run_bind_of_ok {first : Read ε α} {next : α → Read ε β} {input rest : Bytes} {a : α}
    (done : first.run input = (.ok a, rest)) :
    (first >>= next).run input = (next a).run rest := by
  rw [run_bind, done]

theorem run_bind_of_error {first : Read ε α} {next : α → Read ε β} {input rest : Bytes} {e : ε}
    (failed : first.run input = (.error e, rest)) :
    (first >>= next).run input = (.error e, rest) := by
  rw [run_bind, failed]

/-- The same read with its faults renamed. -/
def mapError (rename : ε → ε') (read : Read ε α) : Read ε' α :=
  ⟨fun input => ((read.run input).1.mapError rename, (read.run input).2)⟩

/-- Runs a read on other octets, such as the content of an element, and leaves the present octets
as they are. -/
def inside (content : Bytes) (read : Read ε α) : Read ε α :=
  ⟨fun input => ((read.run content).1, input)⟩

/-- The outcome of a read on the given octets. -/
def decode (read : Read ε α) (octets : Bytes) : Except ε α :=
  (read.run octets).1

end Read

/-- The tag announced by the first octet left, which may be one that no read accepts. -/
def peekTag : Read Error (Option Tag) :=
  ⟨fun input => (.ok (input.head?.map Tag.ofOctet), input)⟩

/-- Fails unless nothing is left. -/
def finish : Read Error Unit :=
  ⟨fun input => (if input.isEmpty then .ok () else .error (.trailingData input.length), input)⟩

/-- The same read with nothing after it. -/
def Read.only {α : Type} (read : Read Error α) : Read Error α := do
  let value ← read
  finish
  return value

/-- Reads one element of any kind: its tag and its content. -/
def readAny : Read Error (Tag × Bytes) :=
  ⟨fun input =>
    match readHeader input with
    | .error e => (.error e, input)
    | .ok (tag, length, rest) => (.ok (tag, rest.take length), rest.drop length)⟩

/-- Reads one element of any kind, header included. -/
def readElement : Read Error Bytes :=
  ⟨fun input =>
    match readAny.run input with
    | (.error e, rest) => (.error e, rest)
    | (.ok _, rest) => (.ok (input.take (input.length - rest.length)), rest)⟩

/-- Reads the content of an element with the given tag. -/
def readContent (expected : Tag) : Read Error Bytes := do
  match ← peekTag with
  | none => throw .unexpectedEnd
  | some actual =>
    if actual ≠ expected then throw (.unexpectedTag expected actual)
    let (_, content) ← readAny
    return content

/-- Whether the first octet has its high bit set, which makes an integer negative. -/
def negative (content : Bytes) : Bool :=
  match content with
  | [] => false
  | first :: _ => 0x80 ≤ first

/-- Reads the two's complement content of an integer. -/
def readInteger : Read Error Bytes := do
  let content ← readContent .integer
  if content.isEmpty then throw .emptyInteger
  return content

def readUnsigned : Read Error Nat := do
  let value := BigEndian.toInt (← readInteger)
  if value < 0 then throw .negativeInteger
  return value.toNat

/-- Reads an integer that fits in 64 bits; leading zeros do not count. -/
def readWord : Read Error UInt64 := do
  let content ← readInteger
  if negative content then throw .negativeInteger
  let digits := content.dropWhile (· = 0)
  if 8 < digits.length then throw .integerOverflow
  return BigEndian.toWord digits

def readOctetString : Read Error Bytes :=
  readContent .octetString

def readBitString : Read Error BitString := do
  let content ← readContent .bitString
  Read.ofExcept ((BitString.ofValidContent content).mapError .invalidBitString)

def readNull : Read Error Unit := do
  let content ← readContent .null
  if ¬ content.isEmpty then throw .invalidNull

def readObjectIdentifier : Read Error ObjectIdentifier := do
  let content ← readContent .objectIdentifier
  Read.ofExcept ((ObjectIdentifier.ofContents content).mapError .invalidObjectIdentifier)

/-- Reads the content of a sequence. -/
def readSequence : Read Error Bytes :=
  readContent .sequence

/-- Reads the content of an explicit `[slot]` wrapper. -/
def readExplicit (slot : UInt8) : Read Error Bytes :=
  readContent (.explicit slot)

/-- Reads the content of an explicit `[slot]` wrapper if that is what comes next. -/
def readOptionalExplicit (slot : UInt8) : Read Error (Option Bytes) := do
  if (← peekTag) = some (.explicit slot) then
    return some (← readExplicit slot)
  else
    return none

end KeyFile.Asn1
