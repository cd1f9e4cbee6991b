import KeyFile.Bytes.BigEndian
import KeyFile.Text.Decimal

/-!
# Object identifiers

An object identifier is a list of arcs. The first arc is at most 2, the second is below 40 under
the first two of them, and 40 times the first plus the second, like every later arc, fits in 64
bits; so each value has content octets, in which every number is written in base 128 with the
fewest groups, and a dotted text. Values are built from arcs, from content octets or from text, and
each way says what is wrong with an input that names none.
-/
namespace KeyFile.Asn1

/-- Arcs that have content octets. -/
def ValidArcs : List Nat → Prop
  | first :: second :: rest =>
    first ≤ 2 ∧ (first < 2 → second < 40) ∧ first * 40 + second < UInt64.size ∧
      ∀ arc ∈ rest, arc < UInt64.size
  | _ => False

instance : DecidablePred ValidArcs := fun arcs =>
  match arcs with
  | [] => isFalse id
  | [_] => isFalse id
  | first :: second :: rest =>
    inferInstanceAs (Decidable (first ≤ 2 ∧ (first < 2 → second < 40) ∧
      first * 40 + second < UInt64.size ∧ ∀ arc ∈ rest, arc < UInt64.size))

structure ObjectIdentifier where
  arcs : List Nat
  valid : ValidArcs arcs := by decide
  deriving DecidableEq, Repr

namespace ObjectIdentifier

/-- Why arcs, octets or a text name no object identifier. -/
inductive Error where
  | tooFewArcs
  | firstArcOutOfRange (arc : Nat)
  | arcOutOfRange (arc : Nat)
  | overflow
  | emptyContents
  | nonMinimal
  | incomplete
  | invalidArc (text : Text) (cause : Decimal.Error)
  deriving DecidableEq, Repr

def Error.message : Error → String
  | .tooFewArcs => "at least two arcs are required"
  | .firstArcOutOfRange arc => s!"first arc {arc} out of range"
  | .arcOutOfRange arc => s!"arc {arc} out of range"
  | .overflow => "arc overflow"
  | .emptyContents => "object identifier cannot be empty"
  | .nonMinimal => "non-minimal subidentifier"
  | .incomplete => "incomplete encoding"
  | .invalidArc text cause => s!"{String.ofList text}: {cause.message}"

/-- The object identifier with the given arcs. -/
def ofArcs : List Nat → Except Error ObjectIdentifier
  | first :: second :: rest =>
    if small : first < 2 ∧ 40 ≤ second then .error (.arcOutOfRange second)
    else if large : 2 < first then .error (.firstArcOutOfRange first)
    else if fits : first * 40 + second < UInt64.size ∧ ∀ arc ∈ rest, arc < UInt64.size then
      .ok ⟨first :: second :: rest, by
        refine ⟨by omega, fun below => ?_, fits.1, fits.2⟩
        simp only [below, true_and] at small
        omega⟩
    else .error .overflow
  | _ => .error .tooFewArcs

/-! ## Dotted text -/

/-- The arcs in decimal, with points between them. -/
def text (identifier : ObjectIdentifier) : Text :=
  Text.join '.' (identifier.arcs.map Decimal.text)

/-- Reads dotted text; a fault of an arc is reported together with the whole text. -/
def ofText (text : Text) : Except Error ObjectIdentifier := do
  let arcs ← (Text.split '.' text).mapM fun part => (Decimal.read part).mapError (.invalidArc text)
  ofArcs arcs

/-! ## Content octets -/

/-- The low `width` groups of seven bits, each marked as continued. -/
def continuedGroups : Nat → Nat → Bytes
  | 0, _ => []
  | width + 1, number =>
    continuedGroups width (number / 128) ++ [UInt8.ofNat (128 + number % 128)]

/-- A number in base 128; all groups but the last are marked as continued. -/
def subidentifier (number : Nat) : Bytes :=
  continuedGroups ((BigEndian.bitLength (number / 128) + 6) / 7) (number / 128) ++
    [UInt8.ofNat (number % 128)]

/-- The numbers that are written: the first two arcs share one. -/
def packed (identifier : ObjectIdentifier) : List Nat :=
  match identifier.arcs with
  | first :: second :: rest => (first * 40 + second) :: rest
  | _ => []

def contents (identifier : ObjectIdentifier) : Bytes :=
  identifier.packed.flatMap subidentifier

/-- Reads numbers in base 128; `started` is the value of the groups read of the current one. -/
def readSubidentifiers (started : Option Nat) : Bytes → Except Error (List Nat)
  | [] => if started.isSome then .error .incomplete else .ok []
  | octet :: rest =>
    if started.isNone ∧ octet = 0x80 then .error .nonMinimal
    else
      let before := started.getD 0
      -- Seven bits more have to fit in 64.
      if UInt64.size ≤ before * 128 then .error .overflow
      else
        let value := before * 128 + octet.toNat % 128
        if octet < 0x80 then (value :: ·) <$> readSubidentifiers none rest
        else readSubidentifiers (some value) rest

/-- The arcs that the written numbers stand for. -/
def unpacked : List Nat → List Nat
  | [] => []
  | first :: rest =>
    if first < 40 then 0 :: first :: rest
    else if first < 80 then 1 :: (first - 40) :: rest
    else 2 :: (first - 80) :: rest

def ofContents (octets : Bytes) : Except Error ObjectIdentifier :=
  if octets.isEmpty then .error .emptyContents
  else do
    let numbers ← readSubidentifiers none octets
    ofArcs (unpacked numbers)

end ObjectIdentifier

end KeyFile.Asn1
