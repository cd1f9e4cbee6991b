import KeyFile.Bytes.Hex
import KeyFile.Command.Json
import KeyFile.Encoding.PrivateKeyInfo

/-!
# Reports on keys

A summary holds what may be shown of a private key, and a report is made of the summary alone.
-/
namespace KeyFile.Command

/-- What may be shown of a key. -/
structure Summary where
  algorithm : Algorithm
  curve : Option Curve
  size : Nat
  /-- The public exponent of an RSA key. -/
  publicExponent : Option Nat
  publicKey : Option Bytes
  deriving DecidableEq, Repr

namespace Summary

def ofKey (key : PrivateKey) : Summary where
  algorithm := key.algorithm
  curve := key.curve?
  size := key.size
  publicExponent := key.rsaKey?.map (·.publicExponent)
  publicKey := key.publicKey?

def familyName (summary : Summary) : String :=
  summary.algorithm.family.name

def identifierText (summary : Summary) : String :=
  String.ofList summary.algorithm.identifier.text

/-- The kind within a family that has several. -/
def kindName? (summary : Summary) : Option String :=
  match summary.algorithm with
  | .raw kind => some kind.name
  | _ => none

/-- The lines of a report in text. -/
def lines (showIdentifier : Bool) (summary : Summary) : List String :=
  [s!"Private Key ({PrivateKey.formatName})"] ++
    (if showIdentifier then
      [s!"  Algorithm: {summary.familyName} ({summary.identifierText})"]
    else [s!"  Algorithm: {summary.familyName}"]) ++
    summary.kindName?.toList.map (fun name => s!"  Type: {name}") ++
    summary.curve.toList.map (fun curve =>
      s!"  Curve: {curve.name} ({String.ofList curve.identifier.text})") ++
    [s!"  Key Size: {summary.size} bits"] ++
    summary.publicExponent.toList.map (fun exponent => s!"  Public Exponent: {exponent}") ++
    [match summary.publicKey with
      | some octets => s!"  Public Key: {octets.length} bytes"
      | none => "  Public Key: (not included)"]

/-- A report in text, with a line feed after each line. -/
def text (showIdentifier : Bool) (summary : Summary) : String :=
  String.join ((summary.lines showIdentifier).map (· ++ "\n"))

def json (summary : Summary) : Json :=
  .object ([("format", .string PrivateKey.formatName), ("algorithm", .string summary.familyName),
    ("algorithm_oid", .string summary.identifierText)] ++
    summary.kindName?.toList.map (fun name => ("kind", .string name)) ++
    summary.curve.toList.map (fun curve => ("curve", .object [("name", .string curve.name),
      ("oid", .string (String.ofList curve.identifier.text))])) ++
    [("key_size", .number summary.size)] ++
    summary.publicExponent.toList.map
      (fun exponent => ("public_exponent", .string (toString exponent))) ++
    summary.publicKey.toList.map (fun octets => ("public_key", .string (Hex.text octets))))

end Summary

end KeyFile.Command
