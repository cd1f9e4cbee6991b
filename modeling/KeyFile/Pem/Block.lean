import KeyFile.Pem.Base64
import KeyFile.Text

/-!
# Armored blocks

A block has a label, headers and a payload. It is written between two boundary lines that hold the
label: the headers and a blank line if there are headers, then the payload in base64, 64 symbols to
a line. The label says what the payload is.
-/
namespace KeyFile.Pem

structure Label where
  text : Text
  deriving DecidableEq, Repr

namespace Label

def privateKey : Label := ⟨"PRIVATE KEY".toList⟩
def encryptedPrivateKey : Label := ⟨"ENCRYPTED PRIVATE KEY".toList⟩
def rsaPrivateKey : Label := ⟨"RSA PRIVATE KEY".toList⟩
def ecPrivateKey : Label := ⟨"EC PRIVATE KEY".toList⟩
def dsaPrivateKey : Label := ⟨"DSA PRIVATE KEY".toList⟩
def publicKey : Label := ⟨"PUBLIC KEY".toList⟩
def rsaPublicKey : Label := ⟨"RSA PUBLIC KEY".toList⟩
def certificate : Label := ⟨"CERTIFICATE".toList⟩

/-- The labels that announce private keys. -/
def privateKeys : List Label :=
  [privateKey, encryptedPrivateKey, rsaPrivateKey, ecPrivateKey, dsaPrivateKey]

def isPrivateKey (label : Label) : Bool :=
  privateKeys.contains label

end Label

structure Block where
  label : Label
  headers : List (Text × Text)
  payload : Bytes
  deriving DecidableEq, Repr

namespace Block

/-- The value of the first header of that name, capitals and small letters taken as equal. -/
def header? (block : Block) (name : Text) : Option Text :=
  (block.headers.find? fun header => Text.sameIgnoringCase header.1 name).map (·.2)

/-- Whether the headers announce that the payload itself is encrypted. -/
def isLegacyEncrypted (block : Block) : Bool :=
  match block.header? "Proc-Type".toList with
  | none => false
  | some value => Text.contains "ENCRYPTED".toList (value.map Char.toUpper)

/-- The five dashes at either end of a boundary line. -/
def dashes : Text := List.replicate 5 '-'

def beginWord : Text := "BEGIN ".toList
def endWord : Text := "END ".toList

def beginLine (label : Label) : Text :=
  dashes ++ beginWord ++ label.text ++ dashes

def endLine (label : Label) : Text :=
  dashes ++ endWord ++ label.text ++ dashes

def headerLine (header : Text × Text) : Text :=
  header.1 ++ ':' :: ' ' :: header.2

/-- The payload in base64, 64 symbols to a line. -/
def bodyLines (payload : Bytes) : List Text :=
  pieces 64 ((Base64.encode payload).map Char.ofUInt8)

/-- The lines of a written block. -/
def lines (block : Block) : List Text :=
  beginLine block.label :: block.headers.map headerLine ++
    (if block.headers.isEmpty then [] else [[]]) ++ bodyLines block.payload ++
    [endLine block.label]

/-- A block as text, with no line feed after its last line. -/
def render (block : Block) : Text :=
  Text.join '\n' block.lines

end Block

end KeyFile.Pem
