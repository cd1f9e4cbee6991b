import KeyFile.Container

/-!
# Documents

A document is a text with any number of armored blocks, of which those count whose label announces a
private key. Its first key or all of its keys can be read; a broken key is an error, even where
another key stands after it. The error of a document names where the text came from, if that is
known.
-/
namespace KeyFile

namespace Document

/-- The blocks that announce private keys, in order. -/
def privateKeyBlocks (text : Text) : Except Error (List Pem.Block) := do
  let blocks ← (Pem.blocks text).mapError .malformedPem
  return blocks.filter (·.label.isPrivateKey)

def readBlock (password : Option Bytes) (block : Pem.Block) : Except Error PrivateKey := do
  let container ← Container.ofBlock block
  container.toPrivateKey password

/-- The first key. -/
def firstKey (text : Text) (password : Option Bytes) : Except Error PrivateKey := do
  match ← privateKeyBlocks text with
  | [] => throw .noKeyFound
  | block :: _ => readBlock password block

/-- All keys; there is at least one. -/
def allKeys (text : Text) (password : Option Bytes) : Except Error (List PrivateKey) := do
  match ← privateKeyBlocks text with
  | [] => throw .noKeyFound
  | blocks => blocks.mapM (readBlock password)

end Document

/-- Why a document cannot be read. -/
structure LoadError where
  origin : Option Text
  cause : Error
  deriving DecidableEq, Repr

def LoadError.message (error : LoadError) : String :=
  match error.origin with
  | none => "Error loading private key"
  | some origin => s!"Error loading private key from {String.ofList origin}"

namespace Document

/-- The first key of a text from the given origin. -/
def load (origin : Option Text) (text : Text) (password : Option Bytes) :
    Except LoadError PrivateKey :=
  (firstKey text password).mapError (LoadError.mk origin)

/-- All keys of a text from the given origin. -/
def loadAll (origin : Option Text) (text : Text) (password : Option Bytes) :
    Except LoadError (List PrivateKey) :=
  (allKeys text password).mapError (LoadError.mk origin)

end Document

end KeyFile
