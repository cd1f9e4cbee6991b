import KeyFile.Command.Arguments
import KeyFile.Command.FileTree
import KeyFile.Command.Report
import KeyFile.Document
import KeyFile.Text.Utf8

/-!
# Running the command

A request reads one input, takes a password from its settings or from a variable, loads the first
key or all keys, and then either writes a report on each of them or writes each of them anew. The
input and the variable are read outside; here they are values. A run that fails ends with a chain of
messages, and what it has written before that stays written.
-/
namespace KeyFile.Command

inductive Failure where
  | unreadable (cause : ReadError)
  | notText (cause : Utf8.Error)
  | missingVariable (name : Text)
  | notLoaded (cause : LoadError)
  /-- A key that has been loaded cannot be written anew. -/
  | notWritten (cause : Error)
  deriving DecidableEq, Repr

/-- The message of a failure and those of its causes, outermost first. -/
def Failure.messages : Failure → List String
  | .unreadable cause => [s!"IO error: {cause.message}", cause.message]
  | .notText cause => [s!"UTF-8 conversion error: {cause.message}", cause.message]
  | .missingVariable name => [s!"environment variable {String.ofList name} is not set"]
  | .notLoaded error =>
    [error.message, error.cause.message] ++ error.cause.causeMessage?.toList
  | .notWritten cause =>
    [s!"private key error: {cause.message}", cause.message] ++ cause.causeMessage?.toList

/-- What the standard error output shows of a failure. -/
def Failure.report (failure : Failure) : String :=
  match failure.messages with
  | [] => ""
  | first :: causes =>
    s!"Error: {first}\n" ++ String.join (causes.map fun cause => s!"  caused by: {cause}\n")

/-- The name of the input in messages. -/
def Settings.origin (settings : Settings) : Text :=
  settings.file.getD "<stdin>".toList

/-- The password to be used; `held` is the value of the variable that the settings name. -/
def Settings.chosenPassword (settings : Settings) (held : Option Text) :
    Except Failure (Option Text) :=
  match settings.password, settings.passwordVariable with
  | some password, _ => .ok (some password)
  | none, some name =>
    match held with
    | some password => .ok (some password)
    | none => .error (.missingVariable name)
  | none, none => .ok none

/-- The keys that a request is about. -/
def Settings.keys (settings : Settings) (input : Except ReadError Bytes)
    (held : Option Text) : Except Failure (List PrivateKey) := do
  let octets ← input.mapError .unreadable
  let text ← (Utf8.decode octets).mapError .notText
  let password := (← settings.chosenPassword held).map Text.utf8
  if settings.all then
    (Document.loadAll (some settings.origin) text password).mapError .notLoaded
  else
    (fun key => [key]) <$>
      (Document.load (some settings.origin) text password).mapError .notLoaded

/-! ## Writing -/

/-- A part of a run, which may write to the standard output and may fail. What it has written before
it fails stays written. -/
abbrev Writing := ExceptT Failure (StateM String)

namespace Writing

/-- How a part of a run ends, and what has been written by then. -/
def result {α : Type} (writing : Writing α) (before : String) : Except Failure α × String :=
  Id.run (StateT.run writing.run before)

def print (text : String) : Writing Unit :=
  modify (· ++ text)

/-- Writes the renderings of items one after another, until an item has none. -/
def each {α : Type} (render : α → Except Failure String) (items : List α) : Writing Unit :=
  items.forM fun item => do
    let text ← render item
    print text

end Writing

/-- The armored block that a key is written anew as, with a line feed after it. -/
def rewritten (key : PrivateKey) : Except Failure String := do
  let block ← key.armor.mapError .notWritten
  return String.ofList block.render ++ "\n"

/-- Writes the keys anew, one after another. -/
def convert (keys : List PrivateKey) : Writing Unit :=
  Writing.each rewritten keys

/-- Writes reports on the keys: with a blank line between them in text, and as an array in JSON if
all keys were asked for. -/
def inspect (settings : Settings) (keys : List PrivateKey) : Writing Unit :=
  let summaries := keys.map Summary.ofKey
  match settings.output.getD .text with
  | .text =>
    Writing.print ("\n".intercalate (summaries.map (Summary.text settings.showIdentifier)))
  | .json =>
    if settings.all then
      Writing.print ((Json.array (summaries.map Summary.json)).render ++ "\n")
    else Writing.each (fun summary => .ok (summary.json.render ++ "\n")) summaries

def Request.run (request : Request) (input : Except ReadError Bytes)
    (held : Option Text) : Writing Unit := do
  let keys ← request.settings.keys input held
  match request.action with
  | .inspect => inspect request.settings keys
  | .convert => convert keys

/-- How a run of the program ends. -/
structure Outcome where
  status : Nat
  standardOutput : String
  standardError : String
  deriving DecidableEq, Repr

def usage : String :=
  "usage: key inspect [FILE] [--password P | --password-env VAR] [--all] [-o text|json]\n" ++
    "                   [--show-oid]\n" ++
    "       key convert [FILE] [--password P | --password-env VAR] [--all]\n"

def UsageError.message : UsageError → String
  | .missingCommand => "a command is missing"
  | .unexpected argument => s!"unexpected argument {String.ofList argument}"
  | .missingValue name => s!"option {String.ofList name} needs a value"
  | .invalidValue name value =>
    s!"option {String.ofList name} does not take the value {String.ofList value}"
  | .repeated name => s!"option {String.ofList name} is repeated"
  | .twoPasswords => "a password and a password variable exclude each other"
  | .helpRequested => "help is requested"

/-- The outcome for arguments that make no request. -/
def UsageError.outcome : UsageError → Outcome
  | .helpRequested => ⟨0, usage, ""⟩
  | error => ⟨2, "", s!"error: {error.message}\n" ++ usage⟩

def Request.outcome (request : Request) (input : Except ReadError Bytes)
    (held : Option Text) : Outcome :=
  match (request.run input held).result "" with
  | (.ok (), written) => ⟨0, written, ""⟩
  | (.error failure, written) => ⟨1, written, failure.report⟩

end KeyFile.Command
