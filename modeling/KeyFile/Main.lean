import KeyFile.Command.Run

/-!
# The program

Reads the input and the variable that the arguments name, and writes the outcome.
-/
namespace KeyFile.Command

/-- Whether a code is that of a system error; some calls give it negated. -/
def isCode (number code : UInt32) : Bool :=
  code = number || code = 0 - number

/-- The cause of a failed read. -/
def readError : IO.Error → ReadError
  | .noFileOrDirectory _ _ _ => .notFound
  | .inappropriateType _ code details =>
    if isCode 20 code then .notDirectory
    else if isCode 21 code then .isDirectory
    else .other details
  | .invalidArgument _ code details => if isCode 36 code then .nameTooLong else .other details
  | error => .other error.toString

/-- All octets that a stream still has. -/
partial def readToEnd (stream : IO.FS.Stream) (before : ByteArray) : IO ByteArray := do
  let next ← stream.read 65536
  if next.isEmpty then return before else readToEnd stream (before ++ next)

def readInput (settings : Settings) : IO (Except ReadError Bytes) := do
  try
    match settings.file with
    | some path => return .ok (← IO.FS.readBinFile (String.ofList path)).toList
    | none => return .ok (← readToEnd (← IO.getStdin) ByteArray.empty).toList
  catch error => return .error (readError error)

def readVariable (settings : Settings) : IO (Option Text) := do
  match settings.passwordVariable with
  | none => return none
  | some name => return (← IO.getEnv (String.ofList name)).map String.toList

def outcomeOf (arguments : List Text) : IO Outcome := do
  match Request.ofArguments arguments with
  | .error error => return error.outcome
  | .ok request =>
    return request.outcome (← readInput request.settings) (← readVariable request.settings)

end KeyFile.Command

def main (arguments : List String) : IO UInt32 := do
  let outcome ← KeyFile.Command.outcomeOf (arguments.map String.toList)
  IO.print outcome.standardOutput
  IO.eprint outcome.standardError
  return UInt32.ofNat outcome.status
