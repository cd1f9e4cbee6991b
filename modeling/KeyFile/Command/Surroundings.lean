import KeyFile.Command.Run

/-!
# Running in given surroundings

What a run of the program depends on, besides its arguments, is a value here: the files, the
environment and the standard input. `Surroundings.run` is the whole program on such a value.
-/
namespace KeyFile.Command

structure Surroundings where
  tree : FileTree
  workingDirectory : List Text
  /-- The entries of the environment, each of the form `NAME=value`. -/
  environment : List Text
  standardInput : Bytes
  deriving DecidableEq, Repr

namespace Surroundings

/-- The input that the settings name. -/
def input (surroundings : Surroundings) (settings : Settings) : Except ReadError Bytes :=
  match settings.file with
  | none => .ok surroundings.standardInput
  | some path => surroundings.tree.read surroundings.workingDirectory path

/-- The value of a variable: what comes after the name and an equals sign in the first entry that
begins with both. The empty name has no value. -/
def valueOf? (surroundings : Surroundings) (name : Text) : Option Text :=
  if name = [] then none
  else surroundings.environment.findSome? fun entry => (name ++ ['=']).isPrefixOf? entry

def run (surroundings : Surroundings) (arguments : List Text) : Outcome :=
  match Request.ofArguments arguments with
  | .error error => error.outcome
  | .ok request =>
    request.outcome (surroundings.input request.settings)
      (request.settings.passwordVariable.bind surroundings.valueOf?)

end Surroundings

end KeyFile.Command
