import KeyFile.Text

/-!
# Arguments of the command

The command has the forms

    key inspect [FILE] [--password P | --password-env VAR] [--all] [-o text|json] [--show-oid]
    key convert [FILE] [--password P | --password-env VAR] [--all]

Options stand before or after the file, their values follow them or are attached with an equals
sign, and after `--` there are no more options. Each option may be given once. Arguments are judged
from left to right. In the place of a command, `help` asks for help on the command that the names
after it lead to.
-/
namespace KeyFile.Command

/-- Why arguments name no command. -/
inductive UsageError where
  | missingCommand
  | unexpected (argument : Text)
  | missingValue (name : Text)
  | invalidValue (name value : Text)
  | repeated (name : Text)
  /-- A password and a variable that holds one. -/
  | twoPasswords
  /-- The arguments ask for help. -/
  | helpRequested
  deriving DecidableEq, Repr

inductive OutputFormat where
  | text
  | json
  deriving DecidableEq, Repr

/-- The options that arguments have set so far. -/
structure Settings where
  file : Option Text := none
  password : Option Text := none
  passwordVariable : Option Text := none
  all : Bool := false
  output : Option OutputFormat := none
  showIdentifier : Bool := false
  deriving DecidableEq, Repr

inductive Action where
  | inspect
  | convert
  deriving DecidableEq, Repr

/-- An action on the keys of a file, or of the standard input. -/
structure Request where
  action : Action
  settings : Settings
  deriving DecidableEq, Repr

/-- The options with a value. -/
inductive ValueOption where
  | password
  | passwordVariable
  | output
  deriving DecidableEq, Repr

/-- The options without a value. -/
inductive FlagOption where
  | all
  | showIdentifier
  deriving DecidableEq, Repr

/-- The option with a value that has the given long name. -/
def ValueOption.ofName? (action : Action) (name : Text) : Option ValueOption :=
  if name = "password".toList then some .password
  else if name = "password-env".toList then some .passwordVariable
  else if name = "output".toList ∧ action = .inspect then some .output
  else none

/-- The option without a value that has the given long name. -/
def FlagOption.ofName? (action : Action) (name : Text) : Option FlagOption :=
  if name = "all".toList then some .all
  else if name = "show-oid".toList ∧ action = .inspect then some .showIdentifier
  else none

def OutputFormat.ofText? (value : Text) : Option OutputFormat :=
  if value = "text".toList then some .text
  else if value = "json".toList then some .json
  else none

namespace Settings

def setValue (settings : Settings) (option : ValueOption) (name value : Text) :
    Except UsageError Settings :=
  match option with
  | .password =>
    if settings.password.isSome then .error (.repeated name)
    else .ok { settings with password := some value }
  | .passwordVariable =>
    if settings.passwordVariable.isSome then .error (.repeated name)
    else .ok { settings with passwordVariable := some value }
  | .output =>
    if settings.output.isSome then .error (.repeated name)
    else
      match OutputFormat.ofText? value with
      | none => .error (.invalidValue name value)
      | some format => .ok { settings with output := some format }

def setFlag (settings : Settings) (option : FlagOption) (name : Text) :
    Except UsageError Settings :=
  match option with
  | .all => if settings.all then .error (.repeated name) else .ok { settings with all := true }
  | .showIdentifier =>
    if settings.showIdentifier then .error (.repeated name)
    else .ok { settings with showIdentifier := true }

def setFile (settings : Settings) (argument : Text) : Except UsageError Settings :=
  if settings.file.isSome then .error (.unexpected argument)
  else .ok { settings with file := some argument }

end Settings

/-- Whether an argument can be no file and no separate value. A single dash can. -/
def isOption (argument : Text) : Bool :=
  "-".toList.isPrefixOf argument && argument ≠ "-".toList

/-- What an argument is. -/
inductive Item where
  /-- The end of the options. -/
  | separator
  | file
  | long (name : Text) (attached : Option Text)
  /-- An option of one letter, with what follows the letter. -/
  | short (letter : Char) (rest : Text)
  deriving DecidableEq, Repr

def Item.ofArgument : Text → Item
  | '-' :: '-' :: [] => .separator
  | '-' :: '-' :: rest =>
    match rest.dropWhile (· ≠ '=') with
    | [] => .long rest none
    | _ :: value => .long (rest.takeWhile (· ≠ '=')) (some value)
  | '-' :: letter :: rest => .short letter rest
  | _ => .file

/-- The name of an option and the value attached to it. The letter `o` stands for `output`, and its
value may follow without an equals sign. -/
def Item.named? : Item → Option (Text × Option Text)
  | .long name attached => some (name, attached)
  | .short letter rest =>
    if letter = 'o' then
      match rest with
      | [] => some ("output".toList, none)
      | '=' :: value => some ("output".toList, some value)
      | value => some ("output".toList, some value)
    else if letter = 'h' then some ("help".toList, none)
    else some ([letter], some rest)
  | _ => none

/-- Takes in arguments after which there may be options. -/
def Settings.ofArguments (action : Action) (settings : Settings) :
    List Text → Except UsageError Settings
  | [] => .ok settings
  | argument :: rest =>
    let item := Item.ofArgument argument
    -- After the separator every argument is a file, also one with dashes.
    if item = .separator then rest.foldlM Settings.setFile settings
    else
      match item.named? with
      | none => do
        let settings ← settings.setFile argument
        settings.ofArguments action rest
      | some (name, attached) =>
        match ValueOption.ofName? action name, FlagOption.ofName? action name, attached, rest with
        | some option, _, some value, rest => do
          let settings ← settings.setValue option name value
          settings.ofArguments action rest
        | some option, _, none, value :: rest =>
          if isOption value then .error (.missingValue name)
          else do
            let settings ← settings.setValue option name value
            settings.ofArguments action rest
        | some _, _, none, [] => .error (.missingValue name)
        | none, some option, none, rest => do
          let settings ← settings.setFlag option name
          settings.ofArguments action rest
        | none, _, _, _ =>
          if name = "help".toList ∧ attached = none then .error .helpRequested
          else .error (.unexpected argument)

/-- The request for an action with the given arguments. -/
def Request.ofSettings (action : Action) (arguments : List Text) : Except UsageError Request := do
  let settings ← Settings.ofArguments action {} arguments
  if settings.password.isSome ∧ settings.passwordVariable.isSome then throw .twoPasswords
  return ⟨action, settings⟩

def Action.ofName? (name : Text) : Option Action :=
  if name = "inspect".toList then some .inspect
  else if name = "convert".toList then some .convert
  else none

/-! ## Names of commands -/

/-- Where names of commands lead. -/
inductive Place where
  | program
  | group
  | action (action : Action)
  | help
  deriving DecidableEq, Repr

namespace Place

/-- Where a name leads from a place; nothing is below an action, nor below help. -/
def next? : Place → Text → Option Place
  | .program, name =>
    if name = "key".toList then some .group
    else if name = "help".toList then some .help
    else none
  | .group, name =>
    if name = "help".toList then some .help else (Action.ofName? name).map .action
  | .action _, _ => none
  | .help, _ => none

/-- What comes of asking for help on names, all of which have to lead on from a place. -/
def helpOn (place : Place) : List Text → UsageError
  | [] => .helpRequested
  | name :: rest =>
    match place.next? name with
    | none => .unexpected name
    | some next => next.helpOn rest

end Place

/-- Whether an argument is the option that asks for help, in its long or its short form. -/
def isHelpOption (argument : Text) : Bool :=
  argument = "--help".toList || "-h".toList.isPrefixOf argument

/-- The request that arguments make at a place. -/
def Request.ofArgumentsAt (place : Place) : List Text → Except UsageError Request
  | [] => .error .missingCommand
  | name :: arguments =>
    if isHelpOption name then .error .helpRequested
    else
      match place.next? name with
      | none => .error (.unexpected name)
      | some .help => .error (place.helpOn arguments)
      | some (.action action) => Request.ofSettings action arguments
      | some next => Request.ofArgumentsAt next arguments

/-- The request that the arguments of the program make. -/
def Request.ofArguments (arguments : List Text) : Except UsageError Request :=
  Request.ofArgumentsAt .program arguments

end KeyFile.Command
