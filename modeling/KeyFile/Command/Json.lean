/-!
# JSON text

Values are written with one member or item on a line, two spaces further in than what holds them.
-/
namespace KeyFile

inductive Json where
  | string (value : String)
  | number (value : Nat)
  | array (items : List Json)
  | object (members : List (String × Json))

namespace Json

/-- A character within a string: quotes, backslashes and controls are escaped. -/
def escaped (c : Char) : List Char :=
  if c = '"' then ['\\', '"']
  else if c = '\\' then ['\\', '\\']
  else if c = '\n' then ['\\', 'n']
  else if c = '\r' then ['\\', 'r']
  else if c = '\t' then ['\\', 't']
  else if c = '\x08' then ['\\', 'b']
  else if c = '\x0c' then ['\\', 'f']
  else if c.toNat < 0x20 then
    ['\\', 'u', '0', '0', Nat.digitChar (c.toNat / 16), Nat.digitChar (c.toNat % 16)]
  else [c]

def quoted (text : String) : String :=
  "\"" ++ String.ofList (text.toList.flatMap escaped) ++ "\""

/-- A line feed and the indentation of a level. -/
def newLine (level : Nat) : String :=
  "\n" ++ String.ofList (List.replicate (2 * level) ' ')

mutual

/-- A value that begins on a line of the given level. -/
def renderAt (level : Nat) : Json → String
  | .string value => quoted value
  | .number value => toString value
  | .array [] => "[]"
  | .array (first :: rest) =>
    "[" ++ newLine (level + 1) ++ renderAt (level + 1) first ++ renderItems (level + 1) rest ++
      newLine level ++ "]"
  | .object [] => "\x7b\x7d"
  | .object ((name, value) :: rest) =>
    "\x7b" ++ newLine (level + 1) ++ quoted name ++ ": " ++ renderAt (level + 1) value ++
      renderMembers (level + 1) rest ++ newLine level ++ "\x7d"

/-- The items after the first. -/
def renderItems (level : Nat) : List Json → String
  | [] => ""
  | item :: rest => "," ++ newLine level ++ renderAt level item ++ renderItems level rest

/-- The members after the first. -/
def renderMembers (level : Nat) : List (String × Json) → String
  | [] => ""
  | (name, value) :: rest =>
    "," ++ newLine level ++ quoted name ++ ": " ++ renderAt level value ++
      renderMembers level rest

end

def render (value : Json) : String :=
  renderAt 0 value

end Json

end KeyFile
