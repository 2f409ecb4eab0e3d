import DirectoryTables.Json.Value

/-!
# JSON — Printer

The text of a value over several lines: every element of a list and every member of an object has
a line of its own, indented by two spaces for each level.  Empty lists and objects stay on one
line.
-/

namespace DirectoryTables.Json

/-- A character inside a JSON string: quotes, backslashes and controls are escaped. -/
def stringChar (c : Char) : List Char :=
  if c = '\x22' ∨ c = '\\' then ['\\', c]
  else if c = '\x08' then ['\\', 'b']
  else if c = '\x0c' then ['\\', 'f']
  else if c = '\n' then ['\\', 'n']
  else if c = '\r' then ['\\', 'r']
  else if c = '\t' then ['\\', 't']
  else if c < ' ' then
    ['\\', 'u', '0', '0', Nat.digitChar (c.toNat / 16), Nat.digitChar (c.toNat % 16)]
  else [c]

/-- A JSON string. -/
def stringText (s : String) : String :=
  String.ofList ('\x22' :: s.toList.flatMap stringChar ++ ['\x22'])

/-- The start of a line at a level. -/
def lineStart (level : Nat) : String :=
  String.ofList ('\n' :: List.replicate (2 * level) ' ')

/-- Lines with a comma behind all but the last. -/
def separated : List String → String
  | [] => ""
  | [s] => s
  | s :: t :: r => s ++ "," ++ separated (t :: r)

mutual

/-- The text of a value that stands at a level. -/
def Value.pretty (level : Nat) : Value → String
  | .null => "null"
  | .boolean true => "true"
  | .boolean false => "false"
  | .number (.integer n) => integerText n
  | .number (.float x) => floatText x
  | .string s => stringText s
  | .list [] => "[]"
  | .list (v :: vs) =>
    "[" ++ separated (prettyItems (level + 1) (v :: vs)) ++ lineStart level ++ "]"
  | .object [] => "\x7b\x7d"
  | .object (m :: ms) =>
    "\x7b" ++ separated (prettyMembers (level + 1) (m :: ms)) ++ lineStart level ++ "\x7d"

/-- The lines of the elements of a list. -/
def prettyItems (level : Nat) : List Value → List String
  | [] => []
  | v :: vs => (lineStart level ++ v.pretty level) :: prettyItems level vs

/-- The lines of the members of an object. -/
def prettyMembers (level : Nat) : List (String × Value) → List String
  | [] => []
  | (key, v) :: ms =>
    (lineStart level ++ stringText key ++ ": " ++ v.pretty level) :: prettyMembers level ms

end

end DirectoryTables.Json
