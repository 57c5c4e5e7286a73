/-
Writing JSON: on one line without blanks (`compact`), and with one value per line, indented by two
spaces (`pretty`). Both escape only what has to be escaped: quotes, backslashes and control
characters. Empty arrays and objects stay on one line.
-/
import ControlPlane.Json.Value
import ControlPlane.Numeral

namespace ControlPlane.Json

/-- A character as it is written inside quotes. -/
def escapeChar (c : Char) : List Char :=
  if c = '"' then ['\\', '"']
  else if c = '\\' then ['\\', '\\']
  else if c = '\x08' then ['\\', 'b']
  else if c = '\t' then ['\\', 't']
  else if c = '\n' then ['\\', 'n']
  else if c = '\x0c' then ['\\', 'f']
  else if c = '\r' then ['\\', 'r']
  else if c.toNat < 0x20 then '\\' :: 'u' :: (Numeral.hexPadded 4 c.toNat).toList
  else [c]

/-- A string in quotes. -/
def quote (s : String) : String :=
  String.ofList ('"' :: s.toList.flatMap escapeChar ++ ['"'])

/-- The text of a value without parts. -/
def scalarText : Json → String
  | .null => "null"
  | .bool true => "true"
  | .bool false => "false"
  | .natural n => Numeral.decimal n
  | .number literal => literal
  | .string s => quote s
  | .unpaired => "\"\\ud800\""
  | .array _ => "[]"
  | .object _ => "\x7b\x7d"

mutual

/-- The text of a value on one line. -/
def compact : Json → String
  | .array (item :: items) => "[" ++ compact item ++ compactItems items ++ "]"
  | .object ((name, v) :: members) =>
    "\x7b" ++ quote name ++ ":" ++ compact v ++ compactMembers members ++ "\x7d"
  | v => scalarText v

/-- The items after the first one, on one line. -/
def compactItems : List Json → String
  | [] => ""
  | item :: items => "," ++ compact item ++ compactItems items

/-- The members after the first one, on one line. -/
def compactMembers : List (String × Json) → String
  | [] => ""
  | (name, v) :: members => "," ++ quote name ++ ":" ++ compact v ++ compactMembers members

end

/-- The start of a line at a nesting level. -/
def lineStart (level : Nat) : String :=
  "\n" ++ String.ofList (List.replicate (2 * level) ' ')

mutual

/-- The text of a value whose lines start at a nesting level. -/
def prettyAt (level : Nat) : Json → String
  | .array (item :: items) =>
    "[" ++ lineStart (level + 1) ++ prettyAt (level + 1) item ++ prettyItems (level + 1) items ++
      lineStart level ++ "]"
  | .object ((name, v) :: members) =>
    "\x7b" ++ lineStart (level + 1) ++ quote name ++ ": " ++ prettyAt (level + 1) v ++
      prettyMembers (level + 1) members ++ lineStart level ++ "\x7d"
  | v => scalarText v

/-- The items after the first one, each on a line of its own. -/
def prettyItems (level : Nat) : List Json → String
  | [] => ""
  | item :: items => "," ++ lineStart level ++ prettyAt level item ++ prettyItems level items

/-- The members after the first one, each on a line of its own. -/
def prettyMembers (level : Nat) : List (String × Json) → String
  | [] => ""
  | (name, v) :: members =>
    "," ++ lineStart level ++ quote name ++ ": " ++ prettyAt level v ++ prettyMembers level members

end

/-- The text of a value with one part per line. -/
def pretty (v : Json) : String := prettyAt 0 v

end ControlPlane.Json
