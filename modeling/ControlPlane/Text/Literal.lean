/-
Text as a literal between quotes. Quotes and backslashes are escaped, and so is every character that
would not be seen as itself: one that is not graphic or is ignored by default, a space other than the
plain one, and a mark that is drawn together with the character before it.
-/
import ControlPlane.Numeral
import ControlPlane.Text.Extending
import ControlPlane.Text.Graphic
import ControlPlane.Text.Ignorable

namespace ControlPlane.Text

/-- Whether a character is seen as itself, whatever stands before it. -/
def standsAlone (c : Char) : Bool :=
  c = ' ' || isGraphic c && !isSpace c && !isIgnorable c && !isExtending c

/-- A character as it stands in a literal. -/
def literalChar (c : Char) : List Char :=
  if c = '"' then ['\\', '"']
  else if c = '\\' then ['\\', '\\']
  else if c = '\n' then ['\\', 'n']
  else if c = '\r' then ['\\', 'r']
  else if c = '\t' then ['\\', 't']
  else if c = '\x00' then ['\\', '0']
  else if standsAlone c then [c]
  else '\\' :: 'u' :: '\x7b' :: (Numeral.hex c.toNat).toList ++ ['\x7d']

/-- A text as a literal. -/
def literal (s : String) : String :=
  String.ofList ('"' :: s.toList.flatMap literalChar ++ ['"'])

end ControlPlane.Text
