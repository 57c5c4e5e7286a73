/-
Reading JSON. The reader takes the tokens of a text one by one; its state is what may come next and
the arrays and objects that are still open, the innermost one first. A text is read exactly if all
tokens are accepted and nothing is left open.
-/
import ControlPlane.Json.Token
import ControlPlane.Json.Value

namespace ControlPlane.Json

/-- An array or object that is still open, with what it holds so far, the last one first. A name is
`none` if it has an unpaired surrogate. -/
inductive Frame where
  | items (earlier : List Json)
  | members (earlier : List (Option String × Json)) (name : Option String)

/-- The object with the given members, if every name denotes characters. -/
def ofNamed (members : List (Option String × Json)) : Json :=
  match members.mapM fun m => m.1.map (·, m.2) with
  | some named => .object named
  | none => .unpaired

/-- The state of the reader: what has been read last, inside of the open frames. -/
inductive Reading where
  /-- A value is due. -/
  | valueDue (frames : List Frame)
  /-- An array was opened. -/
  | arrayOpened (frames : List Frame)
  /-- An object was opened. -/
  | objectOpened (frames : List Frame)
  /-- A comma was read in an object, so a name is due. -/
  | nameDue (earlier : List (Option String × Json)) (frames : List Frame)
  /-- A name was read, so a colon is due. -/
  | colonDue (earlier : List (Option String × Json)) (name : Option String) (frames : List Frame)
  /-- A value was read. -/
  | valueRead (v : Json) (frames : List Frame)

namespace Reading

def start : Reading := .valueDue []

/-- Reads the first token of a value. -/
def beginValue? (frames : List Frame) : Token → Option Reading
  | .null => some (.valueRead .null frames)
  | .bool b => some (.valueRead (.bool b) frames)
  | .natural n => some (.valueRead (.natural n) frames)
  | .number literal => some (.valueRead (.number literal) frames)
  | .string s => some (.valueRead (.string s) frames)
  | .unpaired => some (.valueRead .unpaired frames)
  | .openArray => some (.arrayOpened frames)
  | .openObject => some (.objectOpened frames)
  | _ => none

/-- Reads the name of a member. -/
def beginMember? (earlier : List (Option String × Json)) (frames : List Frame) : Token → Option Reading
  | .string s => some (.colonDue earlier (some s) frames)
  | .unpaired => some (.colonDue earlier none frames)
  | _ => none

/-- Reads one token. -/
def step? : Reading → Token → Option Reading
  | .valueDue frames, t => beginValue? frames t
  | .arrayOpened frames, .closeArray => some (.valueRead (.array []) frames)
  | .arrayOpened frames, t => beginValue? (.items [] :: frames) t
  | .objectOpened frames, .closeObject => some (.valueRead (.object []) frames)
  | .objectOpened frames, t => beginMember? [] frames t
  | .nameDue earlier frames, t => beginMember? earlier frames t
  | .colonDue earlier name frames, .colon => some (.valueDue (.members earlier name :: frames))
  | .valueRead v (.items earlier :: frames), .comma => some (.valueDue (.items (v :: earlier) :: frames))
  | .valueRead v (.items earlier :: frames), .closeArray =>
    some (.valueRead (.array (v :: earlier).reverse) frames)
  | .valueRead v (.members earlier name :: frames), .comma => some (.nameDue ((name, v) :: earlier) frames)
  | .valueRead v (.members earlier name :: frames), .closeObject =>
    some (.valueRead (ofNamed ((name, v) :: earlier).reverse) frames)
  | _, _ => none

/-- The value that was read, if nothing is left open. -/
def finish? : Reading → Option Json
  | .valueRead v [] => some v
  | _ => none

end Reading

/-- The value that a sequence of tokens denotes. -/
def ofTokens? (tokens : List Token) : Option Json :=
  (tokens.foldlM Reading.step? .start).bind Reading.finish?

/-- The value that a text denotes. -/
def parse? (text : String) : Option Json :=
  (Token.scan? text).bind ofTokens?

end ControlPlane.Json
