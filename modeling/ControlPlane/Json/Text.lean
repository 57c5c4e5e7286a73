/-
Values in text: the JSON text of a value, and the value that a JSON text holds.
-/
import ControlPlane.Json.Form
import ControlPlane.Json.Reader
import ControlPlane.Json.Writer

namespace ControlPlane.Json

variable {α : Type} [JsonForm α]

/-- The value that a JSON text holds. -/
def decode? (text : String) : Option α := (parse? text).bind ofJson?

/-- The JSON text of a value on one line. -/
def encode (a : α) : String := compact (toJson a)

/-- The JSON text of a value with one part per line. -/
def encodePretty (a : α) : String := pretty (toJson a)

end ControlPlane.Json
