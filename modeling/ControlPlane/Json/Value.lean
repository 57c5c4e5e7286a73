/-
JSON values. Numbers are kept as the naturals that the program uses, and as their literal otherwise,
so no digit is lost. Members of an object keep their order, and a name may occur twice: what a
repeated name means is decided by the form that reads the object.
-/

namespace ControlPlane

/-- A JSON value. -/
inductive Json where
  | null
  | bool (b : Bool)
  /-- A number written with digits only. -/
  | natural (n : Nat)
  /-- Any other number: it has a sign, a fraction or an exponent. -/
  | number (literal : String)
  | string (s : String)
  /-- A value with an unpaired surrogate in one of its strings: it is well formed as a text, but it
  denotes no characters, so it may be skipped and not be used. -/
  | unpaired
  | array (items : List Json)
  | object (members : List (String × Json))
deriving Repr, Inhabited

end ControlPlane
