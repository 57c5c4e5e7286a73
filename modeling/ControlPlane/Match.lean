/-
Matches: conjunctions of fields. The order of the fields does not count, and a kind without a field
is unconstrained. A match is meant to have at most one field of each kind (`Match.Distinct`); the
relations between matches count fields, so that a repeated kind is never taken for a conjunction.
-/
import ControlPlane.Field

namespace ControlPlane

/-- A conjunction of fields. -/
structure Match where
  fields : List Field
deriving DecidableEq, Repr, Inhabited

namespace Match

/-- The match that asks for nothing. -/
def any : Match := ⟨[]⟩

/-- The match with one more field. -/
def push (m : Match) (f : Field) : Match := ⟨m.fields ++ [f]⟩

/-- No two fields of the match have the same kind. -/
def Distinct (m : Match) : Prop := m.fields.Pairwise fun f g => f.kind ≠ g.kind

/-- The port that the first in-port field asks for. -/
def inPort? (m : Match) : Option Uid :=
  m.fields.findSome? fun
    | .inPort p => some p
    | _ => none

/-- The match without its in-port fields. -/
def withoutInPort (m : Match) : Match :=
  ⟨m.fields.filter fun f => f.kind != .inPort⟩

/-- The matches have the same number of fields, and each field of the first one has exactly one
equal field in the second. -/
def equals (a b : Match) : Bool :=
  a.fields.length == b.fields.length &&
    a.fields.all fun f => (b.fields.filter fun g => g.sameKind f && f.equals g).length == 1

/-- Each field of the first match has exactly one field of its kind in the second, and subsumes it.
Further fields of the second match narrow it down and do not count. -/
def subsumes (a b : Match) : Bool :=
  a.fields.all fun f =>
    match b.fields.filter fun g => g.sameKind f with
    | [g] => f.subsumes g
    | _ => false

def describe (m : Match) : String :=
  if m.fields.isEmpty then "*" else ", ".intercalate (m.fields.map Field.describe)

end Match

instance : JsonForm Match where
  toJson m := .object [("fields", toJson m.fields)]
  ofJson? v := do
    let [fields] ← v.columns? ["fields"] | none
    return ⟨← Json.required? fields⟩

end ControlPlane
