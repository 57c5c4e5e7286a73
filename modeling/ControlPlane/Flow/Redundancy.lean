/-
Redundant flow entries. An entry of a list is redundant if another one subsumes it without being
equal to it, or if an earlier one is equal to it; so of equal entries the first one stays.

Equality and subsumption are those of flow entries, which need not hold between an entry and itself.
-/
import ControlPlane.Flow

namespace ControlPlane.FlowEntry

/-- The first entry subsumes the second one, and they are not equal. -/
def strictlySubsumes (a b : FlowEntry) : Bool := a.subsumes b && !a.equals b

/-- An entry between those before and those after it is made redundant by one of them. -/
def isRedundant (before : List FlowEntry) (f : FlowEntry) (after : List FlowEntry) : Bool :=
  before.any (fun g => g.strictlySubsumes f || g.equals f) || after.any fun g => g.strictlySubsumes f

/-- The entries of a list that are not redundant, where `before` are the ones before the list. -/
def essentialAfter (before : List FlowEntry) : List FlowEntry → List FlowEntry
  | [] => []
  | f :: after =>
    if isRedundant before f after then essentialAfter (f :: before) after
    else f :: essentialAfter (f :: before) after

/-- The entries of a list that are not redundant, in order. -/
def essential (flows : List FlowEntry) : List FlowEntry := essentialAfter [] flows

end ControlPlane.FlowEntry
