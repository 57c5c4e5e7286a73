/-
Unique identifiers of nodes, ports and links. A UID is text: the IDs of a node, of a port and of a
link, as far as they apply, with `$$` between them. Splitting a UID loses nothing
(`Uid.join_split`), and the UID of a port is one that splits into exactly two non-empty parts.
-/
import ControlPlane.Json.Form
import ControlPlane.Text.Split

namespace ControlPlane

/-- The identifier of a node, a port or a link. -/
structure Uid where
  text : String
deriving DecidableEq, Repr, Inhabited

namespace Uid

/-- What stands between the parts of a UID. -/
def delimiter : String := "$$"

/-- The UID with the given parts. -/
def join (parts : List String) : Uid :=
  ⟨String.ofList (['$', '$'].intercalate (parts.map String.toList))⟩

/-- The parts of a UID, cut at the delimiter from the left. -/
def split (u : Uid) : List String :=
  (Text.split '$' ['$'] u.text.toList).map String.ofList

/-- Splitting a UID loses nothing. -/
theorem join_split (u : Uid) : join u.split = u := by
  simp only [join, split, List.map_map]
  rw [show (String.toList ∘ String.ofList) = id from funext fun _ => String.toList_ofList, List.map_id,
    Text.intercalate_split, String.ofList_toList]

/-! ## Order -/

instance : LT Uid := ⟨fun a b => a.text < b.text⟩

instance : DecidableLT Uid := fun a b => inferInstanceAs (Decidable (a.text < b.text))

instance : StrictOrder Uid where
  irrefl a := StrictOrder.irrefl a.text
  trans := fun {a b c} => StrictOrder.trans (a := a.text) (b := b.text) (c := c.text)
  total a b := (StrictOrder.total a.text b.text).imp_right (Or.imp_left fun h => by cases a; cases b; simp_all)

/-! ## Ports -/

/-- Why a UID cannot be used. -/
inductive Error where
  /-- The UID does not have the parts of a port. -/
  | malformedPort (uid : Uid)
deriving DecidableEq, Repr

def Error.message : Error → String
  | .malformedPort uid => "Malformed port UID: " ++ uid.text

/-- The IDs of the node and of the port that a port UID consists of. -/
def portParts (u : Uid) : Except Error (String × String) :=
  match u.split with
  | [node, port] =>
    if node.isEmpty || port.isEmpty then .error (.malformedPort u) else .ok (node, port)
  | _ => .error (.malformedPort u)

/-- The node that a port UID belongs to. -/
def nodeOfPort (u : Uid) : Except Error Uid :=
  u.portParts.map fun parts => ⟨parts.1⟩

end Uid

/-! ## JSON form -/

instance : JsonForm Uid where
  toJson u := .string u.text
  ofJson?
    | .string s => some ⟨s⟩
    | _ => none

instance {α : Type} [JsonForm α] : JsonForm (SortedMap Uid α) where
  toJson m := .object (m.entries.map fun e => (e.1.text, toJson e.2))
  ofJson?
    | .object members => (members.mapM fun m => (ofJson? m.2).map (Uid.mk m.1, ·)).map .ofList
    | _ => none

end ControlPlane
