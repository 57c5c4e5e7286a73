/-
Actions: what a flow entry does with the packets it matches.
-/
import ControlPlane.Match

namespace ControlPlane

/-- What is done with a packet. -/
inductive Action where
  /-- Send the packet out of all listed ports. -/
  | forward (ports : List Uid)
  /-- Send the packet out of every port of the node but one. -/
  | flood (inPort : Uid)
  | drop
  | sendToController
  | pushVlan (id : UInt16)
  | popVlan
  /-- Set fields of the packet. -/
  | writeFields (fields : List Field)
deriving DecidableEq, Repr

namespace Action

/-- Both actions do the same: forwarding compares the sets of ports, and writing compares the fields
as a match does. -/
def equals : Action → Action → Bool
  | .forward a, .forward b => a.all b.contains && b.all a.contains
  | .flood a, .flood b => a == b
  | .drop, .drop => true
  | .sendToController, .sendToController => true
  | .pushVlan a, .pushVlan b => a == b
  | .popVlan, .popVlan => true
  | .writeFields a, .writeFields b => Match.equals ⟨a⟩ ⟨b⟩
  | _, _ => false

/-- The action sends the packet out of ports of the node. -/
def isForwarding : Action → Bool
  | .forward _ => true
  | .flood _ => true
  | _ => false

/-- The lists have the same length, and their actions are equal one by one. -/
def listEquals (a b : List Action) : Bool :=
  a.length == b.length && (a.zip b).all fun p => p.1.equals p.2

def describe : Action → String
  | .forward ports => "forward(" ++ ", ".intercalate (ports.map Uid.text) ++ ")"
  | .flood p => "flood(except " ++ p.text ++ ")"
  | .drop => "drop"
  | .sendToController => "controller"
  | .pushVlan id => "push_vlan(" ++ Numeral.decimal id.toNat ++ ")"
  | .popVlan => "pop_vlan"
  | .writeFields fields => "write(" ++ ", ".intercalate (fields.map Field.describe) ++ ")"

end Action

instance : JsonForm Action where
  toJson
    | .forward ports => Json.tagged "Forward" (toJson ports)
    | .flood p => Json.tagged "Flood" (.object [("in_port", toJson p)])
    | .drop => .string "Drop"
    | .sendToController => .string "SendToController"
    | .pushVlan id => Json.tagged "PushVlan" (toJson id)
    | .popVlan => .string "PopVlan"
    | .writeFields fields => Json.tagged "WriteFields" (toJson fields)
  ofJson? v :=
    match v.variant? with
    | some ("Forward", some c) => (ofJson? c).map .forward
    | some ("Flood", some c) => do
      let [p] ← c.columns? ["in_port"] | none
      return .flood (← Json.required? p)
    | some ("Drop", c) => Json.bare? .drop c
    | some ("SendToController", c) => Json.bare? .sendToController c
    | some ("PushVlan", some c) => (ofJson? c).map .pushVlan
    | some ("PopVlan", c) => Json.bare? .popVlan c
    | some ("WriteFields", some c) => (ofJson? c).map .writeFields
    | _ => none

end ControlPlane
