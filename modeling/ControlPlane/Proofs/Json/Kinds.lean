/-
All types of which values are written as JSON: the records and variants of `Json/Records`, and here the messages, the
configurations and the dicts. Each of them has a lawful form, so whatever is written, on one line or on several, is
read as the value that was written (`written_read_back`).

Durations and points in time are in normal form by their types, as the reader leaves them: it carries nanoseconds
that make a second.
-/
import ControlPlane.Config
import ControlPlane.Dict
import ControlPlane.Message
import ControlPlane.Proofs.Json.Records

namespace ControlPlane

open Json

/-! ## Messages -/

instance : LawfulJsonForm Event where
  plain e := by
    cases e with
    | addPath requester path => exact .object (by simpa using Plain.object (by simp))
    | linkAdded _ | linkDeleted _ | nodeJoined _ | delPath _ | flowEntryAdded _ | flowEntryDeleted _ =>
      exact .object (by simp)
  ofJson?_toJson e := by
    cases e with
    | addPath requester path => exact (bind_columns? _ (by simp)).trans (by simp)
    | linkAdded _ | linkDeleted _ | nodeJoined _ | delPath _ | flowEntryAdded _ | flowEntryDeleted _ =>
      show Option.map _ (ofJson? (toJson _)) = _
      rw [ofJson?_toJson]
      rfl

instance : LawfulJsonForm Command where
  plain c := by
    cases c <;> exact .object (by simpa using Plain.object (by simp))
  ofJson?_toJson c := by
    cases c <;> exact (bind_columns? _ (by simp)).trans (by simp)

/-! ## Configurations and dicts -/

instance : LawfulJsonForm RouteSelection where
  plain s := by cases s <;> exact .string _
  ofJson?_toJson s := by cases s <;> rfl

instance : LawfulJsonForm InPortAddressing where
  plain a := by cases a <;> exact .string _
  ofJson?_toJson a := by cases a <;> rfl

instance : LawfulJsonForm CompilerConfig where
  plain c := .object (by simp)
  ofJson?_toJson c := (bind_columns? _ (by simp)).trans (by simp)

instance : LawfulJsonForm (Option String) := .option (by intro s; simp [toJson])

instance : LawfulJsonForm ControllerConfig where
  plain c := .object (by simp)
  ofJson?_toJson c := (bind_columns? _ (by simp)).trans (by simp)

instance {α : Type} [JsonForm α] [LawfulJsonForm α] : LawfulJsonForm (Dict α) where
  plain d := .object (by simp)
  ofJson?_toJson d := (bind_columns? _ (by simp)).trans (by simp)

/-! ## Main result -/

/-- The types of which values are written as JSON, dicts apart. -/
inductive Kind where
  | number | duration | timestamp
  | uid | macAddr | macRange | ipv4Range | ipv6Range | actorRef
  | portState | port | node | linkState | link | adjacency
  | field | pattern | action | flowEntry | pathlet | path
  | event | command
  | routeSelection | inPortAddressing | compilerConfig | controllerConfig
  | flowStatus | pathRecord

namespace Kind

/-- The values of the type. -/
abbrev Value : Kind → Type
  | number => UInt64
  | duration => Duration
  | timestamp => Timestamp
  | uid => Uid
  | macAddr => MacAddr
  | macRange => Masked 48
  | ipv4Range => Masked 32
  | ipv6Range => Masked 128
  | actorRef => ActorRef
  | portState => PortState
  | port => Port
  | node => Node
  | linkState => LinkState
  | link => Link
  | adjacency => Adjacency
  | field => Field
  | pattern => Match
  | action => Action
  | flowEntry => FlowEntry
  | pathlet => Pathlet
  | path => Path
  | event => Event
  | command => Command
  | routeSelection => RouteSelection
  | inPortAddressing => InPortAddressing
  | compilerConfig => CompilerConfig
  | controllerConfig => ControllerConfig
  | flowStatus => FlowStatus
  | pathRecord => PathRecord

instance (k : Kind) : JsonForm k.Value := by
  cases k <;> exact inferInstance

instance (k : Kind) : LawfulJsonForm k.Value := by
  cases k <;> exact inferInstance

end Kind

/-- Whatever is written as JSON, a value of any kind or a dict of such values, on one line or on several, is read as
the value that was written. -/
theorem written_read_back (k : Kind) :
    (∀ v : k.Value, decode? (encode v) = some v ∧ decode? (encodePretty v) = some v) ∧
    ∀ d : Dict k.Value, decode? (encode d) = some d ∧ decode? (encodePretty d) = some d :=
  ⟨fun v => ⟨decode?_encode v, decode?_encodePretty v⟩, fun d => ⟨decode?_encode d, decode?_encodePretty d⟩⟩

example : encode (Action.flood ⟨"a\"$$1"⟩) = "\x7b\"Flood\":\x7b\"in_port\":\"a\\\"$$1\"\x7d\x7d" := by decide +kernel

end ControlPlane
