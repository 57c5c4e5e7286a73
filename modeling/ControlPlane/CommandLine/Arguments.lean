/-
The arguments of the command line. Options of the program stand before the name of a command, those of
the command before the name of a topology, and those of the topology anywhere after it. Each option is
given at most once. The value of an option is attached to it or is the next argument, which must not
look like an option; what follows `--` after a topology is no option.

What does not fit is refused as a whole, so reading has no errors to tell apart.
-/
import ControlPlane.Random.Probability
import ControlPlane.Text.Split

namespace ControlPlane.CommandLine

/-! ## What can be asked for -/

/-- A topology to work on. -/
inductive TopologyChoice where
  | line (n : Nat)
  | ring (n : Nat)
  | grid (width height : Nat)
  | random (n : Nat) (p : Random.Probability) (seed : UInt64)
  | disjoint
  | branches
deriving DecidableEq, Repr

/-- A path to work on: one in a file, or one between two ports. -/
structure PathChoice where
  file : Option String
  source : String
  target : String
  priority : UInt16
deriving DecidableEq, Repr

/-- What is to be done. -/
inductive Job where
  /-- Draw the topology. -/
  | dot
  /-- List the shortest routes between two nodes. -/
  | routes (source target : String)
  /-- Compile a path. -/
  | compile (path : PathChoice)
  /-- Install a path and confirm its flow entries. -/
  | demo (path : PathChoice)
deriving DecidableEq, Repr

/-- The arguments of the program. -/
structure Arguments where
  configFile : Option String
  firstRoute : Bool
  peerInPorts : Bool
  job : Job
  topology : TopologyChoice
deriving DecidableEq, Repr

/-! ## Options -/

/-- An option with the name that follows two dashes and the letter that follows one. -/
structure OptionForm where
  name : String
  letter : Option Char := none
  /-- The option has no value. -/
  isFlag : Bool := false

/-- What an argument looks like. -/
inductive Look where
  | plain
  /-- Two dashes and nothing else. -/
  | dashes
  | option (form : OptionForm) (attached : Option String)
  /-- An option that is not known. -/
  | unknown

/-- The look of an option that may be known. -/
def lookOf (form : Option OptionForm) (attached : Option (List Char)) : Look :=
  match form with
  | some form => .option form (attached.map String.ofList)
  | none => .unknown

/-- The look of an argument when the given options are known. -/
def look (forms : List OptionForm) (argument : String) : Look :=
  match argument.toList with
  | ['-', '-'] => .dashes
  | '-' :: '-' :: body =>
    match Text.cut ['='] body with
    | some (name, attached) => lookOf (forms.find? (·.name.toList = name)) (some attached)
    | none => lookOf (forms.find? (·.name.toList = body)) none
  | '-' :: letter :: body =>
    let form := forms.find? (·.letter = some letter)
    match body with
    | [] => lookOf form none
    | '=' :: attached => lookOf form (some attached)
    | attached => lookOf form (some attached)
  | _ => .plain

/-- Whether an argument can be the value of the option before it. -/
def isValue (argument : String) : Bool :=
  match look [] argument with
  | .plain => true
  | _ => false

/-- The options and other arguments that were read. -/
structure Given where
  /-- The options by name; a flag has an empty value. -/
  options : List (String × String)
  plain : List String

namespace Given

def none : Given := ⟨[], []⟩

/-- The value of an option. -/
def value? (g : Given) (name : String) : Option String := g.options.lookup name

def has (g : Given) (name : String) : Bool := (g.value? name).isSome

/-- The arguments with one more option, which must not be there yet. -/
def withOption? (g : Given) (name value : String) : Option Given :=
  if g.has name then .none else some { g with options := (name, value) :: g.options }

def withPlain (g : Given) (argument : String) : Given := { g with plain := g.plain ++ [argument] }

end Given

/-- Reads arguments. If they are `nested`, the first one that is no option starts another group, and
it is left with all that follows it. -/
def read? (forms : List OptionForm) (nested : Bool) (g : Given) :
    List String → Option (Given × List String)
  | [] => some (g, [])
  | argument :: rest =>
    match look forms argument with
    | .plain => if nested then some (g, argument :: rest) else read? forms nested (g.withPlain argument) rest
    | .dashes => if nested then none else some ({ g with plain := g.plain ++ rest }, [])
    | .unknown => none
    | .option form (some attached) =>
      if form.isFlag then none
      else do read? forms nested (← g.withOption? form.name attached) rest
    | .option form none =>
      if form.isFlag then do read? forms nested (← g.withOption? form.name "") rest
      else
        match rest with
        | value :: rest =>
          if isValue value then do read? forms nested (← g.withOption? form.name value) rest else none
        | [] => none

/-! ## Values -/

def number? (text : String) : Option Nat := Numeral.unsigned? UInt64.size text.toList

def seed? (text : String) : Option UInt64 := (number? text).map UInt64.ofNat

def priority? (text : String) : Option UInt16 :=
  (Numeral.unsigned? UInt16.size text.toList).map UInt16.ofNat

def probability? (text : String) : Option Random.Probability :=
  ((Random.real? text).filter Random.Real.isProbability).map .ofReal

/-! ## Topologies -/

def probabilityForm : OptionForm := { name := "prob", letter := some 'p' }

def seedForm : OptionForm := { name := "seed", letter := some 's' }

/-- The topology that the last group of arguments names. -/
def topology? : List String → Option TopologyChoice
  | [] => none
  | name :: arguments => do
    let forms := if name = "random" then [probabilityForm, seedForm] else []
    let (g, _) ← read? forms false .none arguments
    match name, g.plain with
    | "line", [] => return .line 6
    | "line", [n] => return .line (← number? n)
    | "ring", [] => return .ring 6
    | "ring", [n] => return .ring (← number? n)
    | "grid", [] => return .grid 3 2
    | "grid", [width] => return .grid (← number? width) 2
    | "grid", [width, height] => return .grid (← number? width) (← number? height)
    | "random", plain => do
      let n ← match plain with
        | [] => some 10
        | [n] => number? n
        | _ => none
      let p ← probability? ((g.value? probabilityForm.name).getD "0.3")
      let seed ← seed? ((g.value? seedForm.name).getD "42")
      return .random n p seed
    | "disjoint", [] => return .disjoint
    | "branches", [] => return .branches
    | _, _ => none

/-! ## Commands -/

def fromForm : OptionForm := { name := "from", letter := some 'f' }

def toForm : OptionForm := { name := "to", letter := some 't' }

def jsonForm : OptionForm := { name := "json" }

def priorityForm : OptionForm := { name := "priority", letter := some 'p' }

/-- The path that options choose. -/
def pathChoice? (g : Given) : Option PathChoice := do
  return {
    file := g.value? jsonForm.name
    source := (g.value? fromForm.name).getD "n1$$0"
    target := (g.value? toForm.name).getD "n6$$3"
    priority := ← priority? ((g.value? priorityForm.name).getD "1") }

/-- The job and the topology that a group of arguments names. -/
def job? : List String → Option (Job × TopologyChoice)
  | [] => none
  | name :: arguments => do
    let forms ← match name with
      | "dot" => some []
      | "routes" => some [fromForm, toForm]
      | "compile" => some [jsonForm, fromForm, toForm, priorityForm]
      | "demo" => some [jsonForm, fromForm, toForm, priorityForm]
      | _ => none
    let (g, rest) ← read? forms true .none arguments
    let job ← match name with
      | "dot" => some .dot
      | "routes" => do pure (.routes (← g.value? fromForm.name) (← g.value? toForm.name))
      | "compile" => (pathChoice? g).map .compile
      | _ => (pathChoice? g).map .demo
    return (job, ← topology? rest)

/-! ## The program -/

def configForm : OptionForm := { name := "config", letter := some 'c' }

def firstRouteForm : OptionForm := { name := "first-route", isFlag := true }

def peerInPortsForm : OptionForm := { name := "peer-inports", isFlag := true }

/-- The arguments of the program, if they are accepted. -/
def Arguments.ofList? (arguments : List String) : Option Arguments := do
  let (g, rest) ← read? [configForm, firstRouteForm, peerInPortsForm] true .none arguments
  let (job, topology) ← job? rest
  return {
    configFile := g.value? configForm.name
    firstRoute := g.has firstRouteForm.name
    peerInPorts := g.has peerInPortsForm.name
    job
    topology }

end ControlPlane.CommandLine
