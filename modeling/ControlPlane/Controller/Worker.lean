/-
A controller that works on its own. Events are sent to its inbox, it takes and handles them one by
one, and puts the commands into its outbox, from where they are read. Events that fail give no
commands and do not stop the worker.
-/
import ControlPlane.Controller

namespace ControlPlane

/-- A controller between two queues. -/
structure Worker where
  controller : Controller
  /-- The events that were sent and not yet taken, the first one first. -/
  inbox : List Event
  /-- The commands that were given and not yet read, the first one first. -/
  outbox : List Command

namespace Worker

/-- The worker that starts with a controller. -/
def start (c : Controller) : Worker := ⟨c, [], []⟩

/-- Sends an event. -/
def send (w : Worker) (e : Event) : Worker := { w with inbox := w.inbox ++ [e] }

/-- Handles one event that was taken from the inbox. -/
def process (w : Worker) (now : Timestamp) (e : Event) : Worker :=
  match w.controller.handle now e with
  | (.ok commands, controller) => { w with controller, outbox := w.outbox ++ commands }
  | (.error _, controller) => { w with controller }

/-- Takes and handles the next event, if there is one. -/
def step (w : Worker) (now : Timestamp) : Worker :=
  match w.inbox with
  | [] => w
  | e :: inbox => { w with inbox }.process now e

/-- Handles all events of the inbox. -/
def settle (w : Worker) (now : Timestamp) : Worker :=
  w.inbox.foldl (fun w e => w.process now e) { w with inbox := [] }

/-- Reads the next command, if there is one. -/
def read (w : Worker) : Option Command × Worker :=
  match w.outbox with
  | [] => (none, w)
  | command :: outbox => (some command, { w with outbox })

/-- Reads all commands that were given so far. -/
def readAll (w : Worker) : List Command × Worker := (w.outbox, { w with outbox := [] })

/-- Handles all events that were sent, and saves the state. -/
def shutdown {m : Type → Type} [Monad m] [MonadFiles m] (w : Worker) (now : Timestamp) :
    ExceptT ControllerError m Controller := do
  let w := w.settle now
  w.controller.save
  return w.controller

end Worker

end ControlPlane
