/-
A worker and its owner, interleaved in any way. The owner sends events and reads commands, the worker takes an
event, handles it, and puts its commands into the outbox one by one. A whole step of the worker is nothing else
(`Moment.step_eq`).

At every moment (`Faithful`) the events that were handled and those in the inbox are the ones sent, the state is
the one after the handled events, and the commands that were read, those in the outbox and those still pending are
what the handled events gave. Each move keeps this and handles at most one more event (`Faithful.perform`), so it
holds along every schedule. The shutdown then handles the rest of the inbox.

That alone would also hold of a worker that does nothing. So it is said of every moment what the next move does
(`Proceeds`): it takes the next event, emits the next command and hands over what is queued, whatever was answered
to the events before. A schedule that does this until nothing is left (`Moment.drain`) therefore gives the owner
all commands of all events.
-/
import ControlPlane.Controller.Worker
import ControlPlane.Proofs.Controller.Clock
import Mathlib.Logic.Function.Iterate

namespace ControlPlane

/-! ## What events give -/

namespace Controller

/-- The commands of an answer. An event that fails gives none. -/
def given : Except ControllerError (List Command) → List Command
  | .ok commands => commands
  | .error _ => []

/-- The commands that events give, one after the other. -/
def emitted (c : Controller) (events : List (Timestamp × Event)) : List Command := (c.results events).flatMap given

theorem emitted_cons (c : Controller) (now : Timestamp) (e : Event) (events : List (Timestamp × Event)) :
    c.emitted ((now, e) :: events) = given (c.handle now e).1 ++ (c.handle now e).2.emitted events :=
  rfl

theorem emitted_singleton (c : Controller) (now : Timestamp) (e : Event) :
    c.emitted [(now, e)] = given (c.handle now e).1 :=
  List.append_nil _

theorem emitted_append (c : Controller) (events later : List (Timestamp × Event)) :
    c.emitted (events ++ later) = c.emitted events ++ (c.after events).emitted later := by
  induction events generalizing c with
  | nil => rfl
  | cons e events ih =>
    rw [List.cons_append, emitted_cons, emitted_cons, ih, List.append_assoc]
    rfl

end Controller

namespace Worker

theorem process_eq (w : Worker) (now : Timestamp) (e : Event) : w.process now e =
    ⟨(w.controller.handle now e).2, w.inbox, w.outbox ++ Controller.given (w.controller.handle now e).1⟩ := by
  unfold process
  rcases w.controller.handle now e with ⟨_ | commands, c⟩
  · rw [Controller.given, List.append_nil]
  · rfl

/-- The next event leaves the inbox, whether or not it fails. -/
theorem inbox_step (w : Worker) (now : Timestamp) : (w.step now).inbox = w.inbox.tail := by
  obtain ⟨controller, inbox, outbox⟩ := w
  cases inbox with
  | nil => rfl
  | cons e inbox => simp only [step, process_eq, List.tail_cons]

theorem controller_settle (w : Worker) (now : Timestamp) :
    (w.settle now).controller = w.controller.after (w.inbox.map (now, ·)) := by
  suffices h : ∀ (events : List Event) (w : Worker), (events.foldl (fun w e => w.process now e) w).controller =
      w.controller.after (events.map (now, ·)) from h w.inbox { w with inbox := [] }
  intro events
  induction events with
  | nil => exact fun _ => rfl
  | cons e events ih =>
    intro w
    rw [List.foldl_cons, ih, process_eq]
    rfl

/-! ## Moves -/

/-- A worker between two of its moves. -/
structure Moment where
  worker : Worker
  /-- The commands of the last event that are not in the outbox yet, the first one first. -/
  pending : List Command

/-- What the owner and the worker do. -/
inductive Move where
  /-- The owner sends an event. -/
  | send (e : Event)
  /-- The owner reads the next command, if there is one. -/
  | read
  /-- The owner reads all commands that are in the outbox. -/
  | readAll
  /-- The worker takes and handles the next event. -/
  | take (now : Timestamp)
  /-- The worker puts the next pending command into the outbox. -/
  | emit
  /-- The worker takes and handles the next event and emits all its commands. -/
  | step (now : Timestamp)

/-- The events that are sent with a move. -/
def Move.sent : Move → List Event
  | .send e => [e]
  | _ => []

/-- The readings of the clock that a move is made with. -/
def Move.clock : Move → List Timestamp
  | .take now | .step now => [now]
  | _ => []

/-- The moves of a worker that emits all commands of an event at once. -/
def Move.Whole : Move → Prop
  | .take _ | .emit => False
  | _ => True

namespace Moment

/-- The worker has just started with a controller. -/
def start (c : Controller) : Moment := ⟨.start c, []⟩

/-- Takes and handles the next event, if there is one and all commands of the last one were emitted. -/
def take (m : Moment) (now : Timestamp) : Moment :=
  match m.pending, m.worker.inbox with
  | [], e :: inbox =>
    let (answer, controller) := m.worker.controller.handle now e
    ⟨{ m.worker with controller, inbox }, Controller.given answer⟩
  | _, _ => m

/-- Puts the next pending command into the outbox, if there is one. -/
def emit (m : Moment) : Moment :=
  match m.pending with
  | [] => m
  | command :: pending => ⟨{ m.worker with outbox := m.worker.outbox ++ [command] }, pending⟩

/-- Makes a whole step of the worker, if all commands of the last event were emitted. -/
def step (m : Moment) (now : Timestamp) : Moment :=
  match m.pending with
  | [] => ⟨m.worker.step now, []⟩
  | _ => m

/-- The commands that the owner reads with a move, and the moment afterwards. A move that is not possible changes
nothing. -/
def perform (m : Moment) : Move → List Command × Moment
  | .send e => ([], { m with worker := m.worker.send e })
  | .read => (m.worker.read.1.toList, { m with worker := m.worker.read.2 })
  | .readAll => (m.worker.readAll.1, { m with worker := m.worker.readAll.2 })
  | .take now => ([], m.take now)
  | .emit => ([], m.emit)
  | .step now => ([], m.step now)

/-- The commands that the owner reads with one move after the other, and the moment at the end. -/
def run (m : Moment) : List Move → List Command × Moment
  | [] => ([], m)
  | move :: moves =>
    let (commands, m) := m.perform move
    let (later, m) := m.run moves
    (commands ++ later, m)

/-- Moves after which nothing is left: the pending commands are emitted, the inbox is handled, and all is read. -/
def drain (m : Moment) (now : Timestamp) : List Move :=
  List.replicate m.pending.length .emit ++ (List.replicate m.worker.inbox.length (.step now) ++ [.readAll])

/-- The moves that find something to do. The worker takes no event before it emitted all commands of the last one. -/
def Possible (m : Moment) : Move → Prop
  | .send _ | .readAll => True
  | .read => m.worker.outbox ≠ []
  | .take _ | .step _ => m.pending = [] ∧ m.worker.inbox ≠ []
  | .emit => m.pending ≠ []

/-! ## Single moves -/

variable {m : Moment} {now : Timestamp}

theorem take_eq {e : Event} {inbox : List Event} (hpending : m.pending = []) (hinbox : m.worker.inbox = e :: inbox) :
    m.take now = ⟨⟨(m.worker.controller.handle now e).2, inbox, m.worker.outbox⟩,
      Controller.given (m.worker.controller.handle now e).1⟩ := by
  rw [take, hpending, hinbox]

theorem step_eq_of_cons {e : Event} {inbox : List Event} (hpending : m.pending = [])
    (hinbox : m.worker.inbox = e :: inbox) : m.step now =
      ⟨⟨(m.worker.controller.handle now e).2, inbox,
        m.worker.outbox ++ Controller.given (m.worker.controller.handle now e).1⟩, []⟩ := by
  rw [step, hpending]
  simp only [Worker.step, hinbox, process_eq]

theorem emit_eq {command : Command} {pending : List Command} (hpending : m.pending = command :: pending) :
    m.emit = ⟨{ m.worker with outbox := m.worker.outbox ++ [command] }, pending⟩ := by
  rw [emit, hpending]

theorem perform_read {command : Command} {outbox : List Command} (houtbox : m.worker.outbox = command :: outbox) :
    m.perform .read = ([command], { m with worker := { m.worker with outbox } }) := by
  simp only [perform, Worker.read, houtbox, Option.toList_some]

theorem perform_eq_self {move : Move} (h : ¬ m.Possible move) : m.perform move = ([], m) := by
  obtain ⟨⟨controller, inbox, outbox⟩, pending⟩ := m
  cases move with
  | send _ | readAll => exact absurd trivial h
  | read =>
    obtain rfl : outbox = [] := not_not.1 h
    rfl
  | emit =>
    obtain rfl : pending = [] := not_not.1 h
    rfl
  | take now | step now =>
    cases pending with
    | cons _ _ => rfl
    | nil =>
      obtain rfl : inbox = [] := not_not.1 fun hinbox => h ⟨rfl, hinbox⟩
      rfl

theorem take_eq_self_or (m : Moment) (now : Timestamp) : m.take now = m ∨
    ∃ e inbox, m.pending = [] ∧ m.worker.inbox = e :: inbox ∧ m.take now =
      ⟨⟨(m.worker.controller.handle now e).2, inbox, m.worker.outbox⟩,
        Controller.given (m.worker.controller.handle now e).1⟩ := by
  unfold take
  split
  · next hpending hinbox => exact .inr ⟨_, _, hpending, hinbox, rfl⟩
  · exact .inl rfl

theorem iterate_emit (m : Moment) :
    emit^[m.pending.length] m = ⟨{ m.worker with outbox := m.worker.outbox ++ m.pending }, []⟩ := by
  obtain ⟨w, pending⟩ := m
  induction pending generalizing w with
  | nil => simp only [List.append_nil]; rfl
  | cons command pending ih =>
    show emit^[pending.length] ⟨{ w with outbox := w.outbox ++ [command] }, pending⟩ = _
    rw [ih, List.append_assoc]
    rfl

/-- A whole step takes the next event and emits its commands one by one. -/
theorem step_eq (hpending : m.pending = []) : m.step now = emit^[(m.take now).pending.length] (m.take now) := by
  obtain ⟨⟨controller, inbox, outbox⟩, pending⟩ := m
  obtain rfl : pending = [] := hpending
  rw [iterate_emit]
  cases inbox with
  | nil => simp only [step, take, Worker.step, List.append_nil]
  | cons e inbox => simp only [step, take, Worker.step, process_eq]

/-! ## Runs -/

theorem run_append (m : Moment) (moves later : List Move) : m.run (moves ++ later) =
    ((m.run moves).1 ++ ((m.run moves).2.run later).1, ((m.run moves).2.run later).2) := by
  induction moves generalizing m with
  | nil => rfl
  | cons move moves ih =>
    simp only [List.cons_append, run, ih, List.append_assoc]

theorem run_append_singleton (m : Moment) (moves : List Move) (move : Move) : m.run (moves ++ [move]) =
    ((m.run moves).1 ++ ((m.run moves).2.perform move).1, ((m.run moves).2.perform move).2) := by
  rw [run_append]
  simp only [run, List.append_nil]

theorem run_replicate_emit (m : Moment) :
    m.run (List.replicate m.pending.length .emit) =
      ([], ⟨{ m.worker with outbox := m.worker.outbox ++ m.pending }, []⟩) := by
  suffices h : ∀ n, m.run (List.replicate n .emit) = ([], emit^[n] m) by rw [h, iterate_emit]
  intro n
  induction n generalizing m with
  | zero => rfl
  | succ n ih =>
    rw [List.replicate_succ, run]
    simp only [perform, ih, List.append_nil]
    rfl

-- The induction is on the inbox; each step shortens it by one event, whatever the answer.
theorem run_replicate_step (hpending : m.pending = []) (now : Timestamp) :
    m.run (List.replicate m.worker.inbox.length (.step now)) =
      ([], ⟨⟨m.worker.controller.after (m.worker.inbox.map (now, ·)), [],
        m.worker.outbox ++ m.worker.controller.emitted (m.worker.inbox.map (now, ·))⟩, []⟩) := by
  obtain ⟨⟨controller, inbox, outbox⟩, pending⟩ := m
  obtain rfl : pending = [] := hpending
  induction inbox generalizing controller outbox with
  | nil =>
    rw [List.map_nil, Controller.emitted, Controller.results, List.flatMap_nil, List.append_nil]
    rfl
  | cons e inbox ih =>
    have hstep : (Moment.mk ⟨controller, e :: inbox, outbox⟩ []).step now = _ := step_eq_of_cons rfl rfl
    rw [List.length_cons, List.replicate_succ, run]
    simp only [perform, hstep, ih, List.map_cons, Controller.emitted_cons, List.append_assoc]
    rfl

/-- Draining gives all that was queued and then the commands of the inbox, and leaves nothing. -/
theorem run_drain (m : Moment) (now : Timestamp) : m.run (m.drain now) =
    (m.worker.outbox ++ m.pending ++ m.worker.controller.emitted (m.worker.inbox.map (now, ·)),
      ⟨⟨m.worker.controller.after (m.worker.inbox.map (now, ·)), [], []⟩, []⟩) := by
  rw [drain, run_append, run_replicate_emit, run_append]
  have hsteps := run_replicate_step
    (m := ⟨{ m.worker with outbox := m.worker.outbox ++ m.pending }, []⟩) rfl now
  simp only at hsteps
  rw [hsteps]
  simp only [run, perform, readAll, List.nil_append, List.append_nil]

end Moment

/-! ## The invariant -/

/-- What events, commands and the state have to do with each other at a moment. -/
structure Faithful (c : Controller) (sent : List Event) (handled : List (Timestamp × Event)) (received : List Command)
    (m : Moment) : Prop where
  /-- Every event is handled or in the inbox. -/
  events : handled.map Prod.snd ++ m.worker.inbox = sent
  state : m.worker.controller = c.after handled
  /-- Every command was read, is in the outbox, or is about to get there. -/
  commands : received ++ (m.worker.outbox ++ m.pending) = c.emitted handled

namespace Faithful

variable {c : Controller} {sent : List Event} {handled : List (Timestamp × Event)} {received : List Command}
  {m : Moment}

theorem start (c : Controller) : Faithful c [] [] [] (.start c) := ⟨rfl, rfl, rfl⟩

theorem emit (h : Faithful c sent handled received m) : Faithful c sent handled received m.emit := by
  unfold Moment.emit
  split
  · exact h
  · next hpending =>
    refine ⟨h.events, h.state, ?_⟩
    rw [List.append_assoc, List.singleton_append, ← hpending, h.commands]

theorem iterate_emit (h : Faithful c sent handled received m) (n : ℕ) :
    Faithful c sent handled received (Moment.emit^[n] m) := by
  induction n generalizing m with
  | zero => exact h
  | succ n ih => exact ih h.emit

/-- The worker handles the next event or stays as it is. -/
theorem take (h : Faithful c sent handled received m) (now : Timestamp) :
    ∃ new : List (Timestamp × Event), (new.map Prod.fst).Sublist [now] ∧
      Faithful c sent (handled ++ new) received (m.take now) := by
  rcases m.take_eq_self_or now with heq | ⟨e, inbox, hpending, hinbox, heq⟩ <;> rw [heq]
  · exact ⟨[], List.nil_sublist _, by rwa [List.append_nil]⟩
  · refine ⟨[(now, e)], List.Sublist.refl _, ?_, ?_, ?_⟩
    · rw [← h.events, hinbox, List.map_append, List.append_assoc]
      rfl
    · rw [Controller.after_append, ← h.state]
      rfl
    · rw [Controller.emitted_append, Controller.emitted_singleton, ← h.commands, ← h.state, hpending,
        List.append_nil, List.append_assoc]

theorem step (h : Faithful c sent handled received m) (now : Timestamp) :
    ∃ new : List (Timestamp × Event), (new.map Prod.fst).Sublist [now] ∧
      Faithful c sent (handled ++ new) received (m.step now) := by
  cases hpending : m.pending with
  | nil =>
    obtain ⟨new, hclock, hnew⟩ := h.take now
    exact ⟨new, hclock, Moment.step_eq hpending ▸ hnew.iterate_emit _⟩
  | cons command pending =>
    have hstay : m.step now = m := by rw [Moment.step, hpending]
    exact ⟨[], List.nil_sublist _, by rwa [hstay, List.append_nil]⟩

theorem perform (h : Faithful c sent handled received m) (move : Move) :
    ∃ new : List (Timestamp × Event), (new.map Prod.fst).Sublist move.clock ∧
      Faithful c (sent ++ move.sent) (handled ++ new) (received ++ (m.perform move).1) (m.perform move).2 := by
  cases move with
  | send e =>
    refine ⟨[], List.nil_sublist _, ?_⟩
    simp only [Moment.perform, Move.sent, List.append_nil]
    exact ⟨by rw [← h.events, List.append_assoc]; rfl, h.state, h.commands⟩
  | read =>
    refine ⟨[], List.nil_sublist _, ?_⟩
    simp only [Moment.perform, Move.sent, List.append_nil]
    obtain ⟨⟨controller, inbox, outbox⟩, pending⟩ := m
    cases outbox with
    | nil => exact ⟨h.events, h.state, by rw [← h.commands, List.append_assoc]; rfl⟩
    | cons command outbox => exact ⟨h.events, h.state, by rw [← h.commands, List.append_assoc]; rfl⟩
  | readAll =>
    refine ⟨[], List.nil_sublist _, ?_⟩
    simp only [Moment.perform, Move.sent, List.append_nil]
    exact ⟨h.events, h.state, by rw [← h.commands, List.append_assoc]; rfl⟩
  | take now =>
    simp only [Moment.perform, Move.sent, List.append_nil]
    exact h.take now
  | emit =>
    refine ⟨[], List.nil_sublist _, ?_⟩
    simp only [Moment.perform, Move.sent, List.append_nil]
    exact h.emit
  | step now =>
    simp only [Moment.perform, Move.sent, List.append_nil]
    exact h.step now

-- The induction is on the moves; what was sent, handled and read before them is carried along.
theorem run (h : Faithful c sent handled received m) (moves : List Move) :
    ∃ new : List (Timestamp × Event), (new.map Prod.fst).Sublist (moves.flatMap Move.clock) ∧
      Faithful c (sent ++ moves.flatMap Move.sent) (handled ++ new) (received ++ (m.run moves).1)
        (m.run moves).2 := by
  induction moves generalizing sent handled received m with
  | nil =>
    refine ⟨[], List.nil_sublist _, ?_⟩
    simpa only [List.flatMap_nil, Moment.run, List.append_nil] using h
  | cons move moves ih =>
    obtain ⟨new, hclock, hnew⟩ := h.perform move
    obtain ⟨later, hclocks, hlater⟩ := ih hnew
    refine ⟨new ++ later, ?_, ?_⟩
    · rw [List.map_append, List.flatMap_cons]
      exact hclock.append hclocks
    · simpa only [List.flatMap_cons, Moment.run, List.append_assoc] using hlater

end Faithful

/-! ## Main result -/

/-- A worker that emits all commands of an event at once has none pending. -/
theorem Moment.pending_run_eq_nil {m : Moment} (hpending : m.pending = []) {moves : List Move}
    (hwhole : ∀ move ∈ moves, move.Whole) : (m.run moves).2.pending = [] := by
  induction moves generalizing m with
  | nil => exact hpending
  | cons move moves ih =>
    rw [List.forall_mem_cons] at hwhole
    refine ih ?_ hwhole.2
    cases move with
    | send _ | read | readAll => exact hpending
    | take _ | emit => exact hwhole.1.elim
    | step now =>
      show (m.step now).pending = []
      rw [Moment.step, hpending]

/-- What the next move does at a moment after the handled events. A take or a whole step handles exactly the next
event, also when it fails, and nothing else handles any. -/
structure Proceeds (c : Controller) (handled : List (Timestamp × Event)) (m : Moment) : Prop where
  send : ∀ e, m.perform (.send e) =
    ([], ⟨⟨c.after handled, m.worker.inbox ++ [e], m.worker.outbox⟩, m.pending⟩)
  take : ∀ {e inbox}, m.pending = [] → m.worker.inbox = e :: inbox → ∀ now, m.perform (.take now) =
    ([], ⟨⟨c.after (handled ++ [(now, e)]), inbox, m.worker.outbox⟩,
      Controller.given ((c.after handled).handle now e).1⟩)
  step : ∀ {e inbox}, m.pending = [] → m.worker.inbox = e :: inbox → ∀ now, m.perform (.step now) =
    ([], ⟨⟨c.after (handled ++ [(now, e)]), inbox,
      m.worker.outbox ++ Controller.given ((c.after handled).handle now e).1⟩, []⟩)
  emit : ∀ {command pending}, m.pending = command :: pending → m.perform .emit =
    ([], ⟨⟨c.after handled, m.worker.inbox, m.worker.outbox ++ [command]⟩, pending⟩)
  read : ∀ {command outbox}, m.worker.outbox = command :: outbox → m.perform .read =
    ([command], ⟨⟨c.after handled, m.worker.inbox, outbox⟩, m.pending⟩)
  readAll : m.perform .readAll = (m.worker.outbox, ⟨⟨c.after handled, m.worker.inbox, []⟩, m.pending⟩)
  /-- A move that finds nothing to do changes nothing. -/
  stays : ∀ {move}, ¬ m.Possible move → m.perform move = ([], m)

theorem Faithful.proceeds {c : Controller} {sent : List Event} {handled : List (Timestamp × Event)}
    {received : List Command} {m : Moment} (h : Faithful c sent handled received m) : Proceeds c handled m := by
  have hafter : ∀ now e, c.after (handled ++ [(now, e)]) = (m.worker.controller.handle now e).2 := by
    intro now e
    rw [Controller.after_append, ← h.state]
    rfl
  refine ⟨fun e => ?_, fun hpending hinbox now => ?_, fun hpending hinbox now => ?_, fun hpending => ?_,
    fun houtbox => ?_, ?_, Moment.perform_eq_self⟩
  · rw [← h.state]
    rfl
  · rw [hafter, ← h.state]
    exact congrArg _ (Moment.take_eq hpending hinbox)
  · rw [hafter, ← h.state]
    exact congrArg _ (Moment.step_eq_of_cons hpending hinbox)
  · rw [← h.state]
    exact congrArg _ (Moment.emit_eq hpending)
  · rw [← h.state]
    exact Moment.perform_read houtbox
  · rw [← h.state]
    rfl

/-- However the moves of a worker and its owner interleave: the events that were handled, each at a time when the
worker made a move, are the first of those that were sent, and the others are in the inbox. The state is the one
after the handled events, and what was read, what is in the outbox and what is about to get there are the commands
of those that did not fail, in their order. Nothing is about to get there when the worker only makes whole steps;
such a step takes the next event, also when it fails.

One more move sends, handles, emits or reads exactly what is next, whatever happened before. So the worker can be
drained at every moment, after which the owner has read all commands of all events that were sent. A shutdown
handles all the events that were sent, in their order, saves the state and returns it. -/
theorem worker_faithful (c : Controller) (moves : List Move) :
    ∃ (received : List Command) (m : Moment) (handled : List (Timestamp × Event)),
      (Moment.start c).run moves = (received, m) ∧
      (handled.map Prod.fst).Sublist (moves.flatMap Move.clock) ∧
      handled.map Prod.snd ++ m.worker.inbox = moves.flatMap Move.sent ∧
      m.worker.controller = c.after handled ∧
      received ++ (m.worker.outbox ++ m.pending) = (c.results handled).flatMap Controller.given ∧
      ((∀ move ∈ moves, move.Whole) → m.pending = []) ∧
      (∀ move, (Moment.start c).run (moves ++ [move]) = (received ++ (m.perform move).1, (m.perform move).2)) ∧
      Proceeds c handled m ∧
      ∀ now, (m.worker.step now).inbox = m.worker.inbox.tail ∧
        ∃ all, handled <+: all ∧ all.map Prod.snd = moves.flatMap Move.sent ∧
          (Moment.start c).run (moves ++ m.drain now) =
            ((c.results all).flatMap Controller.given, ⟨⟨c.after all, [], []⟩, []⟩) ∧
          ∀ (files : Type → Type) [Monad files] [MonadFiles files],
            m.worker.shutdown now = (do (c.after all).save; return c.after all : ExceptT ControllerError files _) := by
  obtain ⟨handled, hclock, hfaithful⟩ := (Faithful.start c).run moves
  have hproceeds := hfaithful.proceeds
  obtain ⟨hevents, hstate, hcommands⟩ := hfaithful
  simp only [List.nil_append] at hevents hstate hcommands
  refine ⟨_, _, handled, rfl, hclock, hevents, hstate, hcommands, Moment.pending_run_eq_nil rfl,
    Moment.run_append_singleton _ _, hproceeds, fun now => ?_⟩
  refine ⟨inbox_step _ now, handled ++ ((Moment.start c).run moves).2.worker.inbox.map (now, ·),
    List.prefix_append _ _, ?_, ?_, ?_⟩
  · rw [List.map_append, List.map_map, ← hevents]
    exact congrArg (_ ++ ·) (List.map_id _)
  · show _ = (c.emitted _, _)
    rw [Moment.run_append, Moment.run_drain, Controller.emitted_append, ← hcommands, Controller.after_append, ← hstate]
    simp only [List.append_assoc]
  · intro files _ _
    rw [Controller.after_append, ← hstate, ← controller_settle]
    rfl

-- The first event fails. The second one is handled all the same, and its command is read once it is emitted.
example : ((Moment.start (.new default)).run
    [.send (.delPath ⟨"7", 3, []⟩), .send (.addPath ⟨"net", "user"⟩ ⟨"", 3, [⟨⟨[]⟩, [], []⟩]⟩),
      .step .epoch, .take .epoch, .read, .emit, .read]).1 =
    [.pathAdded ⟨"net", "user"⟩ ⟨"0", 3, [⟨⟨[]⟩, [], []⟩]⟩] := by decide +kernel

end Worker

end ControlPlane
