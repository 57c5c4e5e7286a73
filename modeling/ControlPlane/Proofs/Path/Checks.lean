/-
When a path can be compiled, and why not. The compiler asks that UIDs are those of ports, that the in-port of a match
is the inherited one, and that out-ports are reached (`Check`). What it asks of a path is a list (`checks`): pathlet by
pathlet, for each of them by what it may inherit, then by the nodes that traffic comes from, then by the out-ports.
Every function of the compiler enforces its part of the list, so the whole path fails with the error of the first check
that does not hold (`enforces_compile`).

No check is about the topology itself. Ports that are inherited or flooded are those of recorded links, so a malformed
port is one that the path names, and the search always answers.
-/
import ControlPlane.Proofs.Path.Compile
import ControlPlane.Proofs.Topology.Operations

namespace ControlPlane

/-! ## Out-ports -/

/-- The ports that an action forwards to, none if they cannot be told. -/
def Action.ports (g : Graph) (a : Action) : List Uid :=
  match a.outports g with
  | .ok qs => qs
  | .error _ => []

/-- The ports that the pathlet forwards to, as far as they can be told, each of them once. -/
def Pathlet.ports (g : Graph) (p : Pathlet) : List Uid := (p.actions.flatMap (Action.ports g)).eraseDups

section Ports

variable {g : Graph} {a : Action} {p : Pathlet} {q : Uid}

theorem Action.ports_eq {qs : List Uid} (h : a.outports g = .ok qs) : a.ports g = qs := by
  unfold ports
  rw [h]

theorem Action.mem_ports : q ∈ a.ports g ↔ a.SendsOut g q := by
  unfold ports
  split
  · next qs h => exact mem_outports h
  · next e h =>
    refine iff_of_false List.not_mem_nil fun hq => ?_
    -- the ports that are flooded are known if the in-port is that of a node
    cases a with
    | flood inPort =>
      obtain ⟨-, node, hnode, -⟩ := hq
      rw [Action.outports, Uid.portNode_eq_ok.2 hnode] at h
      cases h
    | _ => cases h

theorem Pathlet.mem_ports : q ∈ p.ports g ↔ p.IsOutport g q := by
  rw [ports, List.mem_eraseDups, List.mem_flatMap]
  exact exists_congr fun a => and_congr_right fun _ => Action.mem_ports

theorem Pathlet.ports_eq {qs : List Uid} (h : p.outports g = .ok qs) : p.ports g = qs := by
  obtain ⟨qss, hqss, h⟩ := bind_eq_ok h
  cases h
  have hports : p.actions.flatMap (Action.ports g) = qss.flatMap id :=
    flatMap_eq_of_forall₂ (mapM_eq_ok.1 hqss) fun _ _ => Action.ports_eq
  rw [ports, hports, List.flatMap_id]

end Ports

/-! ## Ports that a pathlet names -/

/-- The port occurs in the action. -/
def Action.Names : Action → Uid → Prop
  | .forward ports, port => port ∈ ports
  | .flood inPort, port => port = inPort
  | _, _ => False

/-- The port occurs in the pathlet, in its match or in one of its actions. -/
def Pathlet.Names (p : Pathlet) (port : Uid) : Prop :=
  .inPort port ∈ p.pattern.fields ∨ ∃ a ∈ p.actions, a.Names port

theorem Match.mem_of_inPort?_eq_some {m : Match} {port : Uid} (h : m.inPort? = some port) :
    .inPort port ∈ m.fields := by
  obtain ⟨f, hf, hport⟩ := List.exists_of_findSome?_eq_some h
  cases f with
  | inPort p => cases hport; exact hf
  | _ => cases hport

theorem Uid.portNode_eq_error {port : Uid} {e : CompileError} (h : port.portNode = .error e) :
    e = .malformedPort (.malformedPort port) ∧ ¬ ∃ node, port.PortOf node := by
  simp only [Uid.portOf_iff]
  unfold portNode at h
  cases hnode : port.nodeOfPort with
  | ok node =>
    rw [hnode] at h
    cases h
  | error cause =>
    rw [hnode] at h
    cases h
    exact ⟨by rw [nodeOfPort_eq_error hnode], fun ⟨_, h⟩ => nomatch h⟩

namespace Compiler

/-! ## What is asked of a path -/

/-- What is asked of a path at one place. -/
inductive Check where
  /-- The UID is that of a port of a node. -/
  | isPort (port : Uid)
  /-- The in-port that is inherited is the one of the match. -/
  | agrees (inherited explicit : Uid)
  /-- The node of the out-port is reached from a node. -/
  | reached (source outport : Uid)
deriving DecidableEq, Repr

namespace Check

def Holds (g : Graph) : Check → Prop
  | .isPort port => ∃ node, port.PortOf node
  | .agrees inherited explicit => explicit = inherited
  | .reached source outport => ∃ node, outport.PortOf node ∧ ∃ w, g.IsWalk source w node

/-- The error of a path of which the check does not hold. -/
def error : Check → CompileError
  | .isPort port => .malformedPort (.malformedPort port)
  | .agrees inherited explicit => .conflict inherited explicit
  | .reached source outport => .noPath source outport

end Check

/-- An action is asked for a well-formed in-port if it floods. -/
def actionChecks : Action → List Check
  | .flood inPort => [.isPort inPort]
  | _ => []

def agreementChecks (p : Pathlet) (inherited : Option Uid) : List Check :=
  match p.pattern.inPort?, inherited with
  | some explicit, some inherited => [.agrees inherited explicit]
  | _, _ => []

def inPortChecks (inPort : Option Uid) : List Check := inPort.toList.map .isPort

/-- The nodes that traffic comes from, none if the in-port is not that of a node. -/
def startingNodes (c : Compiler) (inPort : Option Uid) : List Uid :=
  match c.graph.sources inPort with
  | .ok sources => sources
  | .error _ => []

def legChecks (source outport : Uid) : List Check := [.isPort outport, .reached source outport]

/-- What is asked of a pathlet that inherits an in-port or none. -/
def pathletChecks (c : Compiler) (p : Pathlet) (inherited : Option Uid) : List Check :=
  p.actions.flatMap actionChecks ++ (agreementChecks p inherited ++ (inPortChecks (p.pattern.inPort?.or inherited) ++
    (c.startingNodes (p.pattern.inPort?.or inherited)).flatMap fun source =>
      (p.ports c.graph).flatMap (legChecks source)))

/-- The ports by which traffic leaves a pathlet, once for everything that the pathlet may inherit when traffic has left
the one before by the given ports. -/
def leaving (c : Compiler) (left : List Uid) (p : Pathlet) : List Uid :=
  (c.inheritances left).flatMap fun _ => p.ports c.graph

/-- What is asked of pathlets when traffic has left the one before by the ports. -/
def checksAfter (c : Compiler) : (left : List Uid) → List Pathlet → List Check
  | _, [] => []
  | left, p :: pathlets =>
    (c.inheritances left).flatMap (c.pathletChecks p) ++ c.checksAfter (c.leaving left p) pathlets

/-- What is asked of a path that has pathlets. -/
def checks (c : Compiler) (path : Path) : List Check := c.checksAfter [] path.pathlets

/-! ## What the compiler enforces -/

variable {c : Compiler} {g : Graph} {priority : UInt16} {p : Pathlet}

theorem enforces_portNode (g : Graph) (port : Uid) :
    Enforces (Check.Holds g) Check.error [.isPort port] port.portNode := by
  cases h : port.portNode with
  | ok node => exact .ok node (List.forall_mem_singleton.2 ⟨node, Uid.portOf_iff.2 (Uid.portNode_eq_ok.1 h)⟩)
  | error e =>
    obtain ⟨rfl, hport⟩ := Uid.portNode_eq_error h
    exact .fail (Check.isPort port) hport

theorem enforces_outports (g : Graph) (p : Pathlet) :
    Enforces (Check.Holds g) Check.error (p.actions.flatMap actionChecks) (p.outports g) := by
  have haction (a : Action) : Enforces (Check.Holds g) Check.error (actionChecks a) (a.outports g) := by
    cases a with
    | flood inPort => exact (enforces_portNode g inPort).bind_ok fun _ _ => ⟨_, rfl⟩
    | _ => exact .pure _
  exact (Enforces.mapM haction p.actions).bind_ok fun _ _ => ⟨_, rfl⟩

theorem enforces_effectiveInPort (g : Graph) (p : Pathlet) (inherited : Option Uid) :
    Enforces (Check.Holds g) Check.error (agreementChecks p inherited) (p.effectiveInPort inherited) := by
  unfold agreementChecks Pathlet.effectiveInPort
  cases p.pattern.inPort? with
  | none => exact .pure inherited
  | some explicit =>
    cases inherited with
    | none => exact .pure (some explicit)
    | some port =>
      dsimp only
      split
      · next heq => exact .ok _ (List.forall_mem_singleton.2 heq)
      · next hne => exact .fail (Check.agrees port explicit) hne

theorem enforces_sources (g : Graph) : ∀ inPort : Option Uid,
    Enforces (Check.Holds g) Check.error (inPortChecks inPort) (g.sources inPort)
  | none => .pure g.nodes
  | some port => (enforces_portNode g port).bind_ok fun node _ => ⟨[node], rfl⟩

theorem startingNodes_eq {inPort : Option Uid} {sources : List Uid} (h : c.graph.sources inPort = .ok sources) :
    c.startingNodes inPort = sources := by
  unfold startingNodes
  rw [h]

theorem mem_startingNodes {inPort : Option Uid} {source : Uid} :
    source ∈ c.startingNodes inPort ↔ c.StartsAt inPort source := by
  unfold startingNodes
  split
  · next sources h => exact mem_sources h
  · next e h =>
    refine iff_of_false List.not_mem_nil fun hs => ?_
    cases inPort with
    | none => cases h
    | some port =>
      rw [Graph.sources, Uid.portNode_eq_ok.2 hs] at h
      cases h

theorem outports_of_mapM_pathletFlows {left : List Uid} {parts : List (List FlowEntry × List Uid)}
    (h : (c.inheritances left).mapM (c.pathletFlows priority p) = .ok parts) :
    parts.flatMap (·.2) = c.leaving left p := by
  refine (flatMap_eq_of_forall₂ (mapM_eq_ok.1 h) fun inherited part hpart => ?_).symm
  exact Pathlet.ports_eq (pathletFlows_eq_ok hpart).1

section WellFormed

variable (hg : c.graph.WellFormed)
include hg

/-- Besides the port and its distance nothing can fail: the links of a route leave ports of nodes. -/
theorem enforces_flowsTo (priority : UInt16) (p : Pathlet) (inPort : Option Uid) (source outport : Uid) :
    Enforces (Check.Holds c.graph) Check.error (legChecks source outport)
      (c.flowsTo priority p inPort source outport) := by
  show Enforces _ _ ([Check.isPort outport] ++ [.reached source outport]) _
  refine (enforces_portNode c.graph outport).bind fun target htarget => ?_
  rw [Uid.portNode_eq_ok] at htarget
  obtain ⟨found, hfound, hnone, -⟩ := Graph.exists_shortestRoutes c.graph source target
  rw [hfound]
  cases found with
  | none =>
    refine .fail (Check.reached source outport) ?_
    rintro ⟨node, hnode, w, hw⟩
    rw [Uid.portOf_iff, htarget, Except.ok.injEq] at hnode
    exact hnone.1 rfl w (hnode ▸ hw)
  | some r =>
    have hreached : ∀ check ∈ [Check.reached source outport], check.Holds c.graph := by
      have hwalk : ∃ w, c.graph.IsWalk source w target := by
        by_contra hno
        exact Option.some_ne_none r (hnone.2 (not_exists.1 hno))
      exact List.forall_mem_singleton.2 ⟨target, Uid.portOf_iff.2 htarget, hwalk⟩
    obtain ⟨parts, hparts⟩ : ∃ parts, (c.config.selection.select r.paths).mapM
        (c.routeFlows priority p target inPort) = .ok parts := by
      refine exists_mapM_eq_ok.2 fun route hroute => ?_
      exact exists_routeFlows (origin_of_mem_paths hg hfound (RouteSelection.subset hroute))
    simp only [Except.mapError, bind, Except.bind, hparts]
    split
    · exact .ok _ hreached
    · exact .ok _ hreached

theorem enforces_pathletFlows (priority : UInt16) (p : Pathlet) (inherited : Option Uid) :
    Enforces (Check.Holds c.graph) Check.error (c.pathletChecks p inherited) (c.pathletFlows priority p inherited) := by
  refine (enforces_outports c.graph p).bind fun qs hqs => ?_
  refine (enforces_effectiveInPort c.graph p inherited).bind fun inPort hin => ?_
  rw [← Pathlet.eq_of_effectiveInPort hin]
  refine (enforces_sources c.graph inPort).bind fun sources hsources => ?_
  rw [startingNodes_eq hsources, Pathlet.ports_eq hqs]
  have hlegs (source : Uid) := Enforces.mapM (enforces_flowsTo hg priority p inPort source) qs
  exact (Enforces.mapM hlegs sources).bind_ok fun rows _ => ⟨_, rfl⟩

/-- The checks of pathlets are made one pathlet after the other, with the out-ports that the last one left. -/
theorem enforces_foldlM (priority : UInt16) : ∀ (pathlets : List Pathlet) (s : Progress),
    Enforces (Check.Holds c.graph) Check.error (c.checksAfter s.outports pathlets)
      (pathlets.foldlM (c.advance priority) s)
  | [], s => .pure s
  | p :: pathlets, s => by
    rw [List.foldlM_cons, advance_eq, bind_assoc]
    have hparts := Enforces.mapM (enforces_pathletFlows hg priority p) (c.inheritances s.outports)
    refine hparts.bind fun parts h => ?_
    rw [← outports_of_mapM_pathletFlows h]
    exact enforces_foldlM priority pathlets ⟨_, _⟩

theorem enforces_compile {path : Path} (hne : path.pathlets ≠ []) :
    Enforces (Check.Holds c.graph) Check.error (c.checks path) (c.compile path) := by
  rw [compile_eq_map hne]
  exact (enforces_foldlM hg path.priority path.pathlets ⟨[], []⟩).map

end WellFormed

/-! ## When all checks hold -/

/-- The pathlet can be compiled when it inherits an in-port or none. -/
structure Compilable (c : Compiler) (p : Pathlet) (inherited : Option Uid) : Prop where
  floods : ∀ inPort, .flood inPort ∈ p.actions → ∃ node, inPort.PortOf node
  agrees : ∀ explicit port, p.pattern.inPort? = some explicit → inherited = some port → explicit = port
  inPort : ∀ port, p.pattern.inPort?.or inherited = some port → ∃ node, port.PortOf node
  outports : ∀ source q, c.StartsAt (p.pattern.inPort?.or inherited) source → p.IsOutport c.graph q →
    ∃ node, q.PortOf node ∧ ∃ w, c.graph.IsWalk source w node

theorem mem_agreementChecks {inherited : Option Uid} {check : Check} : check ∈ agreementChecks p inherited ↔
    ∃ explicit port, p.pattern.inPort? = some explicit ∧ inherited = some port ∧ check = .agrees port explicit := by
  unfold agreementChecks
  cases p.pattern.inPort? <;> cases inherited <;> simp

theorem mem_actionChecks {a : Action} {check : Check} :
    check ∈ actionChecks a ↔ ∃ inPort, a = .flood inPort ∧ check = .isPort inPort := by
  cases a <;> simp [actionChecks]

theorem mem_pathletChecks {inherited : Option Uid} {check : Check} : check ∈ c.pathletChecks p inherited ↔
    (∃ inPort, .flood inPort ∈ p.actions ∧ check = .isPort inPort) ∨
    (∃ explicit port, p.pattern.inPort? = some explicit ∧ inherited = some port ∧ check = .agrees port explicit) ∨
    (∃ port, p.pattern.inPort?.or inherited = some port ∧ check = .isPort port) ∨
    ∃ source q, c.StartsAt (p.pattern.inPort?.or inherited) source ∧ p.IsOutport c.graph q ∧
      (check = .isPort q ∨ check = .reached source q) := by
  simp only [pathletChecks, List.mem_append, List.mem_flatMap, mem_actionChecks, mem_agreementChecks, inPortChecks,
    legChecks, List.mem_map, Option.mem_toList, mem_startingNodes, Pathlet.mem_ports, List.mem_cons, List.not_mem_nil,
    or_false]
  refine or_congr ?_ (or_congr_right (or_congr ?_ ?_))
  · constructor
    · rintro ⟨_, ha, inPort, rfl, rfl⟩
      exact ⟨inPort, ha, rfl⟩
    · rintro ⟨inPort, ha, rfl⟩
      exact ⟨_, ha, inPort, rfl, rfl⟩
  · exact exists_congr fun port => and_congr_right fun _ => eq_comm
  · exact exists_congr fun source => exists_and_left.symm

theorem pathletChecks_hold_iff {inherited : Option Uid} :
    (∀ check ∈ c.pathletChecks p inherited, check.Holds c.graph) ↔ c.Compilable p inherited := by
  simp only [mem_pathletChecks]
  constructor
  · intro h
    refine ⟨fun inPort ha => ?_, fun explicit port hexplicit hport => ?_, fun port hport => ?_,
      fun source q hs hq => ?_⟩
    · exact h (.isPort inPort) (.inl ⟨inPort, ha, rfl⟩)
    · exact h (.agrees port explicit) (.inr (.inl ⟨explicit, port, hexplicit, hport, rfl⟩))
    · exact h (.isPort port) (.inr (.inr (.inl ⟨port, hport, rfl⟩)))
    · exact h (.reached source q) (.inr (.inr (.inr ⟨source, q, hs, hq, .inr rfl⟩)))
  · intro h check hcheck
    rcases hcheck with ⟨inPort, ha, rfl⟩ | ⟨explicit, port, hexplicit, hport, rfl⟩ | ⟨port, hport, rfl⟩ |
      ⟨source, q, hs, hq, rfl | rfl⟩
    · exact h.floods inPort ha
    · exact h.agrees explicit port hexplicit hport
    · exact h.inPort port hport
    · obtain ⟨node, hnode, -⟩ := h.outports source q hs hq
      exact ⟨node, hnode⟩
    · exact h.outports source q hs hq

section WellFormed

variable (hg : c.graph.WellFormed)
include hg

theorem mem_leaving {left : List Uid} {before : List Pathlet} (hleft : ∀ q, q ∈ left ↔ c.Leaves before q) (q : Uid) :
    q ∈ c.leaving left p ↔ c.Leaves (p :: before) q := by
  simp only [leaving, List.mem_flatMap, mem_inheritances_iff hg hleft, Pathlet.mem_ports, Leaves]
  exact exists_and_right.trans and_comm

/-- All checks hold if every pathlet can be compiled with everything that it may inherit. -/
theorem checksAfter_hold_iff : ∀ {pathlets before : List Pathlet} {left : List Uid},
    (∀ q, q ∈ left ↔ c.Leaves before q) →
    ((∀ check ∈ c.checksAfter left pathlets, check.Holds c.graph) ↔
      ∀ between p after, pathlets = between ++ p :: after →
        ∀ inherited, c.Inherits (c.Leaves (between.reverse ++ before)) inherited → c.Compilable p inherited)
  | [], _, _, _ => by simp [checksAfter]
  | p :: pathlets, before, left, hleft => by
    have hhead : (∀ check ∈ (c.inheritances left).flatMap (c.pathletChecks p), check.Holds c.graph) ↔
        ∀ inherited, c.Inherits (c.Leaves before) inherited → c.Compilable p inherited := by
      rw [List.forall_mem_flatMap]
      simp only [mem_inheritances_iff hg hleft, pathletChecks_hold_iff]
    rw [checksAfter, List.forall_mem_append, hhead, checksAfter_hold_iff (mem_leaving hg hleft)]
    -- the pathlet is the first one or one of those after it
    constructor
    · rintro ⟨hp, hrest⟩ between p' after heq
      cases between with
      | nil => cases heq; exact hp
      | cons q between =>
        obtain ⟨rfl, htail⟩ := List.cons.inj heq
        rw [List.reverse_cons, List.append_assoc]
        exact hrest between p' after htail
    · intro h
      refine ⟨h [] p pathlets rfl, fun between p' after heq => ?_⟩
      have hp' := h (p :: between) p' after (by rw [heq]; rfl)
      rwa [List.reverse_cons, List.append_assoc] at hp'

/-! ## Malformed ports -/

/-- What is inherited is an end of a recorded link. -/
theorem Inherits.portOf {left : Uid → Prop} {port : Uid} (h : c.Inherits left (some port)) :
    ∃ node, port.PortOf node := by
  simp only [Uid.portOf_iff]
  unfold Inherits at h
  dsimp only at h
  split at h
  · obtain ⟨-, l, hl, rfl⟩ := h
    obtain ⟨u, v, huv⟩ := Graph.mem_allLinks.1 hl
    exact ⟨u, (hg.recorded u v l huv).origin⟩
  · obtain ⟨l, hl, -, hport⟩ := h
    obtain ⟨u, v, huv⟩ := Graph.mem_allLinks.1 hl
    exact ⟨v, (hg.recorded u v l huv).targets port hport⟩

theorem portOf_or_names_of_isOutport {q : Uid} (h : p.IsOutport c.graph q) : (∃ node, q.PortOf node) ∨ p.Names q := by
  obtain ⟨a, ha, hq⟩ := h
  cases a with
  | forward ports => exact .inr (.inr ⟨_, ha, hq⟩)
  | flood inPort =>
    obtain ⟨-, node, -, l, hl, rfl⟩ := hq
    exact .inl ⟨node, Uid.portOf_iff.2 (hg.mem_links.1 hl).2⟩
  | _ => cases hq

theorem portOf_or_names_of_mem_pathletChecks {left : Uid → Prop} {inherited : Option Uid}
    (hi : c.Inherits left inherited) {port : Uid} (h : .isPort port ∈ c.pathletChecks p inherited) :
    (∃ node, port.PortOf node) ∨ p.Names port := by
  rcases mem_pathletChecks.1 h with ⟨inPort, ha, heq⟩ | ⟨_, _, -, -, heq⟩ | ⟨inPort, hin, heq⟩ |
    ⟨_, q, -, hq, heq | heq⟩
  · cases heq
    exact .inr (.inr ⟨_, ha, rfl⟩)
  · cases heq
  · cases heq
    rcases Option.or_eq_some_iff.1 hin with hexplicit | ⟨-, rfl⟩
    · exact .inr (.inl (Match.mem_of_inPort?_eq_some hexplicit))
    · exact .inl (hi.portOf hg)
  · cases heq
    exact portOf_or_names_of_isOutport hg hq
  · cases heq

theorem portOf_or_names_of_mem_checksAfter {port : Uid} : ∀ {pathlets : List Pathlet} {left : List Uid},
    .isPort port ∈ c.checksAfter left pathlets → (∃ node, port.PortOf node) ∨ ∃ p ∈ pathlets, p.Names port
  | [], _, h => by cases h
  | p :: pathlets, left, h => by
    rcases List.mem_append.1 h with h | h
    · obtain ⟨inherited, hi, h⟩ := List.mem_flatMap.1 h
      refine (portOf_or_names_of_mem_pathletChecks hg ((mem_inheritances hg).1 hi) h).imp_right fun hp => ?_
      exact ⟨p, List.mem_cons_self, hp⟩
    · refine (portOf_or_names_of_mem_checksAfter h).imp_right ?_
      rintro ⟨p', hp', hnames⟩
      exact ⟨p', List.mem_cons_of_mem _ hp', hnames⟩

end WellFormed

/-! ## Main result -/

/-- On a topology that was built link by link, a path compiles exactly if it has pathlets and each of them that is not
skipped can be compiled with everything that it may inherit. Otherwise the error is that of the first check that does
not hold. So no error is about the topology, and a malformed port is one that a pathlet names. -/
theorem compile_checks (c : Compiler) (hg : c.graph.Reachable) (path : Path) :
    ((∃ flows, c.compile path = .ok flows) ↔ path.pathlets ≠ [] ∧
      ∀ before p after, path.pathlets = before ++ p :: after →
        ∀ inherited, c.Inherits (c.Leaves before.reverse) inherited → c.Compilable p inherited) ∧
    (∀ e, c.compile path = .error e ↔ (path.pathlets = [] ∧ e = .emptyPath) ∨
      ∃ check, FirstViolated (Check.Holds c.graph) (c.checks path) check ∧ e = check.error) ∧
    (∀ cause, c.compile path ≠ .error (.topology cause)) ∧
    ∀ cause, c.compile path = .error (.malformedPort cause) →
      ∃ port, cause = .malformedPort port ∧ ∃ p ∈ path.pathlets, p.Names port := by
  have hwf := hg.wellFormed
  have herror : ∀ e, c.compile path = .error e ↔ (path.pathlets = [] ∧ e = .emptyPath) ∨
      ∃ check, FirstViolated (Check.Holds c.graph) (c.checks path) check ∧ e = check.error := by
    intro e
    by_cases hne : path.pathlets = []
    · rw [compile_of_pathlets_eq_nil hne, checks, hne, Except.error.injEq, and_iff_right rfl, eq_comm]
      refine (or_iff_left ?_).symm
      rintro ⟨check, hcheck, -⟩
      exact absurd hcheck.mem List.not_mem_nil
    · rw [(enforces_compile hwf hne).error_iff, or_iff_right fun h => hne h.1]
  refine ⟨?_, herror, fun cause h => ?_, fun cause h => ?_⟩
  · by_cases hne : path.pathlets = []
    · refine iff_of_false ?_ fun h => h.1 hne
      rintro ⟨flows, hflows⟩
      rw [compile_of_pathlets_eq_nil hne] at hflows
      cases hflows
    · have hstart : ∀ q, q ∈ ([] : List Uid) ↔ c.Leaves [] q := fun q => by simp [Leaves]
      rw [(enforces_compile hwf hne).ok_iff, and_iff_right hne, checks, checksAfter_hold_iff hwf hstart]
      simp only [List.append_nil]
  · rcases (herror _).1 h with ⟨-, heq⟩ | ⟨check, -, heq⟩
    · cases heq
    · cases check <;> cases heq
  · rcases (herror _).1 h with ⟨-, heq⟩ | ⟨check, hcheck, heq⟩
    · cases heq
    · cases check with
      | isPort port =>
        cases heq
        exact ⟨port, rfl, (portOf_or_names_of_mem_checksAfter hwf hcheck.mem).resolve_left hcheck.not_holds⟩
      | agrees inherited explicit => cases heq
      | reached source outport => cases heq

/-- The second pathlet names another in-port than the one that it inherits from the first. -/
def conflicting : Path :=
  { priority := 1, pathlets := [⟨⟨[.inPort ⟨"a$$1"⟩]⟩, [], [.forward [⟨"a$$1"⟩]]⟩, ⟨⟨[.inPort ⟨"c$$1"⟩]⟩, [], []⟩] }

theorem compile_checks_conflicting :
    (Compiler.mk Graph.parallel {}).compile conflicting = .error (.conflict ⟨"a$$1"⟩ ⟨"c$$1"⟩) := by
  have hchecks : (Compiler.mk Graph.parallel {}).checks conflicting =
      [.isPort ⟨"a$$1"⟩, .isPort ⟨"a$$1"⟩, .reached ⟨"a"⟩ ⟨"a$$1"⟩] ++ .agrees ⟨"a$$1"⟩ ⟨"c$$1"⟩ ::
        [.isPort ⟨"c$$1"⟩] := by decide +kernel
  have hport : (Uid.mk "a$$1").PortOf ⟨"a"⟩ := Uid.portOf_iff.2 (by decide +kernel)
  refine ((compile_checks _ Graph.reachable_parallel conflicting).2.1 _).2 (.inr ⟨_, ⟨_, _, hchecks, ?_, ?_⟩, rfl⟩)
  · simp only [List.forall_mem_cons, List.not_mem_nil, false_implies, implies_true, and_true]
    exact ⟨⟨_, hport⟩, ⟨_, hport⟩, _, hport, [], rfl⟩
  · show ¬ Uid.mk "c$$1" = ⟨"a$$1"⟩
    decide

end Compiler

end ControlPlane
