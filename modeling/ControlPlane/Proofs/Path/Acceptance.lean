/-
Where records come from, and what becomes of them. A record is made when its path is accepted, with the entries
that are asked for at that moment, and no operation has made a record under the same ID before
(`Tracker.Accepts`). From then on it only grows: what is installed stays installed, and nothing else changes
(`PathRecord.Extends`). Both are read off the effects of single operations (`Effect.origin`,
`Effect.exists_extends`), and carried along a run from its start.
-/
import ControlPlane.Proofs.Path.Announcement

namespace ControlPlane

namespace PathRecord

variable {r r' r'' : PathRecord}

/-! ## Records that grow -/

/-- The second record is the first one with more entries installed. -/
structure Extends (r r' : PathRecord) : Prop where
  requester : r'.requester = r.requester
  path : r'.path = r.path
  entries : r'.entries = r.entries
  installed : ∀ i, r.InstalledAt i → r'.InstalledAt i

theorem Extends.refl (r : PathRecord) : r.Extends r := ⟨rfl, rfl, rfl, fun _ h => h⟩

theorem Extends.trans (h : r.Extends r') (h' : r'.Extends r'') : r.Extends r'' :=
  ⟨h'.requester.trans h.requester, h'.path.trans h.path, h'.entries.trans h.entries,
    fun i hi => h'.installed i (h.installed i hi)⟩

theorem extends_confirm (r : PathRecord) (flow : FlowEntry) : r.Extends (r.confirm flow) := by
  obtain ⟨h1, h2, h3⟩ := r.confirm_frame flow
  exact ⟨h1, h2, h3, fun i hi => installedAt_confirm.2 (.inl hi)⟩

/-- The count of a record is not wrapped around, if the entries can be counted. -/
theorem Counted.toNat_installed (hr : r.Counted) (hfits : r.flows.length < UInt64.size) :
    r.installed.toNat = r.flows.countP FlowStatus.installed := by
  have hle : r.flows.countP FlowStatus.installed ≤ r.flows.length := List.countP_le_length
  rw [hr, UInt64.toNat_ofNat', Nat.mod_eq_of_lt (Nat.lt_of_le_of_lt hle hfits)]

end PathRecord

/-- The command asks for a flow entry. -/
def Command.asks : Command → Bool
  | .addFlowEntry _ _ => true
  | _ => false

namespace Tracker

variable {t t' : Tracker} {op : Operation} {commands : List Command} {id : String} {r r' : PathRecord}

theorem filter_asks_acceptance (t : Tracker) (requester : ActorRef) (path : Path) (flows : List FlowEntry) :
    (t.acceptance requester path flows).filter Command.asks = flows.map (.addFlowEntry · t.identity) := by
  unfold acceptance
  split
  · next h => simp [List.isEmpty_iff.1 h, Command.asks]
  · exact List.filter_eq_self.2 (by simp [Command.asks])

/-! ## One operation -/

theorem Effect.identity (h : t.Effect op commands t') : t'.identity = t.identity := by
  cases h <;> rfl

/-- No record is lost or replaced. -/
theorem Effect.exists_extends (hS : t.Sound) (h : t.Effect op commands t') (hr : t.record? id = some r) :
    ∃ r', t'.record? id = some r' ∧ r.Extends r' := by
  refine ⟨_, h.record? hS hr, ?_⟩
  cases op.confirmed? id with
  | none => exact .refl r
  | some flow => exact r.extends_confirm flow

/-- The operation accepts a path under an ID that was not in use, with the entries of the record, and asks for
exactly these entries. -/
structure Accepts (t : Tracker) (op : Operation) (id : String) (r : PathRecord) : Prop where
  unused : t.record? id = none
  operation : ∃ now path flows, op = .track now r.requester path flows ∧ r.path = named path id ∧
    r.entries = labelled flows id
  stored : ∃ r₀, (t.perform op).2.record? id = some r₀ ∧ r₀.Extends r
  asked : (t.perform op).1.filter Command.asks = r.entries.map (.addFlowEntry · t.identity)

theorem Accepts.of_extends (h : t.Accepts op id r) (he : r.Extends r') : t.Accepts op id r' := by
  obtain ⟨r₀, hr₀, h₀⟩ := h.stored
  refine ⟨h.unused, ?_, ⟨r₀, hr₀, h₀.trans he⟩, ?_⟩
  · rw [he.requester, he.path, he.entries]; exact h.operation
  · rw [he.entries]; exact h.asked

/-- What is stored after an operation was stored before, or is what the operation accepts. -/
theorem origin_perform (hS : t.Sound) (hr : (t.perform op).2.record? id = some r) :
    (∃ r₀, t.record? id = some r₀ ∧ r₀.Extends r) ∨ t.Accepts op id r := by
  have hstored := hr
  have heffect := t.effect_perform op
  generalize hp : t.perform op = p at heffect hr
  obtain ⟨commands, t'⟩ := p
  cases heffect with
  | idle _ _ => exact .inl ⟨r, hr, .refl r⟩
  | @accepted now requester path flows ids _ =>
    dsimp only at hr
    rw [record?_insert] at hr
    split at hr
    · next hid =>
      cases hr
      refine .inr ⟨hid ▸ hS.record?_nextPath, ⟨now, path, flows, rfl, by rw [hid]; rfl, ?_⟩,
        ⟨_, hstored, .refl _⟩, ?_⟩
      · rw [hid]; exact entries_newRecord _ _ _ _
      · rw [hp, entries_newRecord]; exact filter_asks_acceptance _ _ _ _
    · exact .inl ⟨r, hr, .refl r⟩
  | @installed flow r₀ hr₀ _ =>
    dsimp only at hr
    rw [record?_insert] at hr
    split at hr
    · next hid =>
      cases hr
      exact .inl ⟨r₀, hid ▸ hr₀, r₀.extends_confirm flow⟩
    · exact .inl ⟨r, hr, .refl r⟩

/-! ## Runs -/

theorem identity_run (t : Tracker) (ops : List Operation) : (t.run ops).2.identity = t.identity := by
  induction ops generalizing t with
  | nil => rfl
  | cons op ops ih => rw [run_cons, ih, (t.effect_perform op).identity]

-- The run is followed from its first operation on, so that the state in which a path is accepted is the one after
-- the operations before; what was stored at the start is the other case.
theorem Sound.origin_run (hS : t.Sound) {ops : List Operation} (hr : (t.run ops).2.record? id = some r) :
    (∃ r₀, t.record? id = some r₀ ∧ r₀.Extends r) ∨
    ∃ before op after, ops = before ++ op :: after ∧ (t.run before).2.Accepts op id r := by
  induction ops generalizing t with
  | nil => exact .inl ⟨r, hr, .refl r⟩
  | cons op ops ih =>
    rcases ih ((t.effect_perform op).sound hS) hr with ⟨r₁, hr₁, he⟩ | ⟨before, op', after, rfl, hop⟩
    · rcases origin_perform hS hr₁ with ⟨r₀, hr₀, he₀⟩ | hop
      · exact .inl ⟨r₀, hr₀, he₀.trans he⟩
      · exact .inr ⟨[], op, ops, rfl, hop.of_extends he⟩
    · exact .inr ⟨op :: before, op', after, rfl, hop⟩

/-! ## Main result -/

/-- After any run, every record is stored under the ID of its path, which is one that was given out; its entries
have this ID too, and are those that were asked for when the path was accepted, to be confirmed to the tracker;
and it counts the entries that are installed. Whatever is done next, each record stays, with the same requester,
path and entries, and what is installed stays installed. -/
theorem records_kept {identity : ActorRef} {ops : List Operation} {given : List Command} {t : Tracker}
    (hrun : (new identity).run ops = (given, t)) : t.identity = identity ∧
    (∀ id r, t.record? id = some r →
      (∃ n, n < t.ids.next IdCounters.pathCounter ∧ id = Path.idText n) ∧
      r.path.id = id ∧ (∀ f ∈ r.entries, f.id = id) ∧
      -- a list in memory is never too long for the 64 bits of the counter
      (r.flows.length < UInt64.size → r.installed.toNat = r.flows.countP FlowStatus.installed) ∧
      ∃ before op after, ops = before ++ op :: after ∧ ((new identity).run before).2.Accepts op id r ∧
        ((new identity).run before).2.identity = identity) ∧
    ∀ op id r, t.record? id = some r → ∃ r', (t.perform op).2.record? id = some r' ∧ r.Extends r' := by
  have hS : t.Sound := by simpa only [hrun] using (sound_new identity).run ops
  have hid : t.identity = identity := by
    have h := (new identity).identity_run ops
    rwa [hrun] at h
  refine ⟨hid, fun id r hr => ⟨hS.issued hr, hS.pathId hr, ?_⟩, fun op id r hr =>
    (t.effect_perform op).exists_extends hS hr⟩
  rcases (sound_new identity).origin_run (by rw [hrun]; exact hr) with ⟨r₀, hr₀, -⟩ | ⟨before, op, after, hops, hacc⟩
  · cases hr₀
  · refine ⟨?_, (hS.counted hr).toNat_installed, before, op, after, hops, hacc, identity_run _ before⟩
    obtain ⟨_, _, flows, -, -, hentries⟩ := hacc.operation
    rw [hentries]
    exact List.forall_mem_map.2 fun _ _ => rfl

/-- A path that blocks two nodes is accepted after an ID was taken; then the entries of other paths and, twice,
one of its own are confirmed. -/
def blockingTwo : List Operation :=
  [.reservePath, .track .epoch ⟨"net", "user"⟩ .empty [blocking ⟨"n1"⟩, blocking ⟨"n2"⟩], .confirm (blocking ⟨"n1"⟩),
    .confirm { blocking ⟨"n2"⟩ with id := "1" }, .confirm { blocking ⟨"n2"⟩ with id := "1" }]

theorem records_kept_blocking : ∃ r, ((new ⟨"net", "tracker"⟩).run blockingTwo).2.record? "1" = some r ∧
    r.path.id = "1" ∧ r.installed.toNat = r.flows.countP FlowStatus.installed ∧ r.installed = 1 ∧
    ∃ before op after, blockingTwo = before ++ op :: after ∧
      ((new ⟨"net", "tracker"⟩).run before).2.Accepts op "1" r := by
  have hrun : (new ⟨"net", "tracker"⟩).run blockingTwo =
      (((new ⟨"net", "tracker"⟩).run blockingTwo).1, ((new ⟨"net", "tracker"⟩).run blockingTwo).2) := rfl
  obtain ⟨-, hrecords, -⟩ := records_kept hrun
  have hr : ∃ r, ((new ⟨"net", "tracker"⟩).run blockingTwo).2.record? "1" = some r ∧ r.flows.length = 2 ∧
      r.installed = 1 := ⟨_, rfl, rfl, rfl⟩
  obtain ⟨r, hr, hlen, hone⟩ := hr
  obtain ⟨-, hpath, -, hcount, before, op, after, hops, hacc, -⟩ := hrecords "1" r hr
  exact ⟨r, hr, hpath, hcount (by rw [hlen]; decide), hone, before, op, after, hops, hacc⟩

end Tracker

end ControlPlane
