/-
What operations do to a tracker. Each of them has one of three effects (`Effect`): a path is accepted under
an ID that no record has, an entry is installed in the record of its path, or at most counters go up.

Along a run, every record stays under the ID of its path, below the counter of path IDs, and counts what it
has installed (`Sound`). No record is replaced, because only IDs are given out that the counter has not
passed; so the record of an accepted path changes by the confirmations of its own entries and by nothing
else (`record?_run`).
-/
import ControlPlane.Proofs.Path.Ids
import ControlPlane.Proofs.Path.Record

namespace ControlPlane.Tracker

/-! ## Operations -/

/-- What a tracker is asked to do. -/
inductive Operation where
  | track (now : Timestamp) (requester : ActorRef) (path : Path) (flows : List FlowEntry)
  | confirm (flow : FlowEntry)
  | reservePath
  | reserveFlows (count : UInt64)

/-- The entry that the operation confirms, if it is one of the path. -/
def Operation.confirmed? (id : String) : Operation → Option FlowEntry
  | .confirm flow => if flow.id = id then some flow else none
  | _ => none

/-- The commands that an operation gives, and the tracker afterwards. A refused operation gives none. -/
def perform (t : Tracker) : Operation → List Command × Tracker
  | .track now requester path flows =>
    match t.track now requester path flows with
    | (.ok commands, t) => (commands, t)
    | (.error _, t) => ([], t)
  | .confirm flow =>
    match t.confirm flow with
    | (.ok command, t) => (command.toList, t)
    | (.error _, t) => ([], t)
  | .reservePath => ([], { t with ids := t.ids.reservePath.2 })
  | .reserveFlows count => ([], { t with ids := (t.ids.reserveFlows count).2 })

/-- The commands that one operation after the other gives, and the tracker at the end. -/
def run (t : Tracker) : List Operation → List Command × Tracker
  | [] => ([], t)
  | op :: ops =>
    let (commands, t) := t.perform op
    let (later, t) := t.run ops
    (commands ++ later, t)

theorem run_cons (t : Tracker) (op : Operation) (ops : List Operation) : t.run (op :: ops) =
    ((t.perform op).1 ++ ((t.perform op).2.run ops).1, ((t.perform op).2.run ops).2) :=
  rfl

/-! ## Effects -/

/-- The ID of the next path that is accepted. -/
def nextPath (t : Tracker) : String := Path.idText (t.ids.next IdCounters.pathCounter)

/-- The path with an ID. -/
def named (path : Path) (id : String) : Path := { path with id }

/-- The flow entries with the ID of their path. -/
def labelled (flows : List FlowEntry) (id : String) : List FlowEntry := flows.map fun f => { f with id }

/-- The effect of an operation on a tracker, with the commands that it gives. -/
inductive Effect (t : Tracker) : Operation → List Command → Tracker → Prop where
  /-- No path is accepted, and no entry installed. -/
  | idle {op : Operation} {ids : IdCounters} (hids : ∀ counter, t.ids.next counter ≤ ids.next counter)
      (hawaits : ∀ id flow r, op.confirmed? id = some flow → t.record? id = some r → ¬ r.Awaits flow) :
      t.Effect op [] { t with ids }
  | accepted {now : Timestamp} {requester : ActorRef} {path : Path} {flows : List FlowEntry} {ids : IdCounters}
      (hids : t.ids.next IdCounters.pathCounter < ids.next IdCounters.pathCounter) :
      t.Effect (.track now requester path flows)
        (t.acceptance requester (named path t.nextPath) (labelled flows t.nextPath))
        { t with
          ids
          paths := t.paths.insert t.nextPath
            (newRecord now requester (named path t.nextPath) (labelled flows t.nextPath)) }
  | installed {flow : FlowEntry} {r : PathRecord} (hr : t.record? flow.id = some r) (hawaits : r.Awaits flow) :
      t.Effect (.confirm flow) (announcement (r.confirm flow)).toList
        { t with paths := t.paths.insert flow.id (r.confirm flow) }

variable {t t' : Tracker} {op : Operation} {commands : List Command} {r : PathRecord} {flow : FlowEntry}

theorem confirm_of_awaits (hr : t.record? flow.id = some r) (h : r.Awaits flow) :
    t.confirm flow =
      (.ok (announcement (r.confirm flow)), { t with paths := t.paths.insert flow.id (r.confirm flow) }) := by
  obtain ⟨i, s, -, -, -, hflag, heq⟩ := r.confirm_of_awaits h
  have hr : t.paths.get? flow.id = some r := hr
  simp only [confirm, hr, hflag, heq]

theorem confirm_of_not_awaits (h : ∀ r, t.record? flow.id = some r → ¬ r.Awaits flow) :
    ∃ e, t.confirm flow = (.error e, t) := by
  cases hr : t.paths.get? flow.id with
  | none => exact ⟨_, by simp only [confirm, hr]; rfl⟩
  | some r =>
    rcases r.flag?_of_not_awaits (h r hr) with hflag | ⟨ss, hflag⟩
    · exact ⟨_, by simp only [confirm, hr, hflag]; rfl⟩
    · exact ⟨_, by simp only [confirm, hr, hflag]; rfl⟩

theorem confirm_eq_error {e : TrackerError} (h : t.confirm flow = (.error e, t')) : t' = t := by
  by_cases hr : ∃ r, t.record? flow.id = some r ∧ r.Awaits flow
  · obtain ⟨r, hr, hawaits⟩ := hr
    cases (confirm_of_awaits hr hawaits).symm.trans h
  · obtain ⟨e', he⟩ := confirm_of_not_awaits fun r hr' hawaits => hr ⟨r, hr', hawaits⟩
    cases he.symm.trans h
    rfl

theorem track_eq_ok {now : Timestamp} {requester : ActorRef} {path : Path} {flows : List FlowEntry}
    (h : t.track now requester path flows = (.ok commands, t')) :
    ∃ ids, t.ids.next IdCounters.pathCounter < ids.next IdCounters.pathCounter ∧
      commands = t.acceptance requester (named path t.nextPath) (labelled flows t.nextPath) ∧
      t' = { t with
        ids
        paths := t.paths.insert t.nextPath
          (newRecord now requester (named path t.nextPath) (labelled flows t.nextPath)) } := by
  unfold track at h
  split at h
  · cases h
  · next n ids hn =>
    obtain ⟨rfl, hlt⟩ := IdCounters.reservePath_eq_ok hn
    cases h
    exact ⟨ids, hlt, rfl, rfl⟩

theorem track_eq_error {now : Timestamp} {requester : ActorRef} {path : Path} {flows : List FlowEntry}
    {e : TrackerError} (h : t.track now requester path flows = (.error e, t')) :
    e = .ids (.exhausted IdCounters.pathCounter (t.ids.next IdCounters.pathCounter) 1) ∧
    (t.ids.next IdCounters.pathCounter).toNat + 1 = UInt64.size ∧ t' = t := by
  unfold track at h
  split at h
  · next hids =>
    obtain ⟨rfl, hfull, rfl⟩ := IdCounters.reservePath_eq_error hids
    cases h
    exact ⟨rfl, hfull, rfl⟩
  · cases h

theorem effect_perform (t : Tracker) (op : Operation) : t.Effect op (t.perform op).1 (t.perform op).2 := by
  cases op with
  | track now requester path flows =>
    rcases ht : t.track now requester path flows with ⟨e | commands, t'⟩
    · simp only [perform, ht, (track_eq_error ht).2.2]
      exact .idle (fun _ => UInt64.le_refl _) (fun _ _ _ h => by cases h)
    · obtain ⟨ids, hids, rfl, rfl⟩ := track_eq_ok ht
      simp only [perform, ht]
      exact .accepted hids
  | confirm flow =>
    by_cases h : ∃ r, t.record? flow.id = some r ∧ r.Awaits flow
    · obtain ⟨r, hr, hawaits⟩ := h
      simp only [perform, confirm_of_awaits hr hawaits]
      exact .installed hr hawaits
    · have hno : ∀ r, t.record? flow.id = some r → ¬ r.Awaits flow := fun r hr hawaits => h ⟨r, hr, hawaits⟩
      obtain ⟨e, he⟩ := confirm_of_not_awaits hno
      simp only [perform, he]
      refine .idle (fun _ => UInt64.le_refl _) fun id flow' r hc hr => ?_
      rw [Operation.confirmed?] at hc
      split at hc
      · next hid => cases hc; exact hno r (hid ▸ hr)
      · cases hc
  | reservePath => exact .idle (t.ids.next_le_reservePath) (fun _ _ _ h => by cases h)
  | reserveFlows count =>
    exact .idle (t.ids.next_le_reserve IdCounters.flowCounter count) (fun _ _ _ h => by cases h)

/-! ## The invariant of a run -/

/-- Every record has an ID that was given out, which is that of its path, and counts what it has installed. -/
structure Sound (t : Tracker) : Prop where
  issued : ∀ {id r}, t.record? id = some r → ∃ n, n < t.ids.next IdCounters.pathCounter ∧ id = Path.idText n
  pathId : ∀ {id r}, t.record? id = some r → r.path.id = id
  counted : ∀ {id r}, t.record? id = some r → r.Counted

theorem record?_new (identity : ActorRef) (id : String) : (new identity).record? id = none := rfl

theorem sound_new (identity : ActorRef) : (new identity).Sound := by
  have hnone : ∀ {id r}, (new identity).record? id ≠ some r := fun h => by cases (record?_new identity _).symm.trans h
  exact ⟨fun h => absurd h hnone, fun h => absurd h hnone, fun h => absurd h hnone⟩

/-- The next path does not replace another one. -/
theorem Sound.record?_nextPath (hS : t.Sound) : t.record? t.nextPath = none := by
  cases hr : t.record? t.nextPath with
  | none => rfl
  | some r =>
    -- an ID that was given out is below the counter, and this one is the counter
    obtain ⟨n, hlt, hn⟩ := hS.issued hr
    rw [← Path.idText_inj.1 hn] at hlt
    exact absurd hlt (UInt64.lt_irrefl _)

theorem record?_insert (t : Tracker) (ids : IdCounters) (id id' : String) (r : PathRecord) :
    record? { t with ids, paths := t.paths.insert id r } id' = if id' = id then some r else t.record? id' := by
  split
  · next h => rw [h]; exact Dict.get?_insert_self _ _ _
  · next h => exact Dict.get?_insert_of_ne _ _ h

theorem counted_newRecord (now : Timestamp) (requester : ActorRef) (path : Path) (flows : List FlowEntry) :
    (newRecord now requester path flows).Counted := by
  have hzero : (flows.map (FlowStatus.mk · false)).countP FlowStatus.installed = 0 := by
    rw [List.countP_eq_zero]
    intro s hs
    obtain ⟨f, -, rfl⟩ := List.mem_map.1 hs
    exact Bool.false_ne_true
  rw [PathRecord.Counted]
  show 0 = UInt64.ofNat _
  rw [newRecord, hzero]
  rfl

-- Where a record is put in, each part is shown for this record and then for the others.
theorem Effect.sound (hS : t.Sound) (h : t.Effect op commands t') : t'.Sound := by
  cases h with
  | idle hids _ =>
    refine ⟨fun hr => ?_, hS.pathId, hS.counted⟩
    obtain ⟨n, hn, rfl⟩ := hS.issued hr
    exact ⟨n, UInt64.lt_of_lt_of_le hn (hids _), rfl⟩
  | accepted hids =>
    refine ⟨fun {id r} hr => ?_, fun {id r} hr => ?_, fun {id r} hr => ?_⟩ <;> rw [record?_insert] at hr <;> split at hr
    · next hid => exact ⟨_, hids, hid⟩
    · obtain ⟨n, hn, rfl⟩ := hS.issued hr
      exact ⟨n, UInt64.lt_trans hn hids, rfl⟩
    · next hid => cases hr; exact hid.symm
    · exact hS.pathId hr
    · cases hr; exact counted_newRecord _ _ _ _
    · exact hS.counted hr
  | @installed flow r' hr' _ =>
    refine ⟨fun {id r} hr => ?_, fun {id r} hr => ?_, fun {id r} hr => ?_⟩ <;> rw [record?_insert] at hr <;> split at hr
    · next hid => exact hS.issued (hid ▸ hr')
    · exact hS.issued hr
    · next hid => cases hr; rw [(r'.confirm_frame flow).2.1, hid]; exact hS.pathId hr'
    · exact hS.pathId hr
    · cases hr; exact (hS.counted hr').confirm flow
    · exact hS.counted hr

theorem Sound.run (hS : t.Sound) (ops : List Operation) : (t.run ops).2.Sound := by
  induction ops generalizing t with
  | nil => exact hS
  | cons op ops ih => exact ih ((t.effect_perform op).sound hS)

/-! ## The record of a path along a run -/

theorem Effect.record? (hS : t.Sound) (h : t.Effect op commands t') {id : String} (hr : t.record? id = some r) :
    t'.record? id = some (r.confirmAll (op.confirmed? id).toList) := by
  cases h with
  | @idle _ _ _ hawaits =>
    cases hc : op.confirmed? id with
    | none => exact hr
    | some flow =>
      show t.record? id = some (r.confirm flow)
      rw [r.confirm_of_not_awaits (hawaits id flow r hc hr), hr]
  | accepted _ =>
    have hne : id ≠ t.nextPath := by
      rintro rfl
      rw [hS.record?_nextPath] at hr
      cases hr
    rw [record?_insert, if_neg hne]
    exact hr
  | @installed flow r' hr' _ =>
    rw [record?_insert, Operation.confirmed?]
    split
    · next hid =>
      obtain rfl : r' = r := Option.some.inj (hr'.symm.trans (hid ▸ hr))
      rw [if_pos hid.symm]
      rfl
    · next hid =>
      rw [if_neg fun h => hid h.symm]
      exact hr

/-- The record of a path at the end of a run has seen the confirmations of its entries, and nothing else. -/
theorem Sound.record?_run (hS : t.Sound) {id : String} (hr : t.record? id = some r) (ops : List Operation) :
    (t.run ops).2.record? id = some (r.confirmAll (ops.filterMap (Operation.confirmed? id))) := by
  induction ops generalizing t r with
  | nil => exact hr
  | cons op ops ih =>
    have hstep := (t.effect_perform op).record? hS hr
    rw [run_cons, ih ((t.effect_perform op).sound hS) hstep]
    cases hc : op.confirmed? id with
    | none => rw [List.filterMap_cons_none hc]; rfl
    | some flow => rw [List.filterMap_cons_some hc]; rfl

end ControlPlane.Tracker
