/-
The announcement of a path. Of all the commands that a tracker gives along a run, those that announce a path
are what its record, as it is at the end, announces (`Announced`): nothing as long as an entry is not
installed, and one command from then on. A step that completes a record finds it incomplete, and no step
reopens one, so the invariant needs no more than the effects of single operations.

A path is complete after its entries were confirmed, in any order, if each of them has its own place in the
record. That needs entries that equal themselves and no later one; the second is what dropping redundant
entries gives (`FlowEntry.essential_pairwise`), the first is not.
-/
import ControlPlane.Proofs.Flow.Redundancy
import ControlPlane.Proofs.Path.Tracker

namespace ControlPlane

/-- The command announces that the path with the ID is installed. -/
def Command.announces (id : String) : Command → Bool
  | .pathAdded _ path => path.id == id
  | _ => false

namespace Tracker

variable {t t' : Tracker} {op : Operation} {given commands : List Command}

/-! ## Announcements of a record -/

theorem filter_announcement (r : PathRecord) (id : String) :
    (announcement r).toList.filter (Command.announces id) = if r.path.id = id then (announcement r).toList else [] := by
  rw [announcement]
  by_cases hc : r.isComplete = true
  · rw [if_pos hc, Option.toList_some, List.filter_singleton, Command.announces]
    simp only [Bool.cond_eq_ite, beq_iff_eq]
  · rw [if_neg hc]
    simp

/-- A record that is as long as can be counted announces its path exactly if all entries are installed. -/
theorem toList_announcement {r : PathRecord} (hr : r.Counted) (hfits : r.entries.length < UInt64.size) :
    (announcement r).toList = if r.flows.all FlowStatus.installed then [.pathAdded r.requester r.path] else [] := by
  rw [PathRecord.length_entries] at hfits
  rw [announcement, hr.isComplete_iff hfits]
  split <;> rfl

/-- A new record announces its path exactly if this is what its acceptance gives. -/
theorem filter_acceptance (t : Tracker) (now : Timestamp) (requester : ActorRef) (path : Path) (flows : List FlowEntry)
    (id : String) : (t.acceptance requester path flows).filter (Command.announces id) =
      if path.id = id then (announcement (newRecord now requester path flows)).toList else [] := by
  cases flows with
  | nil => exact filter_announcement (newRecord now requester path []) id
  | cons f flows =>
    have hnone : announcement (newRecord now requester path (f :: flows)) = none := by
      simp [announcement, PathRecord.isComplete, newRecord]
    rw [hnone, Option.toList_none, ite_self, List.filter_eq_nil_iff]
    intro command hc
    obtain ⟨g, -, rfl⟩ := List.mem_map.1 hc
    exact Bool.false_ne_true

/-! ## The commands of a run -/

/-- The commands that announce a path are those that its record announces. -/
def Announced (given : List Command) (t : Tracker) : Prop :=
  ∀ id, given.filter (Command.announces id) = ((t.record? id).bind announcement).toList

theorem announced_new (identity : ActorRef) : Announced [] (new identity) := fun _ => rfl

-- A new record may replace one that announced nothing, as long as the commands are what it announces.
theorem Announced.insert (hA : Announced given t) (ids : IdCounters) {id : String} {r : PathRecord}
    (hbefore : (t.record? id).bind announcement = none)
    (hcommands : ∀ id', commands.filter (Command.announces id') = if id = id' then (announcement r).toList else []) :
    Announced (given ++ commands) { t with ids, paths := t.paths.insert id r } := by
  intro id'
  rw [List.filter_append, hA id', hcommands id', record?_insert]
  by_cases hid : id' = id
  · rw [if_pos hid, if_pos hid.symm, hid, hbefore]
    rfl
  · rw [if_neg hid, if_neg (Ne.symm hid), List.append_nil]

theorem Effect.announced (hS : t.Sound) (hA : Announced given t) (h : t.Effect op commands t') :
    Announced (given ++ commands) t' := by
  cases h with
  | idle _ _ =>
    rw [List.append_nil]
    exact hA
  | @accepted now requester path flows ids _ =>
    refine hA.insert ids ?_ fun id' => t.filter_acceptance now requester _ _ id'
    rw [hS.record?_nextPath]
    rfl
  | @installed flow r hr hawaits =>
    refine hA.insert t.ids ?_ fun id' => ?_
    · rw [hr, Option.bind_some, announcement, (hS.counted hr).not_isComplete hawaits]
      rfl
    · rw [filter_announcement, (r.confirm_frame flow).2.1, hS.pathId hr]

theorem Announced.run (hS : t.Sound) (hA : Announced given t) (ops : List Operation) :
    Announced (given ++ (t.run ops).1) (t.run ops).2 := by
  induction ops generalizing t given with
  | nil => rw [run, List.append_nil]; exact hA
  | cons op ops ih =>
    have heffect := t.effect_perform op
    rw [run_cons, ← List.append_assoc]
    exact ih (heffect.sound hS) (heffect.announced hS hA)

/-! ## Completion of a path -/

section Completion

variable {now : Timestamp} {requester : ActorRef} {path : Path} {flows : List FlowEntry}

theorem entries_newRecord (now : Timestamp) (requester : ActorRef) (path : Path) (flows : List FlowEntry) :
    (newRecord now requester path flows).entries = flows := by
  rw [PathRecord.entries, newRecord, List.map_map]
  exact List.map_id flows

theorem not_installedAt_newRecord {i : Nat} : ¬ (newRecord now requester path flows).InstalledAt i := by
  rintro ⟨s, hs, hb⟩
  obtain ⟨f, -, rfl⟩ := List.mem_map.1 (List.mem_of_getElem? hs)
  cases hb

theorem mem_acceptance (t : Tracker) {f : FlowEntry} (hf : f ∈ flows) :
    .addFlowEntry f t.identity ∈ t.acceptance requester path flows := by
  rw [acceptance, if_neg (by simpa using List.ne_nil_of_mem hf)]
  exact List.mem_map_of_mem hf

end Completion

/-! ## Main result -/

/-- Whatever a tracker is asked to do before and after a path is accepted, the record of the path keeps its
entries; if all of them are installed, the path was announced once, to its requester and with its ID, and
otherwise not at all. All are installed as soon as each entry that was asked for has been confirmed, if they
equal themselves and no later one; and of essential entries, none is equal to a later one. -/
theorem announced_once {identity requester : ActorRef} {before after : List Operation} {now : Timestamp} {path : Path}
    {flows : List FlowEntry} {earlier later : List Command} {t₀ t₁ t₂ : Tracker}
    (hbefore : (new identity).run before = (earlier, t₀))
    (haccept : t₀.track now requester path flows = (.ok commands, t₁))
    (hafter : t₁.run after = (later, t₂))
    -- a list in memory is never too long for the 64 bits of the counter
    (hfits : flows.length < UInt64.size) :
    (∃ r, t₂.record? t₀.nextPath = some r ∧ r.entries = labelled flows t₀.nextPath ∧
      (earlier ++ commands ++ later).filter (Command.announces t₀.nextPath) =
        (if r.flows.all FlowStatus.installed then [.pathAdded requester (named path t₀.nextPath)] else []) ∧
      ((∀ f ∈ flows, f.equals f = true) → flows.Pairwise (fun f g => f.equals g = false) →
        (∀ f ack, .addFlowEntry f ack ∈ commands → .confirm f ∈ after) → r.flows.all FlowStatus.installed = true)) ∧
    ∀ candidates : List FlowEntry, (FlowEntry.essential candidates).Pairwise fun f g => f.equals g = false := by
  have hS₀ : t₀.Sound := by simpa only [hbefore] using (sound_new identity).run before
  have hA₀ : Announced earlier t₀ := by
    simpa only [hbefore, List.nil_append] using (announced_new identity).run (sound_new identity) before
  have heffect : t₀.Effect (.track now requester path flows) commands t₁ := by
    simpa only [perform, haccept] using t₀.effect_perform (.track now requester path flows)
  have hS₁ := heffect.sound hS₀
  have hA₂ : Announced (earlier ++ commands ++ later) t₂ := by
    simpa only [hafter] using (heffect.announced hS₀ hA₀).run hS₁ after
  have hS₂ : t₂.Sound := by simpa only [hafter] using hS₁.run after
  obtain ⟨ids, -, rfl, rfl⟩ := track_eq_ok haccept
  obtain ⟨r, hr⟩ : ∃ r, r = newRecord now requester (named path t₀.nextPath) (labelled flows t₀.nextPath) := ⟨_, rfl⟩
  rw [← hr] at hafter hS₁
  -- the record at the end is the new one after the confirmations of its entries
  have hend : t₂.record? t₀.nextPath = some (r.confirmAll (after.filterMap (Operation.confirmed? t₀.nextPath))) := by
    simpa only [hafter] using hS₁.record?_run (by rw [record?_insert, if_pos rfl]) after
  obtain ⟨hrequester, hpath, hentries⟩ := r.confirmAll_frame (after.filterMap (Operation.confirmed? t₀.nextPath))
  have hkept : r.entries = labelled flows t₀.nextPath := by rw [hr]; exact entries_newRecord _ _ _ _
  refine ⟨⟨_, hend, hentries.trans hkept, ?_, fun hself hfirst hconfirmed => ?_⟩, FlowEntry.essential_pairwise⟩
  · have hlen : r.entries.length = flows.length := by rw [hkept, labelled, List.length_map]
    rw [hA₂, hend, Option.bind_some, toList_announcement (hS₂.counted hend) (by rw [hentries, hlen]; exact hfits),
      hrequester, hpath, hr]
    rfl
  · -- the ID does not count in what equals what
    refine PathRecord.all_installed_of_confirmed (hkept ▸ List.forall_mem_map.2 hself)
      (hkept ▸ List.pairwise_map.2 hfirst) fun f hf => ?_
    rw [hkept] at hf
    have hasked : .confirm f ∈ after := hconfirmed f t₀.identity (mem_acceptance t₀ hf)
    obtain ⟨g, -, rfl⟩ := List.mem_map.1 hf
    exact List.mem_filterMap.2 ⟨_, hasked, if_pos rfl⟩

/-- An entry that drops whatever its node receives. -/
def blocking (node : Uid) : FlowEntry := { node, pattern := .any, actions := [.drop], priority := 1 }

/-- The tracker after somebody else took an ID. -/
def started : Tracker := ((new ⟨"net", "tracker"⟩).run [.reservePath]).2

/-- The tracker after a path was accepted that blocks two nodes. -/
def blocked : Tracker := (started.track .epoch ⟨"net", "user"⟩ .empty [blocking ⟨"n1"⟩, blocking ⟨"n2"⟩]).2

/-- An entry that belongs to no path, and the entries of the path in the other order, one of them twice. -/
def confirmations : List Operation :=
  [.confirm (blocking ⟨"n1"⟩), .confirm { blocking ⟨"n2"⟩ with id := "1" }, .confirm { blocking ⟨"n2"⟩ with id := "1" },
    .confirm { blocking ⟨"n1"⟩ with id := "1" }]

theorem announced_once_blocked : ∃ r, (blocked.run confirmations).2.record? "1" = some r ∧
    r.flows.all FlowStatus.installed = true ∧
    (blocked.run confirmations).1.filter (Command.announces "1") = [.pathAdded ⟨"net", "user"⟩ (named .empty "1")] := by
  have hid : started.nextPath = "1" := by decide
  have hbefore : (new ⟨"net", "tracker"⟩).run [.reservePath] = ([], started) := rfl
  have haccept : started.track .epoch ⟨"net", "user"⟩ .empty [blocking ⟨"n1"⟩, blocking ⟨"n2"⟩] =
      (.ok [.addFlowEntry { blocking ⟨"n1"⟩ with id := started.nextPath } ⟨"net", "tracker"⟩,
        .addFlowEntry { blocking ⟨"n2"⟩ with id := started.nextPath } ⟨"net", "tracker"⟩], blocked) := rfl
  have hafter : blocked.run confirmations = ((blocked.run confirmations).1, (blocked.run confirmations).2) := rfl
  obtain ⟨⟨r, hr, -, hgiven, hall⟩, -⟩ := announced_once hbefore haccept hafter (by decide)
  have hinstalled : r.flows.all FlowStatus.installed = true := by
    refine hall (by decide) (by decide) fun f ack hf => ?_
    simp only [List.mem_cons, List.not_mem_nil, or_false, Command.addFlowEntry.injEq, hid] at hf
    rcases hf with ⟨rfl, -⟩ | ⟨rfl, -⟩ <;> simp [confirmations]
  rw [hid] at hr hgiven
  refine ⟨r, hr, hinstalled, ?_⟩
  rw [hinstalled] at hgiven
  exact hgiven

end Tracker

end ControlPlane
