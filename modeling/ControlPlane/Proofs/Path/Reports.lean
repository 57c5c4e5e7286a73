/-
Reports of the entries of a path, each of them once. The answer to a report depends on the record of the path
alone (`PathRecord.verdict`), so the answers to several of them depend on the record and on nothing that happens
between them (`PathRecord.verdicts`).

Reports are all accepted exactly if each entry has a place, nothing is installed there, and no two have the same
place (`awaitsAll_iff`); so their order does not matter. In a new record, none of whose entries is equal to a
later one, the entries have places of their own if each equals itself. If one does not, some place belongs to no
entry, and the path is never complete: going up the places, the first entry that is not at its own place would
leave it to an earlier one, which has its own (`place?_getElem_of_forall`).
-/
import ControlPlane.Proofs.Path.Announcement

namespace ControlPlane

namespace PathRecord

variable {r : PathRecord} {flow : FlowEntry} {flows : List FlowEntry}

/-! ## Verdicts -/

/-- The answer to the confirmation of an entry with the ID of the path. -/
def verdict (r : PathRecord) (flow : FlowEntry) : Except TrackerError (Option Command) :=
  match Tracker.flag? flow r.flows with
  | none => .error (.unknownFlow flow.id flow)
  | some (true, _) => .error (.alreadyInstalled flow.id flow)
  | some (false, _) => .ok (Tracker.announcement (r.confirm flow))

/-- The answers to confirmations one after the other. -/
def verdicts (r : PathRecord) : List FlowEntry → List (Except TrackerError (Option Command))
  | [] => []
  | flow :: flows => r.verdict flow :: (r.confirm flow).verdicts flows

theorem verdict_of_awaits (h : r.Awaits flow) : r.verdict flow = .ok (Tracker.announcement (r.confirm flow)) := by
  obtain ⟨_, _, -, -, -, hflag, -⟩ := confirm_of_awaits h
  rw [verdict, hflag]

theorem isOk_verdict : (r.verdict flow).isOk = true ↔ r.Awaits flow := by
  constructor
  · intro hok
    by_contra h
    rcases flag?_of_not_awaits h with hf | ⟨ss, hf⟩ <;> rw [verdict, hf] at hok <;> cases hok
  · intro h
    rw [verdict_of_awaits h]
    rfl

/-! ## Confirmations that are all awaited -/

/-- Each of the confirmations is awaited when it comes. -/
def AwaitsAll (r : PathRecord) : List FlowEntry → Prop
  | [] => True
  | flow :: flows => r.Awaits flow ∧ (r.confirm flow).AwaitsAll flows

theorem isOk_verdicts : (∀ v ∈ r.verdicts flows, v.isOk = true) ↔ r.AwaitsAll flows := by
  induction flows generalizing r with
  | nil => exact iff_of_true (fun _ h => by cases h) trivial
  | cons flow flows ih => rw [verdicts, List.forall_mem_cons, isOk_verdict, ih, AwaitsAll]

/-- What is awaited after a confirmation was awaited before, at another place. -/
theorem awaits_confirm {flow' : FlowEntry} :
    (r.confirm flow).Awaits flow' ↔ r.place? flow ≠ r.place? flow' ∧ r.Awaits flow' := by
  simp only [Awaits, place?_confirm, installedAt_confirm, not_or]
  constructor
  · rintro ⟨i, hi, hno, hne⟩
    exact ⟨fun heq => hne (heq.trans hi), i, hi, hno⟩
  · rintro ⟨hne, i, hi, hno⟩
    exact ⟨i, hi, hno, fun heq => hne (heq.trans hi.symm)⟩

theorem awaitsAll_iff : r.AwaitsAll flows ↔ (flows.map r.place?).Nodup ∧ ∀ flow ∈ flows, r.Awaits flow := by
  induction flows generalizing r with
  | nil => simp [AwaitsAll]
  | cons flow flows ih =>
    rw [AwaitsAll, List.map_cons, List.nodup_cons, List.forall_mem_cons, List.mem_map, and_left_comm]
    refine and_congr_right fun _ => ?_
    have hmap : flows.map (r.confirm flow).place? = flows.map r.place? :=
      List.map_congr_left fun f _ => place?_confirm _ _ f
    simp only [ih, hmap, awaits_confirm, ne_eq, not_exists, not_and]
    constructor
    · rintro ⟨hnodup, hall⟩
      exact ⟨⟨fun f hf heq => (hall f hf).1 heq.symm, hnodup⟩, fun f hf => (hall f hf).2⟩
    · rintro ⟨⟨hne, hnodup⟩, hall⟩
      exact ⟨hnodup, fun f hf => ⟨fun heq => hne f hf heq.symm, hall f hf⟩⟩

theorem awaitsAll_perm {flows' : List FlowEntry} (h : flows.Perm flows') : r.AwaitsAll flows ↔ r.AwaitsAll flows' := by
  rw [awaitsAll_iff, awaitsAll_iff, (h.map _).nodup_iff]
  exact and_congr_right fun _ => forall_congr' fun _ => by rw [h.mem_iff]

/-- Only the last of the confirmations can complete the path. -/
theorem verdicts_of_awaitsAll (hr : r.Counted) (h : r.AwaitsAll (flows ++ [flow])) :
    r.verdicts (flows ++ [flow]) =
      List.replicate flows.length (.ok none) ++ [.ok (Tracker.announcement (r.confirmAll (flows ++ [flow])))] := by
  induction flows generalizing r with
  | nil => rw [List.nil_append, verdicts, verdict_of_awaits h.1]; rfl
  | cons f flows ih =>
    obtain ⟨hf, hrest⟩ := h
    have hnext : ∃ g, (r.confirm f).Awaits g := by
      cases flows with
      | nil => exact ⟨_, hrest.1⟩
      | cons g _ => exact ⟨g, hrest.1⟩
    obtain ⟨g, hg⟩ := hnext
    have hnone : Tracker.announcement (r.confirm f) = none := by
      rw [Tracker.announcement, (hr.confirm f).not_isComplete hg]
      rfl
    rw [List.cons_append, verdicts, verdict_of_awaits hf, hnone, ih (hr.confirm f) hrest]
    rfl

theorem AwaitsAll.countP (h : r.AwaitsAll flows) :
    (r.confirmAll flows).flows.countP FlowStatus.installed = r.flows.countP FlowStatus.installed + flows.length := by
  induction flows generalizing r with
  | nil => rfl
  | cons flow flows ih =>
    show ((r.confirm flow).confirmAll flows).flows.countP FlowStatus.installed = _
    rw [ih h.2, countP_confirm h.1, List.length_cons]
    omega

/-- What announces a path is an answer after which all entries are installed. -/
theorem all_installed_of_announced {command : Command} (hr : r.Counted) (hfits : r.entries.length < UInt64.size)
    (h : .ok (some command) ∈ r.verdicts flows) : (r.confirmAll flows).flows.all FlowStatus.installed = true := by
  induction flows generalizing r with
  | nil => cases h
  | cons flow flows ih =>
    have hfits' : (r.confirm flow).entries.length < UInt64.size := by rw [(r.confirm_frame flow).2.2]; exact hfits
    rcases List.mem_cons.1 h with hv | h
    · have hawaits : r.Awaits flow := isOk_verdict.1 (by rw [← hv]; rfl)
      rw [verdict_of_awaits hawaits, Tracker.announcement] at hv
      split at hv
      · next hcomplete =>
        rw [(hr.confirm flow).isComplete_iff (by rw [← length_entries]; exact hfits')] at hcomplete
        exact all_installed_confirmAll hcomplete flows
      · cases hv
    · exact ih (hr.confirm flow) hfits' h

/-! ## The entries of a new record -/

/-- Of entries that are not equal to later ones, each has its own place if there is one for every place:
the first one that had not would leave its place to an earlier entry, which has its own. -/
theorem place?_getElem_of_forall (hfirst : r.entries.Pairwise fun f g => f.equals g = false)
    (hall : ∀ i < r.entries.length, ∃ f ∈ r.entries, r.place? f = some i) (i : Nat) (hi : i < r.entries.length) :
    r.place? r.entries[i] = some i := by
  obtain ⟨f, hf, hfi⟩ := hall i hi
  obtain ⟨k, hk, rfl⟩ := List.getElem_of_mem hf
  rcases Nat.lt_trichotomy k i with hki | rfl | hik
  · have hown := place?_getElem_of_forall hfirst hall k hk
    exact absurd (Option.some.inj (hown.symm.trans hfi)) (Nat.ne_of_lt hki)
  · exact hfi
  · have he := (place?_eq_some_iff.1 hfi).2.1
    rw [List.pairwise_iff_getElem.1 hfirst i k hi hk hik] at he
    cases he

/-- Nothing is installed, and no entry is equal to a later one. -/
structure Fresh (r : PathRecord) : Prop where
  counted : r.Counted
  notInstalled : ∀ i, ¬ r.InstalledAt i
  first : r.entries.Pairwise fun f g => f.equals g = false

theorem fresh_newRecord (now : Timestamp) (requester : ActorRef) (path : Path)
    (h : flows.Pairwise fun f g => f.equals g = false) : (Tracker.newRecord now requester path flows).Fresh :=
  ⟨Tracker.counted_newRecord _ _ _ _, fun _ => Tracker.not_installedAt_newRecord,
    (Tracker.entries_newRecord now requester path flows).symm ▸ h⟩

/-- Confirmations of entries install all of them only if each entry equals itself. -/
theorem Fresh.equals_self_of_all_installed (hr : r.Fresh) (hsub : ∀ f ∈ flows, f ∈ r.entries)
    (hall : (r.confirmAll flows).flows.all FlowStatus.installed = true) : ∀ f ∈ r.entries, f.equals f = true := by
  have hplaces : ∀ i < r.entries.length, ∃ f ∈ r.entries, r.place? f = some i := by
    intro i hi
    rw [← (r.confirmAll_frame flows).2.2, entries, List.length_map] at hi
    rcases installedAt_confirmAll.1 (all_installed_iff.1 hall i hi) with h | ⟨f, hf, hfi⟩
    · exact absurd h (hr.notInstalled i)
    · exact ⟨f, hsub f hf, hfi⟩
  intro f hf
  obtain ⟨i, hi, rfl⟩ := List.getElem_of_mem hf
  exact (place?_eq_some_iff.1 (place?_getElem_of_forall hr.first hplaces i hi)).2.1

theorem Fresh.awaitsAll_entries (hr : r.Fresh) (hself : ∀ f ∈ r.entries, f.equals f = true) :
    r.AwaitsAll r.entries := by
  refine awaitsAll_iff.2 ⟨?_, fun f hf => ?_⟩
  · refine List.pairwise_map.2 (List.pairwise_iff_getElem.2 fun i j hi hj hij => ?_)
    rw [place?_getElem hself hr.first hi, place?_getElem hself hr.first hj]
    exact fun heq => Nat.ne_of_lt hij (Option.some.inj heq)
  · obtain ⟨i, hi, rfl⟩ := List.getElem_of_mem hf
    exact ⟨i, place?_getElem hself hr.first hi, hr.notInstalled i⟩

/-- Where each entry equals itself, the entries are confirmed in any order, and the last one completes the
path. -/
theorem Fresh.verdicts_of_equals_self (hr : r.Fresh) (hfits : r.entries.length < UInt64.size) (hne : r.entries ≠ [])
    (hself : ∀ f ∈ r.entries, f.equals f = true) (hperm : flows.Perm r.entries) :
    r.verdicts flows =
      List.replicate (r.entries.length - 1) (.ok none) ++ [.ok (some (.pathAdded r.requester r.path))] := by
  have hawaits := (awaitsAll_perm hperm).2 (hr.awaitsAll_entries hself)
  have hall := all_installed_of_confirmed hself hr.first fun f => hperm.mem_iff.2
  obtain ⟨fs, g, rfl⟩ : ∃ fs g, flows = fs ++ [g] :=
    (List.eq_nil_or_concat' flows).resolve_left fun hnil => hne (List.nil_perm.1 (hnil ▸ hperm))
  have hlen : r.entries.length - 1 = fs.length := by rw [← hperm.length_eq]; simp
  obtain ⟨hrequester, hpath, hentries⟩ := r.confirmAll_frame (fs ++ [g])
  have hcomplete : (r.confirmAll (fs ++ [g])).isComplete = true := by
    rw [(hr.counted.confirmAll _).isComplete_iff (by rw [length_confirmAll]; exact hfits)]
    exact hall
  rw [verdicts_of_awaitsAll hr.counted hawaits, hlen, Tracker.announcement, if_pos hcomplete, hrequester, hpath]

/-- Where an entry does not equal itself, one of the confirmations is refused, and the path is never
complete. -/
theorem Fresh.verdicts_of_not_equals_self (hr : r.Fresh) (hfits : r.entries.length < UInt64.size)
    (hself : ∃ f ∈ r.entries, f.equals f = false) (hperm : flows.Perm r.entries) :
    (∃ v ∈ r.verdicts flows, v.isOk = false) ∧ ∀ command, .ok (some command) ∉ r.verdicts flows := by
  have hnever : (r.confirmAll flows).flows.all FlowStatus.installed ≠ true := by
    intro hall
    obtain ⟨f, hf, hne⟩ := hself
    rw [hr.equals_self_of_all_installed (fun f => hperm.mem_iff.1) hall f hf] at hne
    cases hne
  refine ⟨?_, fun command h => hnever (all_installed_of_announced hr.counted hfits h)⟩
  by_contra hok
  have hawaits : r.AwaitsAll flows := isOk_verdicts.1 fun v hv => by
    by_contra hno
    exact hok ⟨v, hv, Bool.not_eq_true _ ▸ hno⟩
  -- as many confirmations as there are entries
  refine hnever (List.all_eq_true.2 (List.countP_eq_length.1 ?_))
  rw [hawaits.countP, countP_eq_zero hr.notInstalled, length_confirmAll, Nat.zero_add, hperm.length_eq]

end PathRecord

/-- What the tracker answers to a confirmation is the verdict of the record. -/
theorem Tracker.confirm_fst {t : Tracker} {r : PathRecord} {flow : FlowEntry} (hr : t.record? flow.id = some r) :
    (t.confirm flow).1 = r.verdict flow := by
  have hr : t.paths.get? flow.id = some r := hr
  simp only [confirm, hr, PathRecord.verdict, PathRecord.confirm]
  rcases flag? flow r.flows with _ | ⟨_ | _, _⟩ <;> rfl

end ControlPlane
