/-
The order of confirmations. A confirmation is answered from the record of its path, by what is installed at the
place of the confirmed entry. This place does not depend on what is installed. So of two confirmations with the
same place the first one installs the entry and the second one is refused, whichever comes first; and
confirmations with different places count up to the same number (`PathRecord.outcomes_swap`).

Which confirmation is the duplicate, and which one completes its path, depends on the order. The tracker at the
end does not, nor do the paths that are announced and the number of confirmations that are refused for each
reason (`confirmations_commute`). This needs nothing of the tracker: its records may be restored ones that count
more or fewer entries than are installed.
-/
import ControlPlane.Proofs.Path.Reports

namespace ControlPlane

/-! ## Records that are put into a dict -/

theorem SortedMap.insert_comm {κ α : Type} [LT κ] [DecidableLT κ] [StrictOrder κ] [DecidableEq κ]
    (m : SortedMap κ α) {k k' : κ} (h : k ≠ k') (v w : α) :
    (m.insert k v).insert k' w = (m.insert k' w).insert k v := by
  refine ext_get? fun x => ?_
  simp only [get?_insert]
  by_cases hx : x = k
  · rw [if_pos hx, if_pos hx, if_neg (hx ▸ h)]
  · rw [if_neg hx, if_neg hx]

/-! ## What an answer says -/

/-- Why a confirmation is refused. -/
inductive Refusal where
  | unknownPath
  | unknownFlow
  | alreadyInstalled
  | ids
deriving DecidableEq

def TrackerError.refusal : TrackerError → Refusal
  | .unknownPath _ => .unknownPath
  | .unknownFlow _ _ => .unknownFlow
  | .alreadyInstalled _ _ => .alreadyInstalled
  | .ids _ => .ids

namespace Tracker

/-- The answer to a confirmation. -/
abbrev Answer := Except TrackerError (Option Command)

namespace Answer

/-- What the answer announces. -/
def announced? : Answer → Option Command
  | .ok command => command
  | .error _ => none

/-- Why the answer refuses, if it does. -/
def refusal? : Answer → Option Refusal
  | .ok _ => none
  | .error e => some e.refusal

/-- What the answer says, whichever entry was confirmed. -/
def outcome (a : Answer) : Option Command × Option Refusal := (a.announced?, a.refusal?)

end Answer

end Tracker

open Tracker (Answer)

/-! ## One record -/

namespace PathRecord

variable {r : PathRecord} {flow : FlowEntry} {i : Nat}

/-- The record with the entry at a place installed and counted. -/
def install (r : PathRecord) (i : Nat) : PathRecord :=
  { r with
    flows := r.flows.modify i fun s => { s with installed := true }
    installed := r.installed + 1 }

theorem confirm_eq_install (hi : r.place? flow = some i) (hno : ¬ r.InstalledAt i) : r.confirm flow = r.install i := by
  obtain ⟨j, s, hj, hs, -, -, heq⟩ := confirm_of_awaits ⟨i, hi, hno⟩
  obtain rfl : i = j := Option.some.inj (hi.symm.trans hj)
  rw [heq, install, List.modify_eq_set_getElem?, hs]
  rfl

/-- Two places are installed in either order. -/
theorem install_comm {j : Nat} (r : PathRecord) (h : i ≠ j) : (r.install i).install j = (r.install j).install i := by
  simp only [install, List.modify_modify_ne _ _ _ h]

/-- What is announced when a place is installed depends on the number of installed entries only. -/
theorem announcement_install (r : PathRecord) (i : Nat) : Tracker.announcement (r.install i) =
    if (r.installed + 1).toNat = r.flows.length then some (.pathAdded r.requester r.path) else none := by
  simp only [Tracker.announcement, isComplete, install, List.length_modify, beq_iff_eq]

theorem outcome_of_awaits (hi : r.place? flow = some i) (hno : ¬ r.InstalledAt i) :
    Answer.outcome (r.verdict flow) = (Tracker.announcement (r.install i), none) := by
  rw [verdict_of_awaits ⟨i, hi, hno⟩, confirm_eq_install hi hno]
  rfl

/-- A confirmation that is not awaited is refused for what its place is, and not for what is installed elsewhere. -/
theorem outcome_of_not_awaits (h : ¬ r.Awaits flow) : Answer.outcome (r.verdict flow) =
    (none, some (if r.place? flow = none then .unknownFlow else .alreadyInstalled)) := by
  rcases flag?_of_not_awaits h with hf | ⟨ss, hf⟩
  · have hnone : r.place? flow = none := Tracker.flag?_eq_none hf
    rw [verdict, hf, if_pos hnone]
    rfl
  · obtain ⟨i, s, hi, -⟩ := Tracker.flag?_eq_some hf
    have hsome : r.place? flow ≠ none := fun hnone => by cases hi.symm.trans hnone
    rw [verdict, hf, if_neg hsome]
    rfl

theorem outcome_confirm_of_not_awaits {flow' : FlowEntry} (h : ¬ r.Awaits flow) :
    Answer.outcome ((r.confirm flow').verdict flow) = Answer.outcome (r.verdict flow) := by
  have h' : ¬ (r.confirm flow').Awaits flow := fun hawaits => h (awaits_confirm.1 hawaits).2
  rw [outcome_of_not_awaits h', outcome_of_not_awaits h, place?_confirm]

theorem swap_of_not_awaits {f g : FlowEntry} (h : ¬ r.Awaits g) : (r.confirm f).confirm g = (r.confirm g).confirm f ∧
    [Answer.outcome (r.verdict f), Answer.outcome ((r.confirm f).verdict g)].Perm
      [Answer.outcome (r.verdict g), Answer.outcome ((r.confirm g).verdict f)] := by
  have h' : ¬ (r.confirm f).Awaits g := fun hawaits => h (awaits_confirm.1 hawaits).2
  rw [confirm_of_not_awaits h', outcome_confirm_of_not_awaits h, confirm_of_not_awaits h]
  exact ⟨rfl, List.Perm.swap _ _ _⟩

/-- The second confirmation with the same place is refused. -/
theorem confirm_of_same_place {f g : FlowEntry} (h : r.place? f = some i) (hg : r.place? g = some i) :
    (r.confirm f).confirm g = r.confirm f ∧
    Answer.outcome ((r.confirm f).verdict g) = (none, some .alreadyInstalled) := by
  have hno : ¬ (r.confirm f).Awaits g := fun hawaits => (awaits_confirm.1 hawaits).1 (h.trans hg.symm)
  rw [confirm_of_not_awaits hno, outcome_of_not_awaits hno, place?_confirm, if_neg (hg ▸ Option.some_ne_none i)]
  exact ⟨rfl, rfl⟩

/-- The second confirmation with another place installs it too. -/
theorem confirm_of_other_place {f g : FlowEntry} {j : Nat} (hi : r.place? f = some i) (hif : ¬ r.InstalledAt i)
    (hj : r.place? g = some j) (hjg : ¬ r.InstalledAt j) (hne : i ≠ j) :
    (r.confirm f).confirm g = (r.install i).install j ∧
    Answer.outcome ((r.confirm f).verdict g) = (Tracker.announcement ((r.install i).install j), none) := by
  have hj' : (r.confirm f).place? g = some j := (place?_confirm r f g).trans hj
  have hno : ¬ (r.confirm f).InstalledAt j := by
    rw [installedAt_confirm, hi, Option.some.injEq]
    rintro (h | h)
    · exact hjg h
    · exact hne h
  rw [confirm_eq_install hj' hno, outcome_of_awaits hj' hno, confirm_eq_install hi hif]
  exact ⟨rfl, rfl⟩

/-- Two confirmations in either order change a record alike, and are answered alike up to the order. -/
theorem outcomes_swap (r : PathRecord) (f g : FlowEntry) : (r.confirm f).confirm g = (r.confirm g).confirm f ∧
    [Answer.outcome (r.verdict f), Answer.outcome ((r.confirm f).verdict g)].Perm
      [Answer.outcome (r.verdict g), Answer.outcome ((r.confirm g).verdict f)] := by
  by_cases hf : r.Awaits f
  · by_cases hg : r.Awaits g
    · obtain ⟨i, hi, hif⟩ := hf
      obtain ⟨j, hj, hjg⟩ := hg
      rw [outcome_of_awaits hi hif, outcome_of_awaits hj hjg]
      by_cases hij : i = j
      · subst hij
        obtain ⟨hsecond, hout⟩ := confirm_of_same_place hi hj
        obtain ⟨hsecond', hout'⟩ := confirm_of_same_place hj hi
        rw [hsecond, hsecond', hout, hout', confirm_eq_install hi hif, confirm_eq_install hj hjg]
        exact ⟨rfl, List.Perm.refl _⟩
      · -- the first one counts up to the same number, and so does the second one
        obtain ⟨hsecond, hout⟩ := confirm_of_other_place hi hif hj hjg hij
        obtain ⟨hsecond', hout'⟩ := confirm_of_other_place hj hjg hi hif (Ne.symm hij)
        rw [hsecond, hsecond', hout, hout', install_comm r hij, announcement_install r i, announcement_install r j]
        exact ⟨rfl, List.Perm.refl _⟩
    · exact swap_of_not_awaits hg
  · obtain ⟨hrecord, hperm⟩ := swap_of_not_awaits (f := g) hf
    exact ⟨hrecord.symm, hperm.symm⟩

end PathRecord

/-! ## The tracker -/

namespace Tracker

variable {t : Tracker} {flow : FlowEntry} {r : PathRecord}

/-- The tracker with the record of a path replaced. -/
def withRecord (t : Tracker) (id : String) (r : PathRecord) : Tracker := { t with paths := t.paths.insert id r }

theorem record?_withRecord (t : Tracker) (id id' : String) (r : PathRecord) :
    (t.withRecord id r).record? id' = if id' = id then some r else t.record? id' :=
  record?_insert t t.ids id id' r

theorem withRecord_withRecord (t : Tracker) (id : String) (r r' : PathRecord) :
    (t.withRecord id r).withRecord id r' = t.withRecord id r' := by
  simp only [withRecord, Dict.insert_insert]

theorem withRecord_comm (t : Tracker) {id id' : String} (h : id ≠ id') (r r' : PathRecord) :
    (t.withRecord id r).withRecord id' r' = (t.withRecord id' r').withRecord id r := by
  simp only [withRecord, Dict.insert, SortedMap.insert_comm _ h]

theorem withRecord_of_record? {id : String} (h : t.record? id = some r) : t.withRecord id r = t := by
  have h : t.paths.entries.get? id = some r := h
  simp only [withRecord, Dict.insert, SortedMap.insert_of_get? h]

/-- A confirmation is answered from the record of its path, and changes no other one. -/
theorem confirm_of_record? (h : t.record? flow.id = some r) :
    t.confirm flow = (r.verdict flow, t.withRecord flow.id (r.confirm flow)) := by
  refine Prod.ext (confirm_fst h) ?_
  by_cases hawaits : r.Awaits flow
  · rw [confirm_of_awaits h hawaits]
    rfl
  · have hno : ∀ r', t.record? flow.id = some r' → ¬ r'.Awaits flow := by
      intro r' hr'
      rwa [Option.some.inj (hr'.symm.trans h)]
    obtain ⟨e, he⟩ := confirm_of_not_awaits hno
    rw [he, r.confirm_of_not_awaits hawaits, withRecord_of_record? h]

theorem confirm_of_record?_eq_none (h : t.record? flow.id = none) :
    t.confirm flow = (.error (.unknownPath flow.id), t) := by
  have h : t.paths.get? flow.id = none := h
  simp only [confirm, h]

theorem record?_confirm_of_ne {id : String} (h : id ≠ flow.id) : (t.confirm flow).2.record? id = t.record? id := by
  cases hr : t.record? flow.id with
  | none => rw [confirm_of_record?_eq_none hr]
  | some r => rw [confirm_of_record? hr, record?_withRecord, if_neg h]

theorem record?_confirm_eq_none {id : String} (h : t.record? id = none) : (t.confirm flow).2.record? id = none := by
  by_cases hid : id = flow.id
  · subst hid
    rw [confirm_of_record?_eq_none h, h]
  · rw [record?_confirm_of_ne hid, h]

/-- Two confirmations lead to the same tracker in either order, and say the same up to the order. -/
def Commute (t : Tracker) (f g : FlowEntry) : Prop :=
  ((t.confirm f).2.confirm g).2 = ((t.confirm g).2.confirm f).2 ∧
  [Answer.outcome (t.confirm f).1, Answer.outcome ((t.confirm f).2.confirm g).1].Perm
    [Answer.outcome (t.confirm g).1, Answer.outcome ((t.confirm g).2.confirm f).1]

theorem Commute.symm {f g : FlowEntry} (h : t.Commute f g) : t.Commute g f := ⟨h.1.symm, h.2.symm⟩

theorem commute_of_record?_eq_none {f g : FlowEntry} (h : t.record? f.id = none) : t.Commute f g := by
  rw [Commute, confirm_of_record?_eq_none h, confirm_of_record?_eq_none (record?_confirm_eq_none h)]
  exact ⟨rfl, List.Perm.swap _ _ _⟩

theorem commute (t : Tracker) (f g : FlowEntry) : t.Commute f g := by
  cases hf : t.record? f.id with
  | none => exact commute_of_record?_eq_none hf
  | some r =>
    cases hg : t.record? g.id with
    | none => exact (commute_of_record?_eq_none hg).symm
    | some r' =>
      rw [Commute, confirm_of_record? hf, confirm_of_record? hg]
      by_cases hid : f.id = g.id
      · -- both are answered from one record
        obtain rfl : r = r' := Option.some.inj (hf.symm.trans (hid ▸ hg))
        have hfirst : (t.withRecord f.id (r.confirm f)).record? g.id = some (r.confirm f) := by
          rw [record?_withRecord, if_pos hid.symm]
        have hsecond : (t.withRecord g.id (r.confirm g)).record? f.id = some (r.confirm g) := by
          rw [record?_withRecord, if_pos hid]
        obtain ⟨hrecord, hperm⟩ := r.outcomes_swap f g
        rw [confirm_of_record? hfirst, confirm_of_record? hsecond, hid, withRecord_withRecord, withRecord_withRecord,
          hrecord]
        exact ⟨rfl, hperm⟩
      · have hfirst : (t.withRecord f.id (r.confirm f)).record? g.id = some r' := by
          rw [record?_withRecord, if_neg (Ne.symm hid), hg]
        have hsecond : (t.withRecord g.id (r'.confirm g)).record? f.id = some r := by
          rw [record?_withRecord, if_neg hid, hf]
        rw [confirm_of_record? hfirst, confirm_of_record? hsecond]
        exact ⟨withRecord_comm t hid _ _, List.Perm.swap _ _ _⟩

/-! ## Any number of confirmations -/

/-- The answers to one confirmation after the other, and the tracker at the end. -/
def confirmAll (t : Tracker) : List FlowEntry → List Answer × Tracker
  | [] => ([], t)
  | flow :: flows =>
    ((t.confirm flow).1 :: ((t.confirm flow).2.confirmAll flows).1, ((t.confirm flow).2.confirmAll flows).2)

/-- What the answers say. -/
def outcomes (t : Tracker) (flows : List FlowEntry) : List (Option Command × Option Refusal) :=
  (t.confirmAll flows).1.map Answer.outcome

theorem outcomes_cons (t : Tracker) (flow : FlowEntry) (flows : List FlowEntry) :
    t.outcomes (flow :: flows) = Answer.outcome (t.confirm flow).1 :: (t.confirm flow).2.outcomes flows :=
  rfl

-- The induction is on how the one order comes from the other by exchanging neighbours.
theorem confirmAll_perm {flows flows' : List FlowEntry} (h : flows.Perm flows') :
    (t.confirmAll flows).2 = (t.confirmAll flows').2 ∧ (t.outcomes flows).Perm (t.outcomes flows') := by
  induction h generalizing t with
  | nil => exact ⟨rfl, List.Perm.refl _⟩
  | cons flow _ ih => exact ⟨ih.1, ih.2.cons _⟩
  | swap f g flows =>
    obtain ⟨htracker, hperm⟩ := t.commute g f
    simp only [confirmAll, outcomes_cons, htracker, true_and]
    exact hperm.append_right _
  | trans _ _ ih ih' => exact ⟨ih.1.trans ih'.1, ih.2.trans ih'.2⟩

theorem filterMap_announced? (t : Tracker) (flows : List FlowEntry) :
    (t.confirmAll flows).1.filterMap Answer.announced? = (t.outcomes flows).filterMap Prod.fst := by
  rw [outcomes, List.filterMap_map]
  rfl

theorem filterMap_refusal? (t : Tracker) (flows : List FlowEntry) :
    (t.confirmAll flows).1.filterMap Answer.refusal? = (t.outcomes flows).filterMap Prod.snd := by
  rw [outcomes, List.filterMap_map]
  rfl

/-! ## Main result -/

/-- Entries are confirmed in one order or in another one: the tracker at the end is the same, the same paths are
announced, each as often, and as many confirmations are refused for each reason. -/
theorem confirmations_commute (t : Tracker) {flows flows' : List FlowEntry} (h : flows.Perm flows') :
    (t.confirmAll flows).2 = (t.confirmAll flows').2 ∧
    ((t.confirmAll flows).1.filterMap Answer.announced?).Perm ((t.confirmAll flows').1.filterMap Answer.announced?) ∧
    ∀ why, ((t.confirmAll flows).1.filterMap Answer.refusal?).count why =
      ((t.confirmAll flows').1.filterMap Answer.refusal?).count why := by
  obtain ⟨htracker, hperm⟩ := confirmAll_perm (t := t) h
  refine ⟨htracker, ?_, fun why => ?_⟩
  · rw [filterMap_announced?, filterMap_announced?]
    exact hperm.filterMap _
  · rw [filterMap_refusal?, filterMap_refusal?]
    exact (hperm.filterMap _).count_eq why

/-- A tracker whose only record counts one entry as installed, though none of the two is. -/
def miscounting : Tracker :=
  (new ⟨"net", "tracker"⟩).withRecord "1"
    { requester := ⟨"net", "user"⟩
      path := named .empty "1"
      flows := [⟨{ blocking ⟨"n1"⟩ with id := "1" }, false⟩, ⟨{ blocking ⟨"n2"⟩ with id := "1" }, false⟩]
      installed := 1
      created := .epoch }

/-- Both entries, the first one twice, an entry that the path does not have, and one of no path. -/
def burst : List FlowEntry :=
  [{ blocking ⟨"n1"⟩ with id := "1" }, { blocking ⟨"n1"⟩ with id := "1" }, { blocking ⟨"n3"⟩ with id := "1" },
    blocking ⟨"n1"⟩, { blocking ⟨"n2"⟩ with id := "1" }]

/-- In one order the first entry announces the path, and in the other order the second one. -/
theorem confirmations_commute_burst : burst.Perm burst.reverse ∧
    (miscounting.confirmAll burst.reverse).2 = (miscounting.confirmAll burst).2 ∧
    (miscounting.confirmAll burst.reverse).1.filterMap Answer.announced? =
      [.pathAdded ⟨"net", "user"⟩ (named .empty "1")] ∧
    ((miscounting.confirmAll burst.reverse).1.filterMap Answer.refusal?).count .alreadyInstalled = 1 := by
  have hperm : burst.Perm burst.reverse := (List.reverse_perm burst).symm
  obtain ⟨htracker, hannounced, hrefused⟩ := confirmations_commute miscounting hperm
  have hone : (miscounting.confirmAll burst).1.filterMap Answer.announced? =
      [.pathAdded ⟨"net", "user"⟩ (named .empty "1")] := by decide
  rw [hone] at hannounced
  exact ⟨hperm, htracker.symm, List.perm_singleton.1 hannounced.symm, (hrefused _).symm.trans (by decide)⟩

end Tracker

end ControlPlane
