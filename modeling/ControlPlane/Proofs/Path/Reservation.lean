/-
Reservations one after the other. A request takes its IDs from where the last one on the same counter stopped, or
the counter does not hold so many and everything stays as it is (`serve_of_fits`, `serve_of_full`). So along any
list of requests the ranges that a counter gave follow each other without a gap, from where it stood at first to
where it stands (`consecutive_granted`). A path ID is a range of one, so the path IDs go up, and as their texts
read back, no two paths get the same ID.
-/
import ControlPlane.Proofs.Path.Ids
import Mathlib.Data.List.Pairwise

namespace ControlPlane

/-! ## Ranges that follow each other -/

/-- The ranges follow each other, the first one begins at `start` and the last one ends at `stop`. -/
def IdRange.Consecutive : List IdRange → (start stop : UInt64) → Prop
  | [], start, stop => start = stop
  | r :: rs, start, stop => r.start = start ∧ r.start ≤ r.stop ∧ Consecutive rs r.stop stop

namespace IdRange

variable {rs : List IdRange} {start stop : UInt64}

theorem Consecutive.le_start (h : Consecutive rs start stop) : ∀ r ∈ rs, start ≤ r.start := by
  induction rs generalizing start with
  | nil => simp
  | cons r rs ih =>
    obtain ⟨rfl, hle, hrs⟩ := h
    intro r' hr'
    rcases List.mem_cons.1 hr' with rfl | hr'
    · exact UInt64.le_refl _
    · exact UInt64.le_trans hle (ih hrs r' hr')

/-- Of consecutive ranges that are not empty, each one begins behind those before. -/
theorem Consecutive.pairwise_start (h : Consecutive rs start stop) (hne : ∀ r ∈ rs, r.start < r.stop) :
    rs.Pairwise fun a b => a.start < b.start := by
  induction rs generalizing start with
  | nil => exact .nil
  | cons r rs ih =>
    rw [List.forall_mem_cons] at hne
    obtain ⟨-, -, hrs⟩ := h
    refine List.pairwise_cons.2 ⟨fun r' hr' => ?_, ih hrs hne.2⟩
    exact UInt64.lt_of_lt_of_le hne.1 (hrs.le_start r' hr')

end IdRange

namespace IdCounters

/-! ## Requests -/

/-- What the counters are asked for. -/
inductive Request where
  | path
  | flows (count : UInt64)

namespace Request

/-- The counter that has to serve the request. -/
def counter : Request → String
  | .path => pathCounter
  | .flows _ => flowCounter

/-- The number of IDs that are asked for. -/
def count : Request → UInt64
  | .path => 1
  | .flows count => count

end Request

/-- Serves a request, where a path ID is given as the range that holds nothing else. -/
def serve (ids : IdCounters) : Request → Except IdError IdRange × IdCounters
  | .path => (ids.reservePath.1.map fun id => ⟨id, id + 1⟩, ids.reservePath.2)
  | .flows count => ids.reserveFlows count

/-- The counters after one request after the other. -/
def serveAll (ids : IdCounters) (requests : List Request) : IdCounters :=
  requests.foldl (fun ids r => (ids.serve r).2) ids

/-- The ranges that a counter gives to one request after the other. -/
def granted (counter : String) (ids : IdCounters) : List Request → List IdRange
  | [] => []
  | r :: requests =>
    (if r.counter = counter then (ids.serve r).1.toOption.toList else []) ++ granted counter (ids.serve r).2 requests

/-! ## One request -/

variable {ids : IdCounters} {r : Request}

theorem serve_eq (ids : IdCounters) (r : Request) : ids.serve r = ids.reserve r.counter r.count := by
  cases r with
  | flows count => rfl
  | path =>
    rcases hr : ids.reserve pathCounter 1 with ⟨e | range, ids'⟩
    · simp only [serve, reservePath, hr, Request.counter, Request.count]
      rfl
    · obtain ⟨rfl, -, -⟩ := reserve_eq_ok hr
      simp only [serve, reservePath, hr, Request.counter, Request.count]
      rfl

/-- A counter that holds enough IDs gives the next ones. -/
theorem serve_of_fits (hfits : (ids.next r.counter).toNat + r.count.toNat < UInt64.size) :
    ids.serve r = (.ok ⟨ids.next r.counter, ids.next r.counter + r.count⟩,
      ⟨ids.counters.insert r.counter (ids.next r.counter + r.count)⟩) := by
  rw [serve_eq]
  rcases hr : ids.reserve r.counter r.count with ⟨e | range, ids'⟩
  · exact absurd hfits (Nat.not_lt.2 (reserve_eq_error hr).2.1)
  · obtain ⟨rfl, -, rfl⟩ := reserve_eq_ok hr
    rfl

/-- A counter that does not hold enough IDs gives none, and nothing changes. -/
theorem serve_of_full (hfull : UInt64.size ≤ (ids.next r.counter).toNat + r.count.toNat) :
    ids.serve r = (.error (.exhausted r.counter (ids.next r.counter) r.count), ids) := by
  rw [serve_eq]
  rcases hr : ids.reserve r.counter r.count with ⟨e | range, ids'⟩
  · obtain ⟨rfl, -, rfl⟩ := reserve_eq_error hr
    rfl
  · exact absurd (reserve_eq_ok hr).2.1 (Nat.not_lt.2 hfull)

theorem toNat_add_of_fits {a b : UInt64} (hfits : a.toNat + b.toNat < UInt64.size) :
    (a + b).toNat = a.toNat + b.toNat := by
  rw [UInt64.toNat_add, Nat.mod_eq_of_lt hfits]

/-! ## Any number of requests -/

theorem consecutive_granted (ids : IdCounters) (counter : String) (requests : List Request) :
    IdRange.Consecutive (granted counter ids requests) (ids.next counter) ((ids.serveAll requests).next counter) := by
  induction requests generalizing ids with
  | nil => rfl
  | cons r requests ih =>
    have hrest := ih (ids.serve r).2
    show IdRange.Consecutive (_ ++ _) _ (((ids.serve r).2.serveAll requests).next counter)
    by_cases hfits : (ids.next r.counter).toNat + r.count.toNat < UInt64.size
    · rw [serve_of_fits hfits] at hrest ⊢
      by_cases hc : r.counter = counter
      · subst hc
        rw [next_insert_self] at hrest
        rw [if_pos rfl]
        refine ⟨rfl, ?_, hrest⟩
        rw [UInt64.le_iff_toNat_le, toNat_add_of_fits hfits]
        exact Nat.le_add_right _ _
      · rw [next_insert_of_ne _ _ (Ne.symm hc)] at hrest
        rw [if_neg hc]
        exact hrest
    · rw [serve_of_full (Nat.not_lt.1 hfits)] at hrest ⊢
      split <;> exact hrest

/-- A range of a path ID is not empty. -/
theorem lt_of_mem_granted_path {ids : IdCounters} {requests : List Request} :
    ∀ range ∈ granted pathCounter ids requests, range.start < range.stop := by
  induction requests generalizing ids with
  | nil => intro range hrange; cases hrange
  | cons r requests ih =>
    intro range hrange
    rcases List.mem_append.1 hrange with hrange | hrange
    · split at hrange
      · next hc =>
        have hcount : r.count = 1 := by
          cases r with
          | path => rfl
          | flows count => exact absurd (show flowCounter = pathCounter from hc) (by decide)
        by_cases hfits : (ids.next r.counter).toNat + r.count.toNat < UInt64.size
        · rw [serve_of_fits hfits] at hrange
          obtain rfl := List.mem_singleton.1 hrange
          rw [UInt64.lt_iff_toNat_lt, toNat_add_of_fits hfits, hcount]
          exact Nat.lt_succ_self _
        · rw [serve_of_full (Nat.not_lt.1 hfits)] at hrange
          cases hrange
      · cases hrange
    · exact ih range hrange

/-! ## Main result -/

/-- Whatever is asked of counters, in whatever state: the ranges that one of them gives follow each other from the
next ID that it had, or 0, to the one that it has. A request after all these is refused exactly if the counter
would go beyond the largest number, and then changes nothing; otherwise its range begins at the counter and has
the length that was asked for, its end is stored, and no other key changes. All path IDs have different texts. -/
theorem ids_given_once (ids : IdCounters) (requests : List Request) :
    (∀ counter, IdRange.Consecutive (granted counter ids requests) ((ids.counters.get? counter).getD 0)
      (((ids.serveAll requests).counters.get? counter).getD 0)) ∧
    (∀ r : Request, ∃ reached start, reached = ids.serveAll requests ∧
      start = (reached.counters.get? r.counter).getD 0 ∧
      (UInt64.size ≤ start.toNat + r.count.toNat →
        reached.serve r = (.error (.exhausted r.counter start r.count), reached)) ∧
      (start.toNat + r.count.toNat < UInt64.size → ∃ stop ids', reached.serve r = (.ok ⟨start, stop⟩, ids') ∧
        stop.toNat = start.toNat + r.count.toNat ∧ ids'.counters.get? r.counter = some stop ∧
        ∀ key, key ≠ r.counter → ids'.counters.get? key = reached.counters.get? key)) ∧
    ((granted pathCounter ids requests).map fun range => Path.idText range.start).Nodup := by
  refine ⟨fun counter => consecutive_granted ids counter requests, fun r => ?_, ?_⟩
  · refine ⟨_, _, rfl, rfl, serve_of_full, fun hfits => ?_⟩
    refine ⟨_, _, serve_of_fits hfits, toNat_add_of_fits hfits, Dict.get?_insert_self _ _ _, fun key hkey => ?_⟩
    exact Dict.get?_insert_of_ne _ _ hkey
  · have hup := (consecutive_granted ids pathCounter requests).pairwise_start lt_of_mem_granted_path
    refine List.pairwise_map.2 (hup.imp fun hlt heq => ?_)
    rw [Path.idText_inj.1 heq] at hlt
    exact UInt64.lt_irrefl _ hlt

/-- Counters with no more than three flow IDs left, and no counter of paths. -/
def nearlyFull : IdCounters := ⟨(Dict.empty dictName).insert flowCounter 18446744073709551612⟩

/-- More than is left, all that is left and nothing more, and paths in between. -/
def greedy : List Request := [.path, .flows 18446744073709551615, .flows 3, .path, .flows 0]

theorem ids_given_once_greedy : granted flowCounter nearlyFull greedy =
      [⟨18446744073709551612, 18446744073709551615⟩, ⟨18446744073709551615, 18446744073709551615⟩] ∧
    (nearlyFull.serveAll greedy).serve (.flows 1) =
      (.error (.exhausted flowCounter 18446744073709551615 1), nearlyFull.serveAll greedy) ∧
    (∃ ids', (nearlyFull.serveAll greedy).serve .path = (.ok ⟨2, 3⟩, ids')) ∧
    ((granted pathCounter nearlyFull greedy).map fun range => Path.idText range.start).Nodup := by
  obtain ⟨-, hnext, hnodup⟩ := ids_given_once nearlyFull greedy
  have hflow : (nearlyFull.serveAll greedy).counters.get? flowCounter = some 18446744073709551615 := by decide
  have hpath : (nearlyFull.serveAll greedy).counters.get? pathCounter = some 2 := by decide
  obtain ⟨_, _, rfl, rfl, hfull, -⟩ := hnext (.flows 1)
  obtain ⟨_, _, rfl, rfl, -, hfits⟩ := hnext .path
  simp only [Request.counter, Request.count, hflow, hpath, Option.getD_some] at hfull hfits
  obtain ⟨stop, ids', hserve, hstop, -⟩ := hfits (by decide)
  obtain rfl : stop = 3 := UInt64.toNat_inj.1 hstop
  exact ⟨by decide, hfull (by decide), ⟨ids', hserve⟩, hnodup⟩

end IdCounters

end ControlPlane
