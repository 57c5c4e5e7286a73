/-
Shortest routes on grids. The names of the cells differ, and between two cells there is one link in each direction
if they stand beside each other, and none otherwise (`exists_isGrid`). A link changes the number of steps between
a cell and the end of a route by one, so no walk is shorter than the steps from its start to its end. The walks of this
length go on to a cell that is one step closer, in the row or in the column of the cell before (`mem_closer`), which
is Pascal's rule: their number is the binomial coefficient of the steps over the steps between the rows
(`grid_routes`).
-/
import ControlPlane.Proofs.Topology.Places
import Mathlib.Data.Nat.Choose.Basic
import Mathlib.Data.Nat.Dist

namespace ControlPlane.Topology

/-! ## Names -/

theorem gridName_inj {width row row' column column' : Nat} (hc : column < width) (hc' : column' < width) :
    gridName width row column = gridName width row' column' ↔ row = row' ∧ column = column' := by
  rw [gridName, gridName, nodeName_inj]
  constructor
  · intro h
    have hrow (r c : Nat) (hc : c < width) : (r * width + c) / width = r ∧ (r * width + c) % width = c :=
      (Nat.div_mod_unique (Nat.zero_lt_of_lt hc)).2 ⟨by rw [Nat.mul_comm, Nat.add_comm], hc⟩
    have hsum : row * width + column = row' * width + column' := by omega
    obtain ⟨h₁, h₂⟩ := hrow row column hc
    obtain ⟨h₁', h₂'⟩ := hrow row' column' hc'
    rw [hsum] at h₁ h₂
    exact ⟨h₁.symm.trans h₁', h₂.symm.trans h₂'⟩
  · rintro ⟨rfl, rfl⟩; rfl

/-! ## Cells -/

/-- A place in a grid. -/
@[ext] structure Cell (width height : Nat) where
  row : Nat
  column : Nat
  row_lt : row < height
  column_lt : column < width
deriving DecidableEq

namespace Cell

variable {width height : Nat} (a b t : Cell width height)

/-- The node in a place of a grid. -/
def uid : Uid := ⟨gridName width a.row a.column⟩

variable {a b t} in
theorem uid_inj : a.uid = b.uid ↔ a = b := by
  rw [uid, uid, Uid.mk.injEq, gridName_inj a.column_lt b.column_lt, Cell.ext_iff]

/-- The second cell is the next one in the row or in the column of the first. -/
def Follows : Prop := (a.row = b.row ∧ a.column + 1 = b.column) ∨ (a.row + 1 = b.row ∧ a.column = b.column)

instance : Decidable (Follows a b) := inferInstanceAs (Decidable (_ ∨ _))

/-- One of the cells follows the other. -/
def Beside : Prop := Follows a b ∨ Follows b a

/-- The number of steps between two cells along rows and columns. -/
def steps : Nat := Nat.dist a.row b.row + Nat.dist a.column b.column

/-- The cell one row closer to another. -/
def towardRow : Cell width height where
  row := if a.row < t.row then a.row + 1 else a.row - 1
  column := a.column
  row_lt := by
    have := a.row_lt
    have := t.row_lt
    split <;> omega
  column_lt := a.column_lt

/-- The cell one column closer to another. -/
def towardColumn : Cell width height where
  row := a.row
  column := if a.column < t.column then a.column + 1 else a.column - 1
  row_lt := a.row_lt
  column_lt := by
    have := a.column_lt
    have := t.column_lt
    split <;> omega

/-- The cells beside a cell that are closer to another. -/
def closer : List (Cell width height) :=
  (if a.row = t.row then [] else [a.towardRow t]) ++ if a.column = t.column then [] else [a.towardColumn t]

variable {a b t}

theorem steps_eq_zero : steps a b = 0 ↔ a = b := by
  simp only [steps, Nat.dist, Cell.ext_iff]
  omega

/-- A step to a cell beside changes the number of steps to any other cell by at most one. -/
theorem Beside.steps_le (h : Beside a b) : steps a t ≤ steps b t + 1 := by
  simp only [steps, Nat.dist]
  rcases h with (⟨h₁, h₂⟩ | ⟨h₁, h₂⟩) | (⟨h₁, h₂⟩ | ⟨h₁, h₂⟩) <;> omega

theorem mem_closer : b ∈ closer a t ↔ Beside a b ∧ steps a t = steps b t + 1 := by
  have hrow : b = a.towardRow t ↔ b.row = (if a.row < t.row then a.row + 1 else a.row - 1) ∧ b.column = a.column :=
    Cell.ext_iff
  have hcolumn : b = a.towardColumn t ↔
      b.row = a.row ∧ b.column = if a.column < t.column then a.column + 1 else a.column - 1 := Cell.ext_iff
  have hmem : b ∈ closer a t ↔ (a.row ≠ t.row ∧ b = a.towardRow t) ∨ (a.column ≠ t.column ∧ b = a.towardColumn t) := by
    unfold closer
    split <;> split <;> simp [*]
  rw [hmem, hrow, hcolumn]
  simp only [Beside, Follows, steps, Nat.dist]
  constructor
  · rintro (⟨hne, h₁, h₂⟩ | ⟨hne, h₁, h₂⟩)
    · split at h₁ <;> omega
    · split at h₂ <;> omega
  · rintro ⟨(⟨h₁, h₂⟩ | ⟨h₁, h₂⟩) | (⟨h₁, h₂⟩ | ⟨h₁, h₂⟩), hsteps⟩ <;> split <;> split <;> omega

theorem nodup_closer : (closer a t).Nodup := by
  have hne : a.row ≠ t.row → a.towardRow t ≠ a.towardColumn t := by
    intro hrow h
    have := congrArg Cell.row h
    simp only [towardRow, towardColumn] at this
    split at this <;> omega
  unfold closer
  split <;> split <;> simp_all

/-- Pascal's rule for the steps between the rows. -/
theorem sum_closer {n : Nat} (h : steps a t = n + 1) :
    ((closer a t).map fun b => n.choose (Nat.dist b.row t.row)).sum = (n + 1).choose (Nat.dist a.row t.row) := by
  have hrow : a.row ≠ t.row → Nat.dist (a.towardRow t).row t.row + 1 = Nat.dist a.row t.row := by
    intro hne
    simp only [towardRow, Nat.dist]
    split <;> omega
  simp only [steps] at h
  unfold closer
  split
  · next hr =>
    have hzero : Nat.dist a.row t.row = 0 := Nat.dist_eq_zero hr
    rw [hzero, Nat.zero_add] at h
    rw [if_neg fun hc => by rw [Nat.dist_eq_zero hc] at h; cases h]
    simp [towardColumn, hzero]
  · next hr =>
    have hrow := hrow hr
    obtain ⟨k, hk⟩ : ∃ k, Nat.dist a.row t.row = k + 1 := ⟨_, hrow.symm⟩
    have hk' : Nat.dist (a.towardRow t).row t.row = k := by omega
    split
    · next hc =>
      rw [Nat.dist_eq_zero hc, Nat.add_zero, hk] at h
      obtain rfl : k = n := Nat.succ.inj h
      simp [hk, hk']
    · next hc =>
      have hsame : Nat.dist (a.towardColumn t).row t.row = k + 1 := hk
      simp [hk, hk', hsame, Nat.choose_succ_succ]

end Cell

/-! ## Connections -/

section Connections

variable {width height : Nat} {a b t : Cell width height}

/-- The connections of a grid: each cell with the one to the right and the one below. -/
def gridConnections (width height : Nat) : List (String × String) :=
  (List.range height).flatMap fun row => (List.range width).flatMap fun column => gridPairs width height row column

theorem mem_gridPairs {row column : Nat} {pair : String × String} :
    pair ∈ gridPairs width height row column ↔
      (column + 1 < width ∧ pair = (gridName width row column, gridName width row (column + 1))) ∨
        (row + 1 < height ∧ pair = (gridName width row column, gridName width (row + 1) column)) := by
  unfold gridPairs
  split <;> split <;> simp [*]

theorem mem_gridConnections {pair : String × String} : pair ∈ gridConnections width height ↔
    ∃ a b : Cell width height, a.Follows b ∧ pair = (a.uid.text, b.uid.text) := by
  simp only [gridConnections, List.mem_flatMap, List.mem_range, mem_gridPairs]
  constructor
  · rintro ⟨row, hrow, column, hcolumn, ⟨hnext, rfl⟩ | ⟨hnext, rfl⟩⟩
    · exact ⟨⟨row, column, hrow, hcolumn⟩, ⟨row, column + 1, hrow, hnext⟩, .inl ⟨rfl, rfl⟩, rfl⟩
    · exact ⟨⟨row, column, hrow, hcolumn⟩, ⟨row + 1, column, hnext, hcolumn⟩, .inr ⟨rfl, rfl⟩, rfl⟩
  · rintro ⟨⟨row, column, hrow, hcolumn⟩, ⟨row', column', hrow', hcolumn'⟩, ⟨h₁, h₂⟩ | ⟨h₁, h₂⟩, rfl⟩
    · dsimp only at h₁ h₂
      subst h₁ h₂
      exact ⟨row, hrow, column, hcolumn, .inl ⟨hcolumn', rfl⟩⟩
    · dsimp only at h₁ h₂
      subst h₁ h₂
      exact ⟨row, hrow, column, hcolumn, .inr ⟨hrow', rfl⟩⟩

/-- No connection is made twice: its first cell tells the row and the column in which it is made. -/
theorem nodup_gridConnections (width height : Nat) : (gridConnections width height).Nodup := by
  have hpair : ∀ {row column pair}, pair ∈ gridPairs width height row column → pair.1 = gridName width row column := by
    intro row column pair h
    rcases mem_gridPairs.1 h with ⟨-, rfl⟩ | ⟨-, rfl⟩ <;> rfl
  refine List.nodup_flatMap.2 ⟨fun row _ => List.nodup_flatMap.2 ⟨fun column hcolumn => ?_, ?_⟩, ?_⟩
  · unfold gridPairs
    split
    · next hnext =>
      split
      · simp only [List.singleton_append, List.nodup_cons, List.mem_singleton, Prod.mk.injEq, true_and,
          List.not_mem_nil, not_false_eq_true, List.nodup_nil, and_true]
        rw [gridName_inj hnext (by omega)]
        omega
      · simp
    · split <;> simp
  · refine List.pairwise_lt_range.imp_of_mem fun hc hc' hlt => ?_
    refine List.disjoint_left.2 fun pair h h' => ?_
    have heq := (hpair h).symm.trans (hpair h')
    rw [gridName_inj (List.mem_range.1 hc) (List.mem_range.1 hc')] at heq
    omega
  · refine List.pairwise_lt_range.imp fun hlt => ?_
    simp only [Function.onFun, List.disjoint_left, List.mem_flatMap, List.mem_range]
    rintro pair ⟨column, hc, h⟩ ⟨column', hc', h'⟩
    have heq := (hpair h).symm.trans (hpair h')
    rw [gridName_inj hc hc'] at heq
    omega

theorem connects_grid (width height : Nat) :
    Graph.Connects (Cell.uid : Cell width height → Uid) Cell.Follows (gridConnections width height) := by
  refine ⟨fun a b h => Cell.uid_inj.1 h, fun a => isName_nodeName _, nodup_gridConnections width height,
    fun pair => mem_gridConnections, fun a b h h' => ?_⟩
  simp only [Cell.Follows] at h h'
  omega

/-- The links of a grid: one in each direction between cells that stand beside each other, and no other. -/
structure IsGrid (width height : Nat) (g : Graph) : Prop where
  reachable : g.Reachable
  links : ∀ a b : Cell width height, a.Beside b → (g.linksBetween a.uid b.uid).length = 1
  near : ∀ (a : Cell width height) m, g.linksBetween a.uid m ≠ [] → ∃ b : Cell width height, b.uid = m ∧ a.Beside b

theorem IsGrid.linked {g : Graph} (hg : IsGrid width height g) :
    Graph.Linked (Cell.uid : Cell width height → Uid) Cell.Follows g :=
  ⟨fun _ _ h => Cell.uid_inj.1 h, hg.reachable, hg.links, hg.near⟩

theorem exists_isGrid (width height : Nat) : ∃ g, grid width height = .ok g ∧ IsGrid width height g := by
  obtain ⟨g, hg, hlinked⟩ := (connects_grid width height).exists_linked
  exact ⟨g, hg, hlinked.reachable, hlinked.links, hlinked.near⟩

theorem descends_steps (t : Cell width height) : Graph.Descends Cell.Follows t fun a => a.steps t :=
  ⟨Cell.steps_eq_zero.2 rfl, fun _ _ hbeside => Cell.Beside.steps_le hbeside⟩

end Connections

/-! ## Routes -/

section Routes

variable {width height : Nat} {g : Graph} {a t : Cell width height}

/-- The walks of the least length, by the number of steps. -/
theorem IsGrid.hasWalks (hg : IsGrid width height g) {n : Nat} (hn : a.steps t = n) :
    g.HasWalks a.uid t.uid n (n.choose (Nat.dist a.row t.row)) := by
  induction n generalizing a with
  | zero =>
    obtain rfl := Cell.steps_eq_zero.1 hn
    rw [Nat.dist_self, Nat.choose_self]
    exact Graph.hasWalks_zero g a.uid
  | succ n ih =>
    rw [← Cell.sum_closer hn]
    refine hg.linked.hasWalks_succ (descends_steps t) _ Cell.nodup_closer (fun b => Cell.mem_closer) hn fun b hb => ?_
    obtain ⟨-, hsteps⟩ := Cell.mem_closer.1 hb
    apply ih
    omega

theorem IsGrid.routes (hg : IsGrid width height g) (hne : a ≠ t) : ∃ r,
    g.shortestRoutes a.uid t.uid = .ok (some r) ∧ r.length = a.steps t ∧
      r.paths.length = (a.steps t).choose (Nat.dist a.row t.row) ∧ r.paths.Nodup :=
  hg.linked.routes (descends_steps t) (hg.hasWalks rfl) (Nat.choose_pos (Nat.le_add_right _ _)) hne

/-- Between two cells of a grid the routes are as long as the cells are apart, and there are as many of them as ways to
choose the steps that change the row. -/
theorem grid_routes (width height : Nat) : ∃ g, grid width height = .ok g ∧ ∀ r₁ c₁ r₂ c₂ : Nat, r₁ < height →
    c₁ < width → r₂ < height → c₂ < width → (r₁, c₁) ≠ (r₂, c₂) →
    ∃ r, g.shortestRoutes ⟨gridName width r₁ c₁⟩ ⟨gridName width r₂ c₂⟩ = .ok (some r) ∧
      r.length = Nat.dist r₁ r₂ + Nat.dist c₁ c₂ ∧
      r.paths.length = (Nat.dist r₁ r₂ + Nat.dist c₁ c₂).choose (Nat.dist r₁ r₂) ∧ r.paths.Nodup := by
  obtain ⟨g, hg, hgrid⟩ := exists_isGrid width height
  refine ⟨g, hg, fun r₁ c₁ r₂ c₂ hr₁ hc₁ hr₂ hc₂ hne => ?_⟩
  have hcells : Cell.mk r₁ c₁ hr₁ hc₁ ≠ ⟨r₂, c₂, hr₂, hc₂⟩ := by
    rw [ne_eq, Cell.mk.injEq]
    exact fun h => hne (Prod.ext h.1 h.2)
  obtain ⟨r, hr, hlength, hcount, hnodup⟩ := hgrid.routes hcells
  exact ⟨r, hr, hlength, hcount, hnodup⟩

/-- In two rows of three cells, three routes lead from one corner to the opposite one. -/
theorem grid_routes_corners : ∃ g, grid 3 2 = .ok g ∧ ∃ r, g.shortestRoutes ⟨"n1"⟩ ⟨"n6"⟩ = .ok (some r) ∧
    r.length = 3 ∧ r.paths.length = 3 ∧ r.paths.Nodup := by
  obtain ⟨g, hg, hroutes⟩ := grid_routes 3 2
  obtain ⟨r, hr, hlength, hcount, hnodup⟩ := hroutes 0 0 1 2 (by decide) (by decide) (by decide) (by decide) (by decide)
  exact ⟨g, hg, r, hr, hlength, hcount, hnodup⟩

end Routes

end ControlPlane.Topology
