/-
Snapshots read back. A dict that was saved stays in its directory while others are saved there
(`StoredIn.save`), and as long as it is there, it is loaded as it was (`StoredIn.load`).
-/
import ControlPlane.Proofs.Json.Form
import ControlPlane.Proofs.Storage.Files
import ControlPlane.Storage.Snapshot

namespace ControlPlane

/-! ## Computations on files -/

namespace FileTree

variable {ε α β : Type} {t t' : FileTree}

/-- What a computation on files gives, and the tree afterwards. -/
def run (t : FileTree) (x : ExceptT ε (StateM FileTree) α) : Except ε α × FileTree := StateT.run (ExceptT.run x) t

theorem run_bind (t : FileTree) (x : ExceptT ε (StateM FileTree) α) (f : α → ExceptT ε (StateM FileTree) β) :
    t.run (x >>= f) = match t.run x with
      | (.ok a, t₁) => t₁.run (f a)
      | (.error e, t₁) => (.error e, t₁) := by
  show (match t.run x with | (r, t₁) => StateT.run (ExceptT.bindCont f r) t₁) = _
  rcases t.run x with ⟨_ | _, t₁⟩ <;> rfl

theorem run_bind_eq_ok {x : ExceptT ε (StateM FileTree) α} {f : α → ExceptT ε (StateM FileTree) β} {b : β}
    (h : t.run (x >>= f) = (.ok b, t')) : ∃ a t₁, t.run x = (.ok a, t₁) ∧ t₁.run (f a) = (.ok b, t') := by
  rw [run_bind] at h
  rcases hx : t.run x with ⟨_ | a, t₁⟩ <;> rw [hx] at h
  · cases h
  · exact ⟨a, t₁, rfl, h⟩

theorem run_bind_of_ok {x : ExceptT ε (StateM FileTree) α} {f : α → ExceptT ε (StateM FileTree) β} {a : α}
    {t₁ : FileTree} (h : t.run x = (.ok a, t₁)) : t.run (x >>= f) = t₁.run (f a) := by
  rw [run_bind, h]

theorem run_readFile (t : FileTree) (place : String) :
    t.run (liftM (readFile place : StateM FileTree FileText) : ExceptT ε (StateM FileTree) FileText) =
      (.ok (t.read place), t) := rfl

theorem run_createDirectories (t : FileTree) (place : String) :
    t.run (liftM (MonadFiles.createDirectories place : StateM FileTree Bool) : ExceptT ε (StateM FileTree) Bool) =
      (.ok (t.createDirectories place).1, (t.createDirectories place).2) := rfl

theorem run_writeFile (t : FileTree) (place text : String) :
    t.run (liftM (writeFile place text : StateM FileTree Bool) : ExceptT ε (StateM FileTree) Bool) =
      (.ok (t.write place text).1, (t.write place text).2) := rfl

theorem run_adapt {ε' : Type} (f : ε → ε') (x : ExceptT ε (StateM FileTree) α) (t : FileTree) :
    t.run (ExceptT.adapt f x) = ((t.run x).1.mapError f, (t.run x).2) := rfl

theorem run_adapt_eq_ok {ε' : Type} {f : ε → ε'} {x : ExceptT ε (StateM FileTree) α} {a : α}
    (h : t.run (ExceptT.adapt f x) = (.ok a, t')) : t.run x = (.ok a, t') := by
  rw [run_adapt, Prod.mk.injEq] at h
  exact Prod.ext (mapError_eq_ok h.1) h.2

end FileTree

namespace Dict

variable {α β : Type} [JsonForm α] [JsonForm β] {d : Dict α} {t t' : FileTree} {dir : String}

/-- The directory has the snapshot of the dict. -/
def StoredIn (d : Dict α) (dir : String) (t : FileTree) : Prop :=
  t.read (snapshotPlace dir d.name) = .text d.snapshot

theorem save_eq_ok (h : t.run (d.save dir) = (.ok (), t')) :
    ∃ t₁, t.Extends t₁ ∧ t₁.write (snapshotPlace dir d.name) d.snapshot = (true, t') := by
  unfold save at h
  obtain ⟨created, t₁, hcreate, h⟩ := FileTree.run_bind_eq_ok h
  rw [FileTree.run_createDirectories, Prod.mk.injEq] at hcreate
  cases created with
  | false =>
    obtain ⟨_, _, hthrow, -⟩ := FileTree.run_bind_eq_ok h
    cases hthrow
  | true =>
    obtain ⟨written, t₂, hwrite, h⟩ := FileTree.run_bind_eq_ok h
    rw [FileTree.run_writeFile, Prod.mk.injEq, Except.ok.injEq] at hwrite
    cases written with
    | false => cases h
    | true =>
      cases h
      have hextends := t.extends_createDirectories dir
      rw [hcreate.2] at hextends
      exact ⟨t₁, hextends, Prod.ext hwrite.1 hwrite.2⟩

/-- Saving succeeds if the directory is there and a file can be put at the place of the snapshot. -/
theorem run_save {way : List String} (hdir : t.createDirectories dir = (true, t))
    (hway : t.find? (snapshotPlace dir d.name) = some way) (hfile : t.isDirectory way = false) :
    t.run (d.save dir) = (.ok (), t.put way (.file d.snapshot)) := by
  have hwrite : t.write (snapshotPlace dir d.name) d.snapshot = (true, t.put way (.file d.snapshot)) := by
    rw [FileTree.write, hway]
    simp [hfile]
  unfold save
  rw [FileTree.run_bind, FileTree.run_createDirectories, hdir]
  show t.run (_ >>= _) = _
  rw [FileTree.run_bind, FileTree.run_writeFile, hwrite]
  rfl

theorem storedIn_of_save (h : t.run (d.save dir) = (.ok (), t')) : d.StoredIn dir t' := by
  obtain ⟨t₁, -, hwrite⟩ := save_eq_ok h
  exact FileTree.read_write hwrite

theorem isFileName_snapshot {name : String} (h : '/' ∉ name.toList) : IsFileName (name ++ ".json") := by
  have hlen : ∀ name' : String, name'.length < 5 → name ++ ".json" ≠ name' := by
    rintro _ hlt rfl
    rw [String.length_append] at hlt
    have : ".json".length = 5 := rfl
    omega
  refine ⟨?_, hlen _ (by decide), hlen _ (by decide), hlen _ (by decide)⟩
  rw [String.toList_append, List.mem_append]
  rintro (hc | hc)
  · exact h hc
  · revert hc; decide

/-- A dict stays stored when one with another name is saved. -/
theorem StoredIn.save {d' : Dict β} (h : d.StoredIn dir t) (hname : '/' ∉ d.name.toList) (hname' : '/' ∉ d'.name.toList)
    (hne : d.name ≠ d'.name) (hsave : t.run (d'.save dir) = (.ok (), t')) : d.StoredIn dir t' := by
  obtain ⟨t₁, hextends, hwrite⟩ := save_eq_ok hsave
  refine FileTree.read_write_joinPlace (isFileName_snapshot hname') (isFileName_snapshot hname) ?_ hwrite
    (hextends.read h)
  rwa [Ne, String.append_left_inj]

/-- A stored dict is loaded as it was. -/
theorem StoredIn.load [LawfulJsonForm α] (h : d.StoredIn dir t) : t.run (Dict.load d.name dir) = (.ok d, t) := by
  have hvalue : t.run (readValue (snapshotPlace dir d.name)) = (.ok d.entries, t) := by
    unfold readValue
    rw [FileTree.run_bind_of_ok (FileTree.run_readFile t _), h]
    simp only [snapshot, Json.decode?_encodePretty]
    rfl
  unfold Dict.load
  rw [FileTree.run_bind_of_ok (FileTree.run_readFile t _), h, if_neg (by simp), FileTree.run_bind_of_ok hvalue]
  rfl

end Dict

end ControlPlane
