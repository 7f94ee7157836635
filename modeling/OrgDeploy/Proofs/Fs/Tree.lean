import Mathlib
import OrgDeploy.Fs.Tree
import OrgDeploy.Proofs.Engine.Commit

/-!
# Laws of the file tree

What the file operations a copy needs do to the tree, stated so that later proofs never open
them:

* storing a file (`put`) changes what its own location names and nothing else, and dropping one
  (`drop`) forgets that file and nothing else;
* a path found in a tree is found the same way in any tree that keeps its directories
  (`DirsKept`), which is what storing a file over a non-directory does (`dirsKept_put`);
* `makeDirs` only ever adds directories (`KeepsFiles`);
* a copy that goes through stored the source's text over a non-directory location of the
  destination (`copyFile_ok`); unlinking a path that names a file drops that file
  (`run_unlinkFile`).
-/

namespace OrgDeploy.Act

variable {σ ε α β : Type}

/-- A run that went through went through both of its halves. -/
theorem run_bind_eq_ok {m : Act σ ε β} {k : β → Act σ ε α} {w w' : σ} {a : α}
    (h : (m >>= k).run w = (.ok a, w')) :
    ∃ b w₁, m.run w = (.ok b, w₁) ∧ (k b).run w₁ = (.ok a, w') := by
  cases hm : m.run w with
  | mk r w₁ =>
    cases r with
    | error e => rw [run_bind_error hm] at h; cases h
    | ok b => exact ⟨b, w₁, rfl, by rwa [run_bind_ok hm] at h⟩

/-- A run that failed failed in its first half, or went through it and failed in the second. -/
theorem run_bind_eq_error {m : Act σ ε β} {k : β → Act σ ε α} {w w' : σ} {e : ε}
    (h : (m >>= k).run w = (.error e, w')) :
    m.run w = (.error e, w') ∨ ∃ b w₁, m.run w = (.ok b, w₁) ∧ (k b).run w₁ = (.error e, w') := by
  cases hm : m.run w with
  | mk r w₁ =>
    cases r with
    | error e' => rw [run_bind_error hm] at h; cases h; exact .inl rfl
    | ok b => exact .inr ⟨b, w₁, rfl, by rwa [run_bind_ok hm] at h⟩

theorem run_tryCatch_ok {x : Act σ ε α} {h : ε → Act σ ε α} {w w' : σ} {a : α}
    (hx : x.run w = (.ok a, w')) : (tryCatch x h).run w = (.ok a, w') := by
  change (ExceptT.tryCatch x h).run w = _
  simp only [ExceptT.tryCatch, ExceptT.run_mk]
  show (do let r ← x.run; match r with | .ok a => pure (.ok a) | .error e => (h e).run :
    StateM σ _) w = _
  simp [bind, StateT.bind, hx]
  rfl

theorem run_tryCatch_error {x : Act σ ε α} {h : ε → Act σ ε α} {w w' : σ} {e : ε}
    (hx : x.run w = (.error e, w')) : (tryCatch x h).run w = (h e).run w' := by
  change (ExceptT.tryCatch x h).run w = _
  simp only [ExceptT.tryCatch, ExceptT.run_mk]
  show (do let r ← x.run; match r with | .ok a => pure (.ok a) | .error e => (h e).run :
    StateM σ _) w = _
  simp [bind, StateT.bind, hx]

theorem run_adapt {ε' : Type} (x : Act σ ε α) (f : ε → ε') (w : σ) :
    (x.adapt f).run w = ((x.run w).1.mapError f, (x.run w).2) := rfl

end OrgDeploy.Act

namespace OrgDeploy.Fs

namespace FileTree

variable (t : FileTree) (loc l : Location) (text : String)

@[simp] theorem put_cwd : (t.put loc text).cwd = t.cwd := rfl

@[simp] theorem put_dirs : (t.put loc text).dirs = t.dirs := rfl

@[simp] theorem drop_cwd : (t.drop loc).cwd = t.cwd := rfl

@[simp] theorem drop_dirs : (t.drop loc).dirs = t.dirs := rfl

/-- Filtering out the entries of one location forgets its file and keeps every other. -/
theorem lookup_filter_ne (files : List (Location × String)) :
    (files.filter (·.1 != loc)).lookup l = if l = loc then none else files.lookup l := by
  induction files with
  | nil => simp
  | cons kv rest ih =>
    obtain ⟨k, v⟩ := kv
    by_cases hl : l = k
    · subst hl
      by_cases hk : l = loc
      · subst hk
        simpa using ih
      · simp [List.lookup, hk]
    · have hb : (l == k) = false := beq_false_of_ne hl
      by_cases hk : k = loc
      · subst hk
        simp [List.lookup, hb, ih]
      · simp [hk, List.lookup, hb, ih]

@[simp] theorem lookup_put :
    (t.put loc text).files.lookup l = if l = loc then some text else t.files.lookup l := by
  by_cases hl : l = loc
  · subst hl
    simp [put]
  · have hb : (l == loc) = false := beq_false_of_ne hl
    simp [put, List.lookup, hb, hl, lookup_filter_ne]

@[simp] theorem lookup_drop :
    (t.drop loc).files.lookup l = if l = loc then none else t.files.lookup l :=
  lookup_filter_ne loc l t.files

/-- Storing a file makes its location name it, unless the location is the working directory or
above it; every other location names what it did. -/
theorem entry?_put :
    entry? (t.put loc text) l =
      if l.isPrefixOf t.cwd then some .dir else if l = loc then some (.file text) else t.entry? l := by
  unfold entry?
  by_cases hc : l.isPrefixOf t.cwd
  · simp [hc]
  · by_cases hl : l = loc <;> simp [hc, hl]

/-- Storing a file over anything but a directory makes its location name that file. -/
theorem entry?_put_self {loc : Location} (h : t.entry? loc ≠ some .dir) (text : String) :
    entry? (t.put loc text) loc = some (.file text) := by
  have hcwd : ¬ loc.isPrefixOf t.cwd := by
    intro hp
    apply h
    unfold entry?
    simp [hp]
  simp [entry?_put, hcwd]

/-- Dropping a file just stored leaves what dropping it before would. -/
@[simp] theorem drop_put : (t.put loc text).drop loc = t.drop loc := by
  simp [put, drop]

/-- A tree whose working directory and directories are still there in `t'`. -/
structure DirsKept (t t' : FileTree) : Prop where
  cwd : t'.cwd = t.cwd
  dirs : ∀ l, t.entry? l = some .dir → t'.entry? l = some .dir

/-- Storing a file over anything but a directory keeps every directory. -/
theorem dirsKept_put {loc : Location} (h : t.entry? loc ≠ some .dir) (text : String) :
    DirsKept t (t.put loc text) := by
  refine ⟨rfl, fun l hl => ?_⟩
  rw [entry?_put]
  split_ifs with hcwd hloc
  · rfl
  · subst hloc
    exact absurd hl h
  · exact hl

variable {t}

/-- Following a path goes only through directories, so it goes the same way in a tree that
keeps them. -/
theorem DirsKept.walk {t' : FileTree} (h : DirsKept t t') :
    ∀ (start : Location) (segs : List String) {r : Location},
      t.walk start segs = .ok r → t'.walk start segs = .ok r := by
  intro start segs
  induction start, segs using FileTree.walk.induct t with
  | case1 loc => intro r hr; simpa [FileTree.walk] using hr
  | case2 loc seg hlong => intro r hr; simp [FileTree.walk, hlong] at hr
  | case3 loc seg hshort => intro r hr; simpa [FileTree.walk, hshort] using hr
  | case4 loc seg rest hrest hlong _ =>
    intro r hr
    rw [FileTree.walk.eq_3 _ _ _ _ hrest, if_pos hlong] at hr
    cases hr
  | case5 loc seg rest hrest hshort ih =>
    intro r hr
    rw [FileTree.walk.eq_3 _ _ _ _ hrest, if_neg hshort] at hr
    rw [FileTree.walk.eq_3 _ _ _ _ hrest, if_neg hshort]
    -- the step before the rest of the path is a directory in `t`, hence in `t'`
    dsimp only at hr ⊢
    cases hnext : t.entry? (step loc seg) with
    | none => rw [hnext] at hr; cases hr
    | some e =>
      cases e with
      | file text => rw [hnext] at hr; cases hr
      | dir =>
        rw [hnext] at hr
        rw [h.dirs _ hnext]
        exact ih hr

theorem DirsKept.locate {t' : FileTree} (h : DirsKept t t') {p : String} {r : Location}
    (hr : t.locate p = .ok r) : t'.locate p = .ok r := by
  unfold FileTree.locate at hr ⊢
  rw [h.cwd]
  split at hr
  · cases hr
  · rw [if_neg ‹_›]
    exact h.walk _ _ hr

end FileTree

open FileTree

/-! ## Running the operations -/

theorem run_locateNow (p : String) (t : FileTree) : (locateNow p).run t = (t.locate p, t) := by
  unfold locateNow tree
  rw [Act.run_get_bind]
  cases t.locate p <;> rfl

theorem run_locateNow_bind_ok {α : Type} {p : String} {t : FileTree} {loc : Location}
    (h : t.locate p = .ok loc) (k : Location → FsAct α) :
    (locateNow p >>= k).run t = (k loc).run t :=
  Act.run_bind_ok (by rw [run_locateNow, h])

theorem run_locateNow_bind_error {α : Type} {p : String} {t : FileTree} {e : IoError}
    (h : t.locate p = .error e) (k : Location → FsAct α) :
    (locateNow p >>= k).run t = (.error e, t) :=
  Act.run_bind_error (by rw [run_locateNow, h])

theorem run_tree_bind {α : Type} (k : FileTree → FsAct α) (t : FileTree) :
    (tree >>= k).run t = (k t).run t := rfl

/-- A copy that goes through stored a text at the destination's location, which was no
directory, through a path not ending in `/`. -/
theorem copyFile_ok {src dst : String} {t t' : FileTree} (h : (copyFile src dst).run t = (.ok (), t')) :
    ∃ loc text, t.locate dst = .ok loc ∧ t.entry? loc ≠ some .dir ∧ dst.endsWith "/" = false ∧
      t' = t.put loc text := by
  unfold copyFile at h
  -- the source is found and read without changing the tree
  cases hsrc : t.locate src with
  | error e => rw [run_locateNow_bind_error hsrc] at h; cases h
  | ok origin =>
  rw [run_locateNow_bind_ok hsrc, run_tree_bind] at h
  cases hent : t.entry? origin with
  | none => simp only [hent, Act.run_throw_bind] at h; cases h
  | some e =>
  cases e with
  | dir => simp only [hent, Act.run_throw_bind] at h; cases h
  | file text =>
  by_cases hs : src.endsWith "/" = true
  · simp only [hent, hs, if_true, Act.run_throw_bind] at h; cases h
  simp only [hent, hs, Bool.false_eq_true, if_false, Act.run_pure_bind] at h
  -- then the destination is found, and must not end in a separator
  cases hdst : t.locate dst with
  | error e => rw [run_locateNow_bind_error hdst] at h; cases h
  | ok dest =>
  rw [run_locateNow_bind_ok hdst] at h
  by_cases hd : dst.endsWith "/" = true
  · simp only [hd, if_true, Act.run_throw_bind] at h; cases h
  simp only [hd, Bool.false_eq_true, if_false] at h
  -- the destination's location names no directory, and the text is stored there
  split at h
  · cases h
  · rename_i hdir
    cases h
    exact ⟨dest, _, rfl, hdir, by simpa using hd, rfl⟩

/-- A copy that fails leaves the tree as it was: every refusal comes before the store. -/
theorem copyFile_error {src dst : String} {t t' : FileTree} {e : IoError}
    (h : (copyFile src dst).run t = (.error e, t')) : t' = t := by
  unfold copyFile at h
  cases hsrc : t.locate src with
  | error e' => rw [run_locateNow_bind_error hsrc] at h; cases h; rfl
  | ok origin =>
  rw [run_locateNow_bind_ok hsrc, run_tree_bind] at h
  cases hent : t.entry? origin with
  | none => simp only [hent, Act.run_throw_bind] at h; cases h; rfl
  | some e =>
  cases e with
  | dir => simp only [hent, Act.run_throw_bind] at h; cases h; rfl
  | file text =>
  by_cases hs : src.endsWith "/" = true
  · simp only [hent, hs, if_true, Act.run_throw_bind] at h; cases h; rfl
  simp only [hent, hs, Bool.false_eq_true, if_false, Act.run_pure_bind] at h
  cases hdst : t.locate dst with
  | error e' => rw [run_locateNow_bind_error hdst] at h; cases h; rfl
  | ok dest =>
  rw [run_locateNow_bind_ok hdst] at h
  by_cases hd : dst.endsWith "/" = true
  · simp only [hd, if_true, Act.run_throw_bind] at h; cases h; rfl
  simp only [hd, Bool.false_eq_true, if_false] at h
  -- the store itself cannot fail
  split at h
  · cases h; rfl
  · cases h

/-- Unlinking a path that names a file drops that file. -/
theorem run_unlinkFile {p : String} {t : FileTree} {loc : Location} {text : String}
    (h : t.locate p = .ok loc) (hf : t.entry? loc = some (.file text))
    (hs : p.endsWith "/" = false) : (unlinkFile p).run t = (.ok (), t.drop loc) := by
  unfold unlinkFile
  rw [run_locateNow_bind_ok h, run_tree_bind]
  simp only [hf, hs, Bool.false_eq_true, if_false]
  rfl

/-- Unlinking either leaves the tree as it was or drops the file its path names. -/
theorem unlinkFile_cases (p : String) (t : FileTree) :
    ((unlinkFile p).run t).2 = t ∨
      ∃ loc, t.locate p = .ok loc ∧ (unlinkFile p).run t = (.ok (), t.drop loc) := by
  unfold unlinkFile
  cases h : t.locate p with
  | error e =>
    left
    rw [run_locateNow_bind_error h]
  | ok loc =>
    rw [run_locateNow_bind_ok h, run_tree_bind]
    -- every refusal leaves the tree; only a file through a path without `/` is dropped
    cases hent : t.entry? loc with
    | none => left; rfl
    | some e =>
      cases e with
      | dir => left; rfl
      | file text =>
        by_cases hs : p.endsWith "/" = true
        · left
          rw [if_pos hs]
          rfl
        · right
          refine ⟨loc, rfl, ?_⟩
          rw [if_neg hs]
          rfl

/-! ## Operations that only add directories -/

/-- A file operation that changes no file and keeps the working directory: at most it adds
directories. -/
def KeepsFiles {α : Type} (x : FsAct α) : Prop :=
  ∀ t, ((x.run t).2).files = t.files ∧ ((x.run t).2).cwd = t.cwd

namespace KeepsFiles

variable {α β : Type}

theorem pure (a : α) : KeepsFiles (Pure.pure a : FsAct α) := fun _ => ⟨rfl, rfl⟩

theorem throw (e : IoError) : KeepsFiles (MonadExcept.throw e : FsAct α) := fun _ => ⟨rfl, rfl⟩

theorem bind {x : FsAct α} {k : α → FsAct β} (hx : KeepsFiles x) (hk : ∀ a, KeepsFiles (k a)) :
    KeepsFiles (x >>= k) := by
  intro t
  obtain ⟨hfiles, hcwd⟩ := hx t
  cases hr : x.run t with
  | mk r t₁ =>
    rw [hr] at hfiles hcwd
    cases r with
    | error e => rw [Act.run_bind_error hr]; exact ⟨hfiles, hcwd⟩
    | ok a =>
      rw [Act.run_bind_ok hr]
      obtain ⟨hfiles', hcwd'⟩ := hk a t₁
      exact ⟨hfiles'.trans hfiles, hcwd'.trans hcwd⟩

theorem tryCatch {x : FsAct α} {h : IoError → FsAct α} (hx : KeepsFiles x)
    (hh : ∀ e, KeepsFiles (h e)) : KeepsFiles (tryCatch x h) := by
  intro t
  obtain ⟨hfiles, hcwd⟩ := hx t
  cases hr : x.run t with
  | mk r t₁ =>
    rw [hr] at hfiles hcwd
    cases r with
    | ok a => rw [Act.run_tryCatch_ok hr]; exact ⟨hfiles, hcwd⟩
    | error e =>
      rw [Act.run_tryCatch_error hr]
      obtain ⟨hfiles', hcwd'⟩ := hh e t₁
      exact ⟨hfiles'.trans hfiles, hcwd'.trans hcwd⟩

end KeepsFiles

theorem keepsFiles_makeDir (p : String) : KeepsFiles (makeDir p) := by
  intro t
  unfold makeDir
  cases h : t.locate p with
  | error e => rw [run_locateNow_bind_error h]; exact ⟨rfl, rfl⟩
  | ok loc =>
    rw [run_locateNow_bind_ok h, run_tree_bind]
    -- an existing name is refused; a new directory is only a directory
    split <;> exact ⟨rfl, rfl⟩

theorem keepsFiles_unlessDir (p : String) (e : IoError) : KeepsFiles (unlessDir p e) := by
  intro t
  unfold unlessDir
  rw [run_tree_bind]
  split <;> exact ⟨rfl, rfl⟩

/-- Creating a directory and its parents adds directories and nothing else. -/
theorem keepsFiles_makeDirsWithin (fuel : Nat) (p : String) : KeepsFiles (makeDirsWithin fuel p) := by
  induction fuel, p using makeDirsWithin.induct with
  | case1 p => exact KeepsFiles.throw _
  | case2 fuel p hempty =>
    rw [makeDirsWithin, if_pos hempty]
    exact KeepsFiles.pure _
  | case3 fuel p hempty ih =>
    rw [makeDirsWithin, if_neg hempty]
    refine KeepsFiles.tryCatch (keepsFiles_makeDir p) fun e => ?_
    -- a missing parent is created first; any other failure is accepted for a directory
    split
    · split
      · exact KeepsFiles.throw _
      · exact (ih _).bind fun _ =>
          KeepsFiles.tryCatch (keepsFiles_makeDir p) (keepsFiles_unlessDir p)
    · exact keepsFiles_unlessDir p _

theorem keepsFiles_makeDirs (p : String) : KeepsFiles (makeDirs p) :=
  keepsFiles_makeDirsWithin _ p

end OrgDeploy.Fs
