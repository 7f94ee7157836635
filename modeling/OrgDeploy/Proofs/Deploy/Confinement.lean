import Mathlib
import OrgDeploy.Proofs.Fs.Segments
import OrgDeploy.Proofs.Engine.PluginDelete

/-!
# Where deployments are written

The file backend keeps a stack at `root/account/region/stack.json` and the copy-file plugin
writes below `destination/account/region`, each path joined by `joinPath`. Joining keeps a path
below its base only while the joined part is relative and has no `..`, and only distinct
components give distinct paths.

## Stacks

For an account id and a region that are plain names (`PlainName`: non-empty, no `/`, neither
`.` nor `..`) and a unit name without `/`:

* `FsBackend.segments_stackPath`: the stack path's segments are the root's followed by the
  account id, the region and `stack.json`;
* `FsBackend.stackPath_inj`: two such stacks share a path only if unit, account id and region
  are the same;
* `FsBackend.locate_stackPath`: in any tree, the stack file is found three levels below the
  root's location.

Other names are accepted by the template check and the resolver alike, and then neither holds:
an absolute unit name replaces the whole path (`FsBackend.stackPath_of_absolute`), and a `/`
moved from a unit name into the region gives a second triple the same file
(`stack_path_escapes_root_and_collides`).

## Copies

A configuration that reads has a relative remote path without `..` (`CopyFile.config_inside`,
`descends_of_isInsideRelative`), so whatever the target:

* `CopyFile.locate_remote`: the remote path is found below `destination/account/region`, at its
  names; for a plain account id and region that directory is two levels below the destination
  (`locate_targetDir`);
* `CopyFile.apply_error_keeps_files`: an apply that fails changes no file, so every apply
  changes no file but the one at its remote path (`CopyFile.apply_files`).
-/

namespace OrgDeploy

open OrgDeploy.Json OrgDeploy.Fs OrgDeploy.Fs.FileTree

/-! ## Stack paths -/

namespace FsBackend

section Plain

variable (root : String) {stack : String} {t : Target}
  (ha : PlainName t.accountId) (hr : PlainName t.region) (hs : '/' ∉ stack.toList)
include ha hr hs

theorem segments_stackPath :
    segments (stackPath root stack t) =
      segments root ++ [t.accountId, t.region, stack ++ ".json"] := by
  have hjson := plainName_json hs
  unfold stackPath
  rw [segments_joinPath _ hjson.isAbsolute_eq, segments_joinPath _ hr.isAbsolute_eq,
    segments_joinPath _ ha.isAbsolute_eq, ha.segments_eq, hr.segments_eq, hjson.segments_eq]
  simp

/-- In any tree, a stack's file is found three levels below the root: at the account id, the
region and the stack's file name. -/
theorem locate_stackPath (T : FileTree) {loc : Location}
    (h : T.locate (stackPath root stack t) = .ok loc) :
    ∃ rootLoc, T.locate root = .ok rootLoc ∧
      loc = rootLoc ++ [t.accountId, t.region, stack ++ ".json"] := by
  -- one level up for each joined name
  obtain ⟨regionLoc, hregion, rfl⟩ := T.locate_joinPath_name (plainName_json hs) h
  obtain ⟨accountLoc, haccount, rfl⟩ := T.locate_joinPath_name hr hregion
  obtain ⟨rootLoc, hroot, rfl⟩ := T.locate_joinPath_name ha haccount
  exact ⟨rootLoc, hroot, by simp⟩

end Plain

/-- Two stacks with plain account ids and regions and unit names without `/` share a path only
when they are the same stack at the same account and region. -/
theorem stackPath_inj (root : String) {stack stack' : String} {t t' : Target}
    (ha : PlainName t.accountId) (hr : PlainName t.region) (hs : '/' ∉ stack.toList)
    (ha' : PlainName t'.accountId) (hr' : PlainName t'.region) (hs' : '/' ∉ stack'.toList)
    (h : stackPath root stack t = stackPath root stack' t') :
    stack = stack' ∧ t.accountId = t'.accountId ∧ t.region = t'.region := by
  have hsegs := congrArg segments h
  rw [segments_stackPath root ha hr hs, segments_stackPath root ha' hr' hs'] at hsegs
  obtain ⟨hacc, hreg, hname⟩ : t.accountId = t'.accountId ∧ t.region = t'.region ∧
      stack ++ ".json" = stack' ++ ".json" := by
    simpa using List.append_cancel_left hsegs
  exact ⟨(String.append_left_inj _).mp hname, hacc, hreg⟩

/-- An absolute unit name replaces the whole path, root, account and region included. -/
theorem stackPath_of_absolute (root : String) {stack : String} (t : Target)
    (h : isAbsolute stack = true) : stackPath root stack t = stack ++ ".json" := by
  have habs : isAbsolute (stack ++ ".json") = true := by
    obtain ⟨cs, hcs⟩ := isAbsolute_iff.mp h
    exact isAbsolute_iff.mpr ⟨cs ++ ".json".toList, by simp [hcs]⟩
  simp [stackPath, joinPath, habs]

end FsBackend

/-! ## Remote paths of copies -/

/-- An absolute path's head is the root. -/
theorem pathHead_of_isAbsolute {p : String} (h : isAbsolute p = true) : (pathHead p).1 = "/" := by
  obtain ⟨cs, hcs⟩ := isAbsolute_iff.mp h
  -- the split starts with the empty piece before the first `/`
  have hsplit : p.splitOn "/" = "" :: (cs.splitOn '/').map String.ofList := by
    rw [splitOn_slash, hcs]
    simp [List.splitOn_cons_eq_if_modifyHead]
  have hne : p.isEmpty = false := by
    rw [Bool.eq_false_iff]; intro he
    rw [String.isEmpty_iff.mp he] at hcs
    simp at hcs
  unfold pathHead
  simp [hsplit, hne]

/-- The body of a path's split at its head holds every `..` of the path. -/
theorem parent_mem_pathHead {p : String} (hne : p ≠ "") (h : ".." ∈ segments p) :
    ".." ∈ (pathHead p).2 := by
  have hsplit : ".." ∈ p.splitOn "/" := (List.mem_filter.mp h).1
  have hempty : p.isEmpty = false := by simpa using hne
  unfold pathHead
  dsimp only
  -- a leading empty or `.` piece is the head; the rest is the body
  split
  · rename_i _ rest heq
    rw [heq] at hsplit
    simpa [hempty] using hsplit
  · rename_i _ rest heq
    rw [heq] at hsplit
    simpa using hsplit
  · exact hsplit

/-- A path inside its base is relative and has no `..` segment. -/
theorem descends_of_isInsideRelative {p : String} (h : isInsideRelative p = true) :
    isAbsolute p = false ∧ ∀ s ∈ segments p, s ≠ ".." := by
  unfold isInsideRelative at h
  obtain ⟨hne, hall⟩ := Bool.and_eq_true_iff.mp h
  have hne : p ≠ "" := by simpa using hne
  -- no component is the root or a parent step
  have hok := List.all_eq_true.mp hall
  rcases hph : pathHead p with ⟨head, body⟩
  have hcomp : pathComponents p =
      (if head == "/" then [Component.root] else if head == "." then [.current] else []) ++
        (body.filter fun s => !s.isEmpty && s != ".").map fun s =>
          if s == ".." then .parent else .normal s := by
    simp only [pathComponents, hph]
  constructor
  · rw [Bool.eq_false_iff]
    intro habs
    have hhead : head = "/" := by simpa [hph] using pathHead_of_isAbsolute habs
    have hroot := hok .root (by simp [hcomp, hhead])
    simp at hroot
  · intro s hs hpar
    subst hpar
    have hbody : ".." ∈ body := by simpa [hph] using parent_mem_pathHead hne hs
    have hparent := hok .parent (by
      rw [hcomp]
      exact List.mem_append_right _ (List.mem_map.mpr ⟨"..", by simp [hbody], by simp⟩))
    simp at hparent

namespace CopyFile

/-- A configuration that reads has a remote path inside the target. -/
theorem config_inside {v : Value} {c : CopyFileConfig} (h : CopyFile.config v = .ok c) :
    isInsideRelative c.remotePath = true := by
  unfold CopyFile.config at h
  cases hd : decodeValue v CopyFileConfig.decoder with
  | error e => simp [hd, bind, Except.bind, Except.mapError] at h
  | ok c' =>
    simp only [hd, bind, Except.bind, Except.mapError] at h
    split at h
    · cases h
    · rename_i hin
      cases h
      simpa using hin

variable (cf : CopyFile) (target : Target)

/-- The remote path of a configuration that reads is found below `destination/account/region`,
at the remote path's names. -/
theorem locate_remote {v : Value} {c : CopyFileConfig} (hc : CopyFile.config v = .ok c)
    (T : FileTree) {loc : Location} (h : T.locate (cf.remote target c) = .ok loc) :
    ∃ dirLoc, T.locate (joinPath (joinPath cf.destination target.accountId) target.region) =
        .ok dirLoc ∧ loc = dirLoc ++ (segments c.remotePath).filter (· != ".") := by
  obtain ⟨hrel, hpar⟩ := descends_of_isInsideRelative (config_inside hc)
  exact T.locate_joinPath hrel hpar h

/-- For a plain account id and region, `destination/account/region` is found two levels below
the destination. -/
theorem locate_targetDir (ha : PlainName target.accountId) (hr : PlainName target.region)
    (T : FileTree) {dirLoc : Location}
    (h : T.locate (joinPath (joinPath cf.destination target.accountId) target.region) =
      .ok dirLoc) :
    ∃ destLoc, T.locate cf.destination = .ok destLoc ∧
      dirLoc = destLoc ++ [target.accountId, target.region] := by
  obtain ⟨accountLoc, haccount, rfl⟩ := T.locate_joinPath_name hr h
  obtain ⟨destLoc, hdest, rfl⟩ := T.locate_joinPath_name ha haccount
  exact ⟨destLoc, hdest, by simp⟩

/-- An apply that fails changes no file: before failing it can only have made directories. -/
theorem apply_error_keeps_files {v : Value} {T T₁ : FileTree} {e : PluginError}
    (h : (cf.apply target v).run T = (.error e, T₁)) : T₁.files = T.files ∧ T₁.cwd = T.cwd := by
  unfold CopyFile.apply at h
  cases hc : CopyFile.config v with
  | error e' => rw [hc, Act.run_liftExcept_error_bind] at h; cases h; exact ⟨rfl, rfl⟩
  | ok c =>
  rw [hc, Act.run_liftExcept_ok_bind] at h
  dsimp only at h
  -- a failed copy leaves the tree it started from
  have hcopy : ∀ T' : FileTree,
      ((copyFile (cf.localFile c) (cf.remote target c)).adapt (PluginError.io (cf.localFile c))
        >>= fun _ => pure [("RemotePath", cf.remote target c)]).run T' = (.error e, T₁) →
      T₁ = T' := by
    intro T' hrun
    rcases Act.run_bind_eq_error hrun with hfail | ⟨u, T₂, -, hpure⟩
    · rw [Act.run_adapt] at hfail
      cases hr : (copyFile (cf.localFile c) (cf.remote target c)).run T' with
      | mk r T₃ =>
        rw [hr] at hfail
        cases r with
        | ok u => cases hfail
        | error e'' => cases hfail; exact copyFile_error hr
    · cases hpure
  cases hpar : parentPath (cf.remote target c) with
  | none =>
    rw [hpar] at h
    rw [hcopy T h]
    exact ⟨rfl, rfl⟩
  | some parent =>
    rw [hpar] at h
    have hdirs := keepsFiles_makeDirs parent T
    rcases Act.run_bind_eq_error h with hfail | ⟨u, T', hmade, hrest⟩
    · -- making the parents failed, having added directories at most
      rw [Act.run_adapt] at hfail
      rwa [show ((makeDirs parent).run T).2 = T₁ from congrArg Prod.snd hfail] at hdirs
    · rw [Act.run_adapt] at hmade
      rw [show ((makeDirs parent).run T).2 = T' from congrArg Prod.snd hmade] at hdirs
      rw [hcopy T' hrest]
      exact hdirs

/-- An apply changes no file, or it changes one: having made directories (which adds no file),
it stores a text at its remote path's location. -/
theorem apply_files (v : Value) (T : FileTree) :
    ((cf.apply target v).run T).2.files = T.files ∨
      ∃ (c : CopyFileConfig) (T' : FileTree) (loc : Location) (text : String),
        CopyFile.config v = .ok c ∧ T'.files = T.files ∧
        T'.locate (cf.remote target c) = .ok loc ∧ ((cf.apply target v).run T).2 = T'.put loc text := by
  cases hrun : (cf.apply target v).run T with
  | mk r T₁ =>
    cases r with
    | error e => exact .inl (cf.apply_error_keeps_files target hrun).1
    | ok outs =>
      obtain ⟨c, T', loc, text, hc, -, hfiles, -, hloc, -, -, rfl⟩ := cf.apply_ok target hrun
      exact .inr ⟨c, T', loc, text, hc, hfiles, hloc, rfl⟩

end CopyFile

/-! ## Deployments stay inside their roots -/

/-- Deployments to plain account ids and regions stay inside their roots and do not collide. A
stack's file, for a unit name without `/`, is found three levels below the backend root, and only
the same unit at the same account and region has its path. An apply of a copy changes no file
but at most one, and a delete removes at most one; that file is found below
`destination/account/region` (for any target), which is two levels below the destination. -/
theorem plain_deployments_stay_inside_roots (root : String) (p : CopyFile) (T : FileTree) :
    (∀ (stack : String) (t : Target) (loc : Location),
      PlainName t.accountId → PlainName t.region → '/' ∉ stack.toList →
      T.locate (FsBackend.stackPath root stack t) = .ok loc →
      ∃ rootLoc, T.locate root = .ok rootLoc ∧
        loc = rootLoc ++ [t.accountId, t.region, stack ++ ".json"]) ∧
    (∀ (stack stack' : String) (t t' : Target),
      PlainName t.accountId → PlainName t.region → '/' ∉ stack.toList →
      PlainName t'.accountId → PlainName t'.region → '/' ∉ stack'.toList →
      FsBackend.stackPath root stack t = FsBackend.stackPath root stack' t' →
      stack = stack' ∧ t.accountId = t'.accountId ∧ t.region = t'.region) ∧
    (∀ (t : Target) (v : Value),
      ((p.apply t v).run T).2.files = T.files ∨
      ∃ (c : CopyFileConfig) (T' : FileTree) (dirLoc : Location) (text : String),
        CopyFile.config v = .ok c ∧ T'.files = T.files ∧
        T'.locate (joinPath (joinPath p.destination t.accountId) t.region) = .ok dirLoc ∧
        ((p.apply t v).run T).2 =
          T'.put (dirLoc ++ (segments c.remotePath).filter (· != ".")) text ∧
        (PlainName t.accountId → PlainName t.region →
          ∃ destLoc, T'.locate p.destination = .ok destLoc ∧
            dirLoc = destLoc ++ [t.accountId, t.region])) ∧
    (∀ (t : Target) (v : Value),
      ((p.delete t v).run T).2 = T ∨
      ∃ (c : CopyFileConfig) (dirLoc : Location),
        CopyFile.config v = .ok c ∧
        T.locate (joinPath (joinPath p.destination t.accountId) t.region) = .ok dirLoc ∧
        ((p.delete t v).run T).2 = T.drop (dirLoc ++ (segments c.remotePath).filter (· != ".")) ∧
        (PlainName t.accountId → PlainName t.region →
          ∃ destLoc, T.locate p.destination = .ok destLoc ∧
            dirLoc = destLoc ++ [t.accountId, t.region])) := by
  refine ⟨fun stack t loc ha hr hs h => FsBackend.locate_stackPath root ha hr hs T h,
    fun stack stack' t t' ha hr hs ha' hr' hs' h =>
      FsBackend.stackPath_inj root ha hr hs ha' hr' hs' h, ?_, ?_⟩
  · intro t v
    rcases p.apply_files t v T with hkeep | ⟨c, T', loc, text, hc, hfiles, hloc, hrun⟩
    · exact .inl hkeep
    · obtain ⟨dirLoc, hdir, rfl⟩ := p.locate_remote t hc T' hloc
      exact .inr ⟨c, T', dirLoc, text, hc, hfiles, hdir, hrun,
        fun ha hr => p.locate_targetDir t ha hr T' hdir⟩
  · intro t v
    cases hc : CopyFile.config v with
    | error e => exact .inl (by rw [p.delete_refuses t hc T])
    | ok c =>
      rcases p.delete_removes_only t hc T with hkeep | ⟨loc, hloc, hrun⟩
      · exact .inl hkeep
      · obtain ⟨dirLoc, hdir, rfl⟩ := p.locate_remote t hc T hloc
        exact .inr ⟨c, dirLoc, rfl, hdir, by rw [hrun],
          fun ha hr => p.locate_targetDir t ha hr T hdir⟩

/-- The stack `app` of the account `111111111111` in `eu-west-1`, in a tree holding the backend's
directories, is found three levels below `deployments`; and the stack `db` of another account in
another region has another path. -/
theorem app_stack_found_below_root :
    (∃ rootLoc, ({ dirs := [["deployments"], ["deployments", "111111111111"],
        ["deployments", "111111111111", "eu-west-1"]] } : FileTree).locate "deployments" =
          .ok rootLoc ∧
      ["deployments", "111111111111", "eu-west-1", "app.json"] =
        rootLoc ++ ["111111111111", "eu-west-1", "app.json"]) ∧
    FsBackend.stackPath "deployments" "app" ⟨"111111111111", "eu-west-1", "Dev"⟩ ≠
      FsBackend.stackPath "deployments" "db" ⟨"222222222222", "eu-central-1", "Prod"⟩ := by
  let T : FileTree := { dirs := [["deployments"], ["deployments", "111111111111"],
    ["deployments", "111111111111", "eu-west-1"]] }
  let t : Target := ⟨"111111111111", "eu-west-1", "Dev"⟩
  have hloc : T.locate (FsBackend.stackPath "deployments" "app" t) =
      .ok ["deployments", "111111111111", "eu-west-1", "app.json"] := by
    have hpath : FsBackend.stackPath "deployments" "app" t =
        "deployments/111111111111/eu-west-1/app.json" := by
      decide +kernel
    rw [hpath, FileTree.locate, FileTree.segments_eq]
    decide +kernel
  have hroots := plain_deployments_stay_inside_roots "deployments" ⟨"", "deployments"⟩ T
  refine ⟨hroots.1 "app" t _ (by decide) (by decide) (by decide) hloc, fun h => ?_⟩
  -- equal paths would make the two triples one
  have hsame := hroots.2.1 "app" "db" t ⟨"222222222222", "eu-central-1", "Prod"⟩ (by decide)
    (by decide) (by decide) (by decide) (by decide) (by decide) h
  exact absurd hsame.1 (by decide)

/-- The template check accepts the unit names `/x`, `a/b` and `b`. The stack `/x` is written to
`/x.json` whatever the target: in every tree it is found at the top, outside `deployments`. And
`a/b` in `eu-west-1` shares its file with `b` in the region `eu-west-1/a`. -/
theorem stack_path_escapes_root_and_collides :
    Template.check [⟨"/x", {}, .stack (.obj []) []⟩, ⟨"a/b", {}, .stack (.obj []) []⟩,
      ⟨"b", {}, .stack (.obj []) []⟩] = .ok () ∧
    FsBackend.stackPath "deployments" "/x" ⟨"111111111111", "eu-west-1", "Dev"⟩ = "/x.json" ∧
    (∀ T : FileTree, T.locate "/x.json" = .ok ["x.json"] ∧
      ∀ rootLoc, T.locate "deployments" = .ok rootLoc → ¬ rootLoc <+: ["x.json"]) ∧
    FsBackend.stackPath "deployments" "a/b" ⟨"111111111111", "eu-west-1", "Dev"⟩ =
      FsBackend.stackPath "deployments" "b" ⟨"111111111111", "eu-west-1/a", "Dev"⟩ := by
  refine ⟨by decide, FsBackend.stackPath_of_absolute _ _ (by decide +kernel), fun T => ⟨?_, ?_⟩,
    by decide +kernel⟩
  · -- from the top, the one segment `x.json`
    have hsegs : segments "/x.json" = ["x.json"] := by rw [segments_eq]; decide
    have hsize : ¬ "/x.json".utf8ByteSize > pathLimit := by decide
    rw [FileTree.locate, if_neg hsize, hsegs, if_pos (by decide +kernel), walk_single T (by decide)]
    decide
  · -- `deployments` is found one level below the working directory
    intro rootLoc hroot hpre
    have hjoin : joinPath "" "deployments" = "deployments" := by decide +kernel
    rw [← hjoin] at hroot
    obtain ⟨baseLoc, -, rfl⟩ := T.locate_joinPath_name (show PlainName "deployments" by decide) hroot
    obtain ⟨rest, hrest⟩ := hpre
    cases baseLoc with
    | nil => simp at hrest
    | cons l ls => simp at hrest


end OrgDeploy
