import Mathlib
import OrgDeploy.Engine.Basic
import OrgDeploy.Proofs.Json.Layout
import OrgDeploy.Proofs.Json.ReadBack
import OrgDeploy.Proofs.Fs.Segments

/-!
# What a content hash covers

The planner leaves a target alone when the content hash of the new artifact is the recorded one,
so a content hash has to change whenever what a deployment would put in place changes. A hash
function does collide; what the code can be held to is that equal hashes mean the same deployment
or a collision of SHA-256 (`Digest.Collision`).

* A stack is deployed as its template text and its parameters. Its hash is the digest of the
  compact JSON of `{"body": …, "parameters": …}` (`Artifact.digestInput`). Compact text is
  self-delimiting and fixes the pretty layout (`OrgDeploy.Json.compact_append_alike`), so equal
  digest inputs of two canonical bodies mean the same template text and the same parameters
  (`stack_digest_determines`).
* The copy-file plugin hashes the file's text followed by the remote path, with nothing between
  them (`CopyFile.contentHash_of_read`). Equal hash inputs say the same file at the same path
  only when the two texts have the same length: `copy_hash_joins_text_and_path` gives two
  configurations, `ab` copied to `c.md` and `abc` copied to `.md`, with one content hash.

`content_hash_covers_deployment` puts both together for the engine's `Deployable.contentHash`.
-/

namespace OrgDeploy

open OrgDeploy.Json OrgDeploy.Digest OrgDeploy.Fs

/-! ## UTF-8 bytes -/

theorem ByteArray.toList_loop_eq (bs : ByteArray) (i : Nat) (r : List UInt8) :
    ByteArray.toList.loop bs i r = r.reverse ++ bs.data.toList.drop i := by
  -- the loop conses the bytes from `i` on, then reverses
  induction h : bs.size - i generalizing i r with
  | zero =>
    have hle : bs.data.toList.length ≤ i := by
      rw [Array.length_toList]; change bs.data.size - i = 0 at h; omega
    rw [ByteArray.toList.loop, if_neg (by omega), List.drop_eq_nil_of_le hle, List.append_nil]
  | succ k ih =>
    have hlt : i < bs.data.toList.length := by
      rw [Array.length_toList]; change bs.data.size - i = k + 1 at h; omega
    rw [ByteArray.toList.loop, if_pos (by omega), ih (i + 1) _ (by omega),
      List.drop_eq_getElem_cons hlt]
    simp only [ByteArray.get!, List.reverse_cons, List.append_assoc, List.singleton_append,
      Array.getElem_toList]
    rw [getElem!_pos bs.data i (by simpa using hlt)]

theorem ByteArray.toList_eq (bs : ByteArray) : bs.toList = bs.data.toList := by
  simp [ByteArray.toList, ByteArray.toList_loop_eq]

theorem utf8_append (s t : String) : utf8 (s ++ t) = utf8 s ++ utf8 t := by
  simp [utf8, String.toUTF8, ByteArray.toList_eq]

theorem utf8_inj {s t : String} (h : utf8 s = utf8 t) : s = t := by
  simp only [utf8, ByteArray.toList_eq] at h
  have hbytes : s.toUTF8 = t.toUTF8 := ByteArray.ext (Array.toList_inj.mp h)
  exact String.toByteArray_inj.mp hbytes

namespace Digest

/-- Two different messages with one SHA-256 digest. -/
def Collision (m m' : List UInt8) : Prop := m ≠ m' ∧ sha256Hex m = sha256Hex m'

/-- Equal digests come from equal messages, or from a collision. -/
theorem eq_or_collision {m m' : List UInt8} (h : sha256Hex m = sha256Hex m') :
    m = m' ∨ Collision m m' := by
  by_cases hm : m = m'
  · exact .inl hm
  · exact .inr ⟨hm, h⟩

end Digest

theorem sha256_prefix_inj {x y : String} (h : "sha256:" ++ x = "sha256:" ++ y) : x = y := by
  have hl := congrArg String.toList h
  simp only [String.toList_append, List.append_cancel_left_eq] at hl
  exact String.toList_inj.mp hl

/-! ## Stacks -/

namespace Artifact

/-- The text the digest hashes: the compact JSON of the normal form of the body, and of the
parameters. -/
def digestInput (a : Artifact) : String :=
  (Value.obj [("body", a.body.normalize), ("parameters", a.parametersJson)]).compact

theorem digest_eq (a : Artifact) : a.digest = "sha256:" ++ sha256Hex (utf8 a.digestInput) := rfl

theorem parametersJson_eq (a : Artifact) :
    a.parametersJson = .obj (a.parameters.map fun p => (p.1, .str p.2)) := rfl

/-- Parameter objects are alike only when the parameters are the same. -/
theorem parameters_eq_of_alikeFields : ∀ {ps qs : List (String × String)},
    AlikeFields (ps.map fun p => (p.1, .str p.2)) (qs.map fun p => (p.1, .str p.2)) → ps = qs
  | [], [], _ => rfl
  | (k, v) :: ps, (k', v') :: qs, h => by
    simp only [List.map_cons] at h
    cases h with
    | cons _ hv hs =>
      cases hv
      rw [parameters_eq_of_alikeFields hs]

/-- Equal digest inputs of artifacts with canonical bodies mean the same template text and the
same parameters. -/
theorem stack_digest_determines {a b : Artifact} (ha : a.body.Canonical) (hb : b.body.Canonical)
    (h : a.digestInput = b.digestInput) : a.text = b.text ∧ a.parameters = b.parameters := by
  unfold digestInput at h
  rw [normalize_of_canonical _ ha, normalize_of_canonical _ hb] at h
  -- the two objects are read back alike, field by field
  have hread : (Value.obj [("body", a.body), ("parameters", a.parametersJson)]).compact.toList
      ++ [] = (Value.obj [("body", b.body), ("parameters", b.parametersJson)]).compact.toList
      ++ [] := by rw [h]
  obtain ⟨-, halike⟩ := compact_append_alike _ _ closing_nil closing_nil hread
  cases halike with
  | obj hfields =>
    cases hfields with
    | cons _ hbody hrest =>
      cases hrest with
      | cons _ hparams _ =>
        rw [parametersJson_eq, parametersJson_eq] at hparams
        cases hparams with
        | obj hps =>
          exact ⟨hbody.prettyAt_eq 0, parameters_eq_of_alikeFields hps⟩

end Artifact

/-! ## The copy-file plugin -/

namespace CopyFile

/-- The content hash of a configuration whose file reads: the digest of the file's text followed
by the remote path. -/
theorem contentHash_of_read {p : CopyFile} {t : FileTree} {v : Value} {c : CopyFileConfig}
    {s : String} (hc : config v = .ok c) (hs : t.fileText (p.localFile c) = .ok s) :
    p.contentHash v t = .ok ("sha256:" ++ sha256Hex (utf8 s ++ utf8 c.remotePath)) := by
  simp [contentHash, hc, hs, bind, Except.bind, Except.mapError, pure, Except.pure]

/-- A file text followed by a path is told apart from another when the texts have one length. -/
theorem append_inj_of_length {s s' r r' : String} (h : s ++ r = s' ++ r')
    (hlen : s.length = s'.length) : s = s' ∧ r = r' := by
  have hl := congrArg String.toList h
  rw [String.toList_append, String.toList_append] at hl
  obtain ⟨hs, hr⟩ := List.append_inj hl (by rw [String.length_toList, String.length_toList]; exact hlen)
  exact ⟨String.toList_inj.mp hs, String.toList_inj.mp hr⟩

end CopyFile

/-! ## Both kinds of unit -/

/-- Equal content hashes mean the same deployment, up to a collision of SHA-256: for a stack, the
same template text and parameters; for a copied file whose two texts have one length, the same
text copied to the same path. -/
theorem content_hash_covers_deployment {σ : Type} (w : σ) :
    (∀ (name : String) (a b : Artifact), a.body.Canonical → b.body.Canonical →
      Deployable.contentHash w (.stack name) a = Deployable.contentHash w (.stack name) b →
      (a.text = b.text ∧ a.parameters = b.parameters) ∨
        Collision (utf8 a.digestInput) (utf8 b.digestInput)) ∧
    (∀ (p : CopyFile) (fi : FilesIn σ) (config : Value) (a b : Artifact) (c d : CopyFileConfig)
      (s s' : String), CopyFile.config a.body = .ok c → CopyFile.config b.body = .ok d →
      (fi.get w).fileText (p.localFile c) = .ok s → (fi.get w).fileText (p.localFile d) = .ok s' →
      Deployable.contentHash w (.plugin (p.plugin fi) config) a =
        Deployable.contentHash w (.plugin (p.plugin fi) config) b →
      s.length = s'.length →
      (s = s' ∧ c.remotePath = d.remotePath) ∨
        Collision (utf8 s ++ utf8 c.remotePath) (utf8 s' ++ utf8 d.remotePath)) := by
  constructor
  · intro name a b ha hb h
    simp only [Deployable.contentHash, Except.ok.injEq, Artifact.digest_eq] at h
    rcases eq_or_collision (sha256_prefix_inj h) with hm | hcoll
    · exact .inl (Artifact.stack_digest_determines ha hb (utf8_inj hm))
    · exact .inr hcoll
  · intro p fi config a b c d s s' hc hd hs hs' h hlen
    simp only [Deployable.contentHash, CopyFile.plugin, CopyFile.contentHash_of_read hc hs,
      CopyFile.contentHash_of_read hd hs', Except.mapError, Except.ok.injEq] at h
    rcases eq_or_collision (sha256_prefix_inj h) with hm | hcoll
    · rw [← utf8_append, ← utf8_append] at hm
      exact .inl (CopyFile.append_inj_of_length (utf8_inj hm) hlen)
    · exact .inr hcoll

/-! ## Configurations on a small file tree

A copy-file plugin whose source is the working directory, over a tree with the files `x` and
`y`. Path texts are split by `String.splitOn`, which goes by well-founded recursion and does not
evaluate: the few names used have no separator, so each splits into itself
(`splitOn_slash_of_name`). -/

/-- A configuration whose remote path is one plain name is accepted as written. -/
theorem CopyFile.config_plain (l r : String) (hr : '/' ∉ r.toList) (hne : r ≠ "")
    (hcur : r ≠ ".") (hpar : r ≠ "..") :
    CopyFile.config (.obj [("local_path", .str l), ("remote_path", .str r)]) = .ok ⟨l, r⟩ := by
  have hdec : decodeValue (.obj [("local_path", .str l), ("remote_path", .str r)])
      CopyFileConfig.decoder = .ok ⟨l, r⟩ := rfl
  have hin : isInsideRelative r = true := by
    simp [isInsideRelative, pathComponents, pathHead, splitOn_slash_of_name hr, hne, hcur, hpar]
  simp [CopyFile.config, hdec, hin, bind, Except.bind, Except.mapError, pure, Except.pure]

/-- With the working directory as source, a configuration's file is its local path. -/
theorem CopyFile.localFile_here (dst : String) (c : CopyFileConfig) :
    (CopyFile.mk "" dst).localFile c = c.localPath := by
  simp [CopyFile.localFile, joinPath]

/-- The two files of the tree read as their texts. -/
theorem fileText_x_y (s s' : String) :
    ({ files := [(["x"], s), (["y"], s')] } : FileTree).fileText "x" = .ok s ∧
      ({ files := [(["x"], s), (["y"], s')] } : FileTree).fileText "y" = .ok s' := by
  have hxs : "x".splitOn "/" = ["x"] := splitOn_slash_of_name (by decide)
  have hys : "y".splitOn "/" = ["y"] := splitOn_slash_of_name (by decide)
  have hx : "x".endsWith "/" = false := by decide +kernel
  have hy : "y".endsWith "/" = false := by decide +kernel
  have hsx : "x".utf8ByteSize = 1 := by decide
  have hsy : "y".utf8ByteSize = 1 := by decide
  constructor
  all_goals
    simp [FileTree.fileText, FileTree.locate, FileTree.pathLimit, FileTree.segments,
      FileTree.walk, FileTree.step, FileTree.entry?, isAbsolute, hxs, hys, hx, hy,
      hsx, hsy, List.lookup, bind, Except.bind, pure, Except.pure]

/-- Two stack artifacts that differ only in what they import, and two configurations copying
equal texts to one path, hashed alike: each pair is read back as the same deployment. -/
theorem equal_copies_hash_alike :
    let t : FileTree := { files := [(["x"], "ab"), (["y"], "ab")] }
    let p : CopyFile := ⟨"", "deployments"⟩
    let stack : Artifact := ⟨.obj [("Resources", .obj [])], [("Env", "dev")], []⟩
    let stack' : Artifact :=
      ⟨.obj [("Resources", .obj [])], [("Env", "dev")], [⟨"net", "111", "eu", "Vpc"⟩]⟩
    let a : Artifact := ⟨.obj [("local_path", .str "x"), ("remote_path", .str "c.md")], [], []⟩
    let b : Artifact := ⟨.obj [("local_path", .str "y"), ("remote_path", .str "c.md")], [], []⟩
    Deployable.contentHash t (.plugin (p.plugin Slot.whole) a.body) a =
      Deployable.contentHash t (.plugin (p.plugin Slot.whole) a.body) b ∧
    stack ≠ stack' ∧
    Deployable.contentHash t (.stack "app") stack = Deployable.contentHash t (.stack "app") stack' ∧
    ((stack.text = stack'.text ∧ stack.parameters = stack'.parameters) ∨
      Collision (utf8 stack.digestInput) (utf8 stack'.digestInput)) ∧
    (("ab" = "ab" ∧ "c.md" = "c.md") ∨
      Collision (utf8 "ab" ++ utf8 "c.md") (utf8 "ab" ++ utf8 "c.md")) := by
  intro t p stack stack' a b
  have hne : stack ≠ stack' := by simp [stack, stack']
  -- the digest reads the body and the parameters, not the imports
  have hstack : Deployable.contentHash t (.stack "app") stack =
      Deployable.contentHash t (.stack "app") stack' := rfl
  have hcan : stack.body.Canonical := by
    simp [stack, Value.Canonical, CanonicalFields, Ascending]
  have hc : CopyFile.config a.body = .ok ⟨"x", "c.md"⟩ :=
    CopyFile.config_plain "x" "c.md" (by decide) (by decide) (by decide) (by decide)
  have hd : CopyFile.config b.body = .ok ⟨"y", "c.md"⟩ :=
    CopyFile.config_plain "y" "c.md" (by decide) (by decide) (by decide) (by decide)
  have hs : (Slot.whole.get t).fileText (p.localFile ⟨"x", "c.md"⟩) = .ok "ab" := by
    rw [CopyFile.localFile_here]; exact (fileText_x_y "ab" "ab").1
  have hs' : (Slot.whole.get t).fileText (p.localFile ⟨"y", "c.md"⟩) = .ok "ab" := by
    rw [CopyFile.localFile_here]; exact (fileText_x_y "ab" "ab").2
  have hhash : Deployable.contentHash t (.plugin (p.plugin Slot.whole) a.body) a =
      Deployable.contentHash t (.plugin (p.plugin Slot.whole) a.body) b := by
    simp only [Deployable.contentHash, CopyFile.plugin, CopyFile.contentHash_of_read hc hs,
      CopyFile.contentHash_of_read hd hs']
  exact ⟨hhash, hne, hstack,
    (content_hash_covers_deployment t).1 "app" stack stack' hcan hcan hstack,
    (content_hash_covers_deployment t).2 p Slot.whole a.body a b _ _ "ab" "ab" hc hd hs hs'
      hhash rfl⟩

/-- The copy-file hash does not mark where the text ends and the path begins: `ab` copied to
`c.md` and `abc` copied to `.md` get one content hash. -/
theorem copy_hash_joins_text_and_path :
    let t : FileTree := { files := [(["x"], "ab"), (["y"], "abc")] }
    let p : CopyFile := ⟨"", "deployments"⟩
    let v : Value := .obj [("local_path", .str "x"), ("remote_path", .str "c.md")]
    let v' : Value := .obj [("local_path", .str "y"), ("remote_path", .str ".md")]
    CopyFile.config v = .ok ⟨"x", "c.md"⟩ ∧ CopyFile.config v' = .ok ⟨"y", ".md"⟩ ∧
      t.fileText "x" = .ok "ab" ∧ t.fileText "y" = .ok "abc" ∧
      p.contentHash v t = p.contentHash v' t := by
  intro t p v v'
  have hc : CopyFile.config v = .ok ⟨"x", "c.md"⟩ :=
    CopyFile.config_plain "x" "c.md" (by decide) (by decide) (by decide) (by decide)
  have hc' : CopyFile.config v' = .ok ⟨"y", ".md"⟩ :=
    CopyFile.config_plain "y" ".md" (by decide) (by decide) (by decide) (by decide)
  obtain ⟨hx, hy⟩ := fileText_x_y "ab" "abc"
  have hs : t.fileText (p.localFile ⟨"x", "c.md"⟩) = .ok "ab" := by
    rw [CopyFile.localFile_here]; exact hx
  have hs' : t.fileText (p.localFile ⟨"y", ".md"⟩) = .ok "abc" := by
    rw [CopyFile.localFile_here]; exact hy
  refine ⟨hc, hc', hx, hy, ?_⟩
  -- both hash the bytes of `abc.md`
  rw [CopyFile.contentHash_of_read hc hs, CopyFile.contentHash_of_read hc' hs', ← utf8_append,
    ← utf8_append]
  rfl

end OrgDeploy
