import Mathlib
import OrgDeploy.Fs.Tree

/-!
# Path segments and where paths lead

A path text is split at every `/` and its empty pieces are dropped (`FileTree.segments`). The
split is read back as the split of the path's characters (`splitOn_slash`), so that joining a
relative path onto a base joins their segments (`segments_joinPath`). Following segments through
a tree:

* a walk over two lists of segments goes through the first to a location and from there through
  the second (`walk_append`);
* a walk over segments with no `..` only appends the names it passes, `.` left out
  (`walk_of_no_parent`);
* hence a relative path with no `..`, joined onto a base, leads below wherever the base leads
  (`locate_joinPath`), and one plain name leads exactly one level below (`locate_joinPath_name`).

A plain name (`PlainName`) is a component that names one entry: non-empty, without a separator,
and neither `.` nor `..`.
-/

namespace OrgDeploy.Fs

open String

/-! ## Splitting at the separator -/

/-- Splitting at `/` from a character boundary: the pieces of the rest, the first one extended
by the characters `m` passed since the last separator. -/
theorem splitOnAux_slash (l m r : List Char) (acc : List String) :
    splitOnAux (ofList (l ++ m ++ r)) "/" ⟨utf8Len l⟩ ⟨utf8Len l + utf8Len m⟩ 0 acc =
      acc.reverse ++ (List.splitOnPPrepend (· == '/') r m.reverse).map ofList := by
  -- the position walks over `r` one character at a time; a `/` closes the piece `m`
  induction r generalizing l m acc with
  | nil =>
    rw [String.splitOnAux]
    simp only [List.append_nil, atEnd_iff, rawEndPos_ofList, utf8Len_append, Pos.Raw.mk_le_mk,
      le_refl, if_true]
    simpa using extract_of_valid l m []
  | cons c r ih =>
    rw [String.splitOnAux]
    have hend : ¬ Pos.Raw.atEnd (ofList (l ++ m ++ c :: r)) ⟨utf8Len l + utf8Len m⟩ := by
      rw [← utf8Len_append, atEnd_of_valid]; simp
    have hget := get_of_valid (l ++ m) (c :: r)
    have hnext := next_of_valid (l ++ m) c r
    rw [utf8Len_append] at hget hnext
    have hsep : Pos.Raw.get "/" 0 = '/' := rfl
    have hsep' : Pos.Raw.next "/" 0 = ⟨1⟩ := rfl
    have hsepEnd : Pos.Raw.atEnd "/" ⟨1⟩ = true := rfl
    rw [if_neg hend, hget, hsep, hnext, hsep']
    dsimp only
    simp only [hsepEnd, List.headD_cons, if_true]
    by_cases hc : c = '/'
    · -- the separator closes the piece `m` and starts an empty one
      subst hc
      have hback : Pos.Raw.unoffsetBy ⟨utf8Len l + utf8Len m + '/'.utf8Size⟩ ⟨1⟩ =
          ⟨utf8Len l + utf8Len m⟩ := rfl
      rw [hback, if_pos (beq_self_eq_true '/'), extract_of_valid l m ('/' :: r)]
      simp only [List.splitOnPPrepend_cons_eq_if, beq_self_eq_true, if_true, List.reverse_reverse]
      simpa [Nat.add_assoc] using ih (l ++ m ++ ['/']) [] (ofList m :: acc)
    · -- any other character extends the piece
      have hne : (c == '/') = false := beq_false_of_ne hc
      have hstay : Pos.Raw.unoffsetBy ⟨utf8Len l + utf8Len m⟩ 0 = ⟨utf8Len l + utf8Len m⟩ := rfl
      rw [if_neg (by simp [hne]), hstay, hnext]
      simp only [List.splitOnPPrepend_cons_eq_if, hne, Bool.false_eq_true, if_false]
      simpa [Nat.add_assoc] using ih l (m ++ [c]) acc

/-- Splitting a text at `/` splits its characters. -/
theorem splitOn_slash (s : String) : s.splitOn "/" = (s.toList.splitOn '/').map ofList := by
  have h := splitOnAux_slash [] [] s.toList []
  rw [List.nil_append, List.nil_append, ofList_toList] at h
  rw [String.splitOn, if_neg (by decide)]
  simpa [List.splitOn_eq_splitOnP] using h

/-- A name without separators splits into itself. -/
theorem splitOn_slash_of_name {s : String} (h : '/' ∉ s.toList) : s.splitOn "/" = [s] := by
  rw [splitOn_slash, List.splitOn_eq_singleton h]
  simp

@[simp] theorem toList_slash : "/".toList = ['/'] := rfl

/-- A path is absolute when its first character is the separator. -/
theorem isAbsolute_iff {p : String} : isAbsolute p = true ↔ ∃ cs, p.toList = '/' :: cs := by
  simp only [isAbsolute, String.startsWith_string_iff, toList_slash]
  constructor
  · rintro ⟨cs, hcs⟩; exact ⟨cs, hcs.symm⟩
  · rintro ⟨cs, hcs⟩; exact ⟨cs, hcs.symm⟩

/-- A text that ends in `/` is a text followed by `/`. -/
theorem exists_eq_append_slash {s : String} (h : s.endsWith "/" = true) : ∃ b, s = b ++ "/" := by
  rw [String.endsWith_eq_endsWith_toSlice, String.Slice.endsWith_string_iff] at h
  obtain ⟨cs, hcs⟩ := h
  refine ⟨ofList cs, ?_⟩
  rw [← String.toList_inj, String.toList_append, String.toList_ofList]
  simpa using hcs.symm

/-! ## Segments -/

namespace FileTree

theorem segments_eq (p : String) :
    segments p = ((p.toList.splitOn '/').map ofList).filter fun s => !s.isEmpty := by
  rw [segments, splitOn_slash]

@[simp] theorem segments_empty : segments "" = [] := by
  rw [segments_eq]; rfl

/-- A separator between two texts separates their segments. -/
theorem segments_append_slash (a b : String) :
    segments (a ++ "/" ++ b) = segments a ++ segments b := by
  simp only [segments_eq, String.toList_append, toList_slash, List.append_assoc,
    List.singleton_append]
  rw [List.splitOn_append_cons_of_beq _ _ (beq_self_eq_true '/'), List.map_append,
    List.filter_append]

/-- A name without separators is its own one segment. -/
theorem segments_of_name {s : String} (hne : s ≠ "") (hsep : '/' ∉ s.toList) :
    segments s = [s] := by
  rw [segments, splitOn_slash_of_name hsep]
  simp [hne]

end FileTree

open FileTree

/-! ## Joining paths -/

/-- Joining a relative path appends to the base's text. -/
theorem joinPath_eq_append (base : String) {p : String} (hp : isAbsolute p = false) :
    ∃ x, joinPath base p = base ++ x := by
  unfold joinPath
  rw [if_neg (by simp [hp])]
  split
  · exact ⟨p, rfl⟩
  · exact ⟨"/" ++ p, by rw [String.append_assoc]⟩

/-- Joining a relative path keeps whether the base is absolute. -/
theorem isAbsolute_joinPath (base : String) {p : String} (hp : isAbsolute p = false) :
    isAbsolute (joinPath base p) = isAbsolute base := by
  by_cases hb : base = ""
  · subst hb
    have hempty : isAbsolute "" = false := by decide
    simpa [joinPath, hempty] using hp
  · -- a non-empty base keeps its first character
    obtain ⟨x, hx⟩ := joinPath_eq_append base hp
    obtain ⟨c, cs, hcs⟩ := List.exists_cons_of_ne_nil (by simpa using hb : base.toList ≠ [])
    rw [hx, Bool.eq_iff_iff, isAbsolute_iff, isAbsolute_iff, String.toList_append, hcs]
    simp

/-- Joining a relative path joins the segments. -/
theorem segments_joinPath (base : String) {p : String} (hp : isAbsolute p = false) :
    segments (joinPath base p) = segments base ++ segments p := by
  unfold joinPath
  rw [if_neg (by simp [hp])]
  split
  · rename_i h
    rcases Bool.or_eq_true_iff.mp h with hempty | hslash
    · obtain rfl : base = "" := String.isEmpty_iff.mp hempty
      simp
    · -- a base ending in `/` already has its separator
      obtain ⟨b, rfl⟩ := exists_eq_append_slash hslash
      have hb : segments (b ++ "/") = segments b := by
        simpa using segments_append_slash b ""
      rw [segments_append_slash, hb]
  · exact segments_append_slash base p

/-! ## Following segments -/

namespace FileTree

variable (t : FileTree)

/-- A step that is not `..` appends the name, unless it is `.`. -/
theorem step_of_ne_parent (loc : Location) {seg : String} (h : seg ≠ "..") :
    step loc seg = loc ++ [seg].filter (· != ".") := by
  by_cases hdot : seg = "."
  · simp [step, hdot]
  · simp [step, hdot, h]

theorem walk_single {loc : Location} {seg : String} (h : ¬ seg.utf8ByteSize > 255) :
    t.walk loc [seg] = .ok (step loc seg) := by
  rw [walk.eq_2, if_neg h]; rfl

/-- A walk over more than one segment went through a directory at the first step. -/
theorem walk_cons_eq_ok {loc r : Location} {seg : String} {rest : List String} (hrest : rest ≠ [])
    (h : t.walk loc (seg :: rest) = .ok r) :
    ¬ seg.utf8ByteSize > 255 ∧ t.entry? (step loc seg) = some .dir ∧
      t.walk (step loc seg) rest = .ok r := by
  rw [walk.eq_3 _ _ _ _ hrest] at h
  split at h
  · cases h
  · rename_i hshort
    dsimp only at h
    cases hnext : t.entry? (step loc seg) with
    | none => rw [hnext] at h; cases h
    | some e =>
      cases e with
      | file text => rw [hnext] at h; cases h
      | dir => rw [hnext] at h; exact ⟨hshort, rfl, h⟩

theorem walk_cons_of_dir {loc : Location} {seg : String} {rest : List String} (hrest : rest ≠ [])
    (hshort : ¬ seg.utf8ByteSize > 255) (hdir : t.entry? (step loc seg) = some .dir) :
    t.walk loc (seg :: rest) = t.walk (step loc seg) rest := by
  rw [walk.eq_3 _ _ _ _ hrest, if_neg hshort]
  dsimp only
  rw [hdir]

/-- A walk over two lists of segments passes through the end of the first. -/
theorem walk_append {start r : Location} {xs ys : List String}
    (h : t.walk start (xs ++ ys) = .ok r) :
    ∃ m, t.walk start xs = .ok m ∧ t.walk m ys = .ok r := by
  induction xs generalizing start with
  | nil => exact ⟨start, rfl, h⟩
  | cons x xs ih =>
    by_cases hrest : xs ++ ys = []
    · -- the first list is one segment and the second is empty
      obtain ⟨rfl, rfl⟩ := List.append_eq_nil_iff.mp hrest
      exact ⟨r, h, rfl⟩
    · obtain ⟨hshort, hdir, hwalk⟩ := walk_cons_eq_ok t hrest h
      obtain ⟨m, hm, hmr⟩ := ih hwalk
      refine ⟨m, ?_, hmr⟩
      cases xs with
      | nil =>
        cases hm
        exact walk_single t hshort
      | cons x' xs' => rw [walk_cons_of_dir t (List.cons_ne_nil _ _) hshort hdir, hm]

/-- A walk over segments without `..` appends the names it passes, `.` left out. -/
theorem walk_of_no_parent {start r : Location} {segs : List String}
    (h : t.walk start segs = .ok r) (hsegs : ∀ s ∈ segs, s ≠ "..") :
    r = start ++ segs.filter (· != ".") := by
  induction segs generalizing start with
  | nil => cases h; simp
  | cons seg rest ih =>
    have hseg : seg ≠ ".." := hsegs seg List.mem_cons_self
    by_cases hrest : rest = []
    · subst hrest
      rw [walk.eq_2] at h
      split at h
      · cases h
      · cases h
        exact step_of_ne_parent start hseg
    · obtain ⟨-, -, hwalk⟩ := walk_cons_eq_ok t hrest h
      rw [ih hwalk (fun s hs => hsegs s (List.mem_cons_of_mem _ hs)), step_of_ne_parent start hseg]
      simp only [List.filter_cons, List.filter_nil]
      split <;> simp

/-- A relative path without `..`, joined onto a base, leads below wherever the base leads: to
its names, `.` left out. -/
theorem locate_joinPath {base p : String} {loc : Location} (hp : isAbsolute p = false)
    (hpar : ∀ s ∈ segments p, s ≠ "..") (h : t.locate (joinPath base p) = .ok loc) :
    ∃ baseLoc, t.locate base = .ok baseLoc ∧
      loc = baseLoc ++ (segments p).filter (· != ".") := by
  unfold locate at h ⊢
  rw [segments_joinPath base hp, isAbsolute_joinPath base hp] at h
  split at h
  · cases h
  · rename_i hlong
    -- the base is no longer than the joined path
    have hshort : ¬ base.utf8ByteSize > pathLimit := by
      obtain ⟨x, hx⟩ := joinPath_eq_append base hp
      rw [hx, String.utf8ByteSize_append] at hlong
      omega
    obtain ⟨m, hm, hrest⟩ := walk_append t h
    exact ⟨m, by rw [if_neg hshort]; exact hm, t.walk_of_no_parent hrest hpar⟩

end FileTree

/-! ## Plain names -/

/-- A path component that names one entry: non-empty, without a separator, and neither `.`
nor `..`. -/
def PlainName (s : String) : Prop := s ≠ "" ∧ '/' ∉ s.toList ∧ s ≠ "." ∧ s ≠ ".."

instance : DecidablePred PlainName := fun s =>
  inferInstanceAs (Decidable (s ≠ "" ∧ '/' ∉ s.toList ∧ s ≠ "." ∧ s ≠ ".."))

namespace PlainName

variable {s : String} (h : PlainName s)
include h

theorem segments_eq : segments s = [s] := segments_of_name h.1 h.2.1

theorem isAbsolute_eq : isAbsolute s = false := by
  rw [Bool.eq_false_iff]
  intro habs
  obtain ⟨cs, hcs⟩ := isAbsolute_iff.mp habs
  exact h.2.1 (by simp [hcs])

end PlainName

/-- One plain name joined onto a base leads one level below wherever the base leads. -/
theorem FileTree.locate_joinPath_name (t : FileTree) {base n : String} {loc : Location}
    (hn : PlainName n) (h : t.locate (joinPath base n) = .ok loc) :
    ∃ baseLoc, t.locate base = .ok baseLoc ∧ loc = baseLoc ++ [n] := by
  have hpar : ∀ s ∈ segments n, s ≠ ".." := by
    rw [hn.segments_eq]; simpa using hn.2.2.2
  obtain ⟨baseLoc, hbase, rfl⟩ := t.locate_joinPath hn.isAbsolute_eq hpar h
  refine ⟨baseLoc, hbase, ?_⟩
  rw [hn.segments_eq]
  simp [hn.2.2.1]

/-- A unit name without separators, with `.json` after it, is a plain name. -/
theorem plainName_json {stack : String} (h : '/' ∉ stack.toList) : PlainName (stack ++ ".json") := by
  have hjson : ".json".toList = ['.', 'j', 's', 'o', 'n'] := rfl
  have hlen : (stack ++ ".json").length = stack.length + 5 := by
    rw [String.length_append]; rfl
  -- it is at least five characters long, and `.json` brings no separator
  have hempty : "".length = 0 := by decide
  have hdot : ".".length = 1 := by decide
  have hdots : "..".length = 2 := by decide
  refine ⟨?_, ?_, ?_, ?_⟩
  · intro he; rw [he, hempty] at hlen; omega
  · simp [String.toList_append, hjson, h]
  · intro he; rw [he, hdot] at hlen; omega
  · intro he; rw [he, hdots] at hlen; omega

end OrgDeploy.Fs
