import Mathlib.Data.List.Nodup
import Shellbox.Filesystem.Search
import Shellbox.Proofs.Filesystem.Finding

/-!
# What is found by content

A search by content looks at a file itself, at the files right in a directory or at all files below
it. It finds just the pieces of these files in which the pattern occurs: the files come in the order
of the walk, and the matches of a file stand together in the order of their numbers.
-/

namespace Shellbox.Filesystem

open Text

variable {fs : Filesystem} {path : Option String} {q text pattern : String} {p : Regex}
  {m x y : LineMatch} {hits : List LineMatch} {found files : List (String × Node)}
  {paths : List String}

/-! ## Matches of one file -/

theorem mem_matchingLines : m ∈ matchingLines p q text ↔
    m.path = q ∧ 1 ≤ m.number ∧ ∃ line, (pieces '\n' text)[m.number - 1]? = some line ∧
      p.occursIn line ∧ m.text = trim line := by
  rw [matchingLines, List.mem_map]
  constructor
  · rintro ⟨x, hx, rfl⟩
    obtain ⟨hmem, hoccurs⟩ := List.mem_filter.mp hx
    obtain ⟨hnumber, hline⟩ := List.mem_zipIdx_iff_le_and_getElem?_sub.mp hmem
    exact ⟨rfl, hnumber, x.1, hline, hoccurs, rfl⟩
  · rintro ⟨hpath, hnumber, line, hline, hoccurs, htext⟩
    refine ⟨(line, m.number), List.mem_filter.mpr ⟨?_, hoccurs⟩, ?_⟩
    · exact List.mem_zipIdx_iff_le_and_getElem?_sub.mpr ⟨hnumber, hline⟩
    · rw [← hpath, ← htext]

theorem numbers_increase (p : Regex) (q text : String) :
    (matchingLines p q text).Pairwise fun x y => x.number < y.number := by
  have hnumbers (ls : List String) (n : Nat) :
      (ls.zipIdx n).Pairwise fun x y => x.2 < y.2 := by
    induction ls generalizing n with
    | nil => exact .nil
    | cons l ls ih =>
        exact .cons (fun x hx => List.le_snd_of_mem_zipIdx hx) (ih (n + 1))
  rw [matchingLines, List.pairwise_map]
  exact (hnumbers _ 1).filter _

/-! ## The files that are looked at -/

/-- In the scope of a search is the file at its path, or a file below the directory there; if the
search does not recurse, only one right in the directory. -/
structure InScope (fs : Filesystem) (path : Option String) (recursive : Bool) (q : String) :
    Prop where
  isFile : fs.isFile (some q)
  place : q = fs.resolve path ∨ Path.IsBelow (fs.resolve path) q ∧
    (recursive ∨ Path.IsChild (fs.resolve path) q)

/-- The paths that a search passes: all below a directory in the order of the walk, or just that of
a file. -/
def passedPaths (fs : Filesystem) (path : Option String) : List String :=
  match fs.walk path with
  | .ok found => found.map (·.1)
  | .error _ => [fs.resolve path]

theorem passedPaths_walk (hw : fs.walk path = .ok found) :
    fs.passedPaths path = found.map (·.1) := by
  rw [passedPaths, hw]

theorem searchedFiles_walk (hw : fs.walk path = .ok found) :
    fs.searchedFiles path true = .ok (found.filter (·.2.isFile)) := by
  obtain ⟨i, cs, hd, rfl⟩ := walk_eq_ok hw
  simp only [searchedFiles, hd, ↓reduceIte, List.filter_map]
  rfl

/-- Without recursion the files are those in the walk whose paths go on by one name. -/
theorem WellFormed.searchedFiles_children (h : fs.WellFormed) (hw : fs.walk path = .ok found) :
    fs.searchedFiles path false = .ok ((found.filter (·.2.isFile)).filter
      fun x => Path.IsChild (fs.resolve path) x.1) := by
  obtain ⟨i, cs, hd, rfl⟩ := walk_eq_ok hw
  have hnames : ∀ p ∈ cs,
      (Path.render (fs.names path ++ [p.1]), p.2) =
        (Path.join (fs.resolve path) p.2.name, p.2) := by
    intro p hp
    have hkey : p.1 = p.2.name := (Node.wellFormed_dir.mp (h.tree.get? hd)).1.keyed p hp
    rw [Path.render_concat (h.names_isName path), names,
      Path.render_segments (h.resolve_isNormal path), hkey]
  have hchildren : (((Node.dir i cs).descendants (fs.names path)).map
      fun x => (Path.render x.1, x.2)).filter (fun x => Path.IsChild (fs.resolve path) x.1) =
        cs.map fun p => (Path.join (fs.resolve path) p.2.name, p.2) := by
    rw [List.filter_map]
    refine (congrArg _ (h.filter_isChild hd)).trans ?_
    rw [List.map_map]
    exact List.map_congr_left hnames
  simp only [searchedFiles, hd, Bool.false_eq_true, ↓reduceIte]
  rw [List.filter_comm, hchildren, List.filter_map]
  rfl

theorem read_of_isFile {n : Node} (hn : fs.node? path = some n) (hfile : n.isFile) :
    fs.read path = .ok n.text := by
  cases n with
  | dir i cs => cases hfile
  | file i text => rw [read, hn, Node.text]

/-- The files that are walked to are read by their paths. -/
theorem read_of_mem_walk (h : fs.WellFormed) (hw : fs.walk path = .ok found) :
    ∀ x ∈ found.filter (·.2.isFile), fs.read (some x.1) = .ok x.2.text := by
  intro x hx
  obtain ⟨hmem, hfile⟩ := List.mem_filter.mp hx
  exact read_of_isFile ((h.mem_walk hw).mp hmem).2 hfile

theorem WellFormed.node?_resolve (h : fs.WellFormed) (path : Option String) :
    fs.node? (some (fs.resolve path)) = fs.node? path :=
  congrArg fs.root.get? (h.names_resolve path)

/-- Nothing is below a file. -/
theorem not_below_file {i : Info} (hn : fs.node? path = some (.file i text))
    (hq : Path.IsBelow (fs.resolve path) q) : fs.node? (some q) = none := by
  obtain ⟨hnormal, rest, hne, hseg⟩ := hq
  obtain ⟨s, r, rfl⟩ := List.exists_cons_of_ne_nil hne
  have hfile : fs.root.get? (Path.segments (fs.resolve path)) = some (.file i text) := hn
  rw [node?_of_isNormal fs hnormal, hseg, Node.get?_append, hfile, Option.bind_some, Node.get?]

/-- What a search has to know of the files that it looks at: their texts, that they are those in its
scope, and that they come in the order of the walk. -/
structure Scoped (fs : Filesystem) (path : Option String) (recursive : Bool)
    (files : List (String × Node)) : Prop where
  read : ∀ x ∈ files, fs.read (some x.1) = .ok x.2.text
  mem_iff : ∀ q, q ∈ files.map (·.1) ↔ fs.InScope path recursive q
  order : (files.map (·.1)).Sublist (fs.passedPaths path)

theorem WellFormed.scoped_file (h : fs.WellFormed) {i : Info}
    (hn : fs.node? path = some (.file i text)) (recursive : Bool) :
    fs.Scoped path recursive [(fs.resolve path, .file i text)] := by
  have hself : fs.node? (some (fs.resolve path)) = some (.file i text) :=
    (h.node?_resolve path).trans hn
  have hwalk : fs.walk path = .error ⟨path, .notDirectory⟩ := by simp only [walk, hn]
  refine ⟨?_, fun q => ⟨?_, ?_⟩, ?_⟩
  · rw [List.forall_mem_singleton]
    exact read_of_isFile hself rfl
  · intro hq
    obtain rfl := List.mem_singleton.mp hq
    exact ⟨by rw [isFile, hself]; rfl, .inl rfl⟩
  · rintro ⟨hfile, rfl | ⟨hbelow, -⟩⟩
    · exact List.mem_singleton_self _
    · rw [isFile, not_below_file hn hbelow] at hfile
      cases hfile
  · rw [passedPaths, hwalk]
    exact List.Sublist.refl _

theorem WellFormed.mem_walked_files (h : fs.WellFormed) (hw : fs.walk path = .ok found) :
    q ∈ (found.filter (·.2.isFile)).map (·.1) ↔
      Path.IsBelow (fs.resolve path) q ∧ fs.isFile (some q) := by
  rw [isFile, List.mem_map]
  constructor
  · rintro ⟨⟨q, n⟩, hx, rfl⟩
    obtain ⟨hmem, hfile⟩ := List.mem_filter.mp hx
    obtain ⟨hbelow, hnode⟩ := (h.mem_walk hw).mp hmem
    exact ⟨hbelow, by rw [hnode]; exact hfile⟩
  · rintro ⟨hbelow, hfile⟩
    obtain ⟨n, hnode, hkind⟩ := (Option.any_eq_true _ _).mp hfile
    exact ⟨(q, n), List.mem_filter.mpr ⟨(h.mem_walk hw).mpr ⟨hbelow, hnode⟩, hkind⟩, rfl⟩

/-- The directory at the path of a walk is no file in scope. -/
theorem WellFormed.inScope_walk (h : fs.WellFormed) (hw : fs.walk path = .ok found)
    (recursive : Bool) :
    fs.InScope path recursive q ↔ (Path.IsBelow (fs.resolve path) q ∧ fs.isFile (some q)) ∧
      (recursive ∨ Path.IsChild (fs.resolve path) q) := by
  constructor
  · rintro ⟨hfile, rfl | ⟨hbelow, hdepth⟩⟩
    · obtain ⟨i, cs, hd, -⟩ := walk_eq_ok hw
      rw [isFile, h.node?_resolve, hd] at hfile
      cases hfile
    · exact ⟨⟨hbelow, hfile⟩, hdepth⟩
  · rintro ⟨⟨hbelow, hfile⟩, hdepth⟩
    exact ⟨hfile, .inr ⟨hbelow, hdepth⟩⟩

theorem WellFormed.scoped_walk (h : fs.WellFormed) (hw : fs.walk path = .ok found)
    (recursive : Bool) :
    fs.Scoped path recursive ((found.filter (·.2.isFile)).filter
      fun x => recursive || Path.IsChild (fs.resolve path) x.1) := by
  refine ⟨fun x hx => read_of_mem_walk h hw x (List.mem_of_mem_filter hx), fun q => ?_, ?_⟩
  · rw [h.inScope_walk hw, ← h.mem_walked_files hw, List.mem_map, List.mem_map]
    constructor
    · rintro ⟨x, hx, rfl⟩
      obtain ⟨hmem, hdepth⟩ := List.mem_filter.mp hx
      exact ⟨⟨x, hmem, rfl⟩, by simpa using hdepth⟩
    · rintro ⟨⟨x, hmem, rfl⟩, hdepth⟩
      exact ⟨x, List.mem_filter.mpr ⟨hmem, by simpa using hdepth⟩, rfl⟩
  · rw [passedPaths_walk hw]
    exact (List.filter_sublist.trans List.filter_sublist).map _

theorem WellFormed.searchedFiles_walk_eq (h : fs.WellFormed) (hw : fs.walk path = .ok found)
    (recursive : Bool) :
    fs.searchedFiles path recursive = .ok ((found.filter (·.2.isFile)).filter
      fun x => recursive || Path.IsChild (fs.resolve path) x.1) := by
  cases recursive with
  | false => simpa using h.searchedFiles_children hw
  | true => simpa using searchedFiles_walk hw

/-- Where there is a node, the files that are looked at are those in scope. -/
theorem WellFormed.searchedFiles_scoped (h : fs.WellFormed) (hn : fs.node? path ≠ none)
    (recursive : Bool) :
    ∃ files, fs.searchedFiles path recursive = .ok files ∧ fs.Scoped path recursive files := by
  obtain ⟨n, hnode⟩ := Option.ne_none_iff_exists'.mp hn
  cases n with
  | file i text => exact ⟨_, by simp only [searchedFiles, hnode], h.scoped_file hnode recursive⟩
  | dir i cs =>
      have hw := walk_dir hnode
      exact ⟨_, h.searchedFiles_walk_eq hw recursive, h.scoped_walk hw recursive⟩

/-! ## The order of the matches -/

/-- A match comes before another: its file is passed before that of the other, or they are in one
file and its number is smaller. -/
def LineMatch.Before (paths : List String) (x y : LineMatch) : Prop :=
  paths.idxOf x.path < paths.idxOf y.path ∨ x.path = y.path ∧ x.number < y.number

/-- In a list without repetitions places increase. -/
theorem idxOf_increases (h : paths.Nodup) :
    paths.Pairwise fun a b => paths.idxOf a < paths.idxOf b := by
  refine List.pairwise_iff_getElem.mpr fun i j hi hj hij => ?_
  rwa [h.idxOf_getElem, h.idxOf_getElem]

theorem WellFormed.nodup_passedPaths (h : fs.WellFormed) (path : Option String) :
    (fs.passedPaths path).Nodup := by
  unfold passedPaths
  split
  · rename_i found hw
    exact h.nodup_walk hw
  · exact List.nodup_singleton _

/-- Matches of files in their order are in order. -/
theorem before_of_sublist (h : paths.Nodup) (hfiles : (files.map (·.1)).Sublist paths)
    (p : Regex) :
    (files.flatMap fun x => matchingLines p x.1 x.2.text).Pairwise (LineMatch.Before paths) := by
  rw [List.pairwise_flatMap]
  constructor
  · intro x _
    refine (numbers_increase p x.1 x.2.text).imp_of_mem fun {m m'} hm hm' hlt => .inr ⟨?_, hlt⟩
    rw [(mem_matchingLines.mp hm).1, (mem_matchingLines.mp hm').1]
  · have hplaces := (idxOf_increases h).sublist hfiles
    rw [List.pairwise_map] at hplaces
    refine hplaces.imp fun hlt m hm m' hm' => .inl ?_
    rwa [(mem_matchingLines.mp hm).1, (mem_matchingLines.mp hm').1]

/-- Between two matches in one file there are only matches in this file. -/
theorem contiguous_of_before {between : List LineMatch}
    (h : hits.Pairwise (LineMatch.Before paths))
    (hpart : (x :: between ++ [y]) <:+: hits) (hsame : x.path = y.path) :
    ∀ z ∈ between, z.path = x.path := by
  intro z hz
  have hsorted := h.sublist hpart.sublist
  rw [List.cons_append, List.pairwise_cons, List.pairwise_append] at hsorted
  obtain ⟨hfirst, -, -, hlast⟩ := hsorted
  have hxz := hfirst z (List.mem_append_left _ hz)
  have hzy := hlast z hz y (List.mem_singleton_self y)
  rcases hxz with hxz | ⟨heq, -⟩
  · rcases hzy with hzy | ⟨heq, -⟩
    · rw [← hsame] at hzy
      exact absurd (Nat.lt_trans hxz hzy) (Nat.lt_irrefl _)
    · rw [heq, hsame]
  · exact heq.symm

/-! ## The whole search -/

/-- A match that a search is to find: a piece, numbered from one, of a file in scope, in which the
pattern occurs, shown without the blanks around it. -/
structure Finds (fs : Filesystem) (p : Regex) (path : Option String) (recursive : Bool)
    (m : LineMatch) : Prop where
  inScope : fs.InScope path recursive m.path
  number_pos : 1 ≤ m.number
  line : ∃ text line, fs.read (some m.path) = .ok text ∧
    (pieces '\n' text)[m.number - 1]? = some line ∧ p.occursIn line ∧ m.text = trim line

theorem Scoped.mem_iff_finds {recursive : Bool} (h : fs.Scoped path recursive files) (p : Regex)
    (m : LineMatch) :
    m ∈ files.flatMap (fun x => matchingLines p x.1 x.2.text) ↔ fs.Finds p path recursive m := by
  rw [List.mem_flatMap]
  constructor
  · rintro ⟨x, hx, hm⟩
    obtain ⟨hpath, hnumber, line, hline, hoccurs, htext⟩ := mem_matchingLines.mp hm
    have hscope := (h.mem_iff m.path).mp (hpath ▸ List.mem_map_of_mem hx)
    exact ⟨hscope, hnumber, x.2.text, line, hpath ▸ h.read x hx, hline, hoccurs, htext⟩
  · rintro ⟨hscope, hnumber, text, line, hread, hline, hoccurs, htext⟩
    obtain ⟨x, hx, hpath⟩ := List.mem_map.mp ((h.mem_iff m.path).mpr hscope)
    have hfile : x.2.text = text := by
      rw [← hpath, h.read x hx] at hread
      exact Except.ok.inj hread
    exact ⟨x, hx, mem_matchingLines.mpr
      ⟨hpath.symm, hnumber, line, hfile ▸ hline, hoccurs, htext⟩⟩

theorem search_of_searchedFiles {recursive ignoreCase : Bool}
    (hp : Pattern.compile pattern ignoreCase = .ok p)
    (hfiles : fs.searchedFiles path recursive = .ok files) :
    fs.search pattern path recursive ignoreCase =
      .ok (files.flatMap fun x => matchingLines p x.1 x.2.text) := by
  simp only [search, hp, hfiles]

/-- To keep matches by their paths is to look only at the files with such paths. -/
theorem filter_matches (p : Regex) (keep : String → Bool) (files : List (String × Node)) :
    (files.flatMap fun x => matchingLines p x.1 x.2.text).filter (keep ·.path) =
      (files.filter (keep ·.1)).flatMap fun x => matchingLines p x.1 x.2.text := by
  induction files with
  | nil => rfl
  | cons x files ih =>
      have hpath : ∀ m ∈ matchingLines p x.1 x.2.text, keep m.path = keep x.1 := fun m hm => by
        rw [(mem_matchingLines.mp hm).1]
      rw [List.flatMap_cons, List.filter_append, ih, List.filter_congr hpath]
      cases hx : keep x.1 <;> simp [hx]

/-- What the search right in a directory finds is a part of what the recursive search finds. -/
theorem WellFormed.search_children {ignoreCase : Bool} (h : fs.WellFormed)
    (hp : Pattern.compile pattern ignoreCase = .ok p) (hw : fs.walk path = .ok found) :
    ∃ all, fs.search pattern path true ignoreCase = .ok all ∧
      fs.search pattern path false ignoreCase =
        .ok (all.filter fun m => Path.IsChild (fs.resolve path) m.path) := by
  refine ⟨_, search_of_searchedFiles hp (searchedFiles_walk hw), ?_⟩
  rw [search_of_searchedFiles hp (h.searchedFiles_children hw)]
  exact congrArg _ (filter_matches p (fun q => Path.IsChild (fs.resolve path) q) _).symm

/-- A search fails only where nothing is. Else it finds just the pieces of the files in its scope in
which the pattern occurs, each with its file and its number; the files come in the order of the
walk, and the matches of a file stand together with increasing numbers. In a directory the search
without recursion finds just those matches of the recursive one whose files are right in the
directory. -/
theorem Reachable.search_specified (h : fs.Reachable) {ignoreCase : Bool}
    (hp : Pattern.compile pattern ignoreCase = .ok p) (path : Option String) :
    (∀ recursive, fs.node? path = none →
      fs.search pattern path recursive ignoreCase = .error (.path ⟨path, .notFound⟩)) ∧
    (∀ recursive, fs.node? path ≠ none →
      ∃ hits, fs.search pattern path recursive ignoreCase = .ok hits ∧
        (∀ m, m ∈ hits ↔ fs.Finds p path recursive m) ∧
        hits.Pairwise (LineMatch.Before (fs.passedPaths path)) ∧
        ∀ x between y, (x :: between ++ [y]) <:+: hits → x.path = y.path →
          ∀ z ∈ between, z.path = x.path) ∧
    (fs.isDir path → ∃ all, fs.search pattern path true ignoreCase = .ok all ∧
      fs.search pattern path false ignoreCase =
        .ok (all.filter fun m => Path.IsChild (fs.resolve path) m.path)) := by
  have hwf := h.wellFormed
  refine ⟨fun recursive hnone => ?_, fun recursive hn => ?_, fun hdir => ?_⟩
  · simp only [search, hp, searchedFiles, hnone]
  · obtain ⟨files, hfiles, hscoped⟩ := hwf.searchedFiles_scoped hn recursive
    have hsorted := before_of_sublist (hwf.nodup_passedPaths path) hscoped.order p
    exact ⟨_, search_of_searchedFiles hp hfiles, hscoped.mem_iff_finds p, hsorted,
      fun x between y hpart hsame => contiguous_of_before hsorted hpart hsame⟩
  · obtain ⟨found, hw⟩ := exists_walk hdir
    exact hwf.search_children hp hw

theorem search_specified_nested :
    let fs := ((empty 0 "/h").startAt "/h").apply (.populate 1
      [("/a/d/g", some " y\n"), ("/a/f", some "x\n\ty y\ny"), ("/a/z", some "x")])
    fs.Reachable ∧ ∃ p, Pattern.compile "y" false = .ok p ∧
      fs.search "y" (some "/a/d/..") true false =
        .ok [⟨"/a/d/g", 1, "y"⟩, ⟨"/a/f", 2, "y y"⟩, ⟨"/a/f", 3, "y"⟩] ∧
      fs.Finds p (some "/a/d/..") true ⟨"/a/f", 2, "y y"⟩ ∧
      fs.search "y" (some "/a/d/..") false false = .ok [⟨"/a/f", 2, "y y"⟩, ⟨"/a/f", 3, "y"⟩] ∧
      fs.search "y" (some "/a/z/x") true false = .error (.path ⟨some "/a/z/x", .notFound⟩) := by
  intro fs
  have h₀ : Reachable ((empty 0 "/h").startAt "/h") := @Reachable.create 0 "/h" [] none _ rfl
  have h : fs.Reachable := h₀.change (.populate 1
    [("/a/d/g", some " y\n"), ("/a/f", some "x\n\ty y\ny"), ("/a/z", some "x")])
  have hdir : fs.isDir (some "/a/d/..") := by decide +kernel
  have hnothing : (fs.node? (some "/a/z/x")).isNone := by decide +kernel
  have hfound : (fs.search "y" (some "/a/d/..") true false).toOption =
      some [⟨"/a/d/g", 1, "y"⟩, ⟨"/a/f", 2, "y y"⟩, ⟨"/a/f", 3, "y"⟩] := by decide +kernel
  have hchildren : [(⟨"/a/d/g", 1, "y"⟩ : LineMatch), ⟨"/a/f", 2, "y y"⟩, ⟨"/a/f", 3, "y"⟩].filter
      (fun m => Path.IsChild (fs.resolve (some "/a/d/..")) m.path) =
        [⟨"/a/f", 2, "y y"⟩, ⟨"/a/f", 3, "y"⟩] := by decide +kernel
  obtain ⟨p, hp⟩ : ∃ p, Pattern.compile "y" false = .ok p := ⟨_, rfl⟩
  -- What is needed of the tree is known; it is not worked out again.
  clear_value fs
  obtain ⟨-, hall, hparts⟩ := h.search_specified hp (some "/a/d/..")
  obtain ⟨hfails, -⟩ := h.search_specified hp (some "/a/z/x")
  obtain ⟨all, hsearch, hright⟩ := hparts hdir
  obtain ⟨hits, hhits, hiff, -⟩ := hall true fun hnone => by
    rw [isDir, hnone] at hdir
    cases hdir
  obtain rfl : all = hits := Except.ok.inj (hsearch.symm.trans hhits)
  rw [hsearch] at hfound
  obtain rfl := Option.some_inj.mp hfound
  rw [hchildren] at hright
  exact ⟨h, p, hp, hsearch, (hiff _).mp (by simp), hright,
    hfails true (Option.isNone_iff_eq_none.mp hnothing)⟩

end Shellbox.Filesystem
