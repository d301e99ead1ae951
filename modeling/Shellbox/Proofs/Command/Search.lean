import Shellbox.Proofs.Command.Lines
import Shellbox.Proofs.Command.Options
import Shellbox.Proofs.Filesystem.Searching
import Shellbox.Proofs.Shell.Calls

/-!
# Two searches below a directory

The search of a filesystem looks at the pieces of the files in the tree and shows each without the
blanks around it. The recursive search of `grep` reads the files once more by their paths, has no
piece behind a final line break, and shows each line as it stands. Apart from that piece both find
the same lines in the same order.
-/

namespace Shellbox.Command

open Filesystem Text

variable {fs : Filesystem} {path : Option String} {directory pattern q text : String}
  {found files : List (String × Node)} {opts : List String} {p : Regex} {c : LineChoice}

/-! ## One file -/

theorem lines_prefix (text : String) : lines text <+: pieces '\n' text := by
  unfold lines dropLastEmpty
  split
  · exact List.dropLast_prefix _
  · exact List.prefix_rfl

/-- The numbers of list elements are places in the list. -/
theorem getD_of_mem_zipIdx {ls : List String} {x : String × Nat} (h : x ∈ ls.zipIdx 1) :
    1 ≤ x.2 ∧ x.2 ≤ ls.length ∧ ls.getD (x.2 - 1) "" = x.1 := by
  obtain ⟨hle, hget⟩ := List.mem_zipIdx_iff_le_and_getElem?_sub.mp h
  have hlt : x.2 - 1 < ls.length := (List.getElem?_eq_some_iff.mp hget).1
  exact ⟨hle, by omega, by rw [List.getD_eq_getElem?_getD, hget, Option.getD_some]⟩

/-- The lines of the file at a path; there are none if it cannot be read. -/
def fileLines (fs : Filesystem) (path : String) : List String :=
  match fs.read (some path) with
  | .ok text => lines text
  | .error _ => []

theorem fileLines_of_read (h : fs.read (some q) = .ok text) : fileLines fs q = lines text := by
  rw [fileLines, h]

/-- The line that was found is no piece behind a final line break. -/
def IsLine (fs : Filesystem) (m : LineMatch) : Prop := m.number ≤ (fileLines fs m.path).length

instance (fs : Filesystem) (m : LineMatch) : Decidable (IsLine fs m) :=
  inferInstanceAs (Decidable (_ ≤ _))

/-- The line that was found as it stands in its file, with the path and the number before it. -/
def foundRow (fs : Filesystem) (m : LineMatch) : String :=
  m.path ++ ":" ++ toString m.number ++ ":" ++ (fileLines fs m.path).getD (m.number - 1) ""

theorem number_of_mem_matchingLines {m : LineMatch} (h : m ∈ matchingLines p q text) :
    m.path = q ∧ 1 ≤ m.number := by
  obtain ⟨hpath, hnumber, -⟩ := mem_matchingLines.mp h
  exact ⟨hpath, hnumber⟩

/-- What `grep` selects from a file is what the search finds there, but for the piece behind a final
line break. -/
theorem select_eq_matchingLines (hc : c = ⟨p, false, true⟩)
    (hread : fs.read (some q) = .ok text) :
    c.select (q ++ ":") text =
      ((matchingLines p q text).filter (IsLine fs ·)).map (foundRow fs) := by
  obtain ⟨rest, hpieces⟩ := lines_prefix text
  have hlines := fileLines_of_read hread
  let chosen (n : Nat) (ls : List String) := (ls.zipIdx n).filter fun x => p.occursIn x.1
  let asFound (x : String × Nat) : LineMatch := ⟨q, x.2, trim x.1⟩
  have hsplit : matchingLines p q text =
      (chosen 1 (lines text)).map asFound ++ (chosen (1 + (lines text).length) rest).map asFound := by
    rw [matchingLines, ← hpieces, List.zipIdx_append, List.filter_append, List.map_append]
  -- Each numbered line is found where it stands; the pieces behind the lines have greater numbers.
  have hline : ∀ x ∈ chosen 1 (lines text), IsLine fs (asFound x) ∧
      c.shown (q ++ ":") x.1 x.2 = foundRow fs (asFound x) := by
    intro x hx
    obtain ⟨-, hle, hget⟩ := getD_of_mem_zipIdx (List.mem_of_mem_filter hx)
    exact ⟨by rwa [IsLine, hlines], by rw [foundRow, hlines, hget, hc]; rfl⟩
  have hrest : ∀ x ∈ chosen (1 + (lines text).length) rest, ¬ IsLine fs (asFound x) := by
    intro x hx
    have hle := (List.mem_zipIdx_iff_le_and_getElem?_sub.mp (List.mem_of_mem_filter hx)).1
    rw [IsLine, hlines, Nat.not_le]
    exact Nat.lt_of_lt_of_le (by omega) hle
  have hkeep : ((chosen 1 (lines text)).map asFound).filter (IsLine fs ·) =
      (chosen 1 (lines text)).map asFound := by
    rw [List.filter_eq_self, List.forall_mem_map]
    exact fun x hx => decide_eq_true (hline x hx).1
  have hdrop : ((chosen (1 + (lines text).length) rest).map asFound).filter (IsLine fs ·) = [] := by
    rw [List.filter_eq_nil_iff, List.forall_mem_map]
    exact fun x hx => by simpa using hrest x hx
  have hselect : c.select (q ++ ":") text =
      (chosen 1 (lines text)).map fun x => c.shown (q ++ ":") x.1 x.2 := by
    have hchooses : (fun x : String × Nat => c.chooses x.1) = fun x => p.occursIn x.1 := by
      funext x
      rw [LineChoice.chooses, hc]
      exact Bool.bne_false _
    rw [LineChoice.select, hchooses]
  rw [hselect, hsplit, List.filter_append, hkeep, hdrop, List.append_nil, List.map_map]
  exact List.map_congr_left fun x hx => (hline x hx).2

/-! ## All files below a directory -/

theorem grepTargets_walk (hw : fs.walk (some directory) = .ok found) :
    grepTargets fs true directory = (found.filter (·.2.isFile)).map (·.1) := by
  obtain ⟨i, cs, hd, -⟩ := walk_eq_ok hw
  have hdir : fs.isDir (some directory) := by
    rw [isDir, hd]
    rfl
  rw [grepTargets, hdir, hw]
  rfl

/-- Several files that can all be read are shown with their paths in front, one after the other. -/
theorem grepFiles_of_read (hfiles : 2 ≤ files.length)
    (hread : ∀ x ∈ files, fs.read (some x.1) = .ok x.2.text) :
    grepFiles c fs (files.map (·.1)) =
      (files.flatMap fun x => c.select (x.1 ++ ":") x.2.text, []) := by
  have hmany : (files.map (·.1)).length > 1 := by rwa [List.length_map]
  have hall : (files.map (·.1)).map (fun t => (t, fs.read (some t))) =
      files.map fun x => (x.1, .ok x.2.text) := by
    rw [List.map_map]
    exact List.map_congr_left fun x hx => by rw [Function.comp_apply, hread x hx]
  simp only [grepFiles, hall, if_pos hmany]
  rw [Prod.mk.injEq]
  constructor
  · rw [List.flatMap_map]
  · simp

theorem search_walk (hp : Pattern.compile pattern ignoreCase = .ok p)
    (hw : fs.walk path = .ok found) :
    fs.search pattern path true ignoreCase =
      .ok ((found.filter (·.2.isFile)).flatMap fun x => matchingLines p x.1 x.2.text) := by
  simp only [search, hp, searchedFiles_walk hw]

/-- The recursive search of `grep` below a directory with several files. -/
theorem grepWith_walk (hwf : fs.WellFormed) (hw : fs.walk (some directory) = .ok found)
    (htwo : 2 ≤ (found.filter (·.2.isFile)).length) :
    grepWith ⟨p, false, true⟩ true fs [directory] none =
      linesOutcome ((((found.filter (·.2.isFile)).flatMap fun x =>
        matchingLines p x.1 x.2.text).filter (IsLine fs ·)).map (foundRow fs)) := by
  have hread := read_of_mem_walk hwf hw
  have hrows : (found.filter (·.2.isFile)).flatMap (fun x =>
      LineChoice.select ⟨p, false, true⟩ (x.1 ++ ":") x.2.text) =
      (((found.filter (·.2.isFile)).flatMap fun x =>
        matchingLines p x.1 x.2.text).filter (IsLine fs ·)).map (foundRow fs) := by
    rw [List.filter_flatMap, List.map_flatMap, List.flatMap_def, List.flatMap_def]
    congr 1
    exact List.map_congr_left fun x hx => select_eq_matchingLines rfl (hread x hx)
  simp only [grepWith, List.isEmpty_cons, Bool.false_eq_true, ↓reduceIte, List.flatMap_cons,
    List.flatMap_nil, List.append_nil, grepTargets_walk hw, grepFiles_of_read htwo hread, hrows,
    filesOutcome, List.isEmpty_nil]

/-- Given options that ask for a recursive search with numbers, the words of `grep` are read as
such. -/
theorem grep_recursive (hdirectory : IsUndashed directory) (hpattern : IsUndashed pattern)
    (hoperands : (Arguments.ofWords opts).operands = [])
    (hr : (Arguments.ofWords opts).has 'r') (hn : (Arguments.ofWords opts).has 'n')
    (hv : (Arguments.ofWords opts).has 'v' = false)
    (hp : Pattern.compile pattern ((Arguments.ofWords opts).has 'i') = .ok p) (cx : Context)
    (s : Session) :
    grep cx s (opts ++ [pattern, directory]) none =
      (s, .ok (.ready (grepWith ⟨p, false, true⟩ true s.fs [directory] none))) := by
  have hplain : ∀ w ∈ [pattern, directory], IsUndashed w := by simp [hpattern, hdirectory]
  have hwords : Arguments.ofWords (opts ++ [pattern, directory]) =
      ⟨(Arguments.ofWords opts).flags, [pattern, directory]⟩ := by
    rw [Arguments.ofWords_append, hoperands, Arguments.ofWords_undashed hplain]
    simp
  simp only [Arguments.has] at hr hn hv hp
  simp only [grep, Handler.trying, hwords, Arguments.has, hr, hn, hv, hp]
  rfl

/-- Below a directory with several files, the recursive search of `grep` with numbers gives the lines
that the search of the filesystem finds, in the same order and as they stand in their files, with
the path and the number of each in front; pieces behind a final line break are left out. Without
such a line there is no success and no output. -/
theorem grep_eq_search (now : Instant) {s : Session} (hs : s.fs.Reachable) {directory : String}
    {below : List (String × Node)} (hbelow : s.fs.walk (some directory) = .ok below)
    (htwo : 2 ≤ (below.filter (·.2.isFile)).length) (hdirectory : IsUndashed directory)
    {pattern : String} (hpattern : IsUndashed pattern) {opts : List String}
    (hoperands : (Arguments.ofWords opts).operands = [])
    (hr : (Arguments.ofWords opts).has 'r') (hn : (Arguments.ofWords opts).has 'n')
    (hv : (Arguments.ofWords opts).has 'v' = false) {p : Regex}
    (hp : Pattern.compile pattern ((Arguments.ofWords opts).has 'i') = .ok p) :
    ∃ found, s.fs.search pattern (some directory) true ((Arguments.ofWords opts).has 'i') =
        .ok found ∧
      (∀ m ∈ found, 1 ≤ m.number ∧ ∃ text, s.fs.read (some m.path) = .ok text) ∧
      let rows := (found.filter (IsLine s.fs ·)).map (foundRow s.fs)
      let left := runWords ⟨Catalog.standard, now⟩ s ("grep" :: opts ++ [pattern, directory]) none
      (rows ≠ [] → left = (s, ⟨joinLines rows, true, 0, []⟩)) ∧
      (rows = [] → left = (s, ⟨"", false, 1, []⟩)) := by
  have hread := read_of_mem_walk hs.wellFormed hbelow
  refine ⟨_, search_walk hp hbelow, fun m hm => ?_, ?_⟩
  · obtain ⟨x, hx, hm⟩ := List.mem_flatMap.mp hm
    obtain ⟨hpath, hnumber⟩ := number_of_mem_matchingLines hm
    exact ⟨hnumber, _, hpath ▸ hread x hx⟩
  · intro rows left
    have hleft : left = (s, linesOutcome rows) := by
      have hcall := grep_recursive hdirectory hpattern hoperands hr hn hv hp
        ⟨now, Catalog.standard.pages⟩ s
      simp only [left, List.cons_append, runWords_standard "grep" grep rfl, hcall, settle,
        Reply.resolve]
      rw [grepWith_walk hs.wellFormed hbelow htwo]
    rw [hleft, linesOutcome]
    exact ⟨fun hne => by rw [if_neg (by simpa using hne)]; rfl, fun hnil => by rw [hnil]; rfl⟩

theorem grep_eq_search_blank_lines :
    let fs := ((empty 0 "/h").startAt "/h").apply
      (.populate 1 [("/a/f", some "x\n\n"), ("/a/g", some " y")])
    let s : Session := ⟨{}, fs, .empty 10, [], []⟩
    fs.Reachable ∧
    fs.search "" (some "/a") true false = .ok [⟨"/a/f", 1, "x"⟩, ⟨"/a/f", 2, ""⟩,
      ⟨"/a/f", 3, ""⟩, ⟨"/a/g", 1, "y"⟩] ∧
    runWords ⟨Catalog.standard, 0⟩ s ["grep", "-rn", "", "/a"] none =
      (s, ⟨"/a/f:1:x\n/a/f:2:\n/a/g:1: y", true, 0, []⟩) := by
  intro fs s
  have h₀ : Reachable ((empty 0 "/h").startAt "/h") := @Reachable.create 0 "/h" [] none _ rfl
  have h : fs.Reachable :=
    h₀.change (.populate 1 [("/a/f", some "x\n\n"), ("/a/g", some " y")])
  have hcount : (fs.walk (some "/a")).toOption.map
      (fun below => (below.filter (·.2.isFile)).length) = some 2 := by decide +kernel
  have hmatches : (fs.search "" (some "/a") true false).toOption = some [⟨"/a/f", 1, "x"⟩,
      ⟨"/a/f", 2, ""⟩, ⟨"/a/f", 3, ""⟩, ⟨"/a/g", 1, "y"⟩] := by decide +kernel
  have htexts : ([⟨"/a/f", 1, "x"⟩, ⟨"/a/f", 2, ""⟩, ⟨"/a/f", 3, ""⟩, ⟨"/a/g", 1, "y"⟩].filter
      (IsLine fs ·)).map (foundRow fs) = ["/a/f:1:x", "/a/f:2:", "/a/g:1: y"] := by
    decide +kernel
  have houtput : joinLines ["/a/f:1:x", "/a/f:2:", "/a/g:1: y"] =
      "/a/f:1:x\n/a/f:2:\n/a/g:1: y" := by decide
  obtain ⟨p, hp⟩ : ∃ p, Pattern.compile "" false = .ok p := ⟨_, rfl⟩
  -- What is needed of the tree is known; it is not worked out again.
  clear_value fs
  cases hwalk : fs.walk (some "/a") with
  | error e =>
      rw [hwalk] at hcount
      cases hcount
  | ok below =>
      rw [hwalk] at hcount
      have htwo : 2 ≤ (below.filter (·.2.isFile)).length :=
        Nat.le_of_eq (Option.some_inj.mp hcount).symm
      obtain ⟨found, hfound, -, hrows, -⟩ := @grep_eq_search 0 s h "/a" below hwalk htwo (by decide)
        "" (by decide) ["-rn"] (by decide) (by decide) (by decide) (by decide) p hp
      have hfound' : fs.search "" (some "/a") true false = .ok found := hfound
      rw [hfound'] at hmatches
      obtain rfl := Option.some_inj.mp hmatches
      rw [htexts, houtput] at hrows
      exact ⟨h, hfound', hrows (by simp)⟩

end Shellbox.Command
