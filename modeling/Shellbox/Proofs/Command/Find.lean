import Mathlib.Algebra.Order.BigOperators.Group.List
import Mathlib.Algebra.Order.Group.Nat
import Mathlib.Algebra.Ring.Nat
import Shellbox.Command.Find
import Shellbox.Proofs.Filesystem.Finding
import Shellbox.Proofs.Shell.Calls
import Shellbox.Proofs.Text.Lines

/-!
# Finding all files and directories

Without a glob `find` asks for a star. It lists the nodes of a kind below a directory in the order
of the walk, all of them just if none of their names has a line break in front of its last
character.
-/

namespace Shellbox.Command

open Filesystem Text

variable {fs : Filesystem} {path : Option String} {found : List (String × Node)} {k : Kind}
  {q q' : FindRequest} {args ls : List String}

/-! ## Requests -/

/-- Without the word for it no other glob is asked for. -/
theorem FindRequest.glob_of_read (h : q.read args = .ok q') (hname : "-name" ∉ args) :
    q'.glob = q.glob := by
  fun_induction FindRequest.read q args with
  | case1 => cases h; rfl
  | case2 => simp at hname
  | case3 => simp at hname
  | case4 => cases h
  | case5 q r _ ih => exact ih h (by simp_all)
  | case6 q v r _ ih => exact ih h (by simp_all)
  | case7 => cases h
  | case8 q w r _ _ ih => exact ih h (by simp_all)

/-! ## Lists of lines -/

theorem length_joinLines (ls : List String) :
    (joinLines ls).length = (ls.map (·.length + 1)).sum - 1 := by
  induction ls with
  | nil => rfl
  | cons l ls ih =>
      cases ls with
      | nil => simp [joinLines]
      | cons m ls =>
          rw [joinLines, String.intercalate_cons_cons, ← joinLines, String.length_append,
            String.length_append, ih]
          simp only [List.map_cons, List.sum_cons, show "\n".length = 1 from rfl]
          omega

/-- Lines that are left out are missed in the text, unless they are empty. -/
theorem joinLines_filter_eq_iff {p : String → Bool} (h : ∀ l ∈ ls, l ≠ "") :
    joinLines (ls.filter p) = joinLines ls ↔ ∀ l ∈ ls, p l := by
  constructor
  · intro heq l hl
    by_contra hp
    -- The line that is left out makes the text shorter by more than its break.
    have hsplit := ((List.filter_append_perm p ls).map (·.length + 1)).sum_nat
    rw [List.map_append, List.sum_append] at hsplit
    have hleft : l ∈ ls.filter fun x => !p x := List.mem_filter.mpr ⟨hl, by simpa using hp⟩
    have hle : l.length + 1 ≤ ((ls.filter fun x => !p x).map (·.length + 1)).sum :=
      List.le_sum_of_mem (List.mem_map_of_mem hleft)
    have hpos : 0 < l.length :=
      Nat.pos_of_ne_zero fun hzero => h l hl (String.length_eq_zero_iff.mp hzero)
    have hlen := congrArg String.length heq
    rw [length_joinLines, length_joinLines] at hlen
    omega
  · intro hall
    rw [List.filter_eq_self.mpr hall]

/-! ## What is listed -/

/-- The paths of the nodes of a kind in a walk. -/
def pathsOf (k : Kind) (found : List (String × Node)) : List String :=
  (found.filter (·.2.kind = k)).map (·.1)

/-- The paths of the two kinds are all paths, none of them of both kinds. -/
theorem pathsOf_perm (found : List (String × Node)) :
    (pathsOf .file found ++ pathsOf .directory found).Perm (found.map (·.1)) := by
  have hkind (x : String × Node) : decide (x.2.kind = .directory) = !decide (x.2.kind = .file) := by
    cases x.2.kind <;> rfl
  rw [pathsOf, pathsOf, ← List.map_append]
  simp only [hkind]
  exact (List.filter_append_perm _ found).map _

/-- Nodes of a kind are told apart by looking the paths up again. -/
theorem filter_hasKind (h : fs.WellFormed) (hw : fs.walk path = .ok found) (k : Kind) :
    (found.map (·.1)).filter (hasKind fs (some k)) = pathsOf k found := by
  rw [pathsOf, List.filter_map]
  refine congrArg _ (List.filter_congr fun x hx => ?_)
  have hnode := ((h.mem_walk hw).mp hx).2
  simp [hasKind, hnode]

/-- The paths of a kind that the star finds, in the order of the walk. -/
def listedOf (k : Kind) (found : List (String × Node)) : List String :=
  (pathsOf k found).filter fun q => Path.IsUnbroken q

theorem findPaths_star (h : fs.WellFormed) {p : String} (hw : fs.walk (some p) = .ok found)
    (k : Kind) : findPaths fs ⟨p, "*", some k⟩ = .ok (.ok (joinLines (listedOf k found))) := by
  simp only [findPaths, h.find_star hw]
  rw [List.filter_filter, listedOf, ← filter_hasKind h hw, List.filter_filter]
  simp only [Bool.and_comm]

theorem runWords_find_kind (h : fs.WellFormed) (now : Instant) {s : Session} (hs : s.fs = fs)
    (hname : "-name" ∉ args) (hread : FindRequest.everything.read args = .ok q)
    (hk : q.kind = some k) (hw : fs.walk (some q.path) = .ok found) (piped : Option String) :
    runWords ⟨Catalog.standard, now⟩ s ("find" :: args) piped =
      (s, ⟨joinLines (listedOf k found), true, 0, []⟩) := by
  subst hs
  have hglob := FindRequest.glob_of_read hread hname
  obtain ⟨p, glob, kind⟩ := q
  obtain rfl : glob = "*" := hglob
  obtain rfl : kind = some k := hk
  have hpaths := findPaths_star h hw k
  rw [runWords_standard "find" find rfl]
  simp only [find, Handler.trying, hread, hpaths]
  rfl

/-- The lists of the two kinds are all paths if no path is left out of them. -/
theorem listedOf_perm_iff (found : List (String × Node)) :
    (listedOf .file found ++ listedOf .directory found).Perm (found.map (·.1)) ↔
      ∀ q ∈ found.map (·.1), Path.IsUnbroken q := by
  have hall := (pathsOf_perm found).filter fun q => decide (Path.IsUnbroken q)
  rw [List.filter_append, ← listedOf, ← listedOf] at hall
  constructor
  · intro hperm q hq
    have hmem := hall.mem_iff.mp (hperm.mem_iff.mpr hq)
    exact of_decide_eq_true (List.mem_filter.mp hmem).2
  · intro hwhole
    rwa [List.filter_eq_self.mpr fun q hq => decide_eq_true (hwhole q hq)] at hall

/-- For every directory of a reachable filesystem the star finds all paths of the walk, in its
order, just if none of their last names is broken. Asked for one kind and for no name, `find` prints
the paths of that kind but those with a broken last name; so it prints all of them just if there is
none, and the two kinds together are all paths just if there is none at all. -/
theorem find_complete_iff (now : Instant) {s : Session} (hs : s.fs.Reachable)
    {path : Option String} (hdir : s.fs.isDir path) :
    ∃ found, s.fs.walk path = .ok found ∧
      (s.fs.find path "*" = .ok (found.map (·.1)) ↔
        ∀ q ∈ found.map (·.1), Path.IsUnbroken q) ∧
      (∀ k args q piped, "-name" ∉ args → FindRequest.everything.read args = .ok q →
        path = some q.path → q.kind = some k →
        let left := runWords ⟨Catalog.standard, now⟩ s ("find" :: args) piped
        left = (s, ⟨joinLines (listedOf k found), true, 0, []⟩) ∧
        (left = (s, ⟨joinLines (pathsOf k found), true, 0, []⟩) ↔
          ∀ q ∈ pathsOf k found, Path.IsUnbroken q)) ∧
      ((listedOf .file found ++ listedOf .directory found).Perm (found.map (·.1)) ↔
        ∀ q ∈ found.map (·.1), Path.IsUnbroken q) ∧
      (listedOf .file found).Disjoint (listedOf .directory found) := by
  have h := hs.wellFormed
  obtain ⟨found, hw⟩ := exists_walk hdir
  refine ⟨found, hw, ?_, ?_, listedOf_perm_iff found, ?_⟩
  · rw [h.find_star hw, Except.ok.injEq, List.filter_eq_self]
    simp only [decide_eq_true_eq]
  · rintro k args q piped hname hread rfl hk left
    have hleft : left = (s, ⟨joinLines (listedOf k found), true, 0, []⟩) :=
      runWords_find_kind h now rfl hname hread hk hw piped
    refine ⟨hleft, ?_⟩
    rw [hleft]
    simp only [Prod.mk.injEq, Outcome.mk.injEq, and_true, true_and]
    have hnonempty : ∀ q ∈ pathsOf k found, q ≠ "" := by
      intro q hq hempty
      obtain ⟨x, hx, rfl⟩ := List.mem_map.mp hq
      obtain ⟨⟨⟨parts, -, hparts⟩, -⟩, -⟩ := (h.mem_walk hw).mp (List.mem_filter.mp hx).1
      have hslash := congrArg String.toList (hparts.symm.trans hempty)
      simp [Path.render] at hslash
    rw [listedOf, joinLines_filter_eq_iff hnonempty]
    simp only [decide_eq_true_eq]
  · intro q hfile hdir
    obtain ⟨x, hx, rfl⟩ := List.mem_map.mp (List.mem_filter.mp hfile).1
    obtain ⟨y, hy, heq⟩ := List.mem_map.mp (List.mem_filter.mp hdir).1
    obtain ⟨hx, hfile⟩ := List.mem_filter.mp hx
    obtain ⟨hy, hdir⟩ := List.mem_filter.mp hy
    have hnode := ((h.mem_walk hw).mp hx).2.symm.trans (heq ▸ ((h.mem_walk hw).mp hy).2)
    simp_all

theorem find_complete_final_break :
    let fs := ((empty 0 "/h").startAt "/h").apply (.populate 1 [("/d/x\n", some ""), ("/e", none)])
    let s : Session := ⟨{}, fs, .empty 10, [], []⟩
    fs.Reachable ∧ fs.isDir (some "/") ∧
      runWords ⟨Catalog.standard, 0⟩ s ["find", "-type", "f", "/"] none =
        (s, ⟨"/d/x\n", true, 0, []⟩) ∧
      runWords ⟨Catalog.standard, 0⟩ s ["find", "-type", "d", "/"] none =
        (s, ⟨"/d\n/e", true, 0, []⟩) := by
  intro fs s
  have h₀ : Reachable ((empty 0 "/h").startAt "/h") := @Reachable.create 0 "/h" [] none _ rfl
  have h : fs.Reachable := h₀.change (.populate 1 [("/d/x\n", some ""), ("/e", none)])
  have hdir : fs.isDir (some "/") := by decide +kernel
  have hpaths : (fs.walk (some "/")).toOption.map
      (fun found => (listedOf .file found, listedOf .directory found)) =
        some (["/d/x\n"], ["/d", "/e"]) := by decide +kernel
  clear_value fs
  obtain ⟨found, hw, -, hprints, -⟩ := @find_complete_iff 0 s h (some "/") hdir
  have hw' : fs.walk (some "/") = .ok found := hw
  rw [hw'] at hpaths
  obtain ⟨hfiles, hdirs⟩ := Prod.mk.inj (Option.some_inj.mp hpaths)
  have hfile := (hprints .file ["-type", "f", "/"] ⟨"/", "*", some .file⟩ none (by decide) rfl rfl
    rfl).1
  have hdirectory := (hprints .directory ["-type", "d", "/"] ⟨"/", "*", some .directory⟩ none
    (by decide) rfl rfl rfl).1
  rw [hfiles] at hfile
  rw [hdirs] at hdirectory
  exact ⟨h, hdir, hfile, hdirectory⟩

/-- A file whose name has a line break in the middle is not found. -/
theorem find_misses_broken_name :
    let fs := ((empty 0 "/h").startAt "/h").apply (.populate 1 [("/a\nb", some "")])
    let s : Session := ⟨{}, fs, .empty 10, [], []⟩
    fs.Reachable ∧ fs.isDir (some "/") ∧
      (fs.walk (some "/")).toOption.map (·.map (·.1)) = some ["/a\nb"] ∧
      (fs.find (some "/") "*").toOption = some [] ∧
      (runWords ⟨Catalog.standard, 0⟩ s ["find", "/", "-type", "f"] none).2 =
        ⟨"", true, 0, []⟩ := by
  have h₀ : Reachable ((empty 0 "/h").startAt "/h") := @Reachable.create 0 "/h" [] none _ rfl
  refine ⟨h₀.change (.populate 1 [("/a\nb", some "")]), ?_, ?_, ?_, ?_⟩
  · decide +kernel
  · decide +kernel
  · decide +kernel
  · decide +kernel

end Shellbox.Command
