import Shellbox.Proofs.Filesystem.Planting
import Shellbox.Proofs.Filesystem.Reachable

/-!
# The working directory

The working directory is a path that is kept beside the tree. Only removals take directories away,
so a working directory that is there stays there until it is removed, itself or with a directory
above it; from then on nothing is there.
-/

namespace Shellbox.Filesystem

variable {fs fs' fs'' : Filesystem} {now : Instant} {path : Option String} {text : String}
  {ms ks : List String} {i : Info} {cs : List (String × Node)}

/-- The working directory is there, and it is a directory. -/
def CwdStands (fs : Filesystem) : Prop := fs.isDir (some fs.cwd)

instance (fs : Filesystem) : Decidable fs.CwdStands := inferInstanceAs (Decidable (_ = _))

theorem cwdStands_iff (hcwd : Path.IsNormal fs.cwd) :
    fs.CwdStands ↔ fs.content? (Path.segments fs.cwd) = some none := by
  rw [CwdStands, isDir, node?_of_isNormal fs hcwd, content?_eq_dir_iff]

/-! ## Directories that stay -/

/-- The directories of one filesystem are directories in another. -/
def KeepsDirs (fs fs' : Filesystem) : Prop :=
  ∀ ks, fs.content? ks = some none → fs'.content? ks = some none

theorem keepsDirs_addLeaf {leaf : Node} (hleaf : leaf.children = [])
    (hd : fs.root.get? ms = some (.dir i cs)) (hfree : cs.lookup leaf.name = none)
    (now : Instant) : fs.KeepsDirs (fs.modifyAt ms (.addChild now leaf)) := by
  intro ks hks
  have hplace : fs.content? (ms ++ [leaf.name]) = none := by
    rw [content?_concat hd, hfree, Option.map_none]
  have hne : ks ≠ ms ++ [leaf.name] := by
    rintro rfl
    rw [hplace] at hks
    cases hks
  rw [content?_addLeaf hleaf hd hfree, if_neg hne, hks]

theorem write_keepsDirs (h : fs.write now path text = .ok fs') : fs.KeepsDirs fs' := by
  obtain ⟨ms, name, i, cs, hnames, hd, hplace⟩ := write_eq_ok h
  intro ks hks
  have hne : ks ≠ fs.names path := by
    rintro rfl
    rw [hnames, content?_concat hd] at hks
    obtain ⟨hfree, -⟩ | ⟨j, old, hold, -⟩ := hplace
    · rw [hfree] at hks
      cases hks
    · rw [hold] at hks
      cases hks
  rw [content?_write h, if_neg hne, hks]

theorem makeDirectory_keepsDirs (h : fs.makeDirectory now path = .ok fs') : fs.KeepsDirs fs' := by
  obtain ⟨ms, name, i, cs, -, hd, hfree, rfl⟩ := makeDirectory_eq_ok h
  have hnew : cs.lookup (Node.newDir now name).name = none := hfree
  exact keepsDirs_addLeaf rfl hd hnew now

theorem makeDirectories_keepsDirs (h : fs.makeDirectories now path = .ok fs') :
    fs.KeepsDirs fs' := by
  obtain ⟨root, hroot, rfl⟩ := makeDirectories_eq_ok h
  intro ks hks
  obtain ⟨r, hr, htext⟩ := Option.map_eq_some_iff.mp hks
  rw [content?, Node.record?_ensureDirs hroot, hr]
  split
  · dsimp only
    split <;> simp [Record.touch, htext]
  · rw [Option.map_some, htext]

theorem touchNode_keepsDirs (fs : Filesystem) (now : Instant) (path : Option String) :
    fs.KeepsDirs (fs.touchNode now path) := by
  intro ks hks
  rw [content?, touchNode, modifyAt, Node.record?_touch]
  split
  · rw [content?_touch, hks]
  · exact hks

/-- A removal takes away what is at its path or below, and no other directory. -/
theorem remove_content? {recursive : Bool} (h : fs.remove now path recursive = .ok fs')
    (ks : List String) :
    fs'.content? ks = if fs.names path <+: ks then none else fs.content? ks := by
  obtain ⟨ms, name, i, cs, hnames, hd, -, rfl⟩ := remove_eq_ok h
  rw [content?, modifyAt, Node.record?_removeChild hd, hnames]
  split
  · rfl
  · split
    · rw [content?_touch]
    · rfl

/-! ## The working directory while the tree changes -/

/-- A working directory that is there, with a path that names it. -/
structure Stands (fs : Filesystem) : Prop where
  cwd : Path.IsNormal fs.cwd
  content : fs.content? (Path.segments fs.cwd) = some none

theorem stands_iff : fs.Stands ↔ Path.IsNormal fs.cwd ∧ fs.CwdStands := by
  constructor
  · exact fun h => ⟨h.cwd, (cwdStands_iff h.cwd).mpr h.content⟩
  · exact fun h => ⟨h.1, (cwdStands_iff h.1).mp h.2⟩

theorem Stands.keep {root : Node} (h : fs.Stands) (hkeeps : fs.KeepsDirs { fs with root }) :
    Stands { fs with root } :=
  ⟨h.cwd, hkeeps _ h.content⟩

theorem Stands.write (h : fs.Stands) (hw : fs.write now path text = .ok fs') : fs'.Stands := by
  have hkeeps := write_keepsDirs hw
  obtain ⟨root, rfl⟩ := write_eq_root hw
  exact h.keep hkeeps

theorem Stands.makeDirectory (h : fs.Stands) (hm : fs.makeDirectory now path = .ok fs') :
    fs'.Stands := by
  have hkeeps := makeDirectory_keepsDirs hm
  obtain ⟨root, rfl⟩ := makeDirectory_eq_root hm
  exact h.keep hkeeps

theorem Stands.makeDirectories (h : fs.Stands) (hm : fs.makeDirectories now path = .ok fs') :
    fs'.Stands := by
  have hkeeps := makeDirectories_keepsDirs hm
  obtain ⟨root, rfl⟩ := makeDirectories_eq_root hm
  exact h.keep hkeeps

theorem Stands.populate (h : fs.Stands) (now : Instant) (tree : List (String × Option String)) :
    (fs.populate now tree).1.Stands :=
  populate_induction (fun _ _ _ hm h => h.makeDirectories hm) (fun _ _ _ _ hw h => h.write hw) h
    tree

/-- Moved to a directory, the working directory is there. -/
theorem stands_moveTo (hcwd : Path.IsNormal fs.cwd) (hdir : fs.isDir path) :
    Stands { fs with cwd := fs.resolve path } := by
  refine ⟨Path.resolve_isNormal fs.home hcwd path, ?_⟩
  rw [isDir, node?, ← content?_eq_dir_iff] at hdir
  exact hdir

theorem Stands.changeDirectory (h : fs.Stands) (hc : fs.changeDirectory path = .ok fs') :
    fs'.Stands := by
  have hdir : fs.isDir (some (destination path)) := by
    unfold Filesystem.changeDirectory at hc
    split at hc
    · cases hc
    · cases hc
    · rename_i hn
      rw [isDir, hn]
      rfl
  rw [changeDirectory_eq_ok hc]
  exact stands_moveTo h.cwd hdir

theorem create_stands {home : String} {tree : List (String × Option String)}
    {initial : Option String} (h : Filesystem.create now home tree initial = .ok fs) :
    fs.Stands := by
  have hroot : Path.segments "/" = [] := (Path.segments_eq_nil_iff Path.isNormal_root).mpr rfl
  have hempty : (empty now home).Stands := by
    refine ⟨Path.isNormal_root, ?_⟩
    rw [empty, hroot]
    rfl
  have hp := hempty.populate now tree
  unfold Filesystem.create at h
  split at h
  · cases h
  · rename_i planted heq
    rw [heq] at hp
    obtain rfl := Except.ok.inj h
    unfold startAt
    split
    · rename_i hdir
      exact stands_moveTo hp.cwd hdir
    · exact hp

/-! ## Removals -/

/-- The operation is a removal that succeeds, at the working directory or above it. -/
def Change.Orphans (fs : Filesystem) : Change → Prop
  | .remove now path recursive =>
    (fs.attempt (fs.remove now path recursive)).2 = .ok () ∧
      (fs.resolve path = fs.cwd ∨ Path.IsBelow (fs.resolve path) fs.cwd)
  | _ => False

instance (fs : Filesystem) : (c : Change) → Decidable (c.Orphans fs)
  | .remove .. => inferInstanceAs (Decidable (_ ∧ _))
  | .write .. | .makeDirectory .. | .makeDirectories .. | .changeDirectory _ | .populate ..
  | .touchNode .. => inferInstanceAs (Decidable False)

/-- The names of a path are in front of those of the working directory if it is there or below. -/
theorem names_prefix_cwd_iff (hcwd : Path.IsNormal fs.cwd) (path : Option String) :
    fs.names path <+: Path.segments fs.cwd ↔
      fs.resolve path = fs.cwd ∨ Path.IsBelow (fs.resolve path) fs.cwd := by
  have hpath := Path.resolve_isNormal fs.home hcwd path
  have hself : fs.resolve (some fs.cwd) = fs.cwd := Path.resolve_of_isNormal _ _ hcwd
  have h := prefix_names_iff hcwd hpath fs.cwd
  rw [names, hself, eq_comm (a := fs.cwd)] at h
  exact h

theorem Stands.remove {recursive : Bool} (h : fs.Stands)
    (hr : fs.remove now path recursive = .ok fs') :
    (¬ (fs.resolve path = fs.cwd ∨ Path.IsBelow (fs.resolve path) fs.cwd) → fs'.Stands) ∧
    (fs.resolve path = fs.cwd ∨ Path.IsBelow (fs.resolve path) fs.cwd →
      fs'.node? (some fs'.cwd) = none) := by
  have hcontent := remove_content? hr (Path.segments fs.cwd)
  obtain ⟨root, rfl⟩ := remove_eq_root hr
  have hiff := names_prefix_cwd_iff h.cwd path
  constructor
  · intro hapart
    rw [if_neg fun hfront => hapart (hiff.mp hfront)] at hcontent
    exact ⟨h.cwd, hcontent.trans h.content⟩
  · intro hhit
    rw [if_pos (hiff.mpr hhit)] at hcontent
    rw [node?_of_isNormal _ h.cwd]
    simpa [content?, Node.record?] using hcontent

theorem Change.Orphans.exists_ok {recursive : Bool}
    (h : (Change.remove now path recursive).Orphans fs) :
    ∃ fs', fs.remove now path recursive = .ok fs' := by
  obtain ⟨hok, -⟩ := h
  cases hr : fs.remove now path recursive with
  | error e =>
      rw [hr] at hok
      cases hok
  | ok fs' => exact ⟨fs', rfl⟩

/-- Whether it succeeds or fails, an operation that does not orphan keeps the working directory. -/
theorem Stands.apply (h : fs.Stands) (c : Change) (hc : ¬ c.Orphans fs) : (fs.apply c).Stands := by
  cases c with
  | write now path text => exact attempt_induction h fun _ hw => h.write hw
  | makeDirectory now path => exact attempt_induction h fun _ hm => h.makeDirectory hm
  | makeDirectories now path => exact attempt_induction h fun _ hm => h.makeDirectories hm
  | remove now path recursive =>
      refine attempt_induction h fun fs' hr => (h.remove hr).1 fun hhit => hc ⟨?_, hhit⟩
      rw [hr]
      rfl
  | changeDirectory path => exact attempt_induction h fun _ hd => h.changeDirectory hd
  | populate now tree => exact h.populate now tree
  | touchNode now path => exact h.keep (touchNode_keepsDirs fs now path)

/-- Once it is orphaned, nothing is at the working directory. -/
theorem Stands.orphaned (h : fs.Stands) (c : Change) (hc : c.Orphans fs) :
    (fs.apply c).node? (some (fs.apply c).cwd) = none := by
  cases c with
  | remove now path recursive =>
      obtain ⟨fs', hr⟩ := hc.exists_ok
      rw [Filesystem.apply, hr]
      exact (h.remove hr).2 hc.2
  | _ => exact hc.elim

/-! ## Runs -/

/-- The filesystem after operations in turn, whether they succeed or fail. -/
def applyAll (fs : Filesystem) (run : List Change) : Filesystem := run.foldl apply fs

theorem Reachable.applyAll (h : fs.Reachable) (run : List Change) :
    (fs.applyAll run).Reachable := by
  induction run generalizing fs with
  | nil => exact h
  | cons c run ih => exact ih (h.change c)

/-- No operation of the run orphans the working directory that it finds. -/
def SparesCwd (fs : Filesystem) : List Change → Prop
  | [] => True
  | c :: run => ¬ c.Orphans fs ∧ (fs.apply c).SparesCwd run

theorem Stands.applyAll {run : List Change} (h : fs.Stands) (hrun : fs.SparesCwd run) :
    (fs.applyAll run).Stands := by
  induction run generalizing fs with
  | nil => exact h
  | cons c run ih => exact ih (h.apply c hrun.1) hrun.2

/-- A new filesystem has its working directory, and every operation keeps it, whether it succeeds or
fails, but for a removal that succeeds at the working directory or above it; then nothing is there.
So along a run without such a removal the working directory is there. -/
theorem only_removals_orphan :
    (∀ now home tree initial fs, create now home tree initial = .ok fs → fs.CwdStands) ∧
    (∀ fs : Filesystem, fs.Reachable → fs.CwdStands → ∀ c : Change,
      (¬ c.Orphans fs → (fs.apply c).CwdStands) ∧
      (c.Orphans fs → (fs.apply c).node? (some (fs.apply c).cwd) = none)) ∧
    ∀ fs : Filesystem, fs.Reachable → fs.CwdStands → ∀ run : List Change, fs.SparesCwd run →
      (fs.applyAll run).CwdStands := by
  have hstands {fs : Filesystem} (h : fs.Reachable) (hs : fs.CwdStands) : fs.Stands :=
    stands_iff.mpr ⟨h.wellFormed.cwd, hs⟩
  refine ⟨fun now home tree initial fs hc => ?_, fun fs h hs c => ⟨fun hc => ?_, fun hc => ?_⟩,
    fun fs h hs run hrun => ?_⟩
  · exact (stands_iff.mp (create_stands hc)).2
  · exact (stands_iff.mp ((hstands h hs).apply c hc)).2
  · exact (hstands h hs).orphaned c hc
  · exact (stands_iff.mp ((hstands h hs).applyAll hrun)).2

theorem only_removals_orphan_after_run :
    let fs := (empty 0 "/h").startAt "/h"
    let run : List Change := [.makeDirectories 1 (some "a/b/c"), .changeDirectory (some "a/b"),
      .remove 2 (some "c") false, .remove 3 (some "..") false, .write 4 (some "../b") "x"]
    fs.Reachable ∧ fs.CwdStands ∧
    (fs.applyAll run).cwd = "/a/b" ∧ (fs.applyAll run).CwdStands ∧
    (Change.remove 5 (some "/a") true).Orphans (fs.applyAll run) ∧
    ((fs.applyAll run).apply (.remove 5 (some "/a") true)).node? (some "/a/b") = none := by
  intro fs run
  have h : fs.Reachable := @Reachable.create 0 "/h" [] none _ rfl
  have hafter : (fs.applyAll run).Reachable := h.applyAll run
  have hstart : fs.CwdStands := only_removals_orphan.1 0 "/h" [] none fs rfl
  have hspares : fs.SparesCwd run :=
    ⟨by decide +kernel, by decide +kernel, by decide +kernel, by decide +kernel, by decide +kernel,
      trivial⟩
  have hstands := only_removals_orphan.2.2 fs h hstart run hspares
  have horphans : (Change.remove 5 (some "/a") true).Orphans (fs.applyAll run) := by
    decide +kernel
  have hcwd : (fs.applyAll run).cwd = "/a/b" := by decide +kernel
  have hleft : ((fs.applyAll run).apply (.remove 5 (some "/a") true)).cwd = "/a/b" := by
    decide +kernel
  have hgone := (only_removals_orphan.2.1 _ hafter hstands (.remove 5 (some "/a") true)).2 horphans
  rw [hleft] at hgone
  exact ⟨h, hstart, hcwd, hstands, horphans, hgone⟩

end Shellbox.Filesystem
