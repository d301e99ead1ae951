import Shellbox.Command.Location
import Shellbox.Proofs.Filesystem.Reachable
import Shellbox.Proofs.Filesystem.Rows

/-!
# Listings of a directory

The rows of a listing stand in a strict order, since no two children of a directory have the same
name. A strictly ordered list is settled by its members, so a listing tells nothing of the order in
which the children were made, removed and made again.
-/

namespace Shellbox.Filesystem

variable {fs : Filesystem} {path : Option String}

/-! ## The rows of a directory -/

/-- A row for each child of the node at a path, in the order of the children. -/
def childRows (fs : Filesystem) (path : Option String) : List Entry :=
  ((fs.node? path).elim [] (·.children)).map fun p => Entry.ofNode p.2

theorem list_of_isDir (h : fs.isDir path) :
    fs.list path = .ok ((fs.childRows path).mergeSort Entry.le) := by
  rw [isDir, Option.any_eq_true] at h
  obtain ⟨n, hn, hkind⟩ := h
  cases n with
  | file i text => cases hkind
  | dir i cs => simp only [list, childRows, hn, Option.elim_some, Node.children]

theorem WellFormed.childRows_names (h : fs.WellFormed) (path : Option String) :
    ((fs.childRows path).map (·.name)).Nodup := by
  rw [childRows, List.map_map]
  cases hn : fs.node? path with
  | none => exact List.nodup_nil
  | some n => exact (h.tree.get? hn n .self).distinct

end Shellbox.Filesystem

namespace Shellbox.Command

open Filesystem

/-- The path that is listed: the first operand, or else the working directory. -/
def listedPath (args : List String) : Option String :=
  some ((Arguments.ofWords args).operands.headD ".")

theorem ls_of_isDir {now : Instant} {pages : List Page} {s : Session} {args : List String}
    {piped : Option String} (h : s.fs.isDir (listedPath args)) :
    ls ⟨now, pages⟩ s args piped =
      let rows := (s.fs.childRows (listedPath args)).mergeSort Entry.le
      let dots := if (Arguments.ofWords args).has 'a' then dotEntries now rows.length else []
      (s, (listing ((Arguments.ofWords args).has 'l') (dots ++ rows)).map (.ready ∘ .ok)) := by
  have hlist := list_of_isDir h
  rw [listedPath] at h hlist ⊢
  simp only [ls, Handler.trying, hlist, h, Bool.true_and]
  cases listing ((Arguments.ofWords args).has 'l') _ <;> rfl

/-- In a reachable filesystem the listing of a directory has a row for each child: first the
directories, then the files, each in the strict order of names. Two directories, be it of different
filesystems, whose children have the same rows are listed alike, whatever their children went
through, and so they are shown by commands with the same flags at the same time. -/
theorem listing_canonical :
    (∀ (fs : Filesystem) (path : Option String), fs.Reachable → fs.isDir path →
      ∃ directories files, fs.list path = .ok (directories ++ files) ∧
        (directories ++ files).Perm (fs.childRows path) ∧
        (∀ e ∈ directories, e.kind = .directory) ∧ (∀ e ∈ files, e.kind = .file) ∧
        (directories.map (·.name)).Pairwise (· < ·) ∧ (files.map (·.name)).Pairwise (· < ·)) ∧
    ∀ (fs₁ fs₂ : Filesystem) (path₁ path₂ : Option String), fs₁.Reachable → fs₂.Reachable →
      fs₁.isDir path₁ → fs₂.isDir path₂ →
      (∀ e, e ∈ fs₁.childRows path₁ ↔ e ∈ fs₂.childRows path₂) →
      fs₁.list path₁ = fs₂.list path₂ ∧
      ∀ (now : Instant) (pages₁ pages₂ : List Page) (s₁ s₂ : Session) (args₁ args₂ : List String)
        (piped₁ piped₂ : Option String), s₁.fs = fs₁ → s₂.fs = fs₂ →
        listedPath args₁ = path₁ → listedPath args₂ = path₂ →
        (∀ flag, (Arguments.ofWords args₁).has flag = (Arguments.ofWords args₂).has flag) →
        (ls ⟨now, pages₁⟩ s₁ args₁ piped₁).2 = (ls ⟨now, pages₂⟩ s₂ args₂ piped₂).2 := by
  constructor
  · intro fs path h hdir
    have hbefore := Entry.sorted_before (h.wellFormed.childRows_names path)
    obtain ⟨directories, files, hsplit, hdirectories, hfiles⟩ :=
      Entry.exists_eq_append_of_before hbefore
    rw [hsplit, List.pairwise_append] at hbefore
    refine ⟨directories, files, by rw [list_of_isDir hdir, hsplit], ?_, hdirectories, hfiles,
      Entry.names_increase hbefore.1 hdirectories, Entry.names_increase hbefore.2.1 hfiles⟩
    rw [← hsplit]
    exact List.mergeSort_perm _ _
  · intro fs₁ fs₂ path₁ path₂ h₁ h₂ hdir₁ hdir₂ hrows
    have heq := Entry.sorted_eq (h₁.wellFormed.childRows_names path₁)
      (h₂.wellFormed.childRows_names path₂) hrows
    refine ⟨by rw [list_of_isDir hdir₁, list_of_isDir hdir₂, heq], ?_⟩
    rintro now pages₁ pages₂ s₁ s₂ args₁ args₂ piped₁ piped₂ rfl rfl rfl rfl hflags
    simp only [ls_of_isDir hdir₁, ls_of_isDir hdir₂, heq, hflags]

theorem listing_canonical_made_again :
    let a : Entry := ⟨"a", .directory, 1, "drwxr-xr-x", 7⟩
    let b : Entry := ⟨"b", .file, 1, "-rw-r--r--", 7⟩
    let c : Entry := ⟨"c d", .file, 2, "-rw-r--r--", 7⟩
    ∃ fs₁ fs₂ : Filesystem, fs₁.Reachable ∧ fs₂.Reachable ∧
      fs₁.isDir (some "/d") ∧ fs₁.childRows (some "/d") = [b, a, c] ∧
      fs₂.isDir (some "/e") ∧ fs₂.childRows (some "/e") = [c, a, b] ∧
      (∃ directories files, fs₁.list (some "/d") = .ok (directories ++ files) ∧
        (files.map (·.name)).Pairwise (· < ·)) ∧
      fs₁.list (some "/d") = fs₂.list (some "/e") ∧
      (ls ⟨9, []⟩ ⟨{}, fs₁, .empty 10, [], []⟩ ["-la", "/d"] none).2 =
        (ls ⟨9, []⟩ ⟨{}, fs₂, .empty 10, [], []⟩ ["-a", "/e", "-l"] none).2 := by
  intro a b c
  have h₀ : Reachable ((empty 0 "/h").startAt "/h") := @Reachable.create 0 "/h" [] none _ rfl
  obtain ⟨fs₁, h₁, hdir₁, hrows₁⟩ : ∃ fs : Filesystem, fs.Reachable ∧ fs.isDir (some "/d") ∧
      fs.childRows (some "/d") = [b, a, c] := by
    have h := h₀.change (.populate 7 [("/d/b", some "x"), ("/d/a/n", none), ("/d/c d", some "é")])
    exact ⟨_, h, by decide +kernel, by decide +kernel⟩
  obtain ⟨fs₂, h₂, hdir₂, hrows₂⟩ : ∃ fs : Filesystem, fs.Reachable ∧ fs.isDir (some "/e") ∧
      fs.childRows (some "/e") = [c, a, b] := by
    have h := ((h₀.change (.populate 7 [("/e/b", some ""), ("/e/c d", some "é"),
      ("/e/a", none)])).change (.remove 7 (some "/e/b") false)).change
        (.populate 7 [("/e/b", some "x"), ("/e/a/m", none)])
    exact ⟨_, h, by decide +kernel, by decide +kernel⟩
  obtain ⟨hsorted, hsame⟩ := listing_canonical
  obtain ⟨directories, files, hlist, -, -, -, -, hfiles⟩ := hsorted fs₁ (some "/d") h₁ hdir₁
  have hmem : ∀ e, e ∈ fs₁.childRows (some "/d") ↔ e ∈ fs₂.childRows (some "/e") := by
    rw [hrows₁, hrows₂]
    exact fun e => List.Perm.mem_iff (by decide)
  have hflags : (Arguments.ofWords ["-la", "/d"]).flags.Perm
      (Arguments.ofWords ["-a", "/e", "-l"]).flags := by decide
  obtain ⟨hequal, hshown⟩ := hsame fs₁ fs₂ _ _ h₁ h₂ hdir₁ hdir₂ hmem
  exact ⟨fs₁, fs₂, h₁, h₂, hdir₁, hrows₁, hdir₂, hrows₂, ⟨directories, files, hlist, hfiles⟩,
    hequal, hshown 9 [] [] _ _ _ _ none none rfl rfl (by decide) (by decide)
      fun flag => hflags.contains_eq⟩

end Shellbox.Command
