import Shellbox.Filesystem.Search
import Shellbox.Proofs.Filesystem.Walk
import Shellbox.Proofs.Pattern.Glob

/-!
# What is found by name

A search by name goes through the walk of a directory and keeps the paths whose last name the glob
accepts, in the order of the walk. For a glob of plain characters these are the names that match it
in the usual sense. The star alone keeps every path but those whose last name has a line break in
front of its last character.
-/

namespace Shellbox.Filesystem

variable {fs : Filesystem} {path : Option String} {found : List (String × Node)} {glob : String}
  {r : Regex}

/-- The last name of a path; the root has the empty name. -/
def Path.lastName (path : String) : String := (segments path).getLast?.getD ""

/-! ## Names in a walk -/

theorem exists_walk (hdir : fs.isDir path) : ∃ found, fs.walk path = .ok found := by
  rw [isDir, Option.any_eq_true] at hdir
  obtain ⟨n, hn, hkind⟩ := hdir
  cases n with
  | file i text => cases hkind
  | dir i cs => exact ⟨_, walk_dir hn⟩

/-- A node in a walk carries the last name of its path. -/
theorem WellFormed.name_of_mem_walk (h : fs.WellFormed) (hw : fs.walk path = .ok found) {q : String}
    {n : Node} (hmem : (q, n) ∈ found) : n.name = Path.lastName q := by
  obtain ⟨⟨hnormal, rest, hne, hseg⟩, hnode⟩ := (h.mem_walk hw).mp hmem
  rw [node?_of_isNormal fs hnormal] at hnode
  have hq : Path.segments q ≠ [] := by simp [hseg, hne]
  have hlast := List.getLast?_eq_some_getLast hq
  rw [Path.lastName, hlast, Option.getD_some]
  exact (Node.names_of_get? h.tree hnode).2 _ hlast

/-- A search by name keeps the paths in a walk whose last name the glob accepts. -/
theorem WellFormed.find_walk (h : fs.WellFormed) (hr : Glob.compile glob = .ok r)
    (hw : fs.walk path = .ok found) :
    fs.find path glob =
      .ok ((found.map (·.1)).filter fun q => Glob.accepts r (Path.lastName q)) := by
  have hnames : ∀ x ∈ found,
      Glob.accepts r x.2.name = Glob.accepts r (Path.lastName x.1) := fun x hx => by
    rw [h.name_of_mem_walk hw hx]
  simp only [find, hr, hw, List.filter_map]
  rw [List.filter_congr hnames]
  rfl

theorem find_of_walk_error {e : PathError} (hr : Glob.compile glob = .ok r)
    (hw : fs.walk path = .error e) : fs.find path glob = .error (.path e) := by
  simp only [find, hr, hw]

/-! ## Globs of plain characters -/

/-- A glob of letters, digits, underscores, full stops, stars and question marks compiles, and it
accepts the names of ASCII characters without line breaks that match it in the usual sense. So where
such names are found, a search keeps just the paths in the walk whose last name matches, in the
order of the walk, and it fails only as the walk does. -/
theorem find_plain_glob (hg : Glob.IsPlain glob.toList) :
    ∃ r, Glob.compile glob = .ok r ∧
      (∀ name : String, Glob.IsPlainName name.toList →
        (Glob.accepts r name ↔ Glob.fits glob.toList name.toList)) ∧
      ∀ fs : Filesystem, fs.Reachable → ∀ path,
        (∀ e, fs.walk path = .error e → fs.find path glob = .error (.path e)) ∧
        ∀ found, fs.walk path = .ok found →
          (∀ q ∈ found.map (·.1), Glob.IsPlainName (Path.lastName q).toList) →
          fs.find path glob = .ok ((found.map (·.1)).filter fun q =>
            Glob.fits glob.toList (Path.lastName q).toList) := by
  obtain ⟨r, hr, haccepts⟩ := Glob.exists_compile_fits hg
  refine ⟨r, hr, haccepts, fun fs h path => ⟨fun e hw => find_of_walk_error hr hw, ?_⟩⟩
  intro found hw hplain
  rw [h.wellFormed.find_walk hr hw]
  refine congrArg _ (List.filter_congr fun q hq => ?_)
  exact Bool.eq_iff_iff.mpr (haccepts _ (hplain q hq))

theorem find_plain_glob_dots :
    let fs := ((empty 0 "/h").startAt "/h").apply
      (.populate 1 [("/b.T/xa.T.txt", some "t"), ("/b.T/x.txt", none), ("/A.t1_", some "")])
    fs.Reachable ∧
      (fs.walk none).toOption.map (·.map (·.1)) =
        some ["/b.T", "/b.T/xa.T.txt", "/b.T/x.txt", "/A.t1_"] ∧
      fs.find none "?*.t?*" = .ok ["/b.T/xa.T.txt", "/b.T/x.txt", "/A.t1_"] := by
  intro fs
  have h₀ : Reachable ((empty 0 "/h").startAt "/h") := @Reachable.create 0 "/h" [] none _ rfl
  have h : fs.Reachable := h₀.change (.populate 1 [("/b.T/xa.T.txt", some "t"),
    ("/b.T/x.txt", none), ("/A.t1_", some "")])
  have hpaths : (fs.walk none).toOption.map (·.map (·.1)) =
      some ["/b.T", "/b.T/xa.T.txt", "/b.T/x.txt", "/A.t1_"] := by decide +kernel
  refine ⟨h, hpaths, ?_⟩
  clear_value fs
  obtain ⟨r, -, -, hfind⟩ := @find_plain_glob "?*.t?*" (by decide)
  cases hwalk : fs.walk none with
  | error e =>
      rw [hwalk] at hpaths
      cases hpaths
  | ok found =>
      rw [hwalk] at hpaths
      have hfound : found.map (·.1) = ["/b.T", "/b.T/xa.T.txt", "/b.T/x.txt", "/A.t1_"] :=
        Option.some_inj.mp hpaths
      have hkept := (hfind fs h none).2 found hwalk
      rw [hfound] at hkept
      rw [hkept (by decide +kernel)]
      exact congrArg _ (by decide +kernel)

/-! ## The star alone -/

/-- No line break stands in front of the last character of the last name. -/
def Path.IsUnbroken (path : String) : Prop := '\n' ∉ (lastName path).toList.dropLast

instance (path : String) : Decidable (Path.IsUnbroken path) :=
  inferInstanceAs (Decidable (_ ∉ _))

/-- The star finds every path in the walk but those whose last name is broken. -/
theorem WellFormed.find_star (h : fs.WellFormed) (hw : fs.walk path = .ok found) :
    fs.find path "*" = .ok ((found.map (·.1)).filter fun q => Path.IsUnbroken q) := by
  obtain ⟨r, hr, haccepts⟩ := Glob.exists_compile_star
  rw [h.find_walk hr hw]
  refine congrArg _ (List.filter_congr fun q _ => Bool.eq_iff_iff.mpr ?_)
  rw [haccepts, decide_eq_true_iff, Path.IsUnbroken]

end Shellbox.Filesystem
