import Shellbox.Filesystem.Basic

/-!
# What operations change

An operation that succeeds changes one node: it adds a child to a directory, removes one from it,
gives a file a new text or makes directories along a path. So a change of directory puts another
working directory in place, and every other operation another tree; the rest of the filesystem
stays as it was.
-/

namespace Shellbox.Filesystem

variable {fs fs' : Filesystem} {now : Instant} {path : Option String} {text name : String}
  {ms : List String} {i : Info} {cs : List (String × Node)}

/-! ## Where a node is or would be -/

theorem siblings_eq_ok (h : fs.siblings path = .ok cs) :
    ∃ i, fs.root.get? (fs.names path).dropLast = some (.dir i cs) := by
  unfold siblings at h
  split at h
  · cases h
  · cases h
  · rename_i i _ hd
    cases h
    exact ⟨i, hd⟩

theorem siblings_concat (hnames : fs.names path = ms ++ [name])
    (hd : fs.root.get? ms = some (.dir i cs)) : fs.siblings path = .ok cs := by
  simp only [siblings, hnames, List.dropLast_concat, hd]

theorem siblings_of_none (hnames : fs.names path = ms ++ [name])
    (hfolder : fs.root.get? ms = none) : fs.siblings path = .error ⟨path, .notFound⟩ := by
  simp only [siblings, hnames, List.dropLast_concat, hfolder]

theorem siblings_of_file {old : String} (hnames : fs.names path = ms ++ [name])
    (hfolder : fs.root.get? ms = some (.file i old)) :
    fs.siblings path = .error ⟨path, .notDirectory⟩ := by
  simp only [siblings, hnames, List.dropLast_concat, hfolder]

theorem exists_concat_of_siblings (hcs : fs.siblings path = .ok cs)
    (hname : (fs.names path).getLast? = some name) :
    ∃ ms i, fs.names path = ms ++ [name] ∧ fs.root.get? ms = some (.dir i cs) := by
  obtain ⟨ms, hnames⟩ := List.getLast?_eq_some_iff.mp hname
  obtain ⟨i, hd⟩ := siblings_eq_ok hcs
  rw [hnames, List.dropLast_concat] at hd
  exact ⟨ms, i, hnames, hd⟩

/-- What is at a path and at the path above it. The root has no name and nothing above it. -/
inductive Site (fs : Filesystem) (path : Option String) : Prop
  | root (hnames : fs.names path = [])
  | noFolder {ms : List String} {name : String} (hnames : fs.names path = ms ++ [name])
      (hfolder : fs.root.get? ms = none)
  | fileForFolder {ms : List String} {name : String} {i : Info} {old : String}
      (hnames : fs.names path = ms ++ [name]) (hfolder : fs.root.get? ms = some (.file i old))
  | free {ms : List String} {name : String} {i : Info} {cs : List (String × Node)}
      (hnames : fs.names path = ms ++ [name]) (hfolder : fs.root.get? ms = some (.dir i cs))
      (hplace : cs.lookup name = none)
  | taken {ms : List String} {name : String} {i : Info} {cs : List (String × Node)} {n : Node}
      (hnames : fs.names path = ms ++ [name]) (hfolder : fs.root.get? ms = some (.dir i cs))
      (hplace : cs.lookup name = some n)

theorem site (fs : Filesystem) (path : Option String) : Site fs path := by
  rcases List.eq_nil_or_concat (fs.names path) with hnil | ⟨ms, name, hnames⟩
  · exact .root hnil
  · rw [List.concat_eq_append] at hnames
    cases hfolder : fs.root.get? ms with
    | none => exact .noFolder hnames hfolder
    | some folder =>
        cases folder with
        | file i old => exact .fileForFolder hnames hfolder
        | dir i cs =>
            cases hplace : cs.lookup name with
            | none => exact .free hnames hfolder hplace
            | some n => exact .taken hnames hfolder hplace

/-! ## Operations that succeed -/

theorem write_eq_ok (h : fs.write now path text = .ok fs') :
    ∃ ms name i cs, fs.names path = ms ++ [name] ∧ fs.root.get? ms = some (.dir i cs) ∧
      (cs.lookup name = none ∧ fs' = fs.modifyAt ms (.addChild now (.newFile now name text)) ∨
        ∃ j old, cs.lookup name = some (.file j old) ∧
          fs' = fs.modifyAt (ms ++ [name]) (.setContent now text)) := by
  unfold write at h
  split at h
  · cases h
  · rename_i cs hcs
    split at h
    · cases h
    · rename_i name hname
      obtain ⟨ms, i, hnames, hd⟩ := exists_concat_of_siblings hcs hname
      refine ⟨ms, name, i, cs, hnames, hd, ?_⟩
      rw [hnames, List.dropLast_concat] at h
      split at h
      · rename_i hfree
        cases h
        exact .inl ⟨hfree, rfl⟩
      · rename_i j old hold
        cases h
        exact .inr ⟨j, old, hold, rfl⟩
      · cases h

theorem makeDirectory_eq_ok (h : fs.makeDirectory now path = .ok fs') :
    ∃ ms name i cs, fs.names path = ms ++ [name] ∧ fs.root.get? ms = some (.dir i cs) ∧
      cs.lookup name = none ∧ fs' = fs.modifyAt ms (.addChild now (.newDir now name)) := by
  unfold makeDirectory at h
  split at h
  · cases h
  · rename_i cs hcs
    split at h
    · cases h
    · rename_i name hname
      obtain ⟨ms, i, hnames, hd⟩ := exists_concat_of_siblings hcs hname
      refine ⟨ms, name, i, cs, hnames, hd, ?_⟩
      rw [hnames, List.dropLast_concat] at h
      split at h
      · rename_i hfree
        cases h
        exact ⟨hfree, rfl⟩
      · cases h

theorem makeDirectories_eq_ok (h : fs.makeDirectories now path = .ok fs') :
    ∃ root, fs.root.ensureDirs now (fs.names path) = some root ∧ fs' = { fs with root } := by
  unfold makeDirectories at h
  split at h
  · cases h
  · rename_i root hroot
    cases h
    exact ⟨root, hroot, rfl⟩

theorem remove_eq_ok {recursive : Bool} (h : fs.remove now path recursive = .ok fs') :
    ∃ ms name i cs, fs.names path = ms ++ [name] ∧ fs.root.get? ms = some (.dir i cs) ∧
      (cs.lookup name).isSome ∧ fs' = fs.modifyAt ms (.removeChild now name) := by
  unfold remove at h
  split at h
  · cases h
  · rename_i name hname
    split at h
    · cases h
    · rename_i cs hcs
      obtain ⟨ms, i, hnames, hd⟩ := exists_concat_of_siblings hcs hname
      refine ⟨ms, name, i, cs, hnames, hd, ?_⟩
      rw [hnames, List.dropLast_concat] at h
      split at h
      · cases h
      · rename_i n hn
        split at h
        · cases h
        · cases h
          exact ⟨by rw [hn]; rfl, rfl⟩

theorem changeDirectory_eq_ok (h : fs.changeDirectory path = .ok fs') :
    fs' = { fs with cwd := fs.resolve (some (destination path)) } := by
  unfold changeDirectory at h
  split at h
  · cases h
  · cases h
  · cases h
    rfl

/-! ## What stays as it was -/

theorem write_eq_root (h : fs.write now path text = .ok fs') : ∃ root, fs' = { fs with root } := by
  obtain ⟨ms, name, i, cs, -, -, ⟨-, rfl⟩ | ⟨j, old, -, rfl⟩⟩ := write_eq_ok h
  · exact ⟨_, rfl⟩
  · exact ⟨_, rfl⟩

theorem makeDirectory_eq_root (h : fs.makeDirectory now path = .ok fs') :
    ∃ root, fs' = { fs with root } := by
  obtain ⟨ms, name, i, cs, -, -, -, rfl⟩ := makeDirectory_eq_ok h
  exact ⟨_, rfl⟩

theorem makeDirectories_eq_root (h : fs.makeDirectories now path = .ok fs') :
    ∃ root, fs' = { fs with root } := by
  obtain ⟨root, -, rfl⟩ := makeDirectories_eq_ok h
  exact ⟨root, rfl⟩

theorem remove_eq_root {recursive : Bool} (h : fs.remove now path recursive = .ok fs') :
    ∃ root, fs' = { fs with root } := by
  obtain ⟨ms, name, i, cs, -, -, -, rfl⟩ := remove_eq_ok h
  exact ⟨_, rfl⟩

theorem changeDirectory_eq_cwd (h : fs.changeDirectory path = .ok fs') :
    ∃ cwd, fs' = { fs with cwd } :=
  ⟨_, changeDirectory_eq_ok h⟩

end Shellbox.Filesystem
