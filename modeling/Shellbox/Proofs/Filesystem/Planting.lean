import Mathlib.Data.List.Pairwise
import Shellbox.Proofs.Filesystem.Records

/-!
# Planting paths

Paths that are planted in an empty filesystem make all the directories on the way to them, and
nothing else. If no file is in the way of another path, all of them find their place, and what is
there in the end does not depend on the order in which they come.
-/

namespace Shellbox.Filesystem

variable {fs fs' : Filesystem} {now : Instant} {path : Option String} {text : String}
  {ms ks : List String} {x y : String × Option String}
  {planted tree order : List (String × Option String)} {placed : List (List String × Option String)}

/-- What names lead to: nothing, a directory or a file with a text. -/
def content? (fs : Filesystem) (ks : List String) : Option (Option String) :=
  (fs.root.record? ks).map (·.text)

theorem content?_eq_map (fs : Filesystem) (ks : List String) :
    fs.content? ks = (fs.root.get? ks).map (·.record.text) := by
  rw [content?, Node.record?, Option.map_map]
  rfl

/-- What is above a path that has a last name. -/
theorem content?_above {name : String} (hnames : fs.names path = ms ++ [name]) :
    fs.content? (fs.names path).dropLast = (fs.root.get? ms).map (·.record.text) := by
  rw [hnames, List.dropLast_concat, content?_eq_map]

theorem content?_above_dir {name : String} {i : Info} {cs : List (String × Node)}
    (hnames : fs.names path = ms ++ [name]) (hfolder : fs.root.get? ms = some (.dir i cs)) :
    fs.content? (fs.names path).dropLast = some none := by
  rw [content?_above hnames, hfolder]
  rfl

theorem content?_eq_file_iff :
    fs.content? ks = some (some text) ↔ ∃ i, fs.root.get? ks = some (.file i text) := by
  unfold content? Node.record?
  rcases fs.root.get? ks with - | ⟨i, old⟩ | ⟨i, cs⟩ <;> simp [Node.record]

theorem content?_eq_dir_iff : fs.content? ks = some none ↔ (fs.root.get? ks).any (·.isDir) := by
  unfold content? Node.record?
  rcases fs.root.get? ks with - | ⟨i, old⟩ | ⟨i, cs⟩ <;> simp [Node.record, Node.isDir]

theorem content?_eq_none_iff : fs.content? (fs.names path) = none ↔ fs.node? path = none := by
  simp [content?, Node.record?, node?]

theorem content?_concat {i : Info} {cs : List (String × Node)}
    (hd : fs.root.get? ms = some (.dir i cs)) (name : String) :
    fs.content? (ms ++ [name]) = (cs.lookup name).map (·.record.text) := by
  rw [content?, Node.record?_append, hd, Option.bind_some, Node.record?_single, Option.map_map]
  rfl

theorem node?_eq_none_iff : fs.node? path = none ↔
    (∀ text, ¬ ∃ i, fs.node? path = some (.file i text)) ∧ ¬ fs.isDir path := by
  unfold isDir
  rcases fs.node? path with - | ⟨i, old⟩ | ⟨i, cs⟩ <;> simp [Node.isDir]

/-! ## The operations that plant -/

theorem makeDirectories_content? (now : Instant)
    (h : ∀ ks text, ks <+: fs.names path → fs.content? ks ≠ some (some text)) :
    ∃ root, fs.makeDirectories now path = .ok { fs with root } ∧
      ∀ ks, content? { fs with root } ks =
        if ks <+: fs.names path then some none else fs.content? ks := by
  have hdirs (ks : List String) (r : Record) (hks : ks <+: fs.names path)
      (hr : fs.root.record? ks = some r) : r.text = none := by
    cases htext : r.text with
    | none => rfl
    | some text => exact absurd (by rw [content?, hr, Option.map_some, htext]) (h ks text hks)
  obtain ⟨root, hroot⟩ : ∃ root, fs.root.ensureDirs now (fs.names path) = some root :=
    Node.ensureDirs_isSome hdirs
  refine ⟨root, by simp only [makeDirectories, hroot], fun ks => ?_⟩
  rw [content?, Node.record?_ensureDirs hroot]
  by_cases hks : ks <+: fs.names path
  · rw [if_pos hks, if_pos hks, Option.map_some]
    cases hr : fs.root.record? ks with
    | none => rfl
    | some r =>
        have htext := hdirs ks r hks hr
        dsimp only
        split <;> simp [Record.touch, htext]
  · rw [if_neg hks, if_neg hks, content?]

theorem content?_touch (fs : Filesystem) (now : Instant) (ks : List String) :
    ((fs.root.record? ks).map (Record.touch now)).map Record.text = fs.content? ks := by
  rw [Option.map_map]
  rfl

/-- A node without children that is added changes only what is at its own place. -/
theorem content?_addLeaf {leaf : Node} {i : Info} {cs : List (String × Node)}
    (hleaf : leaf.children = []) (hd : fs.root.get? ms = some (.dir i cs))
    (hfree : cs.lookup leaf.name = none) (now : Instant) (ks : List String) :
    (fs.modifyAt ms (.addChild now leaf)).content? ks =
      if ks = ms ++ [leaf.name] then some leaf.record.text else fs.content? ks := by
  rw [content?, modifyAt, Node.record?_addLeaf hleaf hd hfree]
  split
  · rfl
  · split
    · exact content?_touch fs now ks
    · rfl

/-- A write changes only what is at its path. -/
theorem content?_write (h : fs.write now path text = .ok fs') (ks : List String) :
    fs'.content? ks = if ks = fs.names path then some (some text) else fs.content? ks := by
  obtain ⟨ms, name, i, cs, hnames, hd, ⟨hfree, rfl⟩ | ⟨j, old, hold, rfl⟩⟩ := write_eq_ok h
  · have hnew : cs.lookup (Node.newFile now name text).name = none := hfree
    rw [hnames]
    exact content?_addLeaf rfl hd hnew now ks
  · have hfile : fs.root.get? (ms ++ [name]) = some (.file j old) := by
      rw [Node.get?_append, hd, Option.bind_some, Node.get?, hold, Option.bind_some, Node.get?]
    rw [content?, modifyAt, Node.record?_setContent hfile, hnames]
    split
    · rename_i hks
      rw [hks, Node.record?, hfile]
      rfl
    · rfl

/-- A file is written where a directory is there to hold it and no directory is in its place. -/
theorem exists_write {name : String} (now : Instant) (text : String)
    (hnames : fs.names path = ms ++ [name]) (hd : fs.content? ms = some none)
    (hplace : fs.content? (fs.names path) ≠ some none) :
    ∃ root, fs.write now path text = .ok { fs with root } := by
  obtain ⟨r, hr, htext⟩ := Option.map_eq_some_iff.mp hd
  obtain ⟨i, cs, hdir⟩ := Node.get?_of_record? hr htext
  simp only [write, siblings_concat hnames hdir, hnames, List.getLast?_concat]
  cases hlookup : cs.lookup name with
  | none => exact ⟨_, rfl⟩
  | some found =>
      cases found with
      | file j old => exact ⟨_, rfl⟩
      | dir j ds =>
          rw [hnames, content?_concat hdir, hlookup] at hplace
          exact absurd rfl hplace

/-! ## What is placed -/

/-- Names with the text of the file at their end; without a text, directories lie along them. -/
abbrev Spot := List String × Option String

/-- The files and directories of the spots are there, and nothing else. -/
structure Holds (fs : Filesystem) (placed : List Spot) : Prop where
  file_iff : ∀ ks text, fs.content? ks = some (some text) ↔ (ks, some text) ∈ placed
  dir_iff : ∀ ks, fs.content? ks = some none ↔ ks = [] ∨ ∃ ns, (ns, none) ∈ placed ∧ ks <+: ns

theorem Holds.of_empty {i : Info} (h : fs.root = .dir i []) : fs.Holds [] := by
  have hcontent (ks : List String) : fs.content? ks = if ks = [] then some none else none := by
    rw [content?, h]
    cases ks <;> rfl
  constructor
  · intro ks text
    rw [hcontent]
    split <;> simp
  · intro ks
    rw [hcontent]
    split <;> simp_all

theorem Holds.makeDirectories (h : fs.Holds placed) (now : Instant)
    (hclear : ∀ ks text, (ks, some text) ∈ placed → ¬ ks <+: fs.names path) :
    ∃ root, fs.makeDirectories now path = .ok { fs with root } ∧
      Holds { fs with root } ((fs.names path, none) :: placed) := by
  have hno (ks : List String) (text : String) (hks : ks <+: fs.names path) :
      fs.content? ks ≠ some (some text) := fun hfile =>
    hclear ks text ((h.file_iff ks text).mp hfile) hks
  obtain ⟨root, hmade, hcontent⟩ := makeDirectories_content? now hno
  refine ⟨root, hmade, ⟨fun ks text => ?_, fun ks => ?_⟩⟩
  · rw [hcontent]
    split
    · rename_i hks
      have hnot : (ks, some text) ∉ placed := fun hmem => hclear ks text hmem hks
      simp [hnot]
    · simp [h.file_iff]
  · rw [hcontent]
    split
    · rename_i hks
      simp [hks]
    · rename_i hks
      simp [h.dir_iff, hks]

theorem Holds.write {name : String} (h : fs.Holds placed) (now : Instant) (text : String)
    (hnames : fs.names path = ms ++ [name]) (hfolder : (ms, none) ∈ placed)
    (hfree : ∀ spot ∈ placed, ¬ fs.names path <+: spot.1) :
    ∃ root, fs.write now path text = .ok { fs with root } ∧
      Holds { fs with root } ((fs.names path, some text) :: placed) := by
  have hdir : fs.content? ms = some none :=
    (h.dir_iff ms).mpr (.inr ⟨ms, hfolder, List.prefix_rfl⟩)
  have hnone : fs.content? (fs.names path) = none := by
    cases hfound : fs.content? (fs.names path) with
    | none => rfl
    | some found =>
        cases found with
        | some old => exact absurd List.prefix_rfl (hfree _ ((h.file_iff _ old).mp hfound))
        | none =>
            obtain hnil | ⟨ns, hns, hbelow⟩ := (h.dir_iff _).mp hfound
            · simp [hnames] at hnil
            · exact absurd hbelow (hfree _ hns)
  obtain ⟨root, hwrite⟩ := exists_write now text hnames hdir (by simp [hnone])
  have hcontent := content?_write hwrite
  refine ⟨root, hwrite, ⟨fun ks t => ?_, fun ks => ?_⟩⟩
  · rw [hcontent]
    split
    · rename_i hks
      have hnot : (ks, some t) ∉ placed := fun hmem => hfree _ hmem (hks ▸ List.prefix_rfl)
      simp [hks ▸ hnot, hks, eq_comm]
    · rename_i hks
      simp [h.file_iff, hks]
  · rw [hcontent]
    split
    · rename_i hks
      have hnot : ∀ ns, (ns, none) ∈ placed → ¬ ks <+: ns := fun ns hns => hks ▸ hfree _ hns
      have hne : ks ≠ [] := by simp [hks, hnames]
      simp only [Option.some.injEq, reduceCtorEq, false_iff, hne, List.mem_cons, Prod.mk.injEq,
        and_false, false_or, not_exists, not_and]
      exact hnot
    · simp [h.dir_iff]

/-! ## Planted paths -/

/-- The spots of a planted path: a directory, or a file and the directory that holds it. -/
def spots (fs : Filesystem) (x : String × Option String) : List Spot :=
  match x.2 with
  | none => [(fs.names (some x.1), none)]
  | some text => [(fs.names (some x.1), some text), ((fs.names (some x.1)).dropLast, none)]

theorem prefix_of_mem_spots {spot : Spot} (h : spot ∈ fs.spots x) :
    spot.1 <+: fs.names (some x.1) := by
  unfold spots at h
  split at h
  · rw [List.mem_singleton] at h
    subst h
    exact List.prefix_rfl
  · simp only [List.mem_cons, List.not_mem_nil, or_false] at h
    obtain rfl | rfl := h
    · exact List.prefix_rfl
    · exact List.dropLast_prefix _

theorem file_mem_spots : (ks, some text) ∈ fs.spots x ↔
    x.2 = some text ∧ fs.names (some x.1) = ks := by
  unfold spots
  split
  · rename_i hx
    simp [hx]
  · rename_i old hx
    simp [hx, eq_comm, and_comm]

/-- A file at the first path is not on the way to the second. -/
def Clears (fs : Filesystem) (x y : String × Option String) : Prop :=
  x.2.isSome → ¬ fs.names (some x.1) <+: fs.names (some y.1)

/-- Neither of two paths is in the way of the other. -/
def Apart (fs : Filesystem) (x y : String × Option String) : Prop := fs.Clears x y ∧ fs.Clears y x

theorem isName_of_mem_dropLast {p : String} (hp : Path.IsNormal (fs.resolve (some p))) :
    ∀ s ∈ (fs.names (some p)).dropLast, Path.IsName s := fun s hs =>
  Path.segments_isName hp s ((List.dropLast_prefix _).subset hs)

theorem holderPath_isNormal {p : String} (hp : Path.IsNormal (fs.resolve (some p))) :
    Path.IsNormal (fs.holderPath p) :=
  ⟨_, isName_of_mem_dropLast hp, rfl⟩

theorem segments_holderPath {p : String} (hp : Path.IsNormal (fs.resolve (some p))) :
    Path.segments (fs.holderPath p) = (fs.names (some p)).dropLast :=
  Path.segments_render (isName_of_mem_dropLast hp)

theorem names_render (fs : Filesystem) (h : ∀ s ∈ ks, Path.IsName s) :
    fs.names (some (Path.render ks)) = ks := by
  rw [names, resolve, Path.resolve_of_isNormal _ _ ⟨ks, h, rfl⟩, Path.segments_render h]

theorem names_holderPath {p : String} (hp : Path.IsNormal (fs.resolve (some p))) :
    fs.names (some (fs.holderPath p)) = (fs.names (some p)).dropLast :=
  names_render fs (isName_of_mem_dropLast hp)

/-- A path that is apart from those planted finds its place. -/
theorem Holds.plant (h : fs.Holds (planted.flatMap fs.spots)) (hcwd : Path.IsNormal fs.cwd)
    (now : Instant) (hapart : ∀ y ∈ planted, fs.Apart x y)
    (hroot : x.2.isSome → fs.names (some x.1) ≠ []) :
    ∃ root, fs.plant now x.1 x.2 = ({ fs with root }, .ok ()) ∧
      Holds { fs with root } ((x :: planted).flatMap fs.spots) := by
  have hclear {ks ns : List String} {text : String} (hns : ns <+: fs.names (some x.1))
      (hmem : (ks, some text) ∈ planted.flatMap fs.spots) : ¬ ks <+: ns := by
    intro hks
    obtain ⟨y, hy, hspot⟩ := List.mem_flatMap.mp hmem
    obtain ⟨htext, rfl⟩ := file_mem_spots.mp hspot
    exact (hapart y hy).2 (by rw [htext]; rfl) (hks.trans hns)
  obtain ⟨p, content⟩ := x
  cases content with
  | none =>
      have hway : ∀ ks text, (ks, some text) ∈ planted.flatMap fs.spots →
          ¬ ks <+: fs.names (some p) := fun ks text hmem => hclear List.prefix_rfl hmem
      obtain ⟨root, hmade, hholds⟩ := h.makeDirectories now hway
      have hplant : fs.plant now p none = ({ fs with root }, .ok ()) := by
        unfold Filesystem.plant
        rw [hmade, attempt]
      have hspots : fs.spots (p, none) = [(fs.names (some p), none)] := by rw [spots]
      refine ⟨root, hplant, ?_⟩
      rw [List.flatMap_cons, hspots]
      exact hholds
  | some text =>
      obtain ⟨ms, name, hnames⟩ := List.eq_nil_or_concat' (fs.names (some p)) |>.resolve_left
        (hroot rfl)
      have hholder : fs.names (some (fs.holderPath p)) = ms := by
        rw [names_holderPath (Path.resolve_isNormal fs.home hcwd _), hnames, List.dropLast_concat]
      -- First the directory for the file is made, then the file is written into it.
      obtain ⟨made, hmade, hmadeholds⟩ := h.makeDirectories now fun ks text =>
        hclear (by rw [hholder, hnames]; exact List.prefix_append _ _)
      rw [hholder] at hmadeholds
      have hfree : ∀ spot ∈ (ms, none) :: planted.flatMap fs.spots,
          ¬ fs.names (some p) <+: spot.1 := by
        intro spot hspot hfront
        obtain rfl | hspot := List.mem_cons.mp hspot
        · have hlength := hfront.length_le
          simp only [hnames, List.length_append, List.length_singleton] at hlength
          omega
        · obtain ⟨y, hy, hspot⟩ := List.mem_flatMap.mp hspot
          exact (hapart y hy).1 rfl (hfront.trans (prefix_of_mem_spots hspot))
      obtain ⟨root, hwrite, hholds⟩ := hmadeholds.write now text hnames List.mem_cons_self hfree
      have hplant : fs.plant now p (some text) = ({ fs with root }, .ok ()) := by
        unfold Filesystem.plant
        simp only [hmade, hwrite, attempt]
      have hspots : fs.spots (p, some text) = [(fs.names (some p), some text), (ms, none)] := by
        rw [spots, hnames, List.dropLast_concat]
      refine ⟨root, hplant, ?_⟩
      rw [List.flatMap_cons, hspots]
      exact hholds

/-- Paths that are apart from each other and from those planted find their places. -/
theorem Holds.populate (h : fs.Holds (planted.flatMap fs.spots)) (hcwd : Path.IsNormal fs.cwd)
    (now : Instant) (hapart : order.Pairwise fs.Apart)
    (hplanted : ∀ x ∈ order, ∀ y ∈ planted, fs.Apart x y)
    (hroot : ∀ x ∈ order, x.2.isSome → fs.names (some x.1) ≠ []) :
    ∃ root, fs.populate now order = ({ fs with root }, .ok ()) ∧
      Holds { fs with root } ((order.reverse ++ planted).flatMap fs.spots) := by
  induction order generalizing fs planted with
  | nil => exact ⟨fs.root, rfl, h⟩
  | cons x order ih =>
      obtain ⟨hx, horder⟩ := List.pairwise_cons.mp hapart
      obtain ⟨root, hplant, hholds⟩ :=
        h.plant hcwd now (hplanted x List.mem_cons_self) (hroot x List.mem_cons_self)
      have hlater : ∀ z ∈ order, ∀ y ∈ x :: planted, fs.Apart z y := by
        intro z hz y hy
        obtain rfl | hy := List.mem_cons.mp hy
        · exact ⟨(hx z hz).2, (hx z hz).1⟩
        · exact hplanted z (List.mem_cons_of_mem _ hz) y hy
      obtain ⟨root', hrest, hholds'⟩ := @ih { fs with root } (x :: planted) hholds hcwd horder
        hlater fun z hz => hroot z (List.mem_cons_of_mem _ hz)
      refine ⟨root', ?_, ?_⟩
      · rw [Filesystem.populate, hplant]
        exact hrest
      · rw [List.reverse_cons, List.append_assoc]
        exact hholds'

/-! ## In the words of paths -/

/-- No file is to stand at the root or above another path, nor where another path leads. -/
structure Plantable (fs : Filesystem) (tree : List (String × Option String)) : Prop where
  not_root : ∀ x ∈ tree, x.2.isSome → fs.resolve (some x.1) ≠ "/"
  not_above : ∀ x ∈ tree, x.2.isSome → ∀ y ∈ tree,
    ¬ Path.IsBelow (fs.resolve (some x.1)) (fs.resolve (some y.1))
  only_dirs_meet : tree.Pairwise fun x y =>
    fs.resolve (some x.1) = fs.resolve (some y.1) → x.2 = none ∧ y.2 = none

theorem Plantable.perm (h : fs.Plantable tree) (hperm : order.Perm tree) : fs.Plantable order where
  not_root x hx := h.not_root x (hperm.mem_iff.mp hx)
  not_above x hx hfile y hy := h.not_above x (hperm.mem_iff.mp hx) hfile y (hperm.mem_iff.mp hy)
  only_dirs_meet := by
    refine (hperm.pairwise_iff ?_).mpr h.only_dirs_meet
    intro x y hxy heq
    exact (hxy heq.symm).symm

theorem prefix_names_iff (hcwd : Path.IsNormal fs.cwd) {q : String} (hq : Path.IsNormal q)
    (p : String) : Path.segments q <+: fs.names (some p) ↔
      fs.resolve (some p) = q ∨ Path.IsBelow q (fs.resolve (some p)) := by
  have hp : Path.IsNormal (fs.resolve (some p)) := Path.resolve_isNormal fs.home hcwd (some p)
  constructor
  · rintro ⟨rest, hrest⟩
    by_cases hnil : rest = []
    · rw [hnil, List.append_nil] at hrest
      exact .inl ((Path.segments_inj hp hq).mp hrest.symm)
    · exact .inr ⟨hp, rest, hnil, hrest.symm⟩
  · rintro (rfl | ⟨-, rest, -, hrest⟩)
    · exact List.prefix_rfl
    · exact ⟨rest, hrest.symm⟩

theorem Plantable.apart (h : fs.Plantable tree) (hcwd : Path.IsNormal fs.cwd) :
    tree.Pairwise fs.Apart := by
  have hclears {x y : String × Option String} (hx : x ∈ tree) (hy : y ∈ tree)
      (hmeet : fs.resolve (some x.1) = fs.resolve (some y.1) → x.2 = none) : fs.Clears x y := by
    intro hfile hfront
    have hnormal := Path.resolve_isNormal fs.home hcwd (some x.1)
    obtain heq | hbelow := (prefix_names_iff hcwd hnormal y.1).mp hfront
    · simp [hmeet heq.symm] at hfile
    · exact h.not_above x hx hfile y hy hbelow
  refine h.only_dirs_meet.imp_of_mem fun {x y} hx hy hmeet => ⟨?_, ?_⟩
  · exact hclears hx hy fun heq => (hmeet heq).1
  · exact hclears hy hx fun heq => (hmeet heq.symm).2

theorem dir_spot_iff (hcwd : Path.IsNormal fs.cwd) {q : String} (hq : Path.IsNormal q)
    (hroot : x.2.isSome → fs.resolve (some x.1) ≠ "/") :
    (∃ ns, (ns, none) ∈ fs.spots x ∧ Path.segments q <+: ns) ↔
      Path.IsBelow q (fs.resolve (some x.1)) ∨ x.2 = none ∧ fs.resolve (some x.1) = q := by
  have hway := prefix_names_iff hcwd hq x.1
  cases hx : x.2 with
  | none =>
      have hspots : fs.spots x = [(fs.names (some x.1), none)] := by rw [spots, hx]
      simp [hspots, hway, or_comm]
  | some text =>
      have hspots : fs.spots x = [(fs.names (some x.1), some text),
          ((fs.names (some x.1)).dropLast, none)] := by rw [spots, hx]
      have hnormal := Path.resolve_isNormal fs.home hcwd (some x.1)
      have hne : fs.names (some x.1) ≠ [] := fun h =>
        hroot (by rw [hx]; rfl) ((Path.segments_eq_nil_iff hnormal).mp h)
      simp only [hspots, List.mem_cons, Prod.mk.injEq, reduceCtorEq, and_false, false_or, and_true,
        List.not_mem_nil, or_false, exists_eq_left, false_and]
      constructor
      · intro hfront
        obtain heq | hbelow := hway.mp (hfront.trans (List.dropLast_prefix _))
        · -- The folder of a file is shorter than the way to the file.
          have hlength := hfront.length_le
          have hpos := List.length_pos_iff.mpr hne
          have hnames : fs.names (some x.1) = Path.segments q := by rw [← heq, names]
          rw [← hnames, List.length_dropLast] at hlength
          omega
        · exact hbelow
      · rintro ⟨-, rest, hrest, heq⟩
        have hnames : fs.names (some x.1) = Path.segments q ++ rest := heq
        rw [hnames, List.dropLast_append_of_ne_nil hrest]
        exact List.prefix_append _ _

/-- Planted in an empty filesystem, in any order, paths that leave each other a place all succeed,
and then there are just their files, their directories and the directories above them. -/
theorem populate_faithful {i : Info} (hempty : fs.root = .dir i []) (hcwd : fs.cwd = "/")
    (h : fs.Plantable tree) (hperm : order.Perm tree) (now : Instant) :
    ∃ fs', fs.populate now order = (fs', .ok ()) ∧ ∀ q, Path.IsNormal q →
      (∀ text, (∃ j, fs'.node? (some q) = some (.file j text)) ↔
        ∃ p, (p, some text) ∈ tree ∧ fs.resolve (some p) = q) ∧
      (fs'.isDir (some q) ↔ q = "/" ∨ (∃ x ∈ tree, Path.IsBelow q (fs.resolve (some x.1))) ∨
        ∃ p, (p, none) ∈ tree ∧ fs.resolve (some p) = q) ∧
      (fs'.node? (some q) = none ↔ q ≠ "/" ∧ ∀ x ∈ tree,
        fs.resolve (some x.1) ≠ q ∧ ¬ Path.IsBelow q (fs.resolve (some x.1))) := by
  have hnormal : Path.IsNormal fs.cwd := hcwd ▸ Path.isNormal_root
  have hresolved (p : String) : Path.IsNormal (fs.resolve (some p)) :=
    Path.resolve_isNormal fs.home hnormal (some p)
  have horder := h.perm hperm
  have hnotroot : ∀ x ∈ order, x.2.isSome → fs.names (some x.1) ≠ [] := fun x hx hfile hnil =>
    horder.not_root x hx hfile ((Path.segments_eq_nil_iff (hresolved x.1)).mp hnil)
  have hstart : fs.Holds (([] : List (String × Option String)).flatMap fs.spots) :=
    Holds.of_empty hempty
  obtain ⟨root, hpopulate, hholds⟩ :=
    hstart.populate hnormal now (horder.apart hnormal) (by simp) hnotroot
  rw [List.append_nil] at hholds
  refine ⟨_, hpopulate, fun q hq => ?_⟩
  have hfiles (text : String) : (∃ j, node? { fs with root } (some q) = some (.file j text)) ↔
      ∃ p, (p, some text) ∈ tree ∧ fs.resolve (some p) = q := by
    rw [node?_of_isNormal _ hq, ← content?_eq_file_iff, hholds.file_iff]
    simp only [List.mem_flatMap, List.mem_reverse, hperm.mem_iff, file_mem_spots]
    constructor
    · rintro ⟨⟨p, content⟩, hp, rfl, hnames⟩
      exact ⟨p, hp, (Path.segments_inj (hresolved p) hq).mp hnames⟩
    · rintro ⟨p, hp, rfl⟩
      exact ⟨_, hp, rfl, rfl⟩
  have hdirs : isDir { fs with root } (some q) ↔ q = "/" ∨
      (∃ x ∈ tree, Path.IsBelow q (fs.resolve (some x.1))) ∨
        ∃ p, (p, none) ∈ tree ∧ fs.resolve (some p) = q := by
    rw [isDir, node?_of_isNormal _ hq, ← content?_eq_dir_iff, hholds.dir_iff,
      Path.segments_eq_nil_iff hq]
    refine or_congr_right ?_
    simp only [List.mem_flatMap, List.mem_reverse, hperm.mem_iff]
    constructor
    · rintro ⟨ns, ⟨x, hx, hspot⟩, hfront⟩
      obtain hbelow | ⟨hdir, heq⟩ := (dir_spot_iff hnormal hq (h.not_root x hx)).mp
        ⟨ns, hspot, hfront⟩
      · exact .inl ⟨x, hx, hbelow⟩
      · exact .inr ⟨x.1, hdir ▸ hx, heq⟩
    · intro hdir
      obtain ⟨x, hx, hspot⟩ : ∃ x ∈ tree, Path.IsBelow q (fs.resolve (some x.1)) ∨
          x.2 = none ∧ fs.resolve (some x.1) = q := by
        obtain ⟨x, hx, hbelow⟩ | ⟨p, hp, heq⟩ := hdir
        · exact ⟨x, hx, .inl hbelow⟩
        · exact ⟨(p, none), hp, .inr ⟨rfl, heq⟩⟩
      obtain ⟨ns, hns, hfront⟩ := (dir_spot_iff hnormal hq (h.not_root x hx)).mpr hspot
      exact ⟨ns, ⟨x, hx, hns⟩, hfront⟩
  refine ⟨hfiles, hdirs, ?_⟩
  simp only [node?_eq_none_iff, hfiles, hdirs, not_or, not_exists, not_and]
  constructor
  · rintro ⟨hnofile, hne, hnotbelow, hnodir⟩
    refine ⟨hne, fun x hx => ⟨?_, hnotbelow x hx⟩⟩
    obtain ⟨p, content⟩ := x
    cases content with
    | none => exact hnodir p hx
    | some text => exact hnofile text p hx
  · rintro ⟨hne, hno⟩
    exact ⟨fun text p hp => (hno _ hp).1, hne, fun x hx => (hno x hx).2, fun p hp => (hno _ hp).1⟩

theorem populate_faithful_reversed :
    let fs := empty 0 "/home/u"
    let tree := [("~/a", some "x"), ("/home/u/d/", none), ("srv/../home//u/d", none)]
    fs.Plantable tree ∧ ∃ fs', fs.populate 1 tree.reverse = (fs', .ok ()) ∧
      (∃ j, fs'.node? (some "/home/u/a") = some (.file j "x")) ∧ fs'.isDir (some "/home") ∧
      fs'.node? (some "/srv") = none := by
  intro fs tree
  have h : fs.Plantable tree :=
    ⟨by decide +kernel, by decide +kernel, by decide +kernel⟩
  obtain ⟨fs', hpopulate, htree⟩ := populate_faithful rfl rfl h tree.reverse_perm 1
  obtain ⟨hfile, -, -⟩ := htree "/home/u/a" (by decide +kernel)
  obtain ⟨-, hdir, -⟩ := htree "/home" (by decide +kernel)
  obtain ⟨-, -, hnone⟩ := htree "/srv" (by decide +kernel)
  exact ⟨h, fs', hpopulate, (hfile "x").mpr ⟨"~/a", by simp [tree], by decide +kernel⟩,
    hdir.mpr (.inr (.inl ⟨_, List.mem_cons_self, by decide +kernel⟩)),
    hnone.mpr (by decide +kernel)⟩

end Shellbox.Filesystem
