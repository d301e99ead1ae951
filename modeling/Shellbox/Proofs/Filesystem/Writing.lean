import Shellbox.Proofs.Filesystem.Filling

/-!
# Writing to a path

Whether a text can be written at a path is told by the nodes at the path and at the path above it;
so is the error, if there is one. What is written is read back under every spelling of the path, and
nothing else changes but the directory that gets a new file, behind all that it held.
-/

namespace Shellbox.Filesystem

variable {fs fs' : Filesystem} {now : Instant} {path q : Option String} {text name : String}
  {ms ks : List String} {result : Except PathError Filesystem}

/-! ## The names in a directory -/

namespace Node

variable {n m leaf : Node} {f : Node → Node} {i : Info} {cs : List (String × Node)}
  {ns : List String}

def childNames (n : Node) : List String := n.children.map (·.1)

theorem childNames_updateChild (i : Info) (cs : List (String × Node)) (s : String)
    (f : Node → Node) : (dir i (updateChild s f cs)).childNames = (dir i cs).childNames := by
  rw [childNames, childNames, children, children, updateChild, List.map_map]
  refine List.map_congr_left fun p _ => ?_
  by_cases hp : p.1 = s <;> simp [hp]

theorem childNames_modifyAt_flat (hf : ∀ m, n.get? ns = some m → (f m).children = m.children)
    (ks : List String) :
    ((n.modifyAt f ns).get? ks).map childNames = (n.get? ks).map childNames := by
  by_cases h : ns <+: ks
  · obtain ⟨r, rfl⟩ := h
    rw [get?_modifyAt, get?_append]
    cases hm : n.get? ns with
    | none => rfl
    | some m =>
        cases r with
        | nil => simp [get?, childNames, hf m hm]
        | cons t r => simp [get?_cons, hf m hm]
  · exact get?_modifyAt_apart childNames_updateChild h

/-- A new child comes behind those that its directory holds. -/
theorem childNames_addLeaf (hd : n.get? ms = some (.dir i cs)) (now : Instant)
    (hm : n.get? ks = some m) :
    ((n.modifyAt (addChild now leaf) ms).get? ks).map childNames =
      some (m.childNames ++ if ks = ms then [leaf.name] else []) := by
  by_cases h : ms <+: ks
  · obtain ⟨r, rfl⟩ := h
    rw [get?_append, hd, Option.bind_some] at hm
    rw [get?_modifyAt, hd, Option.bind_some]
    cases r with
    | nil =>
        cases hm
        simp [addChild, get?, childNames, children]
    | cons t r =>
        obtain ⟨c, hl, hc⟩ := Option.bind_eq_some_iff.mp hm
        simp [addChild, get?, List.lookup_append, hl, hc]
  · have hne : ks ≠ ms := fun heq => h (heq ▸ List.prefix_rfl)
    rw [get?_modifyAt_apart childNames_updateChild h, hm, if_neg hne, List.append_nil,
      Option.map_some]

end Node

/-- The names in a directory keep their order; that of a new file comes behind them. -/
theorem childNames_write (hw : fs.write now path text = .ok fs')
    (hnames : fs.names path = ms ++ [name]) {n : Node} (hn : fs.root.get? ks = some n) :
    (fs'.root.get? ks).map Node.childNames = some (n.childNames ++
      if fs.content? (fs.names path) = none ∧ ks = ms then [name] else []) := by
  obtain ⟨ms', name', i, cs, hnames', hd, hplace⟩ := write_eq_ok hw
  obtain ⟨rfl, hname⟩ := List.append_inj' (hnames.symm.trans hnames') rfl
  obtain rfl := List.singleton_inj.mp hname
  rw [hnames, content?_concat hd]
  obtain ⟨hfree, rfl⟩ | ⟨j, old, hold, rfl⟩ := hplace
  · rw [modifyAt, Node.childNames_addLeaf hd now hn]
    simp [hfree, Node.newFile, Node.name, Node.info]
  · have hfile : fs.root.get? (ms ++ [name]) = some (.file j old) := by
      rw [Node.get?_append, hd, Option.bind_some, Node.get?, hold, Option.bind_some, Node.get?]
    rw [modifyAt, Node.childNames_modifyAt_flat fun m hm => ?_, hn]
    · simp [hold]
    · cases hfile.symm.trans hm
      rfl

/-! ## What a write comes to -/

/-- All that a write can come to. -/
inductive Written (fs : Filesystem) (path : Option String) : Except PathError Filesystem → Prop
  | done {after : Filesystem} (hfolder : fs.content? (fs.names path).dropLast = some none)
      (hplace : fs.content? (fs.names path) ≠ some none) : Written fs path (.ok after)
  | noFolder (hfolder : fs.content? (fs.names path).dropLast = none) :
      Written fs path (.error ⟨path, .notFound⟩)
  | fileForFolder {old} (hfolder : fs.content? (fs.names path).dropLast = some (some old)) :
      Written fs path (.error ⟨path, .notDirectory⟩)
  | directory (hfolder : fs.content? (fs.names path).dropLast = some none)
      (hplace : fs.content? (fs.names path) = some none) :
      Written fs path (.error ⟨path, .isDirectory⟩)

theorem write_written (fs : Filesystem) (now : Instant) (path : Option String) (text : String) :
    Written fs path (fs.write now path text) := by
  cases fs.site path with
  | root hnames =>
      -- The root has no name of its own, and its path is also the path above it.
      have habove : fs.content? (fs.names path).dropLast = some fs.root.record.text := by
        rw [hnames, List.dropLast_nil, content?_eq_map, Node.get?, Option.map_some]
      have hplace : fs.content? (fs.names path) = some fs.root.record.text := by
        rw [hnames, content?_eq_map, Node.get?, Option.map_some]
      simp only [write, siblings, hnames, List.dropLast_nil, Node.get?, List.getLast?_nil]
      generalize fs.root = root at habove hplace
      cases root with
      | file i old => exact .fileForFolder habove
      | dir i cs => exact .directory habove hplace
  | noFolder hnames hfolder =>
      simp only [write, siblings_of_none hnames hfolder]
      exact .noFolder (by rw [content?_above hnames, hfolder, Option.map_none])
  | fileForFolder hnames hfolder =>
      simp only [write, siblings_of_file hnames hfolder]
      exact .fileForFolder (by rw [content?_above hnames, hfolder]; rfl)
  | free hnames hfolder hplace =>
      have habove := content?_above_dir hnames hfolder
      have hfree : fs.content? (fs.names path) = none := by
        rw [hnames, content?_concat hfolder, hplace, Option.map_none]
      simp only [write, siblings_concat hnames hfolder, hnames, List.getLast?_concat, hplace]
      exact .done habove (by simp [hfree])
  | @taken ms name i cs n hnames hfolder hplace =>
      have habove := content?_above_dir hnames hfolder
      have htaken : fs.content? (fs.names path) = some n.record.text := by
        rw [hnames, content?_concat hfolder, hplace, Option.map_some]
      simp only [write, siblings_concat hnames hfolder, hnames, List.getLast?_concat, hplace]
      cases n with
      | file j old => exact .done habove (by simp [htaken, Node.record])
      | dir j ds => exact .directory habove htaken

theorem Written.path_of_error {e : PathError} (h : Written fs path (.error e)) : e.path = path := by
  cases h <;> rfl

theorem Written.ok_iff (h : Written fs path result) :
    (∃ fs', result = .ok fs') ↔ fs.content? (fs.names path).dropLast = some none ∧
      fs.content? (fs.names path) ≠ some none := by
  cases h with
  | done hfolder hplace => simp [hfolder, hplace]
  | noFolder hfolder => simp [hfolder]
  | fileForFolder hfolder => simp [hfolder]
  | directory hfolder hplace => simp [hplace]

theorem Written.notFound_iff (h : Written fs path result) :
    result = .error ⟨path, .notFound⟩ ↔ fs.content? (fs.names path).dropLast = none := by
  cases h with
  | done hfolder hplace => simp [hfolder]
  | noFolder hfolder => simp [hfolder]
  | fileForFolder hfolder => simp [hfolder]
  | directory hfolder hplace => simp [hfolder]

theorem Written.notDirectory_iff (h : Written fs path result) :
    result = .error ⟨path, .notDirectory⟩ ↔
      ∃ old, fs.content? (fs.names path).dropLast = some (some old) := by
  cases h with
  | done hfolder hplace => simp [hfolder]
  | noFolder hfolder => simp [hfolder]
  | fileForFolder hfolder => simp [hfolder]
  | directory hfolder hplace => simp [hfolder]

theorem Written.isDirectory_iff (h : Written fs path result) :
    result = .error ⟨path, .isDirectory⟩ ↔
      fs.content? (fs.names path).dropLast = some none ∧
        fs.content? (fs.names path) = some none := by
  cases h with
  | done hfolder hplace => simp [hplace]
  | noFolder hfolder => simp [hfolder]
  | fileForFolder hfolder => simp [hfolder]
  | directory hfolder hplace => simp [hfolder, hplace]

/-! ## In the words of paths -/

theorem WellFormed.content?_root (h : fs.WellFormed) : fs.content? [] = some none := by
  rw [content?_eq_dir_iff, Node.get?, Option.any_some]
  exact h.isDir_root

theorem WellFormed.content?_of_root (h : fs.WellFormed) (hroot : fs.resolve path = "/") :
    fs.content? (fs.names path) = some none := by
  have hnil : fs.names path = [] :=
    (Path.segments_eq_nil_iff (h.resolve_isNormal path)).mpr hroot
  rw [hnil]
  exact h.content?_root

/-- What is written is read back under every spelling of its path. -/
theorem WellFormed.read_written (h : fs.WellFormed) (hw : fs.write now path text = .ok fs')
    (hq : fs.resolve q = fs.resolve path) : fs'.read q = .ok text := by
  have hcontent := content?_write hw (fs.names q)
  rw [if_pos ((h.names_eq_iff path q).mpr hq)] at hcontent
  obtain ⟨root, rfl⟩ := write_eq_root hw
  have hnames : names { fs with root } q = fs.names q := rfl
  rw [read_eq, hnames, hcontent]

theorem WellFormed.write_elsewhere (h : fs.WellFormed) (hw : fs.write now path text = .ok fs')
    (hq : fs.resolve q ≠ fs.resolve path) :
    (fs'.node? q).map Node.kind = (fs.node? q).map Node.kind ∧ fs'.read q = fs.read q := by
  have hcontent := content?_write hw (fs.names q)
  rw [if_neg fun heq => hq ((h.names_eq_iff path q).mp heq)] at hcontent
  obtain ⟨root, rfl⟩ := write_eq_root hw
  have hnames : names { fs with root } q = fs.names q := rfl
  constructor
  · rw [node?_kind, node?_kind, hnames, hcontent]
  · rw [read_eq, read_eq, hnames, hcontent]

/-- Only in a directory can there be anything. -/
theorem content?_of_concat (h : fs.content? (ms ++ [name]) ≠ none) : fs.content? ms = some none := by
  rw [content?, Node.record?_append] at h
  rw [content?_eq_dir_iff]
  revert h
  rcases fs.root.get? ms with - | ⟨i, text⟩ | ⟨i, cs⟩
  · exact fun h => absurd rfl h
  · exact fun h => absurd rfl h
  · exact fun _ => rfl

theorem content?_dropLast_of_dir (h : fs.content? ks = some none) :
    fs.content? ks.dropLast = some none := by
  rcases List.eq_nil_or_concat' ks with rfl | ⟨ms, name, rfl⟩
  · exact h
  · rw [List.dropLast_concat]
    have hsome : fs.content? (ms ++ [name]) ≠ none := by simp [h]
    exact content?_of_concat hsome

theorem WellFormed.resolve_eq_holder_iff (h : fs.WellFormed) (p : String) (q : Option String) :
    fs.resolve q = fs.holderPath p ↔ fs.names q = (fs.names (some p)).dropLast := by
  have hp := h.resolve_isNormal (some p)
  rw [← segments_holderPath hp]
  exact (Path.segments_inj (h.resolve_isNormal q) (holderPath_isNormal hp)).symm

/-- The path of a place is the path above it with the last name behind. -/
theorem WellFormed.resolve_eq_join {p : String} (h : fs.WellFormed)
    (hnames : fs.names (some p) = ms ++ [name]) :
    fs.resolve (some p) = Path.join (fs.holderPath p) name := by
  have hparts : ∀ s ∈ ms, Path.IsName s := fun s hs =>
    h.names_isName (some p) s (by simp [hnames, hs])
  rw [holderPath, hnames, List.dropLast_concat, ← Path.render_concat hparts, ← hnames]
  exact (Path.render_segments (h.resolve_isNormal (some p))).symm

theorem WellFormed.write_order {p : String} (h : fs.WellFormed)
    (hw : fs.write now (some p) text = .ok fs') :
    ∃ name, fs.resolve (some p) = Path.join (fs.holderPath p) name ∧
      ∀ q n, fs.node? q = some n → (fs'.node? q).map Node.childNames = some (n.childNames ++
        if fs.node? (some p) = none ∧ fs.resolve q = fs.holderPath p then [name] else []) := by
  obtain ⟨ms, name, i, cs, hnames, -⟩ := write_eq_ok hw
  refine ⟨name, h.resolve_eq_join hnames, fun q n hn => ?_⟩
  have horder := childNames_write hw hnames hn
  have hspot : fs.content? (fs.names (some p)) = none ∧ fs.names q = ms ↔
      fs.node? (some p) = none ∧ fs.resolve q = fs.holderPath p := by
    rw [content?_eq_none_iff, h.resolve_eq_holder_iff, hnames, List.dropLast_concat]
  obtain ⟨root, rfl⟩ := write_eq_root hw
  simp only [hspot] at horder
  exact horder

/-- A text is written where the path above is one of a directory and no directory is in its place.
It is read back under every spelling of the path, nothing else changes its kind or its text, and a
new file comes behind all that its directory held. A write that fails changes nothing, and its error
tells whether nothing or a file is at the path above, or a directory at the path itself. -/
theorem Reachable.write_specified (h : fs.Reachable) (now : Instant) (p text : String) :
    let place := fs.resolve (some p)
    let above := fs.holderPath p
    ((∃ fs', fs.write now (some p) text = .ok fs') ↔ place ≠ "/" ∧ fs.isDir (some above) ∧
      (fs.node? (some place) = none ∨ fs.isFile (some place))) ∧
    (∀ fs', fs.write now (some p) text = .ok fs' →
      (∀ q, fs'.resolve q = fs.resolve q) ∧
      (∀ q, fs.resolve q = place → fs'.read q = .ok text) ∧
      (∀ q, fs.resolve q ≠ place →
        (fs'.node? q).map Node.kind = (fs.node? q).map Node.kind ∧ fs'.read q = fs.read q) ∧
      ∃ name, place = Path.join above name ∧ ∀ q n, fs.node? q = some n →
        (fs'.node? q).map Node.childNames = some (n.childNames ++
          if fs.node? (some place) = none ∧ fs.resolve q = above then [name] else [])) ∧
    (∀ e, fs.write now (some p) text = .error e → fs.apply (.write now (some p) text) = fs) ∧
    (fs.write now (some p) text = .error ⟨some p, .notFound⟩ ↔ fs.node? (some above) = none) ∧
    (fs.write now (some p) text = .error ⟨some p, .notDirectory⟩ ↔ fs.isFile (some above)) ∧
    (fs.write now (some p) text = .error ⟨some p, .isDirectory⟩ ↔
      fs.isDir (some place) ∨ place = "/") := by
  intro place above
  have hwf := h.wellFormed
  have hplace : fs.names (some place) = fs.names (some p) := hwf.names_resolve (some p)
  have habove : fs.names (some above) = (fs.names (some p)).dropLast :=
    names_holderPath (hwf.resolve_isNormal (some p))
  have hnode : fs.node? (some place) = fs.node? (some p) := congrArg fs.root.get? hplace
  have hwritten := write_written fs now (some p) text
  refine ⟨?_, fun fs' hw => ⟨?_, ?_, ?_, ?_⟩, ?_, ?_, ?_, ?_⟩
  · rw [hwritten.ok_iff, ← content?_ne_dir_iff, isDir_iff, hplace, habove]
    constructor
    · rintro ⟨hfolder, hfree⟩
      exact ⟨fun hroot => hfree (hwf.content?_of_root hroot), hfolder, hfree⟩
    · rintro ⟨-, hfolder, hfree⟩
      exact ⟨hfolder, hfree⟩
  · obtain ⟨root, rfl⟩ := write_eq_root hw
    exact fun q => rfl
  · exact fun q hq => hwf.read_written hw hq
  · exact fun q hq => hwf.write_elsewhere hw hq
  · rw [hnode]
    exact hwf.write_order hw
  · intro e he
    rw [apply, he, attempt]
  · rw [hwritten.notFound_iff, ← content?_eq_none_iff, habove]
  · rw [hwritten.notDirectory_iff, isFile_iff_content?, habove]
  · rw [hwritten.isDirectory_iff, isDir_iff, hplace]
    constructor
    · rintro ⟨-, hdir⟩
      exact .inl hdir
    · rintro (hdir | hroot)
      · exact ⟨content?_dropLast_of_dir hdir, hdir⟩
      · have hdir := hwf.content?_of_root hroot
        exact ⟨content?_dropLast_of_dir hdir, hdir⟩

theorem write_specified_spelled :
    let fs := ((empty 0 "/h").startAt "/h").apply (.populate 1 [("/h/a", some "y"), ("/h/d", none)])
    fs.Reachable ∧
    (∃ fs', fs.write 2 (some "~/../h//b") "x" = .ok fs' ∧ fs'.read (some "/h/./b") = .ok "x" ∧
      fs'.read (some "~/a") = fs.read (some "~/a") ∧
      (fs'.node? (some "..//h")).map Node.childNames = some ["a", "d", "b"]) ∧
    fs.write 2 (some "~/a/b") "x" = .error ⟨some "~/a/b", .notDirectory⟩ ∧
    fs.write 2 (some "~/c/b") "x" = .error ⟨some "~/c/b", .notFound⟩ ∧
    fs.write 2 (some "~/d/..") "x" = .error ⟨some "~/d/..", .isDirectory⟩ := by
  intro fs
  have hnew : Reachable ((empty 0 "/h").startAt "/h") := @Reachable.create 0 "/h" [] none _ rfl
  have h : fs.Reachable := hnew.change _
  obtain ⟨hok, heffect, -⟩ := h.write_specified 2 "~/../h//b" "x"
  obtain ⟨-, -, -, -, hfile, -⟩ := h.write_specified 2 "~/a/b" "x"
  obtain ⟨-, -, -, hnothing, -⟩ := h.write_specified 2 "~/c/b" "x"
  obtain ⟨-, -, -, -, -, hdir⟩ := h.write_specified 2 "~/d/.." "x"
  obtain ⟨fs', hw⟩ := hok.mpr ⟨by decide +kernel, by decide +kernel, .inl (by decide +kernel)⟩
  obtain ⟨-, hread, helse, name, hname, horder⟩ := heffect fs' hw
  have hplace : fs.resolve (some "~/../h//b") = "/h/b" := by decide +kernel
  have habove : fs.holderPath "~/../h//b" = "/h" := by decide +kernel
  have hb : name = "b" := by
    rw [hplace, habove, Path.join, if_neg (by decide)] at hname
    have hsplit : "/h" ++ "/" ++ "b" = "/h/b" := by decide +kernel
    exact ((String.append_right_inj _).mp (hsplit.trans hname)).symm
  have hbefore : (fs.node? (some "..//h")).map Node.childNames = some ["a", "d"] := by
    decide +kernel
  obtain ⟨n, hn, hnames⟩ := Option.map_eq_some_iff.mp hbefore
  have hafter : (fs'.node? (some "..//h")).map Node.childNames = some ["a", "d", "b"] := by
    rw [horder _ n hn, hnames, hb, if_pos ⟨by decide +kernel, by decide +kernel⟩]
    rfl
  exact ⟨h, ⟨fs', hw, hread _ (by decide +kernel), (helse _ (by decide +kernel)).2, hafter⟩,
    hfile.mpr (by decide +kernel), hnothing.mpr (by decide +kernel),
    hdir.mpr (.inl (by decide +kernel))⟩

end Shellbox.Filesystem
