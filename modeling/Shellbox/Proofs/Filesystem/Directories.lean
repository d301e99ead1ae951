import Shellbox.Proofs.Filesystem.Making
import Shellbox.Proofs.Filesystem.Writing

/-!
# Making directories

A directory is made where the directory for it is there and nothing is in its place. All that are
missing on the way to a place are made unless a file is on the way; then none is. The new ones hold
just the next on the way, and nothing else changes.
-/

namespace Shellbox.Filesystem

variable {fs fs' : Filesystem} {now : Instant} {path q : Option String} {name : String}
  {ms ks : List String} {result : Except PathError Filesystem}

/-! ## The names in new directories -/

namespace Node

variable {n m made : Node} {i : Info} {cs : List (String × Node)} {s : String} {ns : List String}

theorem childNames_newChain (now : Instant) (s : String) (ns ks : List String) :
    ((newChain now s ns).get? ks).map childNames =
      if ks <+: ns then some ((ns.drop ks.length).take 1) else none := by
  induction ns generalizing s ks with
  | nil =>
      cases ks with
      | nil => rfl
      | cons t ks => simp [newChain, newDir, get?_cons, children]
  | cons u r ih =>
      cases ks with
      | nil => simp [newChain, newDir, addChild, get?, childNames, children, newChain_name]
      | cons t ks =>
          rw [newChain, get?_addChild_cons rfl rfl, newChain_name]
          by_cases ht : t = u
          · subst ht
            simp [ih, List.cons_prefix_cons]
          · simp [ht, newDir, get?_cons, children, List.cons_prefix_cons]

/-- Along the names a new directory holds the next name, and the last directory that was there gets
it behind those that it holds. -/
theorem childNames_ensureDirs (h : n.ensureDirs now ns = some made) (ks : List String) :
    (made.get? ks).map childNames =
      if ks <+: ns then
        some (((n.get? ks).map childNames).getD [] ++
          if n.get? (ns.take (ks.length + 1)) = none then (ns.drop ks.length).take 1 else [])
      else (n.get? ks).map childNames := by
  induction ns generalizing n made ks with
  | nil =>
      cases h
      cases ks with
      | nil => simp [get?]
      | cons t ks => simp
  | cons s r ih =>
      cases n with
      | file i text => simp [ensureDirs] at h
      | dir i cs =>
          simp only [ensureDirs] at h
          split at h
          · rename_i hfree
            cases h
            have hname : (newChain now s r).name = s := newChain_name now s r
            cases ks with
            | nil => simp [addChild, get?, childNames, children, hname, hfree]
            | cons t ks =>
                rw [get?_addChild_cons (by rw [hname]; exact hfree) rfl, hname]
                by_cases ht : t = s
                · subst ht
                  simp [childNames_newChain, get?_cons, children, hfree, List.cons_prefix_cons]
                · simp [ht, List.cons_prefix_cons]
          · cases h
          · rename_i c _ hl
            obtain ⟨made, hmade, rfl⟩ := Option.map_eq_some_iff.mp h
            cases ks with
            | nil => simp [get?, childNames_updateChild, hl]
            | cons t ks =>
                by_cases ht : t = s
                · subst ht
                  simp [get?_cons, children, hl, lookup_updateChild, ih hmade,
                    List.cons_prefix_cons]
                · simp [get?_cons, children, lookup_updateChild, ht, List.cons_prefix_cons]

/-- Directories are made along names only where no file is on the way. -/
theorem isDir_of_ensureDirs (hn : n.isDir) (h : n.ensureDirs now ns = some made) (hks : ks <+: ns)
    (hm : n.get? ks = some m) : m.isDir := by
  induction ns generalizing n made ks with
  | nil =>
      obtain rfl := List.prefix_nil.mp hks
      cases hm
      exact hn
  | cons s r ih =>
      cases ks with
      | nil =>
          cases hm
          exact hn
      | cons t ks =>
          obtain ⟨rfl, hrest⟩ := List.cons_prefix_cons.mp hks
          cases n with
          | file i text => cases hn
          | dir i cs =>
              obtain ⟨c, hl, hc⟩ := Option.bind_eq_some_iff.mp hm
              cases c with
              | file j text => simp [ensureDirs, hl] at h
              | dir j ds =>
                  simp only [ensureDirs, hl] at h
                  obtain ⟨made, hmade, -⟩ := Option.map_eq_some_iff.mp h
                  exact ih rfl hmade hrest hc

end Node

/-! ## Paths on the way to a place -/

/-- The place itself, or a path from which it lies below. -/
def Path.OnWay (q place : String) : Prop := q = place ∨ Path.IsBelow q place

instance (q place : String) : Decidable (Path.OnWay q place) :=
  inferInstanceAs (Decidable (_ ∨ _))

/-- The name by which the way from a path goes on to a place; at the place there is none. -/
def Path.nextNames (q place : String) : List String :=
  ((Path.segments place).drop (Path.segments q).length).take 1

theorem WellFormed.onWay_iff (h : fs.WellFormed) (q path : Option String) :
    Path.OnWay (fs.resolve q) (fs.resolve path) ↔ fs.names q <+: fs.names path := by
  constructor
  · rintro (heq | ⟨-, rest, -, hrest⟩)
    · have hnames : fs.names q = fs.names path := (h.names_eq_iff path q).mpr heq
      exact ⟨[], by rw [List.append_nil, hnames]⟩
    · exact ⟨rest, hrest.symm⟩
  · rintro ⟨rest, hrest⟩
    by_cases hnil : rest = []
    · rw [hnil, List.append_nil] at hrest
      exact .inl ((h.names_eq_iff path q).mp hrest)
    · exact .inr ⟨h.resolve_isNormal path, rest, hnil, hrest.symm⟩

/-- What is at a path is of the same kind as before, and a file holds the same text. -/
def SameAt (fs fs' : Filesystem) (q : Option String) : Prop :=
  (fs'.node? q).map Node.kind = (fs.node? q).map Node.kind ∧ fs'.read q = fs.read q

theorem sameAt_of_content? {root : Node}
    (h : content? { fs with root } (fs.names q) = fs.content? (fs.names q)) :
    SameAt fs { fs with root } q := by
  have hnames : names { fs with root } q = fs.names q := rfl
  exact ⟨by rw [node?_kind, node?_kind, hnames, h], by rw [read_eq, read_eq, hnames, h]⟩

/-! ## All directories on the way -/

/-- The directories on the way to a place are made just if no file is on it. -/
theorem WellFormed.makeDirectories_eq_ok_iff (h : fs.WellFormed) (now : Instant)
    (path : Option String) :
    (∃ fs', fs.makeDirectories now path = .ok fs') ↔
      ∀ ks text, ks <+: fs.names path → fs.content? ks ≠ some (some text) := by
  constructor
  · rintro ⟨fs', hm⟩ ks text hks hfile
    obtain ⟨root, hroot, -⟩ := makeDirectories_eq_ok hm
    obtain ⟨i, hget⟩ := content?_eq_file_iff.mp hfile
    have hdir := Node.isDir_of_ensureDirs h.isDir_root hroot hks hget
    cases hdir
  · intro hclear
    obtain ⟨root, hm, -⟩ := makeDirectories_content? now hclear
    exact ⟨_, hm⟩

theorem makeDirectories_eq_error (h : fs.makeDirectories now path = .error e) :
    e = ⟨path, .notDirectory⟩ := by
  unfold makeDirectories at h
  split at h
  · cases h
    rfl
  · cases h

theorem WellFormed.makeDirectories_eq_error_iff (h : fs.WellFormed) (now : Instant)
    (path : Option String) (e : PathError) :
    fs.makeDirectories now path = .error e ↔ e = ⟨path, .notDirectory⟩ ∧
      ∃ q, Path.OnWay (fs.resolve q) (fs.resolve path) ∧ fs.isFile q := by
  have hok := h.makeDirectories_eq_ok_iff now path
  constructor
  · intro he
    refine ⟨makeDirectories_eq_error he, ?_⟩
    obtain ⟨ks, text, hks, hfile⟩ : ∃ ks text, ks <+: fs.names path ∧
        fs.content? ks = some (some text) := by
      by_contra hnone
      obtain ⟨fs', hm⟩ := hok.mpr fun ks text hks hfile => hnone ⟨ks, text, hks, hfile⟩
      rw [he] at hm
      cases hm
    have hnames : fs.names (some (Path.render ks)) = ks :=
      names_render fs fun s hs => h.names_isName path s (hks.subset hs)
    refine ⟨some (Path.render ks), ?_, ?_⟩
    · rw [h.onWay_iff, hnames]
      exact hks
    · rw [isFile_iff_content?, hnames]
      exact ⟨text, hfile⟩
  · rintro ⟨rfl, q, hway, hfile⟩
    rw [h.onWay_iff] at hway
    obtain ⟨text, hcontent⟩ := isFile_iff_content?.mp hfile
    cases hm : fs.makeDirectories now path with
    | error e => rw [makeDirectories_eq_error hm]
    | ok fs' => exact absurd hcontent (hok.mp ⟨fs', hm⟩ _ text hway)

/-- All directories on the way to a place are there; the new ones hold just the next on the way, and
nothing else changes but that the last of the others gets the first of them behind its children. -/
structure PavesWay (fs fs' : Filesystem) (place : String) : Prop where
  resolve_eq : ∀ q, fs'.resolve q = fs.resolve q
  isDir : ∀ q, Path.OnWay (fs.resolve q) place → fs'.isDir q
  made : ∀ q, fs.node? q = none → Path.OnWay (fs.resolve q) place →
    (fs'.node? q).map Node.childNames = some (Path.nextNames (fs.resolve q) place)
  kept : ∀ q, ¬ (fs.node? q = none ∧ Path.OnWay (fs.resolve q) place) → SameAt fs fs' q
  order : ∀ q n, fs.node? q = some n →
    ∃ added, (fs'.node? q).map Node.childNames = some (n.childNames ++ added)

theorem WellFormed.makeDirectories_pavesWay (h : fs.WellFormed)
    (hm : fs.makeDirectories now path = .ok fs') : PavesWay fs fs' (fs.resolve path) := by
  have hclear := (h.makeDirectories_eq_ok_iff now path).mp ⟨fs', hm⟩
  obtain ⟨root, hmade, hcontent⟩ := makeDirectories_content? now hclear
  obtain rfl := Except.ok.inj (hm.symm.trans hmade)
  obtain ⟨root', hroot, heq⟩ := makeDirectories_eq_ok hm
  obtain rfl : root = root' := congrArg Filesystem.root heq
  have hnode (q : Option String) : node? { fs with root } q = root.get? (fs.names q) := rfl
  refine ⟨fun q => rfl, fun q hway => ?_, fun q hq hway => ?_, fun q hq => ?_, fun q n hn => ?_⟩
  · rw [isDir_iff]
    exact (hcontent _).trans (if_pos ((h.onWay_iff q path).mp hway))
  · have hway := (h.onWay_iff q path).mp hway
    have hnone : fs.root.get? (fs.names q) = none := hq
    have hnext : fs.root.get? ((fs.names path).take ((fs.names q).length + 1)) = none :=
      Node.get?_eq_none_of_prefix hnone (List.prefix_take_iff.mpr ⟨hway, Nat.le_succ _⟩)
    rw [hnode, Node.childNames_ensureDirs hroot, if_pos hway, hnone, if_pos hnext]
    rfl
  · refine sameAt_of_content? ?_
    rw [hcontent]
    split
    · rename_i hway
      cases hfound : fs.content? (fs.names q) with
      | none => exact absurd ⟨content?_eq_none_iff.mp hfound, (h.onWay_iff q path).mpr hway⟩ hq
      | some found =>
          cases found with
          | none => rfl
          | some text => exact absurd hfound (hclear _ text hway)
    · rfl
  · have hsome : fs.root.get? (fs.names q) = some n := hn
    rw [hnode, Node.childNames_ensureDirs hroot, hsome]
    split
    · exact ⟨_, rfl⟩
    · exact ⟨[], by simp⟩

/-! ## A single directory -/

/-- All that making one directory can come to. -/
inductive Founded (fs : Filesystem) (path : Option String) : Except PathError Filesystem → Prop
  | done {after} (hfolder : fs.content? (fs.names path).dropLast = some none)
      (hplace : fs.content? (fs.names path) = none) : Founded fs path (.ok after)
  | noFolder (hfolder : fs.content? (fs.names path).dropLast = none) :
      Founded fs path (.error ⟨path, .notFound⟩)
  | fileForFolder {old} (hfolder : fs.content? (fs.names path).dropLast = some (some old)) :
      Founded fs path (.error ⟨path, .notDirectory⟩)
  | taken (hfolder : fs.content? (fs.names path).dropLast = some none)
      (hplace : fs.content? (fs.names path) ≠ none) : Founded fs path (.error ⟨path, .alreadyExists⟩)

theorem makeDirectory_founded (fs : Filesystem) (now : Instant) (path : Option String) :
    Founded fs path (fs.makeDirectory now path) := by
  cases fs.site path with
  | root hnames =>
      have habove : fs.content? (fs.names path).dropLast = some fs.root.record.text := by
        rw [hnames, List.dropLast_nil, content?_eq_map, Node.get?, Option.map_some]
      have hplace : fs.content? (fs.names path) ≠ none := by
        rw [hnames, content?_eq_map, Node.get?, Option.map_some]
        exact Option.some_ne_none _
      simp only [makeDirectory, siblings, hnames, List.dropLast_nil, Node.get?, List.getLast?_nil]
      generalize fs.root = root at habove
      cases root with
      | file i old => exact .fileForFolder habove
      | dir i cs => exact .taken habove hplace
  | noFolder hnames hfolder =>
      simp only [makeDirectory, siblings_of_none hnames hfolder]
      exact .noFolder (by rw [content?_above hnames, hfolder, Option.map_none])
  | fileForFolder hnames hfolder =>
      simp only [makeDirectory, siblings_of_file hnames hfolder]
      exact .fileForFolder (by rw [content?_above hnames, hfolder]; rfl)
  | free hnames hfolder hplace =>
      have hfree : fs.content? (fs.names path) = none := by
        rw [hnames, content?_concat hfolder, hplace, Option.map_none]
      simp only [makeDirectory, siblings_concat hnames hfolder, hnames, List.getLast?_concat, hplace]
      exact .done (content?_above_dir hnames hfolder) hfree
  | taken hnames hfolder hplace =>
      have htaken : fs.content? (fs.names path) ≠ none := by
        rw [hnames, content?_concat hfolder, hplace, Option.map_some]
        exact Option.some_ne_none _
      simp only [makeDirectory, siblings_concat hnames hfolder, hnames, List.getLast?_concat, hplace]
      exact .taken (content?_above_dir hnames hfolder) htaken

theorem Founded.path_of_error {e : PathError} (h : Founded fs path (.error e)) : e.path = path := by
  cases h <;> rfl

theorem Founded.ok_iff (h : Founded fs path result) :
    (∃ fs', result = .ok fs') ↔ fs.content? (fs.names path).dropLast = some none ∧
      fs.content? (fs.names path) = none := by
  cases h with
  | done hfolder hplace => simp [hfolder, hplace]
  | noFolder hfolder => simp [hfolder]
  | fileForFolder hfolder => simp [hfolder]
  | taken hfolder hplace => simp [hplace]

theorem Founded.notFound_iff (h : Founded fs path result) :
    result = .error ⟨path, .notFound⟩ ↔ fs.content? (fs.names path).dropLast = none := by
  cases h with
  | done hfolder hplace => simp [hfolder]
  | noFolder hfolder => simp [hfolder]
  | fileForFolder hfolder => simp [hfolder]
  | taken hfolder hplace => simp [hfolder]

theorem Founded.notDirectory_iff (h : Founded fs path result) :
    result = .error ⟨path, .notDirectory⟩ ↔
      ∃ old, fs.content? (fs.names path).dropLast = some (some old) := by
  cases h with
  | done hfolder hplace => simp [hfolder]
  | noFolder hfolder => simp [hfolder]
  | fileForFolder hfolder => simp [hfolder]
  | taken hfolder hplace => simp [hfolder]

theorem Founded.alreadyExists_iff (h : Founded fs path result) :
    result = .error ⟨path, .alreadyExists⟩ ↔
      fs.content? (fs.names path).dropLast = some none ∧ fs.content? (fs.names path) ≠ none := by
  cases h with
  | done hfolder hplace => simp [hplace]
  | noFolder hfolder => simp [hfolder]
  | fileForFolder hfolder => simp [hfolder]
  | taken hfolder hplace => simp [hfolder, hplace]

/-- Whatever is there is in a directory; the root counts as its own. -/
theorem WellFormed.content?_dropLast (h : fs.WellFormed) (hks : fs.content? ks ≠ none) :
    fs.content? ks.dropLast = some none := by
  rcases List.eq_nil_or_concat' ks with rfl | ⟨ms, name, rfl⟩
  · exact h.content?_root
  · rw [List.dropLast_concat]
    exact content?_of_concat hks

/-- There is one directory more, an empty one behind all that the directory for it held; nothing
else changes. -/
structure AddsDirectory (fs fs' : Filesystem) (p : String) : Prop where
  resolve_eq : ∀ q, fs'.resolve q = fs.resolve q
  made : ∀ q, fs.resolve q = fs.resolve (some p) → ∃ i, fs'.node? q = some (.dir i [])
  kept : ∀ q, fs.resolve q ≠ fs.resolve (some p) → SameAt fs fs' q
  order : ∃ name, fs.resolve (some p) = Path.join (fs.holderPath p) name ∧
    ∀ q n, fs.node? q = some n → (fs'.node? q).map Node.childNames = some (n.childNames ++
      if fs.resolve q = fs.holderPath p then [name] else [])

theorem WellFormed.makeDirectory_addsDirectory {p : String} (h : fs.WellFormed)
    (hm : fs.makeDirectory now (some p) = .ok fs') : AddsDirectory fs fs' p := by
  obtain ⟨ms, name, i, cs, hnames, hd, hfree, rfl⟩ := makeDirectory_eq_ok hm
  have hnew : cs.lookup (Node.newDir now name).name = none := hfree
  refine ⟨fun q => rfl, fun q hq => ?_, fun q hq => sameAt_of_content? ?_,
    name, h.resolve_eq_join hnames, fun q n hn => ?_⟩
  · have hq : fs.names q = ms ++ [name] := hnames ▸ (h.names_eq_iff (some p) q).mpr hq
    exact ⟨_, (congrArg _ hq).trans (Node.get?_addChild hd hfree rfl now)⟩
  · have hq : fs.names q ≠ ms ++ [name] := hnames ▸ fun heq => hq ((h.names_eq_iff (some p) q).mp heq)
    exact (content?_addLeaf rfl hd hnew now _).trans (if_neg hq)
  · have hspot : fs.names q = ms ↔ fs.resolve q = fs.holderPath p := by
      rw [h.resolve_eq_holder_iff, hnames, List.dropLast_concat]
    simp only [← hspot]
    exact Node.childNames_addLeaf hd now hn

/-- Making directories is all or nothing. Along a whole way it fails just if a file is on the way,
and making them one after another then leaves the filesystem untouched; else they are all there. A
single one is made just where the directory for it is there and nothing is in its place; the error
tells whether nothing or a file is at the path above, or something at the path itself. -/
theorem Reachable.makeDirectory_specified (h : fs.Reachable) (now : Instant) (p : String) :
    let place := fs.resolve (some p)
    let above := fs.holderPath p
    (fs.makeInTurn now (some p) = fs.attempt (fs.makeDirectories now (some p)) ∧
      (∀ e, fs.makeDirectories now (some p) = .error e ↔ e = ⟨some p, .notDirectory⟩ ∧
        ∃ q, Path.OnWay (fs.resolve q) place ∧ fs.isFile q) ∧
      (∀ e, fs.makeDirectories now (some p) = .error e →
        fs.makeInTurn now (some p) = (fs, .error e)) ∧
      ∀ fs', fs.makeDirectories now (some p) = .ok fs' → PavesWay fs fs' place) ∧
    ((∃ fs', fs.makeDirectory now (some p) = .ok fs') ↔
      place ≠ "/" ∧ fs.node? (some place) = none ∧ fs.isDir (some above)) ∧
    (∀ fs', fs.makeDirectory now (some p) = .ok fs' → AddsDirectory fs fs' p) ∧
    (∀ e, fs.makeDirectory now (some p) = .error e →
      fs.apply (.makeDirectory now (some p)) = fs) ∧
    (fs.makeDirectory now (some p) = .error ⟨some p, .notFound⟩ ↔ fs.node? (some above) = none) ∧
    (fs.makeDirectory now (some p) = .error ⟨some p, .notDirectory⟩ ↔ fs.isFile (some above)) ∧
    (fs.makeDirectory now (some p) = .error ⟨some p, .alreadyExists⟩ ↔
      fs.pathExists (some place)) := by
  intro place above
  have hwf := h.wellFormed
  have hplace : fs.names (some place) = fs.names (some p) := hwf.names_resolve (some p)
  have habove : fs.names (some above) = (fs.names (some p)).dropLast :=
    names_holderPath (hwf.resolve_isNormal (some p))
  have hturn := hwf.makeInTurn_eq now (some p)
  have hfounded := makeDirectory_founded fs now (some p)
  refine ⟨⟨hturn, hwf.makeDirectories_eq_error_iff now (some p), fun e he => ?_,
    fun fs' hm => hwf.makeDirectories_pavesWay hm⟩, ?_,
    fun fs' hm => hwf.makeDirectory_addsDirectory hm, fun e he => ?_, ?_, ?_, ?_⟩
  · rw [hturn, he, attempt]
  · rw [hfounded.ok_iff, ← content?_eq_none_iff, isDir_iff, hplace, habove]
    constructor
    · rintro ⟨hfolder, hfree⟩
      refine ⟨fun hroot => ?_, hfree, hfolder⟩
      rw [hwf.content?_of_root hroot] at hfree
      cases hfree
    · rintro ⟨-, hfree, hfolder⟩
      exact ⟨hfolder, hfree⟩
  · rw [apply, he, attempt]
  · rw [hfounded.notFound_iff, ← content?_eq_none_iff, habove]
  · rw [hfounded.notDirectory_iff, isFile_iff_content?, habove]
  · have hthere : fs.pathExists (some place) ↔ fs.content? (fs.names (some p)) ≠ none := by
      rw [pathExists, Option.isSome_iff_ne_none, ← hplace]
      exact content?_eq_none_iff.not.symm
    rw [hfounded.alreadyExists_iff, hthere]
    exact and_iff_right_of_imp hwf.content?_dropLast

theorem makeDirectory_specified_spelled :
    let fs := (((empty 0 "/h").startAt "/h").apply
      (.populate 1 [("~/a", some "y"), ("~/d", none)])).apply (.changeDirectory none)
    fs.Reachable ∧
    fs.makeInTurn 2 (some "d/../a/b/c") = (fs, .error ⟨some "d/../a/b/c", .notDirectory⟩) ∧
    (∃ fs', fs.makeDirectories 2 (some "~/d/x//./y") = .ok fs' ∧ fs'.isDir (some "/h/d/x") ∧
      (fs'.node? (some "d/x")).map Node.childNames = some ["y"] ∧
      (fs'.node? (some "d/x/y")).map Node.childNames = some [] ∧
      fs'.read (some "a") = fs.read (some "a")) ∧
    (∃ fs', fs.makeDirectory 2 (some "../h/e") = .ok fs' ∧
      (fs'.node? (some "~")).map Node.childNames = some ["a", "d", "e"]) ∧
    fs.makeDirectory 2 (some "x/y") = .error ⟨some "x/y", .notFound⟩ ∧
    fs.makeDirectory 2 (some "a/y") = .error ⟨some "a/y", .notDirectory⟩ ∧
    fs.makeDirectory 2 (some "d/../..") = .error ⟨some "d/../..", .alreadyExists⟩ := by
  intro fs
  have hnew : Reachable ((empty 0 "/h").startAt "/h") := @Reachable.create 0 "/h" [] none _ rfl
  have h : fs.Reachable := (hnew.change _).change _
  obtain ⟨⟨-, hiff, hfails, -⟩, -⟩ := h.makeDirectory_specified 2 "d/../a/b/c"
  obtain ⟨⟨-, -, -, hpaves⟩, -⟩ := h.makeDirectory_specified 2 "~/d/x//./y"
  obtain ⟨-, hok, hadds, -⟩ := h.makeDirectory_specified 2 "../h/e"
  obtain ⟨-, -, -, -, hnothing, -⟩ := h.makeDirectory_specified 2 "x/y"
  obtain ⟨-, -, -, -, -, hfile, -⟩ := h.makeDirectory_specified 2 "a/y"
  obtain ⟨-, -, -, -, -, -, hthere⟩ := h.makeDirectory_specified 2 "d/../.."
  have hfailure := hfails _ ((hiff _).mpr ⟨rfl, some "/h/a", by decide +kernel, by decide +kernel⟩)
  obtain ⟨paved, hpaved⟩ : ∃ fs', fs.makeDirectories 2 (some "~/d/x//./y") = .ok fs' := by
    have hdone : (fs.makeDirectories 2 (some "~/d/x//./y")).toOption.isSome := by decide +kernel
    cases hm : fs.makeDirectories 2 (some "~/d/x//./y") with
    | error e => simp [hm, Except.toOption] at hdone
    | ok fs' => exact ⟨fs', rfl⟩
  have hway := hpaves paved hpaved
  obtain ⟨added, hadded⟩ := hok.mpr ⟨by decide +kernel, by decide +kernel, by decide +kernel⟩
  obtain ⟨name, hname, horder⟩ := (hadds added hadded).order
  have hplace : fs.resolve (some "../h/e") = Path.join (fs.holderPath "../h/e") "e" := by
    decide +kernel
  have he : name = "e" := Path.join_inj.mp (hname.symm.trans hplace)
  have hbefore : (fs.node? (some "~")).map Node.childNames = some ["a", "d"] := by decide +kernel
  obtain ⟨n, hn, hnames⟩ := Option.map_eq_some_iff.mp hbefore
  have hafter : (added.node? (some "~")).map Node.childNames = some ["a", "d", "e"] := by
    rw [horder _ n hn, hnames, he, if_pos (by decide +kernel)]
    rfl
  refine ⟨h, hfailure, ⟨paved, hpaved, hway.isDir _ (by decide +kernel), ?_, ?_, ?_⟩,
    ⟨added, hadded, hafter⟩, hnothing.mpr (by decide +kernel), hfile.mpr (by decide +kernel),
    hthere.mpr (by decide +kernel)⟩
  · exact (hway.made _ (by decide +kernel) (by decide +kernel)).trans (by decide +kernel)
  · exact (hway.made _ (by decide +kernel) (by decide +kernel)).trans (by decide +kernel)
  · exact (hway.kept _ (by decide +kernel)).2

end Shellbox.Filesystem
