import Shellbox.Proofs.Filesystem.Directories

/-!
# Taking a node away

A removal takes away the node at its path with all that is below it, and every other path leads
where it led before; the names beside it keep their order. So a removal right behind the making of
a file or of a directory leaves of both no more than a time. Why a removal fails is told by the nodes
at the path and at the path above it.
-/

namespace Shellbox.Filesystem

variable {fs fs' made : Filesystem} {now earlier : Instant} {path : Option String} {p name : String}
  {ms ks : List String} {recursive : Bool}

/-! ## The names beside a node -/

namespace Node

variable {n m leaf : Node} {i : Info} {cs : List (String × Node)} {s : String} {ns : List String}

theorem children_removeChild (now : Instant) (s : String) (n : Node) :
    (removeChild now s n).children = n.children.filter (·.1 ≠ s) := by
  cases n with
  | file i text => rfl
  | dir i cs => rfl

/-- Where a child is removed its name goes, and the others keep their order. -/
theorem childNames_removeChild (now : Instant) (s : String) (hm : n.get? ks = some m)
    (h : ¬ ms ++ [s] <+: ks) :
    ((n.modifyAt (removeChild now s) ms).get? ks).map childNames =
      some (if ks = ms then m.childNames.filter (· ≠ s) else m.childNames) := by
  by_cases hms : ms <+: ks
  · obtain ⟨r, rfl⟩ := hms
    rw [get?_append] at hm
    obtain ⟨d, hd, hm⟩ := Option.bind_eq_some_iff.mp hm
    rw [get?_modifyAt, hd, Option.bind_some]
    cases r with
    | nil =>
        cases hm
        rw [if_pos (List.append_nil ms), get?, Option.map_some, childNames, children_removeChild,
          childNames, List.filter_map]
        rfl
    | cons t r =>
        have ht : t ≠ s := by
          rintro rfl
          exact h ⟨r, by simp⟩
        rw [get?_cons, children_removeChild, lookup_filter_ne, if_neg ht, ← get?_cons, hm]
        simp
  · have hne : ks ≠ ms := fun heq => hms (heq ▸ List.prefix_rfl)
    rw [get?_modifyAt_apart childNames_updateChild hms, hm, if_neg hne, Option.map_some]

theorem goes_iff (n : Node) (recursive : Bool) :
    n.children = [] ∨ recursive ↔ n.isFile ∨ n.childNames = [] ∨ recursive := by
  cases n <;> simp [isFile, childNames, children]

theorem stays_iff (n : Node) (recursive : Bool) :
    ¬ (n.children = [] ∨ recursive) ↔ n.isDir ∧ n.childNames ≠ [] ∧ recursive = false := by
  cases n <;> simp [isDir, childNames, children]

/-- A child that is added and removed again leaves its directory as it was, but for the time. -/
theorem removeChild_addChild (hn : n.WellFormed) (hd : n.get? ms = some (.dir i cs))
    (hfree : cs.lookup leaf.name = none) (earlier now : Instant) :
    (n.modifyAt (addChild earlier leaf) ms).modifyAt (removeChild now leaf.name) ms =
      n.modifyAt (touch now) ms := by
  have hothers : cs.filter (·.1 ≠ leaf.name) = cs := by
    refine List.filter_eq_self.mpr fun q hq => ?_
    have hne := List.lookup_eq_none_iff.mp hfree q hq
    exact decide_eq_true (bne_iff_ne.mp hne).symm
  have hboth : removeChild now leaf.name (addChild earlier leaf (dir i cs)) =
      touch now (dir i cs) := by
    rw [addChild, removeChild, List.filter_append, hothers]
    simp [touch, withInfo]
  rw [modifyAt_modifyAt, modifyAt_eq hn hd, hboth, ← modifyAt_eq hn hd]

end Node

/-! ## Additions taken back -/

/-- A node without children that was put into a directory is taken out again. -/
theorem WellFormed.remove_addLeaf {leaf : Node} {i : Info} {cs : List (String × Node)}
    (h : fs.WellFormed) (hnames : fs.names path = ms ++ [leaf.name])
    (hd : fs.root.get? ms = some (.dir i cs)) (hfree : cs.lookup leaf.name = none)
    (hleaf : leaf.children = []) (earlier now : Instant) (recursive : Bool) :
    (fs.modifyAt ms (.addChild earlier leaf)).remove now path recursive =
      .ok (fs.modifyAt ms (.touch now)) := by
  have hnode : (fs.modifyAt ms (.addChild earlier leaf)).node? path = some leaf :=
    (congrArg _ hnames).trans (Node.get?_addChild hd hfree rfl earlier)
  have hok := (remove_removed (fs.modifyAt ms (.addChild earlier leaf)) now path recursive).ok_iff
  obtain ⟨after, hafter⟩ := hok.mpr
    ⟨hnames ▸ List.append_ne_nil_of_right_ne_nil ms (by simp), leaf, hnode, .inl hleaf⟩
  obtain ⟨ms', name, -, -, hnames', -, -, rfl⟩ := remove_eq_ok hafter
  obtain ⟨rfl, hname⟩ := List.append_inj' (hnames.symm.trans hnames') rfl
  obtain rfl := (List.cons.inj hname).1
  have hroot := Node.removeChild_addChild h.tree hd hfree earlier now
  rw [hafter, Filesystem.modifyAt, Filesystem.modifyAt, hroot, ← Filesystem.modifyAt]

theorem WellFormed.remove_written {text : String} {q : Option String} (h : fs.WellFormed)
    (hw : fs.write earlier q text = .ok made) (hq : fs.names path = fs.names q)
    (habsent : fs.node? path = none) (now : Instant) (recursive : Bool) :
    made.remove now path recursive = .ok (fs.modifyAt (fs.names path).dropLast (.touch now)) := by
  obtain ⟨ms, name, i, cs, hnames, hd, hplace⟩ := write_eq_ok hw
  rw [← hq] at hnames
  have hfree : cs.lookup name = none := (node?_of_dir hnames hd).symm.trans habsent
  rcases hplace with ⟨-, rfl⟩ | ⟨j, old, hold, -⟩
  · have hnew : cs.lookup (Node.newFile earlier name text).name = none := hfree
    rw [h.remove_addLeaf hnames hd hnew rfl, hnames, List.dropLast_concat]
  · rw [hfree] at hold
    cases hold

theorem WellFormed.remove_made {q : Option String} (h : fs.WellFormed)
    (hm : fs.makeDirectory earlier q = .ok made) (hq : fs.names path = fs.names q)
    (now : Instant) (recursive : Bool) :
    made.remove now path recursive = .ok (fs.modifyAt (fs.names path).dropLast (.touch now)) := by
  obtain ⟨ms, name, i, cs, hnames, hd, hfree, rfl⟩ := makeDirectory_eq_ok hm
  rw [← hq] at hnames
  have hnew : cs.lookup (Node.newDir earlier name).name = none := hfree
  rw [h.remove_addLeaf hnames hd hnew rfl, hnames, List.dropLast_concat]

theorem childNames_touchNode (fs : Filesystem) (now : Instant) (path q : Option String) :
    ((fs.touchNode now path).node? q).map Node.childNames = (fs.node? q).map Node.childNames :=
  Node.childNames_modifyAt_flat (fun m _ => by cases m <;> rfl) (fs.names q)

/-! ## In the words of paths -/

theorem missing_iff {above : Option String} (habove : fs.names above = (fs.names path).dropLast) :
    fs.Missing path ↔
      fs.node? above = none ∨ fs.isDir above ∧ fs.node? path = none := by
  have hnode : fs.node? above = fs.root.get? (fs.names path).dropLast := congrArg fs.root.get? habove
  rw [Missing, isDir, hnode]
  cases hfolder : fs.root.get? (fs.names path).dropLast with
  | none =>
      have hnone : fs.node? path = none :=
        Node.get?_eq_none_of_prefix hfolder (List.dropLast_prefix _)
      simp [hnone]
  | some d => simp [and_comm]

theorem WellFormed.misplaced_iff {above : Option String} (h : fs.WellFormed)
    (habove : fs.names above = (fs.names path).dropLast) :
    fs.Misplaced path ↔ fs.isFile above := by
  rw [Misplaced, isFile, node?, habove]
  refine and_iff_right_of_imp fun hfile hnil => ?_
  rw [hnil, List.dropLast_nil, Node.get?, Option.any_some] at hfile
  have hdir := h.isDir_root
  generalize fs.root = root at hfile hdir
  cases root with
  | file i text => cases hdir
  | dir i cs => cases hfile

/-- Nothing is at the place or below it, and nothing else changes but that the directory that held
it is without its name. -/
structure TakesAway (fs fs' : Filesystem) (p : String) : Prop where
  resolve_eq : ∀ q, fs'.resolve q = fs.resolve q
  gone : ∀ q, Path.OnWay (fs.resolve (some p)) (fs.resolve q) → fs'.node? q = none
  kept : ∀ q, ¬ Path.OnWay (fs.resolve (some p)) (fs.resolve q) → SameAt fs fs' q
  order : ∃ name, fs.resolve (some p) = Path.join (fs.holderPath p) name ∧
    ∀ q n, ¬ Path.OnWay (fs.resolve (some p)) (fs.resolve q) → fs.node? q = some n →
      (fs'.node? q).map Node.childNames = some (if fs.resolve q = fs.holderPath p
        then n.childNames.filter (· ≠ name) else n.childNames)

theorem WellFormed.remove_takesAway (h : fs.WellFormed)
    (hr : fs.remove now (some p) recursive = .ok fs') : TakesAway fs fs' p := by
  have hcontent := remove_content? hr
  obtain ⟨ms, name, i, cs, hnames, -, -, rfl⟩ := remove_eq_ok hr
  refine ⟨fun q => rfl, fun q hway => ?_, fun q hway => sameAt_of_content? ?_,
    name, h.resolve_eq_join hnames, fun q n hway hn => ?_⟩
  · rw [h.onWay_iff] at hway
    exact content?_eq_none_iff.mp ((hcontent (fs.names q)).trans (if_pos hway))
  · rw [h.onWay_iff] at hway
    exact (hcontent (fs.names q)).trans (if_neg hway)
  · rw [h.onWay_iff, hnames] at hway
    have hspot : fs.names q = ms ↔ fs.resolve q = fs.holderPath p := by
      rw [h.resolve_eq_holder_iff, hnames, List.dropLast_concat]
    simp only [← hspot]
    exact Node.childNames_removeChild now name hn hway

/-- A removal takes its node away where it is a file, holds nothing or may go with all that it
holds, but never the root. A file or a directory that was made before leaves nothing but a time on
the directory that held it. A removal that fails changes nothing, and its error tells whether it was
to take the root, whether nothing or a file is at the path above, whether nothing is at the path
itself, or a directory that holds something. -/
theorem Reachable.remove_specified (h : fs.Reachable) (now : Instant) (p : String)
    (recursive : Bool) :
    let place := fs.resolve (some p)
    let above := fs.holderPath p
    ((∃ fs', fs.remove now (some p) recursive = .ok fs') ↔ place ≠ "/" ∧
      ∃ n, fs.node? (some place) = some n ∧ (n.isFile ∨ n.childNames = [] ∨ recursive)) ∧
    (∀ fs', fs.remove now (some p) recursive = .ok fs' → TakesAway fs fs' p) ∧
    (∀ earlier q made, fs.resolve q = place → fs.node? (some place) = none →
      (∃ text, fs.write earlier q text = .ok made) ∨ fs.makeDirectory earlier q = .ok made →
      made.remove now (some p) recursive = .ok (fs.touchNode now (some above)) ∧
      ∀ q, ((fs.touchNode now (some above)).node? q).map Node.childNames =
        (fs.node? q).map Node.childNames) ∧
    (∀ e, fs.remove now (some p) recursive = .error e →
      fs.apply (.remove now (some p) recursive) = fs) ∧
    (fs.remove now (some p) recursive = .error ⟨some p, .notPermitted⟩ ↔ place = "/") ∧
    (fs.remove now (some p) recursive = .error ⟨some p, .notDirectory⟩ ↔
      fs.isFile (some above)) ∧
    (fs.remove now (some p) recursive = .error ⟨some p, .notFound⟩ ↔
      fs.node? (some above) = none ∨ fs.isDir (some above) ∧ fs.node? (some place) = none) ∧
    (fs.remove now (some p) recursive = .error ⟨some p, .notEmpty⟩ ↔ place ≠ "/" ∧
      ∃ n, fs.node? (some place) = some n ∧ n.isDir ∧ n.childNames ≠ [] ∧ recursive = false) := by
  intro place above
  have hwf := h.wellFormed
  have hplace : fs.names (some place) = fs.names (some p) := hwf.names_resolve (some p)
  have hnode : fs.node? (some place) = fs.node? (some p) := congrArg fs.root.get? hplace
  have habove : fs.names (some above) = (fs.names (some p)).dropLast :=
    names_holderPath (hwf.resolve_isNormal (some p))
  have hroot : fs.names (some p) = [] ↔ place = "/" :=
    Path.segments_eq_nil_iff (hwf.resolve_isNormal (some p))
  have hremoved := remove_removed fs now (some p) recursive
  refine ⟨?_, fun fs' hr => hwf.remove_takesAway hr, fun earlier q made hq habsent hmade => ⟨?_, ?_⟩,
    fun e he => ?_, ?_, ?_, ?_, ?_⟩
  · simp only [hremoved.ok_iff, Removable, Ne, hroot, hnode, Node.goes_iff]
  · have hq : fs.names (some p) = fs.names q := (hwf.names_eq_iff q (some p)).mpr hq.symm
    rw [hnode] at habsent
    rw [touchNode, habove]
    rcases hmade with ⟨text, hw⟩ | hm
    · exact hwf.remove_written hw hq habsent now recursive
    · exact hwf.remove_made hm hq now recursive
  · exact fs.childNames_touchNode now (some above)
  · rw [apply, he, attempt]
  · rw [hremoved.notPermitted_iff, hroot]
  · rw [hremoved.notDirectory_iff, hwf.misplaced_iff habove]
  · rw [hremoved.notFound_iff, missing_iff habove, hnode]
  · simp only [hremoved.notEmpty_iff, Holding, Ne, hroot, hnode, Node.stays_iff]

theorem remove_specified_spelled :
    let fs := (((empty 0 "/h").startAt "/h").apply
      (.populate 1 [("~/a", some "y"), ("~/ab", some "z"), ("~/d/e", none)])).apply
      (.changeDirectory none)
    fs.Reachable ∧
    (∃ fs', fs.remove 2 (some ".//a/../a") false = .ok fs' ∧ fs'.node? (some "~/a/b") = none ∧
      fs'.read (some "/h/ab") = .ok "z" ∧
      (fs'.node? (some "d/..")).map Node.childNames = some ["ab", "d"]) ∧
    (∃ made, fs.write 2 (some "d/e/../x") "new" = .ok made ∧
      made.read (some "~/d/x") = .ok "new" ∧
      made.remove 3 (some "/h/d/x") false = .ok (fs.touchNode 3 (some "/h/d"))) ∧
    fs.remove 2 (some "../..") true = .error ⟨some "../..", .notPermitted⟩ ∧
    fs.remove 2 (some "a/x") true = .error ⟨some "a/x", .notDirectory⟩ ∧
    fs.remove 2 (some "d/x/../b") true = .error ⟨some "d/x/../b", .notFound⟩ ∧
    fs.remove 2 (some "d") false = .error ⟨some "d", .notEmpty⟩ := by
  intro fs
  have hnew : Reachable ((empty 0 "/h").startAt "/h") := @Reachable.create 0 "/h" [] none _ rfl
  have h : fs.Reachable := (hnew.change _).change _
  obtain ⟨hok, htakes, -⟩ := h.remove_specified 2 ".//a/../a" false
  obtain ⟨-, -, hback, -⟩ := h.remove_specified 3 "/h/d/x" false
  obtain ⟨-, -, -, -, hroot, -⟩ := h.remove_specified 2 "../.." true
  obtain ⟨-, -, -, -, -, hfile, -⟩ := h.remove_specified 2 "a/x" true
  obtain ⟨-, -, -, -, -, -, hnothing, -⟩ := h.remove_specified 2 "d/x/../b" true
  obtain ⟨-, -, -, -, -, -, -, hholds⟩ := h.remove_specified 2 "d" false
  have hat : (fs.node? (some (fs.resolve (some ".//a/../a")))).any (·.isFile) := by decide +kernel
  obtain ⟨n, hn, hkind⟩ := (Option.any_eq_true _ _).mp hat
  obtain ⟨fs', hr⟩ := hok.mpr ⟨by decide +kernel, n, hn, .inl hkind⟩
  have haway := htakes fs' hr
  obtain ⟨name, hname, horder⟩ := haway.order
  have hplace : fs.resolve (some ".//a/../a") = Path.join (fs.holderPath ".//a/../a") "a" := by
    decide +kernel
  obtain rfl : name = "a" := Path.join_inj.mp (hname.symm.trans hplace)
  have hbefore : (fs.node? (some "d/..")).map Node.childNames = some ["a", "ab", "d"] := by
    decide +kernel
  obtain ⟨home, hhome, hnames⟩ := Option.map_eq_some_iff.mp hbefore
  have hafter : (fs'.node? (some "d/..")).map Node.childNames = some ["ab", "d"] := by
    rw [horder _ home (by decide +kernel) hhome, hnames, if_pos (by decide +kernel)]
    rfl
  obtain ⟨made, hmade⟩ : ∃ made, fs.write 2 (some "d/e/../x") "new" = .ok made :=
    (write_written fs 2 (some "d/e/../x") "new").ok_iff.mpr ⟨by decide +kernel, by decide +kernel⟩
  have hspot : fs.resolve (some "d/e/../x") = fs.resolve (some "/h/d/x") := by decide +kernel
  have hheld : fs.holderPath "/h/d/x" = "/h/d" := by decide +kernel
  obtain ⟨hremoved, -⟩ := hback 2 _ made hspot (by decide +kernel) (.inl ⟨"new", hmade⟩)
  rw [hheld] at hremoved
  have hfull : (fs.node? (some (fs.resolve (some "d")))).any fun n =>
      n.isDir && n.childNames == ["e"] := by decide +kernel
  obtain ⟨d, hd, hkinds⟩ := (Option.any_eq_true _ _).mp hfull
  obtain ⟨hdir, hentries⟩ := Bool.and_eq_true_iff.mp hkinds
  rw [beq_iff_eq] at hentries
  exact ⟨h, ⟨fs', hr, haway.gone _ (by decide +kernel),
      (haway.kept _ (by decide +kernel)).2.trans (by decide +kernel), hafter⟩,
    ⟨made, hmade, h.wellFormed.read_written hmade (by decide +kernel), hremoved⟩,
    hroot.mpr (by decide +kernel), hfile.mpr (by decide +kernel),
    hnothing.mpr (.inr ⟨by decide +kernel, by decide +kernel⟩),
    hholds.mpr ⟨by decide +kernel, d, hd, hdir, by simp [hentries], rfl⟩⟩

end Shellbox.Filesystem
