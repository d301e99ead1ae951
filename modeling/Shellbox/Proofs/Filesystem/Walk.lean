import Shellbox.Proofs.Filesystem.Reachable

/-!
# What lies below a directory

The nodes below a node are those that names lead to from it: each stands under one list of names,
and what is below it stands right behind it. So walking a directory, listing it, looking up a path
and asking for its status all tell of the same tree.
-/

namespace Shellbox.Filesystem

namespace Node

variable {n m : Node} {i : Info} {cs : List (String × Node)} {base key ns : List String}

/-! ## Names that lead to a node -/

theorem get?_append (n : Node) (as bs : List String) :
    n.get? (as ++ bs) = (n.get? as).bind (·.get? bs) := by
  induction as generalizing n with
  | nil => rfl
  | cons s r ih =>
      cases n with
      | file i text => rfl
      | dir i cs =>
          simp only [List.cons_append, Node.get?, Option.bind_assoc]
          exact congrArg _ (funext ih)

/-- Where nothing is, nothing is below. -/
theorem get?_eq_none_of_prefix (h : n.get? key = none) (hns : key <+: ns) : n.get? ns = none := by
  obtain ⟨rest, rfl⟩ := hns
  rw [get?_append, h, Option.bind_none]

/-- Only proper names lead to a node, and the last of them is the node's own. -/
theorem names_of_get? (h : n.WellFormed) (hg : n.get? ns = some m) :
    (∀ s ∈ ns, Path.IsName s) ∧ ∀ s, ns.getLast? = some s → m.name = s := by
  induction ns generalizing n with
  | nil => simp
  | cons s r ih =>
      cases n with
      | file i text => simp [Node.get?] at hg
      | dir i cs =>
          obtain ⟨c, hl, hc⟩ := Option.bind_eq_some_iff.mp hg
          have hcs := (wellFormed_dir.mp h).1
          have hp := mem_of_lookup hl
          have hname : c.name = s := (hcs.keyed _ hp).symm
          obtain ⟨hr, hlast⟩ := ih (h.lookup hl) hc
          constructor
          · intro t ht
            rcases List.mem_cons.mp ht with rfl | ht
            · rw [← hname]
              exact hcs.proper _ hp
            · exact hr t ht
          · intro t ht
            cases r with
            | nil =>
                cases hc
                rwa [List.getLast?_singleton, Option.some_inj, ← hname] at ht
            | cons u r => exact hlast t (by simpa using ht)

/-! ## Descendants of a node -/

/-- What holds of files, and of a directory if it holds of its children, holds of every node. -/
theorem tree_induction {P : Node → Prop} (file : ∀ i text, P (.file i text))
    (dir : ∀ i cs, (∀ p ∈ cs, P p.2) → P (.dir i cs)) : ∀ n, P n
  | .file i text => file i text
  | .dir i cs => dir i cs fun p hp => by
      have hsize : sizeOf p < sizeOf cs := List.sizeOf_lt_of_mem hp
      exact tree_induction file dir p.2
termination_by n => sizeOf n
decreasing_by
  obtain ⟨key, n⟩ := p
  simp only [Prod.mk.sizeOf_spec] at hsize
  simp only [Node.dir.sizeOf_spec]
  omega

@[simp] theorem descendants_file (base : List String) (i : Info) (text : String) :
    (file i text).descendants base = [] := rfl

/-- A directory's descendants are its children, each with its own descendants behind it. -/
theorem descendants_dir (base : List String) (i : Info) (cs : List (String × Node)) :
    (dir i cs).descendants base =
      cs.flatMap fun p => (base ++ [p.1], p.2) :: p.2.descendants (base ++ [p.1]) := by
  have hall : descendantsOfAll base cs =
      cs.flatMap fun p => (base ++ [p.1], p.2) :: p.2.descendants (base ++ [p.1]) := by
    induction cs with
    | nil => rfl
    | cons p cs ih =>
        obtain ⟨key, n⟩ := p
        rw [descendantsOfAll, ih, List.flatMap_cons]
        rfl
  exact hall

/-- The descendants of a node are the nodes that one name or more lead to. -/
theorem mem_descendants (h : n.WellFormed) :
    (key, m) ∈ n.descendants base ↔
      ∃ rest, rest ≠ [] ∧ key = base ++ rest ∧ n.get? rest = some m := by
  induction n using tree_induction generalizing base with
  | file i text =>
      simp only [descendants_file, List.not_mem_nil, false_iff]
      rintro ⟨rest, hne, -, hg⟩
      obtain ⟨s, r, rfl⟩ := List.exists_cons_of_ne_nil hne
      simp [Node.get?] at hg
  | dir i cs ih =>
      obtain ⟨hcs, hbelow⟩ := wellFormed_dir.mp h
      rw [descendants_dir, List.mem_flatMap]
      constructor
      · rintro ⟨p, hp, hmem⟩
        have hl := hcs.lookup_eq hp
        rcases List.mem_cons.mp hmem with heq | hmem
        · cases heq
          exact ⟨[p.1], by simp, rfl, by simp [Node.get?, hl]⟩
        · obtain ⟨rest, -, rfl, hg⟩ := (ih p hp (hbelow p hp)).mp hmem
          exact ⟨p.1 :: rest, by simp, by simp, by simpa [Node.get?, hl] using hg⟩
      · rintro ⟨rest, hne, rfl, hg⟩
        obtain ⟨s, r, rfl⟩ := List.exists_cons_of_ne_nil hne
        obtain ⟨c, hl, hc⟩ := Option.bind_eq_some_iff.mp hg
        have hp := mem_of_lookup hl
        refine ⟨(s, c), hp, ?_⟩
        by_cases hr : r = []
        · subst hr
          cases hc
          exact List.mem_cons_self
        · exact List.mem_cons_of_mem _ ((ih _ hp (hbelow _ hp)).mpr ⟨r, hr, by simp, hc⟩)

theorem keys_extend (h : n.WellFormed) (hmem : key ∈ (n.descendants base).map (·.1)) :
    ∃ rest, rest ≠ [] ∧ key = base ++ rest := by
  obtain ⟨⟨k, m⟩, hx, rfl⟩ := List.mem_map.mp hmem
  obtain ⟨rest, hne, rfl, -⟩ := (mem_descendants h).mp hx
  exact ⟨rest, hne, rfl⟩

/-- No two descendants stand under the same names. -/
theorem nodup_descendants (h : n.WellFormed) (base : List String) :
    ((n.descendants base).map (·.1)).Nodup := by
  induction n using tree_induction generalizing base with
  | file i text => simp
  | dir i cs ih =>
      obtain ⟨hcs, hbelow⟩ := wellFormed_dir.mp h
      rw [descendants_dir, List.map_flatMap, List.Nodup, List.pairwise_flatMap]
      constructor
      · intro p hp
        rw [List.map_cons, ← List.Nodup, List.nodup_cons]
        refine ⟨fun hmem => ?_, ih p hp (hbelow p hp) _⟩
        obtain ⟨rest, hne, heq⟩ := keys_extend (hbelow p hp) hmem
        exact hne (List.self_eq_append_right.mp heq)
      · -- Everything in the part of a child begins with its key, and keys differ.
        have hfront : ∀ p ∈ cs, ∀ key ∈ ((base ++ [p.1], p.2) ::
            p.2.descendants (base ++ [p.1])).map (·.1), ∃ rest, key = base ++ p.1 :: rest := by
          intro p hp key hmem
          rcases List.mem_cons.mp hmem with rfl | hmem
          · exact ⟨[], rfl⟩
          · obtain ⟨rest, -, rfl⟩ := keys_extend (hbelow p hp) hmem
            exact ⟨rest, by simp⟩
        refine (List.pairwise_map.mp hcs.keys_nodup).imp_of_mem fun {p q} hp hq hne a ha b hb => ?_
        obtain ⟨r, rfl⟩ := hfront p hp a ha
        obtain ⟨t, rfl⟩ := hfront q hq b hb
        intro heq
        exact hne (List.cons.inj (List.append_cancel_left heq)).1

end Node

/-! ## Paths below a directory -/

namespace Path

/-- A normal path that goes on from the path of a directory by one name or more. -/
def IsBelow (directory path : String) : Prop :=
  IsNormal path ∧ ∃ rest, rest ≠ [] ∧ segments path = segments directory ++ rest

instance (directory path : String) : Decidable (IsBelow directory path) :=
  decidable_of_iff (IsNormal path ∧ segments directory <+: segments path ∧
      segments directory ≠ segments path) (by
    refine and_congr_right fun _ => ⟨?_, ?_⟩
    · rintro ⟨⟨rest, hrest⟩, hne⟩
      exact ⟨rest, fun hnil => hne (by simpa [hnil] using hrest), hrest.symm⟩
    · rintro ⟨rest, hne, heq⟩
      exact ⟨⟨rest, heq.symm⟩, fun hsame => hne (by simpa [hsame] using heq)⟩)

/-- A path that goes on from the path of a directory by just one name. -/
def IsChild (directory path : String) : Prop :=
  ∃ name, segments path = segments directory ++ [name]

instance (directory path : String) : Decidable (IsChild directory path) :=
  decidable_of_iff (segments path ≠ [] ∧ (segments path).dropLast = segments directory) (by
    constructor
    · rintro ⟨hne, heq⟩
      exact ⟨_, by rw [← heq, List.dropLast_concat_getLast hne]⟩
    · rintro ⟨name, heq⟩
      simp [heq])

end Path

/-! ## Walking -/

variable {fs : Filesystem} {path : Option String} {found : List (String × Node)}

theorem node?_of_isNormal (fs : Filesystem) {q : String} (hq : Path.IsNormal q) :
    fs.node? (some q) = fs.root.get? (Path.segments q) := by
  rw [node?, names, resolve, Path.resolve_of_isNormal _ _ hq]

/-- The node that names lead to is found under the path that they make. -/
theorem WellFormed.node?_render (h : fs.WellFormed) {ns : List String} {n : Node}
    (hg : fs.root.get? ns = some n) :
    Path.IsNormal (Path.render ns) ∧ Path.segments (Path.render ns) = ns ∧
      fs.node? (some (Path.render ns)) = some n := by
  have hns := (Node.names_of_get? h.tree hg).1
  have hseg := Path.segments_render hns
  refine ⟨⟨ns, hns, rfl⟩, hseg, ?_⟩
  rw [node?_of_isNormal fs ⟨ns, hns, rfl⟩, hseg, hg]

theorem walk_dir {i : Info} {cs : List (String × Node)} (hd : fs.node? path = some (.dir i cs)) :
    fs.walk path = .ok (((Node.dir i cs).descendants (fs.names path)).map
      fun x => (Path.render x.1, x.2)) := by
  simp only [walk, hd]

/-- A walk is made at a directory and gives its descendants. -/
theorem walk_eq_ok (hw : fs.walk path = .ok found) :
    ∃ i cs, fs.node? path = some (.dir i cs) ∧
      found = ((Node.dir i cs).descendants (fs.names path)).map
        fun x => (Path.render x.1, x.2) := by
  unfold walk at hw
  split at hw
  · cases hw
  · cases hw
  · rename_i i cs hd
    cases hw
    exact ⟨i, cs, hd, rfl⟩

/-- Names stand before a node in a walk if they lead to it from the root and go on from those of
the directory. -/
theorem WellFormed.mem_descendants_iff (h : fs.WellFormed) {d n : Node} {key : List String}
    (hd : fs.node? path = some d) :
    (key, n) ∈ d.descendants (fs.names path) ↔
      (∃ rest, rest ≠ [] ∧ key = fs.names path ++ rest) ∧ fs.root.get? key = some n := by
  have hget (rest : List String) : fs.root.get? (fs.names path ++ rest) = d.get? rest := by
    rw [Node.get?_append, ← node?, hd]
    rfl
  rw [Node.mem_descendants (h.tree.get? hd)]
  constructor
  · rintro ⟨rest, hne, rfl, hg⟩
    exact ⟨⟨rest, hne, rfl⟩, by rw [hget, hg]⟩
  · rintro ⟨⟨rest, hne, rfl⟩, hg⟩
    exact ⟨rest, hne, rfl, by rw [← hget, hg]⟩

/-- A walk gives just what can be looked up below the directory. -/
theorem WellFormed.mem_walk (h : fs.WellFormed) (hw : fs.walk path = .ok found) {q : String}
    {n : Node} :
    (q, n) ∈ found ↔ Path.IsBelow (fs.resolve path) q ∧ fs.node? (some q) = some n := by
  obtain ⟨i, cs, hd, rfl⟩ := walk_eq_ok hw
  constructor
  · intro hmem
    obtain ⟨⟨key, m⟩, hx, heq⟩ := List.mem_map.mp hmem
    cases heq
    obtain ⟨⟨rest, hne, rfl⟩, hg⟩ := (h.mem_descendants_iff hd).mp hx
    obtain ⟨hnormal, hseg, hnode⟩ := h.node?_render hg
    exact ⟨⟨hnormal, rest, hne, hseg⟩, hnode⟩
  · rintro ⟨⟨hnormal, hrest⟩, hnode⟩
    rw [node?_of_isNormal fs hnormal] at hnode
    refine List.mem_map.mpr ⟨(Path.segments q, n), ?_, ?_⟩
    · exact (h.mem_descendants_iff hd).mpr ⟨hrest, hnode⟩
    · rw [Path.render_segments hnormal]

theorem WellFormed.nodup_walk (h : fs.WellFormed) (hw : fs.walk path = .ok found) :
    (found.map (·.1)).Nodup := by
  obtain ⟨i, cs, hd, rfl⟩ := walk_eq_ok hw
  have hkeys := Node.nodup_descendants (h.tree.get? hd) (fs.names path)
  rw [List.Nodup, List.pairwise_map] at hkeys
  rw [List.map_map, List.Nodup, List.pairwise_map]
  refine hkeys.imp_of_mem fun {x y} hx hy hne heq => hne ?_
  obtain ⟨-, hsegx, -⟩ := h.node?_render ((h.mem_descendants_iff hd).mp hx).2
  obtain ⟨-, hsegy, -⟩ := h.node?_render ((h.mem_descendants_iff hd).mp hy).2
  rw [← hsegx, ← hsegy]
  exact congrArg Path.segments heq

/-- The children of a directory are those descendants that stand under one name more. -/
theorem Node.filter_descendants {i : Info} {cs : List (String × Node)}
    (h : (Node.dir i cs).WellFormed) (base : List String) :
    ((Node.dir i cs).descendants base).filter (·.1.length = base.length + 1) =
      cs.map fun p => (base ++ [p.1], p.2) := by
  have hpart : ∀ p ∈ cs, (((base ++ [p.1], p.2) :: p.2.descendants (base ++ [p.1])).filter
      (·.1.length = base.length + 1)) = [(base ++ [p.1], p.2)] := by
    intro p hp
    have hdeep : (p.2.descendants (base ++ [p.1])).filter (·.1.length = base.length + 1) = [] := by
      refine List.filter_eq_nil_iff.mpr fun x hx => ?_
      obtain ⟨rest, hne, heq⟩ :=
        Node.keys_extend ((Node.wellFormed_dir.mp h).2 p hp) (List.mem_map_of_mem hx)
      simp [heq, hne]
    rw [List.filter_cons_of_pos (by simp), hdeep]
  rw [Node.descendants_dir, List.filter_flatMap, List.flatMap_def, List.map_congr_left hpart,
    ← List.flatMap_def, ← List.map_eq_flatMap]

/-- The children of a directory are those descendants whose paths go on from its path by one name. -/
theorem WellFormed.filter_isChild (h : fs.WellFormed) {i : Info} {cs : List (String × Node)}
    (hd : fs.node? path = some (.dir i cs)) :
    (((Node.dir i cs).descendants (fs.names path)).filter
      fun x => Path.IsChild (fs.resolve path) (Path.render x.1)) =
        cs.map fun p => (fs.names path ++ [p.1], p.2) := by
  have hchild : ∀ x ∈ (Node.dir i cs).descendants (fs.names path),
      Path.IsChild (fs.resolve path) (Path.render x.1) ↔
        x.1.length = (fs.names path).length + 1 := by
    intro x hx
    obtain ⟨⟨rest, -, heq⟩, hg⟩ := (h.mem_descendants_iff hd).mp hx
    obtain ⟨-, hseg, -⟩ := h.node?_render hg
    rw [Path.IsChild, hseg, heq, ← names]
    simp [List.length_eq_one_iff]
  rw [← Node.filter_descendants (h.tree.get? hd)]
  exact List.filter_congr fun x hx => decide_eq_decide.mpr (hchild x hx)

end Shellbox.Filesystem
