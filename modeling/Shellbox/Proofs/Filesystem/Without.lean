import Shellbox.Proofs.Filesystem.Pruning

/-!
# A tree without some places

A tree from which a set of places is taken at once, with all that is below them. One removal takes
away one place, and taking away one set behind another is taking away both together; so what is left
after any number of removals depends only on the set of places.
-/

namespace Shellbox.Filesystem

namespace Node

variable {n d : Node} {i : Info} {cs : List (String × Node)} {s : String} {ms ns ks : List String}
  {now : Instant} {gone : List String → Bool}

mutual
/-- The node without what is at some places below it; a directory that loses a child is modified. -/
def without (now : Instant) (gone : List String → Bool) : Node → Node
  | file i text => file i text
  | dir i cs => dir (if cs.any (gone [·.1]) then { i with modified := now } else i)
      (withoutAll now gone cs)
termination_by structural n => n

/-- The children that stay, each without what is at the places below it. -/
def withoutAll (now : Instant) (gone : List String → Bool) :
    List (String × Node) → List (String × Node)
  | [] => []
  | p :: r => withoutOne now gone p ++ withoutAll now gone r
termination_by structural cs => cs

/-- A child, if it stays. -/
def withoutOne (now : Instant) (gone : List String → Bool) :
    String × Node → List (String × Node)
  | (key, n) => if gone [key] then [] else [(key, n.without now fun ks => gone (key :: ks))]
termination_by structural p => p
end

@[simp]
theorem without_file (now : Instant) (gone : List String → Bool) (i : Info) (text : String) :
    (file i text).without now gone = file i text := rfl

theorem without_dir (now : Instant) (gone : List String → Bool) (i : Info)
    (cs : List (String × Node)) :
    (dir i cs).without now gone =
      dir (if cs.any (gone [·.1]) then { i with modified := now } else i)
        ((cs.filter fun p => !gone [p.1]).map fun p =>
          (p.1, p.2.without now fun ks => gone (p.1 :: ks))) := by
  have hall : withoutAll now gone cs = (cs.filter fun p => !gone [p.1]).map fun p =>
      (p.1, p.2.without now fun ks => gone (p.1 :: ks)) := by
    induction cs with
    | nil => rfl
    | cons p cs ih =>
        obtain ⟨key, n⟩ := p
        rw [withoutAll, ih]
        cases hkey : gone [key] <;> simp [withoutOne, hkey]
  rw [without, hall]

/-! ## Where nothing is gone -/

/-- Places that lead nowhere take nothing away. -/
theorem without_eq_self (hn : n.WellFormed)
    (h : ∀ ns, ns ≠ [] → (n.get? ns).isSome → gone ns = false) : n.without now gone = n := by
  induction n using tree_induction generalizing gone with
  | file i text => rfl
  | dir i cs ih =>
      obtain ⟨hcs, hbelow⟩ := wellFormed_dir.mp hn
      have hstays : ∀ p ∈ cs, gone [p.1] = false := fun p hp =>
        h [p.1] (by simp) (by simp [get?, hcs.lookup_eq hp])
      have hsame : ∀ p ∈ cs, (p.1, p.2.without now fun ks => gone (p.1 :: ks)) = p := by
        intro p hp
        have hchild : p.2.without now (fun ks => gone (p.1 :: ks)) = p.2 :=
          ih p hp (hbelow p hp) fun ns _ hns =>
            h (p.1 :: ns) (by simp) (by simpa [get?, hcs.lookup_eq hp] using hns)
        rw [hchild]
      have hany : cs.any (gone [·.1]) = false := by simpa using hstays
      have hkept : (cs.filter fun p => !gone [p.1]) = cs :=
        List.filter_eq_self.mpr fun p hp => by simp [hstays p hp]
      rw [without_dir, hany, hkept, List.map_congr_left hsame, List.map_id']
      rfl

/-! ## One set behind another -/

/-- A directory loses a child to one of two sets if it loses one to the first, or of those left one
to the second. -/
theorem any_without (cs : List (String × Node)) (now : Instant) (gone gone' : List String → Bool) :
    cs.any (fun p => gone [p.1] || gone' [p.1]) =
      (cs.any (gone [·.1]) || ((cs.filter fun p => !gone [p.1]).map fun p =>
        (p.1, p.2.without now fun ks => gone (p.1 :: ks))).any (gone' [·.1])) := by
  induction cs with
  | nil => rfl
  | cons p cs ih =>
      rw [List.any_cons, List.any_cons, ih]
      cases hp : gone [p.1] <;> simp [hp, Bool.or_left_comm]

theorem without_without (now : Instant) (gone gone' : List String → Bool) (n : Node) :
    (n.without now gone).without now gone' = n.without now fun ks => gone ks || gone' ks := by
  induction n using tree_induction generalizing gone gone' with
  | file i text => rfl
  | dir i cs ih =>
      rw [without_dir, without_dir, without_dir, any_without cs now gone gone', List.filter_map,
        List.filter_filter, List.map_map]
      have hinfo (a b : Bool) : (if b then { (if a then { i with modified := now } else i) with
          modified := now } else if a then { i with modified := now } else i) =
            if a || b then { i with modified := now } else i := by
        cases a <;> cases b <;> rfl
      have hkept : (cs.filter fun p => !gone' [p.1] && !gone [p.1]) =
          cs.filter fun p => !(gone [p.1] || gone' [p.1]) :=
        List.filter_congr fun p _ => by rw [Bool.not_or, Bool.and_comm]
      rw [hinfo]
      congr 1
      refine (List.map_congr_left fun p hp => ?_).trans (congrArg _ hkept)
      have hmem : p ∈ cs := (List.mem_filter.mp hp).1
      simp only [Function.comp_apply, ih p hmem]

/-! ## What is left -/

theorem lookup_without (now : Instant) (gone : List String → Bool) (n : Node) (s : String) :
    (n.without now gone).children.lookup s =
      if gone [s] then none else
        (n.children.lookup s).map (·.without now fun ks => gone (s :: ks)) := by
  cases n with
  | file i text => simp [children]
  | dir i cs =>
      rw [without_dir, children, children]
      induction cs with
      | nil => simp
      | cons p cs ih =>
          cases hp : gone [p.1] with
          | true =>
              rw [List.filter_cons_of_neg (by simp [hp]), ih, lookup_cons]
              by_cases hs : s = p.1
              · simp [hs, hp]
              · rw [if_neg hs]
          | false =>
              rw [List.filter_cons_of_pos (by simp [hp]), List.map_cons, lookup_cons, lookup_cons,
                ih]
              by_cases hs : s = p.1
              · simp [hs, hp]
              · rw [if_neg hs, if_neg hs]

theorem get?_without_cons (now : Instant) (gone : List String → Bool) (n : Node) (s : String)
    (ks : List String) :
    (n.without now gone).get? (s :: ks) =
      if gone [s] then none else
        (n.children.lookup s).bind fun c => (c.without now fun ks => gone (s :: ks)).get? ks := by
  rw [get?_cons, lookup_without]
  split
  · rfl
  · rw [Option.bind_map]
    rfl

/-- At a place that is gone, and below it, there is nothing left. -/
theorem get?_without_of_gone (hns : ns ≠ []) (hgone : gone ns) (hks : ns <+: ks) :
    (n.without now gone).get? ks = none := by
  induction ns generalizing n gone ks with
  | nil => exact absurd rfl hns
  | cons s r ih =>
      obtain ⟨rest, rfl⟩ := hks
      rw [List.cons_append, get?_without_cons]
      by_cases hr : r = []
      · subst hr
        rw [if_pos hgone]
      · split
        · rfl
        · cases n.children.lookup s with
          | none => rfl
          | some c => exact ih hr hgone (List.prefix_append r rest)

/-- Everywhere else there is what was there, without what is gone below it. -/
theorem get?_without_of_kept (hkept : ∀ ns, ns ≠ [] → ns <+: ks → gone ns = false) :
    (n.without now gone).get? ks = (n.get? ks).map (·.without now fun r => gone (ks ++ r)) := by
  induction ks generalizing n gone with
  | nil => rfl
  | cons s r ih =>
      have hs : gone [s] = false := hkept [s] (by simp) (by simp)
      rw [get?_without_cons, get?_cons, hs, if_neg Bool.false_ne_true]
      cases n.children.lookup s with
      | none => rfl
      | some c =>
          exact ih fun ns hns hfront => hkept (s :: ns) (by simp)
            (List.cons_prefix_cons.mpr ⟨rfl, hfront⟩)

theorem gone_or_kept (gone : List String → Bool) (ks : List String) :
    (∃ ns, ns ≠ [] ∧ gone ns ∧ ns <+: ks) ∨ ∀ ns, ns ≠ [] → ns <+: ks → gone ns = false := by
  by_cases h : ∃ ns, ns ≠ [] ∧ gone ns ∧ ns <+: ks
  · exact .inl h
  · exact .inr fun ns hns hfront => by simpa using fun hgone => h ⟨ns, hns, hgone, hfront⟩

/-- What is left somewhere was there before. -/
theorem exists_of_get?_without (h : (n.without now gone).get? ks = some d) :
    ∃ m, n.get? ks = some m ∧ d = m.without now fun r => gone (ks ++ r) := by
  rcases gone_or_kept gone ks with ⟨ns, hns, hgone, hfront⟩ | hkept
  · rw [get?_without_of_gone hns hgone hfront] at h
    cases h
  · rw [get?_without_of_kept hkept] at h
    obtain ⟨m, hm, rfl⟩ := Option.map_eq_some_iff.mp h
    exact ⟨m, hm, rfl⟩

theorem isDir_without (now : Instant) (gone : List String → Bool) (n : Node) :
    (n.without now gone).isDir = n.isDir := by
  cases n with
  | file i text => rfl
  | dir i cs => rfl

theorem text_without (now : Instant) (gone : List String → Bool) (n : Node) :
    (n.without now gone).record.text = n.record.text := by
  cases n with
  | file i text => rfl
  | dir i cs => rfl

/-- Only the time of the last change is another. -/
theorem info_without (now : Instant) (gone : List String → Bool) (n : Node) :
    { (n.without now gone).info with modified := 0 } = { n.info with modified := 0 } := by
  cases n with
  | file i text => rfl
  | dir i cs =>
      rw [without_dir, info, info]
      split <;> rfl

theorem childNames_without (now : Instant) (gone : List String → Bool) (n : Node) :
    (n.without now gone).childNames = n.childNames.filter fun s => !gone [s] := by
  cases n with
  | file i text => rfl
  | dir i cs =>
      rw [without_dir, childNames, children, childNames, children, List.map_map, List.filter_map]
      rfl

/-! ## One removal -/

theorem removeChild_dir (hn : (dir i cs).WellFormed) (hthere : (cs.lookup s).isSome)
    (now : Instant) : removeChild now s (dir i cs) = (dir i cs).without now (· == [s]) := by
  have hany : cs.any (fun p => [p.1] == [s]) = true := by
    obtain ⟨c, hc⟩ := Option.isSome_iff_exists.mp hthere
    exact List.any_eq_true.mpr ⟨(s, c), mem_of_lookup hc, by simp⟩
  have hothers : (cs.filter fun p => !([p.1] == [s])) = cs.filter (·.1 ≠ s) :=
    List.filter_congr fun p _ => by rw [Bool.eq_iff_iff]; simp
  have hsame : ∀ p ∈ cs.filter (·.1 ≠ s),
      (p.1, p.2.without now fun ks => p.1 :: ks == [s]) = p := by
    intro p hp
    obtain ⟨hmem, hne⟩ := List.mem_filter.mp hp
    have hne : p.1 ≠ s := by simpa using hne
    rw [without_eq_self ((wellFormed_dir.mp hn).2 p hmem) fun ks _ _ => by simp [hne]]
  rw [removeChild, without_dir, hany, if_pos rfl, hothers, List.map_congr_left hsame, List.map_id']

/-- Taking a place from a child is taking it from the directory, with the name of the child in
front. -/
theorem updateChild_without {f : Node → Node} (hn : (dir i cs).WellFormed) (hns : ns ≠ [])
    (hf : ∀ c, cs.lookup s = some c → f c = c.without now (· == ns)) :
    dir i (updateChild s f cs) = (dir i cs).without now (· == s :: ns) := by
  obtain ⟨hcs, hbelow⟩ := wellFormed_dir.mp hn
  have hdeep : ∀ p : String × Node, ([p.1] == s :: ns) = false := fun p => by simp [hns]
  have hnone : cs.any (fun p => [p.1] == s :: ns) = false :=
    List.any_eq_false.mpr fun p _ => by rw [hdeep p]; exact Bool.false_ne_true
  have hall : (cs.filter fun p => !([p.1] == s :: ns)) = cs :=
    List.filter_eq_self.mpr fun p _ => by rw [hdeep p]; rfl
  have hchild : ∀ p ∈ cs, (if p.1 = s then (p.1, f p.2) else p) =
      (p.1, p.2.without now fun ks => p.1 :: ks == s :: ns) := by
    intro p hp
    split
    · rename_i hs
      rw [hf p.2 (hs ▸ hcs.lookup_eq hp), hs]
      simp
    · rename_i hs
      rw [without_eq_self (hbelow p hp) fun ks _ _ => by simp [hs]]
  rw [updateChild, without_dir, hnone, hall, if_neg Bool.false_ne_true, List.map_congr_left hchild]

/-- A removal takes away one place. -/
theorem removeChild_eq_without (hn : n.WellFormed) (h : (n.get? (ms ++ [s])).isSome)
    (now : Instant) :
    n.modifyAt (removeChild now s) ms = n.without now (· == ms ++ [s]) := by
  induction ms generalizing n with
  | nil =>
      cases n with
      | file i text => cases h
      | dir i cs =>
          rw [List.nil_append, get?_cons, children] at h
          exact removeChild_dir hn (Option.isSome_of_isSome_bind h) now
  | cons u r ih =>
      cases n with
      | file i text => cases h
      | dir i cs =>
          refine updateChild_without hn (by simp) fun c hc => ih (hn.lookup hc) ?_
          rwa [List.cons_append, get?_cons, children, hc] at h

end Node

variable {fs fs' : Filesystem} {now : Instant} {path q : Option String} {recursive : Bool}
  {places : List (List String)} {ns : List String}

/-- The filesystem without what is at the places and below them. -/
def without (fs : Filesystem) (now : Instant) (places : List (List String)) : Filesystem :=
  { fs with root := fs.root.without now (places.contains ·) }

/-! ## Removals in turn -/

theorem WellFormed.without_nil (h : fs.WellFormed) (now : Instant) : fs.without now [] = fs := by
  have hroot : fs.root.without now ([].contains ·) = fs.root :=
    Node.without_eq_self h.tree fun ns _ _ => rfl
  rw [without, hroot]

theorem without_cons (fs : Filesystem) (now : Instant) (ns : List String)
    (places : List (List String)) :
    (fs.without now [ns]).without now places = fs.without now (ns :: places) := by
  have hroot : (fs.root.without now ([ns].contains ·)).without now (places.contains ·) =
      fs.root.without now ((ns :: places).contains ·) := by
    rw [Node.without_without]
    congr 1
    funext ks
    simp
  rw [without, without, without, hroot]

/-- Only the set of the places counts. -/
theorem without_congr {places' : List (List String)} (h : ∀ ns, ns ∈ places' ↔ ns ∈ places)
    (fs : Filesystem) (now : Instant) : fs.without now places' = fs.without now places := by
  have hsame : (fun ks => places'.contains ks) = fun ks => places.contains ks := by
    funext ks
    rw [Bool.eq_iff_iff, List.contains_iff_mem, List.contains_iff_mem, h]
  rw [without, hsame, without]

theorem WellFormed.remove_eq_without (h : fs.WellFormed)
    (hr : fs.remove now path recursive = .ok fs') : fs' = fs.without now [fs.names path] := by
  obtain ⟨-, n, hn, -⟩ := (remove_removed fs now path recursive).ok_iff.mp ⟨fs', hr⟩
  obtain ⟨ms, name, i, cs, hnames, -, -, rfl⟩ := remove_eq_ok hr
  rw [node?, hnames] at hn
  have hplace : (fun ks => [fs.names path].contains ks) = (· == ms ++ [name]) := by
    funext ks
    rw [Bool.eq_iff_iff]
    simp [hnames]
  rw [without, hplace, ← Node.removeChild_eq_without h.tree (by rw [hn]; rfl)]
  rfl

theorem WellFormed.without_absent (h : fs.WellFormed) (hnone : fs.node? path = none)
    (now : Instant) : fs.without now [fs.names path] = fs := by
  have hroot : fs.root.without now ([fs.names path].contains ·) = fs.root := by
    refine Node.without_eq_self h.tree fun ns _ hthere => ?_
    have hne : ns ≠ fs.names path := by
      rintro rfl
      rw [← node?, hnone] at hthere
      cases hthere
    simpa using hne
  rw [without, hroot]

/-! ## What is left in a filesystem -/

theorem get?_without (fs : Filesystem) (now : Instant) (places : List (List String))
    (ks : List String) :
    (fs.without now places).root.get? ks = (fs.root.without now (places.contains ·)).get? ks := rfl

theorem node?_without_iff (hroot : [] ∉ places) (now : Instant) :
    (fs.without now places).node? q = none ↔
      fs.node? q = none ∨ ∃ ns ∈ places, ns <+: fs.names q := by
  have hnames : (fs.without now places).names q = fs.names q := rfl
  rw [node?, hnames, get?_without, node?]
  by_cases hgone : ∃ ns ∈ places, ns <+: fs.names q
  · obtain ⟨ns, hns, hfront⟩ := hgone
    have hne : ns ≠ [] := fun hnil => hroot (hnil ▸ hns)
    rw [Node.get?_without_of_gone hne (by simpa using hns) hfront]
    exact iff_of_true rfl (.inr ⟨ns, hns, hfront⟩)
  · have hkept : ∀ ns, ns ≠ [] → ns <+: fs.names q → places.contains ns = false :=
      fun ns _ hfront => by simpa using fun hns => hgone ⟨ns, hns, hfront⟩
    rw [Node.get?_without_of_kept hkept, Option.map_eq_none_iff, or_iff_left hgone]

theorem sameAt_kept (hkept : ∀ ns ∈ places, ¬ ns <+: fs.names q) (now : Instant) :
    SameAt fs (fs.without now places) q := by
  have hleft : ∀ ns, ns ≠ [] → ns <+: fs.names q → places.contains ns = false :=
    fun ns _ hfront => by simpa using fun hns => hkept ns hns hfront
  refine sameAt_of_content? ?_
  rw [content?_eq_map, content?_eq_map]
  dsimp only
  rw [Node.get?_without_of_kept hleft, Option.map_map]
  refine Option.map_congr fun m _ => ?_
  exact Node.text_without now _ m

/-- The trees are the same but for the times of the last changes: the same nodes are at the same
paths, with the same children in the same order. -/
structure SameButTimes (fs fs' : Filesystem) (q : Option String) : Prop where
  content : SameAt fs fs' q
  info : (fs'.node? q).map (fun n => { n.info with modified := 0 }) =
    (fs.node? q).map fun n => { n.info with modified := 0 }
  children : (fs'.node? q).map Node.childNames = (fs.node? q).map Node.childNames

theorem without_sameButTimes (fs : Filesystem) (now now' : Instant) (places : List (List String))
    (q : Option String) : SameButTimes (fs.without now places) (fs.without now' places) q := by
  have hview {α : Type} (v : Node → α)
      (hv : ∀ gone m, v (.without now' gone m) = v (.without now gone m)) :
      ((fs.without now' places).root.get? (fs.names q)).map v =
        ((fs.without now places).root.get? (fs.names q)).map v := by
    rw [get?_without, get?_without]
    rcases Node.gone_or_kept (places.contains ·) (fs.names q) with ⟨ns, hns, hgone, hfront⟩ | hkept
    · rw [Node.get?_without_of_gone hns hgone hfront, Node.get?_without_of_gone hns hgone hfront]
    · rw [Node.get?_without_of_kept hkept, Node.get?_without_of_kept hkept, Option.map_map,
        Option.map_map]
      exact Option.map_congr fun m _ => hv _ m
  refine ⟨sameAt_of_content? ?_, hview _ fun gone m => ?_, hview _ fun gone m => ?_⟩
  · rw [content?_eq_map, content?_eq_map]
    exact hview _ fun gone m => by rw [Node.text_without, Node.text_without]
  · rw [Node.info_without, Node.info_without]
  · rw [Node.childNames_without, Node.childNames_without]

/-! ## Places that are missing -/

theorem Missing.without (h : fs.Missing path) (now : Instant) (places : List (List String)) :
    (fs.without now places).Missing path := by
  obtain ⟨hnone, hfolder⟩ := h
  constructor
  · refine Option.eq_none_iff_forall_not_mem.mpr fun d hd => ?_
    obtain ⟨m, hm, -⟩ := Node.exists_of_get?_without hd
    cases hnone.symm.trans hm
  · intro d hd
    obtain ⟨m, hm, rfl⟩ := Node.exists_of_get?_without hd
    rw [Node.isDir_without]
    exact hfolder m hm

/-- What was removed is missing from then on. -/
theorem missing_of_remove (hr : fs.remove now path recursive = .ok fs') : fs'.Missing path := by
  have hgone := remove_gone hr
  obtain ⟨ms, name, i, cs, hnames, hd, -, rfl⟩ := remove_eq_ok hr
  refine ⟨hgone, fun d hafter => ?_⟩
  have hsame : (fs.modifyAt ms (.removeChild now name)).names path = ms ++ [name] := hnames
  have hleft := fs.root.get?_modifyAt (.removeChild now name) ms []
  rw [List.append_nil, hd, Option.bind_some] at hleft
  rw [hsame, List.dropLast_concat, modifyAt, hleft] at hafter
  cases hafter
  rfl

end Shellbox.Filesystem
