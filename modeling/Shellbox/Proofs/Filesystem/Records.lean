import Shellbox.Proofs.Filesystem.Removal

/-!
# What is on record under a path

A record tells of a node all but its name, its mode and what is below it. Where a tree is changed,
few records differ: those of the nodes that are made, changed or removed, and those of the
directories that hold them.
-/

namespace Shellbox.Filesystem

/-- What is on record of a node; a directory has no text. -/
structure Record where
  text : Option String
  created : Instant
  modified : Instant
deriving DecidableEq, Repr

namespace Record

def newFile (now : Instant) (text : String) : Record := ⟨some text, now, now⟩

def newDir (now : Instant) : Record := ⟨none, now, now⟩

def touch (now : Instant) (r : Record) : Record := { r with modified := now }

def setContent (now : Instant) (text : String) (r : Record) : Record :=
  { r with text := some text, modified := now }

end Record

namespace Node

variable {n m child made : Node} {f : Node → Node} {i : Info} {cs : List (String × Node)}
  {s : String} {ms ns ks : List String} {now : Instant}

def record : Node → Record
  | file i text => ⟨some text, i.created, i.modified⟩
  | dir i _ => ⟨none, i.created, i.modified⟩

def record? (n : Node) (ks : List String) : Option Record := (n.get? ks).map record

@[simp]
theorem record?_nil (n : Node) : n.record? [] = some n.record := rfl

theorem get?_cons (n : Node) (s : String) (ks : List String) :
    n.get? (s :: ks) = (n.children.lookup s).bind (·.get? ks) := by
  cases n with
  | file i text => rfl
  | dir i cs => rfl

theorem record?_cons (n : Node) (s : String) (ks : List String) :
    n.record? (s :: ks) = (n.children.lookup s).bind (·.record? ks) := by
  rw [record?, get?_cons, Option.map_bind]
  rfl

theorem record?_append (n : Node) (ns ks : List String) :
    n.record? (ns ++ ks) = (n.get? ns).bind (·.record? ks) := by
  rw [record?, get?_append, Option.map_bind]
  rfl

theorem record?_single (n : Node) (s : String) :
    n.record? [s] = (n.children.lookup s).map record := by
  rw [record?_cons]
  cases n.children.lookup s <;> rfl

/-! ## Changing a node -/

theorem record?_modifyAt (n : Node) (f : Node → Node) (ns ks : List String) :
    (n.modifyAt f ns).record? (ns ++ ks) = (n.get? ns).bind fun m => (f m).record? ks := by
  rw [record?, get?_modifyAt, Option.map_bind]
  rfl

/-- What is told of a node without looking into its children is not changed elsewhere. -/
theorem get?_modifyAt_apart {α : Type} {v : Node → α}
    (hv : ∀ i cs s g, v (.dir i (updateChild s g cs)) = v (.dir i cs)) (h : ¬ ns <+: ks) :
    ((n.modifyAt f ns).get? ks).map v = (n.get? ks).map v := by
  induction ns generalizing n ks with
  | nil => exact absurd List.nil_prefix h
  | cons s r ih =>
      cases n with
      | file i text => rfl
      | dir i cs =>
          cases ks with
          | nil => exact congrArg some (hv i cs s _)
          | cons t ks =>
              simp only [get?_cons, modifyAt, children, lookup_updateChild]
              by_cases ht : t = s
              · subst ht
                have hr : ¬ r <+: ks := fun hr => h (List.cons_prefix_cons.mpr ⟨rfl, hr⟩)
                rw [if_pos rfl]
                cases cs.lookup t with
                | none => rfl
                | some c => exact ih hr
              · rw [if_neg ht]

/-- A change at a node tells only on the records of this node and of what is below it. -/
theorem record?_modifyAt_apart (h : ¬ ns <+: ks) : (n.modifyAt f ns).record? ks = n.record? ks :=
  get?_modifyAt_apart (fun _ _ _ _ => rfl) h

theorem record?_modifyAt_flat {g : Record → Record}
    (hf : ∀ m, n.get? ns = some m → (f m).children = m.children ∧ (f m).record = g m.record)
    (ks : List String) :
    (n.modifyAt f ns).record? ks =
      if ks = ns then (n.record? ks).map g else n.record? ks := by
  by_cases h : ns <+: ks
  · obtain ⟨r, rfl⟩ := h
    rw [record?_modifyAt, record?_append]
    cases hm : n.get? ns with
    | none => simp
    | some m =>
        obtain ⟨hchildren, hrecord⟩ := hf m hm
        cases r with
        | nil => simp [hrecord]
        | cons t r => simp [record?_cons, hchildren]
  · rw [record?_modifyAt_apart h, if_neg]
    rintro rfl
    exact h List.prefix_rfl

theorem record?_touch (n : Node) (now : Instant) (ns ks : List String) :
    (n.modifyAt (touch now) ns).record? ks =
      if ks = ns then (n.record? ks).map (.touch now) else n.record? ks := by
  refine record?_modifyAt_flat (fun m _ => ?_) ks
  cases m with
  | file i text => exact ⟨rfl, rfl⟩
  | dir i cs => exact ⟨rfl, rfl⟩

theorem record?_setContent {old : String} (h : n.get? ns = some (.file i old)) (now : Instant)
    (text : String) (ks : List String) :
    (n.modifyAt (setContent now text) ns).record? ks =
      if ks = ns then (n.record? ks).map (.setContent now text) else n.record? ks := by
  refine record?_modifyAt_flat (fun m hm => ?_) ks
  rw [h] at hm
  cases hm
  exact ⟨rfl, rfl⟩

/-! ## Adding and removing children -/

theorem get?_addChild_cons (hfree : n.children.lookup child.name = none) (hn : n.isDir)
    (now : Instant) (s : String) (ks : List String) :
    (addChild now child n).get? (s :: ks) =
      if s = child.name then child.get? ks else n.get? (s :: ks) := by
  cases n with
  | file i text => cases hn
  | dir i cs =>
      have hlookup : (cs ++ [(child.name, child)]).lookup s =
          if s = child.name then some child else cs.lookup s := by
        rw [List.lookup_append, lookup_cons]
        by_cases hs : s = child.name
        · subst hs
          have hnone : cs.lookup child.name = none := hfree
          simp [hnone]
        · simp [hs]
      rw [get?_cons, get?_cons, addChild, children, hlookup]
      split <;> rfl

theorem record?_addChild_cons (hfree : n.children.lookup child.name = none) (hn : n.isDir)
    (now : Instant) (s : String) (ks : List String) :
    (addChild now child n).record? (s :: ks) =
      if s = child.name then child.record? ks else n.record? (s :: ks) := by
  rw [record?, get?_addChild_cons hfree hn]
  split <;> rfl

/-- A node without children is put on record, and its directory is modified. -/
theorem record?_addLeaf {leaf : Node} (hleaf : leaf.children = [])
    (hd : n.get? ms = some (.dir i cs)) (hfree : cs.lookup leaf.name = none) (now : Instant)
    (ks : List String) :
    (n.modifyAt (addChild now leaf) ms).record? ks =
      if ks = ms ++ [leaf.name] then some leaf.record
      else if ks = ms then (n.record? ks).map (.touch now) else n.record? ks := by
  by_cases h : ms <+: ks
  · obtain ⟨r, rfl⟩ := h
    rw [record?_modifyAt, record?_append, hd, Option.bind_some, Option.bind_some]
    cases r with
    | nil => simp [addChild, record, Record.touch]
    | cons t r =>
        rw [record?_addChild_cons hfree rfl]
        by_cases ht : t = leaf.name
        · subst ht
          cases r with
          | nil => simp
          | cons u r =>
              have hbelow : leaf.record? (u :: r) = none := by
                rw [record?_cons, hleaf, List.lookup_nil, Option.bind_none]
              simp [record?_cons, hbelow, children, hfree]
        · simp [ht]
  · have hne : ks ≠ ms ++ [leaf.name] ∧ ks ≠ ms := by
      constructor
      · rintro rfl
        exact h (List.prefix_append ms _)
      · rintro rfl
        exact h List.prefix_rfl
    rw [record?_modifyAt_apart h, if_neg hne.1, if_neg hne.2]

theorem record?_removeChild (hd : n.get? ms = some (.dir i cs)) (now : Instant) (s : String)
    (ks : List String) :
    (n.modifyAt (removeChild now s) ms).record? ks =
      if ms ++ [s] <+: ks then none
      else if ks = ms then (n.record? ks).map (.touch now) else n.record? ks := by
  by_cases h : ms <+: ks
  · obtain ⟨r, rfl⟩ := h
    rw [record?_modifyAt, record?_append, hd, Option.bind_some, Option.bind_some]
    cases r with
    | nil =>
        have hshort : ¬ ms ++ [s] <+: ms := fun hs => by
          have hlength := hs.length_le
          simp only [List.length_append, List.length_singleton] at hlength
          omega
        simp [removeChild, record, Record.touch, hshort]
    | cons t r =>
        rw [record?_cons, record?_cons, removeChild, children, children, lookup_filter_ne]
        by_cases ht : t = s
        · simp [ht]
        · simp [ht, Ne.symm ht]
  · have hne : ¬ ms ++ [s] <+: ks ∧ ks ≠ ms := by
      constructor
      · exact fun hs => h ((List.prefix_append ms [s]).trans hs)
      · rintro rfl
        exact h List.prefix_rfl
    rw [record?_modifyAt_apart h, if_neg hne.1, if_neg hne.2]

/-! ## Making directories -/

theorem record?_newDir_cons (now : Instant) (name s : String) (ks : List String) :
    (newDir now name).record? (s :: ks) = none := rfl

theorem record?_newChain (now : Instant) (s : String) (ns ks : List String) :
    (newChain now s ns).record? ks = if ks <+: ns then some (.newDir now) else none := by
  induction ns generalizing s ks with
  | nil =>
      cases ks with
      | nil => rfl
      | cons t ks => simp [newChain, record?_newDir_cons]
  | cons u r ih =>
      cases ks with
      | nil => rfl
      | cons t ks =>
          rw [newChain, record?_addChild_cons rfl rfl, newChain_name, ih, record?_newDir_cons]
          by_cases ht : t = u <;> simp [ht, List.cons_prefix_cons]

/-- Directories are put on record along the names where nothing was; the last directory that was
there is modified. -/
theorem record?_ensureDirs (h : n.ensureDirs now ns = some made) (ks : List String) :
    made.record? ks =
      if ks <+: ns then
        some (match n.record? ks with
          | none => .newDir now
          | some r => if n.record? (ns.take (ks.length + 1)) = none then r.touch now else r)
      else n.record? ks := by
  induction ns generalizing n made ks with
  | nil =>
      cases h
      cases ks with
      | nil => simp
      | cons t ks => simp
  | cons s r ih =>
      cases n with
      | file i text => simp [ensureDirs] at h
      | dir i cs =>
          simp only [ensureDirs] at h
          split at h
          · -- The first name leads nowhere: this directory gets the whole chain as a child.
            rename_i hfree
            cases h
            have hname : (newChain now s r).name = s := newChain_name now s r
            cases ks with
            | nil => simp [addChild, record, Record.touch, record?_cons, children, hfree]
            | cons t ks =>
                rw [record?_addChild_cons (by rw [hname]; exact hfree) rfl, hname, record?_newChain]
                by_cases ht : t = s
                · subst ht
                  simp [record?_cons, children, hfree, List.cons_prefix_cons]
                · simp [ht, List.cons_prefix_cons]
          · cases h
          · rename_i c _ hl
            obtain ⟨made, hmade, rfl⟩ := Option.map_eq_some_iff.mp h
            cases ks with
            | nil => simp [record, record?_cons, children, hl]
            | cons t ks =>
                by_cases ht : t = s
                · subst ht
                  simp [record?_cons, children, hl, lookup_updateChild, ih hmade,
                    List.cons_prefix_cons]
                · simp [record?_cons, children, lookup_updateChild, ht, List.cons_prefix_cons]

theorem ensureDirs_isSome (h : ∀ ks r, ks <+: ns → n.record? ks = some r → r.text = none) :
    ∃ made, n.ensureDirs now ns = some made := by
  induction ns generalizing n with
  | nil => exact ⟨n, rfl⟩
  | cons s r ih =>
      cases n with
      | file i text => exact absurd (h [] _ List.nil_prefix rfl) (by simp [record])
      | dir i cs =>
          simp only [ensureDirs]
          split
          · exact ⟨_, rfl⟩
          · rename_i hl
            have hfile := h [s] _ (by simp) (by rw [record?_single, children, hl]; rfl)
            simp [record] at hfile
          · rename_i c _ hl
            obtain ⟨made, hmade⟩ := @ih c fun ks r hks hr => h (s :: ks) r
              (List.cons_prefix_cons.mpr ⟨rfl, hks⟩) (by simp [record?_cons, children, hl, hr])
            exact ⟨_, by rw [hmade]; rfl⟩

theorem get?_of_record? {r : Record} (h : n.record? ns = some r) (hr : r.text = none) :
    ∃ i cs, n.get? ns = some (.dir i cs) := by
  obtain ⟨m, hm, rfl⟩ := Option.map_eq_some_iff.mp h
  cases m with
  | file i text => simp [record] at hr
  | dir i cs => exact ⟨i, cs, hm⟩

end Node

end Shellbox.Filesystem
