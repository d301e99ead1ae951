import Shellbox.Filesystem.Basic

/-!
# Well-formed trees

In a well-formed tree every directory files its children under their own names, the names of its
children are proper and no two are equal. A node may be replaced by one of the same name and kind;
the operations on nodes replace in this sense, so a change deep in a tree leaves the whole well
formed.
-/

namespace Shellbox.Filesystem.Node

variable {n m child : Node} {i : Info} {cs : List (String × Node)} {s : String} {ns : List String}

/-- `Within m n`: the node `m` is `n` or lies somewhere below it. -/
inductive Within (m : Node) : Node → Prop
  | self : Within m m
  | child {i cs p} : p ∈ cs → Within m p.2 → Within m (.dir i cs)

/-- Children filed under their own names, which are proper and differ from each other. -/
structure Orderly (cs : List (String × Node)) : Prop where
  keyed : ∀ p ∈ cs, p.1 = p.2.name
  proper : ∀ p ∈ cs, Path.IsName p.2.name
  distinct : (cs.map fun p => p.2.name).Nodup

/-- The children of every directory in the tree are orderly. -/
def WellFormed (n : Node) : Prop := ∀ m, Within m n → Orderly m.children

/-- `m` can stand where `n` stood: its name and kind are the same and it is well formed. -/
structure Replaces (m n : Node) : Prop where
  name_eq : m.name = n.name
  kind_eq : m.kind = n.kind
  wellFormed : m.WellFormed

/-! ## Orderly children -/

theorem Orderly.nil : Orderly [] := ⟨by simp, by simp, by simp⟩

theorem mem_of_lookup (h : cs.lookup s = some n) : (s, n) ∈ cs := by
  obtain ⟨before, after, rfl, -⟩ := List.lookup_eq_some_iff.mp h
  simp

theorem Orderly.keys_nodup (h : Orderly cs) : (cs.map (·.1)).Nodup := by
  have hk : cs.map (·.1) = cs.map fun p => p.2.name := List.map_congr_left h.keyed
  rw [hk]
  exact h.distinct

/-- Where keys differ, looking a key up finds what is filed under it. -/
theorem lookup_of_mem {p : String × Node} (hkeys : (cs.map (·.1)).Nodup) (hp : p ∈ cs) :
    cs.lookup p.1 = some p.2 := by
  obtain ⟨before, after, rfl⟩ := List.append_of_mem hp
  refine List.lookup_eq_some_iff.mpr ⟨before, after, rfl, fun q hq => ?_⟩
  rw [List.map_append, List.map_cons, List.nodup_append] at hkeys
  have hne := hkeys.2.2 q.1 (List.mem_map_of_mem hq) p.1 (by simp)
  simpa using Ne.symm hne

theorem Orderly.lookup_eq (h : Orderly cs) {p : String × Node} (hp : p ∈ cs) :
    cs.lookup p.1 = some p.2 :=
  lookup_of_mem h.keys_nodup hp

theorem Orderly.append (h : Orderly cs) (hc : Path.IsName child.name)
    (hfree : cs.lookup child.name = none) : Orderly (cs ++ [(child.name, child)]) := by
  have hnew : ∀ p ∈ cs, p.2.name ≠ child.name := by
    intro p hp e
    have hk := List.lookup_eq_none_iff.mp hfree p hp
    rw [h.keyed p hp, e] at hk
    simp at hk
  constructor
  · intro p hp
    rcases List.mem_append.mp hp with hp | hp
    · exact h.keyed p hp
    · obtain rfl := List.mem_singleton.mp hp
      rfl
  · intro p hp
    rcases List.mem_append.mp hp with hp | hp
    · exact h.proper p hp
    · obtain rfl := List.mem_singleton.mp hp
      exact hc
  · rw [List.map_append, List.nodup_append]
    refine ⟨h.distinct, by simp, fun a ha b hb => ?_⟩
    obtain ⟨p, hp, rfl⟩ := List.mem_map.mp ha
    simp only [List.map_cons, List.map_nil, List.mem_singleton] at hb
    exact hb ▸ hnew p hp

theorem Orderly.filter (h : Orderly cs) (keep : String × Node → Bool) :
    Orderly (cs.filter keep) where
  keyed p hp := h.keyed p (List.mem_filter.mp hp).1
  proper p hp := h.proper p (List.mem_filter.mp hp).1
  distinct := h.distinct.sublist (List.filter_sublist.map _)

theorem mem_updateChild {f : Node → Node} {q : String × Node} (hq : q ∈ updateChild s f cs) :
    ∃ p ∈ cs, (p.1 = s ∧ q = (p.1, f p.2)) ∨ (p.1 ≠ s ∧ q = p) := by
  obtain ⟨p, hp, rfl⟩ := List.mem_map.mp hq
  by_cases hs : p.1 = s
  · exact ⟨p, hp, .inl ⟨hs, by simp [hs]⟩⟩
  · exact ⟨p, hp, .inr ⟨hs, by simp [hs]⟩⟩

theorem Orderly.updateChild {f : Node → Node} (h : Orderly cs)
    (hf : ∀ n, cs.lookup s = some n → (f n).name = n.name) : Orderly (updateChild s f cs) := by
  have hname : ∀ p ∈ cs, p.1 = s → (f p.2).name = p.2.name := by
    intro p hp hs
    exact hf p.2 (hs ▸ h.lookup_eq hp)
  constructor
  · intro q hq
    obtain ⟨p, hp, ⟨hs, rfl⟩ | ⟨-, rfl⟩⟩ := mem_updateChild hq
    · exact (h.keyed p hp).trans (hname p hp hs).symm
    · exact h.keyed q hp
  · intro q hq
    obtain ⟨p, hp, ⟨hs, rfl⟩ | ⟨-, rfl⟩⟩ := mem_updateChild hq
    · simpa [hname p hp hs] using h.proper p hp
    · exact h.proper q hp
  · have hnames : (Node.updateChild s f cs).map (fun p => p.2.name) = cs.map fun p => p.2.name := by
      rw [Node.updateChild, List.map_map]
      refine List.map_congr_left fun p hp => ?_
      by_cases hs : p.1 = s
      · simpa [hs] using hname p hp hs
      · simp [hs]
    rw [hnames]
    exact h.distinct

/-! ## Well-formed nodes -/

theorem wellFormed_file (i : Info) (text : String) : (file i text).WellFormed := by
  intro m hm
  cases hm
  exact .nil

theorem wellFormed_dir : (dir i cs).WellFormed ↔ Orderly cs ∧ ∀ p ∈ cs, p.2.WellFormed := by
  constructor
  · intro h
    exact ⟨h _ .self, fun p hp m hm => h m (.child hp hm)⟩
  · rintro ⟨hcs, hbelow⟩ m hm
    cases hm with
    | self => exact hcs
    | child hp hm => exact hbelow _ hp m hm

theorem WellFormed.lookup (h : (dir i cs).WellFormed) (hl : cs.lookup s = some n) : n.WellFormed :=
  (wellFormed_dir.mp h).2 _ (mem_of_lookup hl)

theorem WellFormed.get? (h : n.WellFormed) (hg : n.get? ns = some m) : m.WellFormed := by
  induction ns generalizing n with
  | nil => cases hg; exact h
  | cons s r ih =>
      cases n with
      | file => simp [Node.get?] at hg
      | dir i cs =>
          obtain ⟨c, hl, hc⟩ := Option.bind_eq_some_iff.mp hg
          exact ih (h.lookup hl) hc

/-! ## Replacing a node -/

theorem Replaces.refl (h : n.WellFormed) : Replaces n n := ⟨rfl, rfl, h⟩

theorem replaces_addChild (now : Instant) (hn : n.WellFormed) (hc : child.WellFormed)
    (hname : Path.IsName child.name) (hfree : n.children.lookup child.name = none) :
    Replaces (addChild now child n) n := by
  cases n with
  | file => exact .refl hn
  | dir i cs =>
      obtain ⟨hcs, hbelow⟩ := wellFormed_dir.mp hn
      refine ⟨rfl, rfl, wellFormed_dir.mpr ⟨hcs.append hname hfree, fun p hp => ?_⟩⟩
      rcases List.mem_append.mp hp with hp | hp
      · exact hbelow p hp
      · obtain rfl := List.mem_singleton.mp hp
        exact hc

theorem replaces_removeChild (now : Instant) (s : String) (hn : n.WellFormed) :
    Replaces (n.removeChild now s) n := by
  cases n with
  | file => exact .refl hn
  | dir i cs =>
      obtain ⟨hcs, hbelow⟩ := wellFormed_dir.mp hn
      exact ⟨rfl, rfl, wellFormed_dir.mpr
        ⟨hcs.filter _, fun p hp => hbelow p (List.mem_filter.mp hp).1⟩⟩

theorem replaces_setContent (now : Instant) (text : String) (hn : n.WellFormed) :
    Replaces (n.setContent now text) n := by
  cases n with
  | file => exact ⟨rfl, rfl, wellFormed_file _ _⟩
  | dir => exact .refl hn

theorem replaces_touch (now : Instant) (hn : n.WellFormed) : Replaces (n.touch now) n := by
  cases n with
  | file => exact ⟨rfl, rfl, wellFormed_file _ _⟩
  | dir => exact ⟨rfl, rfl, wellFormed_dir.mpr (wellFormed_dir.mp hn)⟩

theorem replaces_updateChild {f : Node → Node} (hn : (dir i cs).WellFormed)
    (hf : ∀ n, cs.lookup s = some n → Replaces (f n) n) :
    Replaces (dir i (updateChild s f cs)) (dir i cs) := by
  obtain ⟨hcs, hbelow⟩ := wellFormed_dir.mp hn
  refine ⟨rfl, rfl, wellFormed_dir.mpr
    ⟨hcs.updateChild fun n hl => (hf n hl).name_eq, fun q hq => ?_⟩⟩
  obtain ⟨p, hp, ⟨hs, rfl⟩ | ⟨-, rfl⟩⟩ := mem_updateChild hq
  · exact (hf p.2 (hs ▸ hcs.lookup_eq hp)).wellFormed
  · exact hbelow q hp

/-- A change that replaces the node it is made at replaces every node above it. -/
theorem replaces_modifyAt {f : Node → Node} (hn : n.WellFormed)
    (hf : ∀ m, n.get? ns = some m → Replaces (f m) m) : Replaces (n.modifyAt f ns) n := by
  induction ns generalizing n with
  | nil => exact hf n rfl
  | cons s r ih =>
      cases n with
      | file => exact .refl hn
      | dir i cs =>
          refine replaces_updateChild hn fun c hl => ih (hn.lookup hl) fun m hm => hf m ?_
          simpa [Node.get?, hl] using hm

/-! ## Making directories -/

theorem newDir_wellFormed (now : Instant) (s : String) : (newDir now s).WellFormed :=
  wellFormed_dir.mpr ⟨.nil, by simp⟩

theorem newFile_wellFormed (now : Instant) (s text : String) : (newFile now s text).WellFormed :=
  wellFormed_file _ _

theorem newChain_name (now : Instant) (s : String) (ns : List String) :
    (newChain now s ns).name = s := by
  cases ns <;> rfl

theorem newChain_wellFormed (now : Instant) (s : String) (hns : ∀ s ∈ ns, Path.IsName s) :
    (newChain now s ns).WellFormed := by
  induction ns generalizing s with
  | nil => exact newDir_wellFormed now s
  | cons t r ih =>
      have hr : (newChain now t r).WellFormed := ih t fun u hu => hns u (by simp [hu])
      refine (replaces_addChild now (newDir_wellFormed now s) hr ?_ rfl).wellFormed
      rw [newChain_name]
      exact hns t (by simp)

theorem replaces_ensureDirs {now : Instant} (hn : n.WellFormed) (hns : ∀ s ∈ ns, Path.IsName s)
    (hm : n.ensureDirs now ns = some m) : Replaces m n := by
  induction ns generalizing n m with
  | nil => cases hm; exact .refl hn
  | cons s r ih =>
      have hr : ∀ t ∈ r, Path.IsName t := fun t ht => hns t (by simp [ht])
      cases n with
      | file => simp [ensureDirs] at hm
      | dir i cs =>
          simp only [ensureDirs] at hm
          split at hm
          · rename_i hfree
            cases hm
            exact replaces_addChild now hn (newChain_wellFormed now s hr)
              (by rw [newChain_name]; exact hns s (by simp)) (by rw [newChain_name]; exact hfree)
          · cases hm
          · rename_i c _ hl
            obtain ⟨made, hmade, rfl⟩ := Option.map_eq_some_iff.mp hm
            refine replaces_updateChild hn fun c' hl' => ?_
            rw [hl] at hl'
            cases hl'
            exact ih (hn.lookup hl) hr hmade

end Shellbox.Filesystem.Node
