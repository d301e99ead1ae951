import Shellbox.Proofs.Filesystem.Records

/-!
# Times of nodes

An operation leaves its time at the nodes that it makes, at the directories that gain or lose a
child and at the node that it is about, and no other time changes. So if the clock never goes back,
no node was modified before it was created, nor later than now, and no child is younger than the
last change of its directory.
-/

namespace Shellbox.Filesystem

variable {n n' made m : Node} {now earlier : Instant} {touched : List String → Prop}
  {i : Info} {cs : List (String × Node)} {s : String} {ms ns ks : List String}

/-- One name more leads on in only one of two trees: the directory has gained or lost a child. -/
def Regrouped (n n' : Node) (ks : List String) : Prop :=
  ∃ s, (n.record? (ks ++ [s])).isSome ≠ (n'.record? (ks ++ [s])).isSome

/-- The time is left at the nodes that are made, at those that are regrouped and at those that are
touched, and no other time changes. -/
structure Marks (now : Instant) (touched : List String → Prop) (n n' : Node) : Prop where
  made : ∀ ks r', n.record? ks = none → n'.record? ks = some r' →
    r'.created = now ∧ r'.modified = now
  created : ∀ ks r r', n.record? ks = some r → n'.record? ks = some r' → r'.created = r.created
  modified : ∀ ks r r', n.record? ks = some r → n'.record? ks = some r' →
    (Regrouped n n' ks ∨ touched ks → r'.modified = now) ∧
      (¬ (Regrouped n n' ks ∨ touched ks) → r'.modified = r.modified)

/-- No node was modified before it was created, nor later than now, and no child was created after
the last change of its directory. -/
def Dated (now : Instant) (n : Node) : Prop :=
  ∀ ks r, n.record? ks = some r → r.created ≤ r.modified ∧ r.modified ≤ now ∧
    ∀ s c, n.record? (ks ++ [s]) = some c → c.created ≤ r.modified

/-! ## Times in order -/

theorem Dated.mono (h : Dated earlier n) (hle : earlier ≤ now) : Dated now n := by
  intro ks r hr
  obtain ⟨hcreated, hmodified, hchildren⟩ := h ks r hr
  exact ⟨hcreated, Int.le_trans hmodified hle, hchildren⟩

/-- Times that are left in order keep the times in order. -/
theorem Marks.dated (h : Marks now touched n n') (hn : Dated now n) : Dated now n' := by
  have hcreated (ks : List String) (r' : Record) (hr' : n'.record? ks = some r') :
      r'.created ≤ now := by
    cases hr : n.record? ks with
    | none => exact Int.le_of_eq (h.made ks r' hr hr').1
    | some r =>
        obtain ⟨hle, hnow, -⟩ := hn ks r hr
        rw [h.created ks r r' hr hr']
        exact Int.le_trans hle hnow
  intro ks r' hr'
  cases hr : n.record? ks with
  | none =>
      obtain ⟨hcreated', hmodified⟩ := h.made ks r' hr hr'
      rw [hcreated', hmodified]
      exact ⟨Int.le_refl now, Int.le_refl now, fun s c hc => hcreated _ c hc⟩
  | some r =>
      obtain ⟨hle, hnow, hchildren⟩ := hn ks r hr
      obtain ⟨hmark, hkeep⟩ := h.modified ks r r' hr hr'
      rw [h.created ks r r' hr hr']
      by_cases hmarked : Regrouped n n' ks ∨ touched ks
      · rw [hmark hmarked]
        exact ⟨Int.le_trans hle hnow, Int.le_refl now, fun s c hc => hcreated _ c hc⟩
      · rw [hkeep hmarked]
        refine ⟨hle, hnow, fun s c hc => ?_⟩
        -- A child of a directory that is not regrouped was there before.
        have hsame : (n.record? (ks ++ [s])).isSome = (n'.record? (ks ++ [s])).isSome :=
          not_not.mp fun hne => hmarked (.inl ⟨s, hne⟩)
        rw [hc] at hsame
        obtain ⟨b, hb⟩ := Option.isSome_iff_exists.mp hsame
        rw [h.created _ b c hb hc]
        exact hchildren s b hb

/-! ## The times that changes leave -/

/-- A change that marks some nodes and no others leaves its time at them. -/
theorem Marks.of_records (marked : List String → Prop)
    (made : ∀ ks r', n.record? ks = none → n'.record? ks = some r' →
      r'.created = now ∧ r'.modified = now)
    (kept : ∀ ks r r', n.record? ks = some r → n'.record? ks = some r' →
      ¬ marked ks ∧ r' = r ∨ marked ks ∧ r'.created = r.created ∧ r'.modified = now)
    (marked_iff : ∀ ks r r', n.record? ks = some r → n'.record? ks = some r' →
      (marked ks ↔ Regrouped n n' ks ∨ touched ks)) : Marks now touched n n' where
  made := made
  created ks r r' hr hr' := by
    obtain ⟨-, rfl⟩ | ⟨-, hcreated, -⟩ := kept ks r r' hr hr'
    · rfl
    · exact hcreated
  modified ks r r' hr hr' := by
    rw [← marked_iff ks r r' hr hr']
    obtain ⟨hno, rfl⟩ | ⟨hyes, -, hmodified⟩ := kept ks r r' hr hr'
    · exact ⟨fun hyes => absurd hyes hno, fun _ => rfl⟩
    · exact ⟨fun _ => hmodified, fun hno => absurd hyes hno⟩

theorem Marks.addLeaf {leaf : Node} (hleaf : leaf.children = [])
    (hnow : leaf.record.created = now ∧ leaf.record.modified = now)
    (hd : n.get? ms = some (.dir i cs)) (hfree : cs.lookup leaf.name = none)
    (htouched : ∀ ks, touched ks → ks = ms ++ [leaf.name]) :
    Marks now touched n (n.modifyAt (.addChild now leaf) ms) := by
  have hrecord := Node.record?_addLeaf hleaf hd hfree now
  have hnone : n.record? (ms ++ [leaf.name]) = none := by
    rw [Node.record?_append, hd, Option.bind_some, Node.record?_single, Node.children, hfree]
    rfl
  have hregrouped (ks : List String) :
      Regrouped n (n.modifyAt (.addChild now leaf) ms) ks ↔ ks = ms := by
    constructor
    · rintro ⟨s, hs⟩
      rw [hrecord] at hs
      by_cases hks : ks ++ [s] = ms ++ [leaf.name]
      · exact (List.append_inj' hks rfl).1
      · rw [if_neg hks] at hs
        split at hs <;> simp at hs
    · rintro rfl
      exact ⟨leaf.name, by simp [hrecord, hnone]⟩
  refine .of_records (· = ms) (fun ks r' hr hr' => ?_) (fun ks r r' hr hr' => ?_)
    fun ks r r' hr _ => ?_
  · rw [hrecord, hr, Option.map_none, ite_self] at hr'
    split at hr'
    · cases hr'
      exact hnow
    · cases hr'
  · have hne : ks ≠ ms ++ [leaf.name] := by
      rintro rfl
      simp [hnone] at hr
    rw [hrecord, if_neg hne, hr] at hr'
    split at hr'
    · rename_i hks
      cases hr'
      exact .inr ⟨hks, rfl, rfl⟩
    · rename_i hks
      cases hr'
      exact .inl ⟨hks, rfl⟩
  · rw [hregrouped]
    refine (or_iff_left fun ht => ?_).symm
    rw [htouched ks ht, hnone] at hr
    cases hr

theorem Marks.flat {g : Record → Record} {n' : Node} (hrecord : ∀ ks, n'.record? ks =
      if ks = ns then (n.record? ks).map g else n.record? ks)
    (hg : ∀ r, (g r).created = r.created ∧ (g r).modified = now) : Marks now (· = ns) n n' := by
  have hregrouped (ks : List String) : ¬ Regrouped n n' ks := by
    rintro ⟨s, hs⟩
    rw [hrecord] at hs
    split at hs <;> simp at hs
  refine .of_records (· = ns) (fun ks r' hr hr' => ?_) (fun ks r r' hr hr' => ?_)
    fun ks _ _ _ _ => (or_iff_right (hregrouped ks)).symm
  · rw [hrecord, hr, Option.map_none, ite_self] at hr'
    cases hr'
  · rw [hrecord, hr] at hr'
    split at hr'
    · rename_i hks
      cases hr'
      exact .inr ⟨hks, hg r⟩
    · rename_i hks
      cases hr'
      exact .inl ⟨hks, rfl⟩

theorem Marks.removeChild (hd : n.get? ms = some (.dir i cs)) (hs : (cs.lookup s).isSome) :
    Marks now (fun _ => False) n (n.modifyAt (.removeChild now s) ms) := by
  have hrecord := Node.record?_removeChild hd now s
  have hthere : (n.record? (ms ++ [s])).isSome := by
    rw [Node.record?_append, hd, Option.bind_some, Node.record?_single, Node.children,
      Option.isSome_map]
    exact hs
  refine .of_records (· = ms) (fun ks r' hr hr' => ?_) (fun ks r r' hr hr' => ?_)
    fun ks r r' hr hr' => ?_
  · simp [hrecord, hr] at hr'
  · rw [hrecord, hr] at hr'
    split at hr'
    · cases hr'
    · split at hr'
      · rename_i hks
        cases hr'
        exact .inr ⟨hks, rfl, rfl⟩
      · rename_i hks
        cases hr'
        exact .inl ⟨hks, rfl⟩
  · have hout : ¬ ms ++ [s] <+: ks := by
      intro hin
      simp [hrecord, hin] at hr'
    rw [or_false]
    constructor
    · rintro rfl
      refine ⟨s, ?_⟩
      rw [hrecord, if_pos List.prefix_rfl, hthere]
      simp
    · rintro ⟨t, ht⟩
      rw [hrecord] at ht
      by_cases hin : ms ++ [s] <+: ks ++ [t]
      · obtain heq | hin := List.prefix_concat_iff.mp hin
        · exact (List.append_inj' heq rfl).1.symm
        · exact absurd hin hout
      · rw [if_neg hin] at ht
        split at ht <;> simp at ht

/-- Directories that are made leave their time at themselves and at the directory in which the first
of them is made. -/
theorem Marks.ensureDirs (h : n.ensureDirs now ns = some made) :
    Marks now (fun _ => False) n made := by
  have hrecord := Node.record?_ensureDirs h
  refine .of_records (fun ks => ks <+: ns ∧ n.record? (ns.take (ks.length + 1)) = none)
    (fun ks r' hr hr' => ?_) (fun ks r r' hr hr' => ?_) fun ks r r' hr hr' => ?_
  · rw [hrecord, hr] at hr'
    split at hr'
    · cases hr'
      exact ⟨rfl, rfl⟩
    · cases hr'
  · rw [hrecord, hr] at hr'
    by_cases hks : ks <+: ns
    · simp only [if_pos hks, Option.some.injEq] at hr'
      by_cases hnext : n.record? (ns.take (ks.length + 1)) = none
      · rw [if_pos hnext] at hr'
        subst hr'
        exact .inr ⟨⟨hks, hnext⟩, rfl, rfl⟩
      · rw [if_neg hnext] at hr'
        exact .inl ⟨fun hmarked => hnext hmarked.2, hr'.symm⟩
    · rw [if_neg hks] at hr'
      cases hr'
      exact .inl ⟨fun hmarked => hks hmarked.1, rfl⟩
  · rw [or_false]
    constructor
    · -- What was there already is marked where the next name on the way led nowhere.
      rintro ⟨⟨rest, rfl⟩, hnext⟩
      cases rest with
      | nil =>
          rw [List.append_nil, List.take_of_length_le (Nat.le_succ _), hr] at hnext
          cases hnext
      | cons s rest =>
          have htake : (ks ++ s :: rest).take (ks.length + 1) = ks ++ [s] :=
            List.take_length_add_append 1
          rw [htake] at hnext
          have hway : ks ++ [s] <+: ks ++ s :: rest := by simp
          exact ⟨s, by simp [hrecord, hnext, hway]⟩
    · rintro ⟨s, hs⟩
      rw [hrecord] at hs
      by_cases hway : ks ++ [s] <+: ns
      · have htake : ns.take (ks.length + 1) = ks ++ [s] := by
          simpa using (List.prefix_iff_eq_take.mp hway).symm
        rw [htake]
        refine ⟨(List.prefix_append ks [s]).trans hway, ?_⟩
        rw [if_pos hway] at hs
        simpa using hs
      · simp [hway] at hs

/-! ## The times that operations leave -/

variable {fs fs' : Filesystem} {path : Option String} {text : String}

theorem write_marks (h : fs.write now path text = .ok fs') :
    Marks now (· = fs.names path) fs.root fs'.root := by
  obtain ⟨ms, name, i, cs, hnames, hd, ⟨hfree, rfl⟩ | ⟨j, old, hold, rfl⟩⟩ := write_eq_ok h
  · rw [hnames]
    exact .addLeaf rfl ⟨rfl, rfl⟩ hd hfree fun ks hks => hks
  · have hfile : fs.root.get? (ms ++ [name]) = some (.file j old) := by
      rw [Node.get?_append, hd, Option.bind_some, Node.get?, hold, Option.bind_some, Node.get?]
    rw [hnames]
    exact .flat (Node.record?_setContent hfile now text) fun r => ⟨rfl, rfl⟩

theorem makeDirectory_marks (h : fs.makeDirectory now path = .ok fs') :
    Marks now (fun _ => False) fs.root fs'.root := by
  obtain ⟨ms, name, i, cs, -, hd, hfree, rfl⟩ := makeDirectory_eq_ok h
  exact .addLeaf rfl ⟨rfl, rfl⟩ hd hfree fun ks hks => hks.elim

theorem makeDirectories_marks (h : fs.makeDirectories now path = .ok fs') :
    Marks now (fun _ => False) fs.root fs'.root := by
  obtain ⟨root, hroot, rfl⟩ := makeDirectories_eq_ok h
  exact .ensureDirs hroot

theorem remove_marks {recursive : Bool} (h : fs.remove now path recursive = .ok fs') :
    Marks now (fun _ => False) fs.root fs'.root := by
  obtain ⟨ms, name, i, cs, -, hd, hname, rfl⟩ := remove_eq_ok h
  exact .removeChild hd hname

theorem touchNode_marks (fs : Filesystem) (now : Instant) (path : Option String) :
    Marks now (· = fs.names path) fs.root (fs.touchNode now path).root :=
  .flat (fs.root.record?_touch now (fs.names path)) fun _ => ⟨rfl, rfl⟩

/-! ## Times in order along operations -/

theorem dated_kept (now : Instant) : KeptAt now fun fs => Dated now fs.root := by
  refine keptAt_of_ok (fun _ _ _ _ hw h => (write_marks hw).dated h)
    (fun _ _ _ hm h => (makeDirectory_marks hm).dated h)
    (fun _ _ _ hm h => (makeDirectories_marks hm).dated h)
    (fun _ _ _ _ hr h => (remove_marks hr).dated h) (fun fs _ _ hd h => ?_)
    fun fs path h => (touchNode_marks fs now path).dated h
  obtain ⟨cwd, rfl⟩ := changeDirectory_eq_cwd hd
  exact h

theorem empty_dated (now : Instant) (home : String) : Dated now (empty now home).root := by
  intro ks r hr
  cases ks with
  | nil =>
      cases hr
      exact ⟨Int.le_refl now, Int.le_refl now, fun s c hc => by cases hc⟩
  | cons s ks => cases hr

theorem create_dated {home : String} {tree : List (String × Option String)}
    {initial : Option String} (h : create now home tree initial = .ok fs) : Dated now fs.root := by
  have hp : Dated now ((empty now home).populate now tree).1.root :=
    dated_kept now _ (.populate now tree) rfl (empty_dated now home)
  unfold create at h
  split at h
  · cases h
  · rename_i heq
    rw [heq] at hp
    obtain rfl := Except.ok.inj h
    unfold startAt
    split <;> exact hp

/-! ## All nodes of a tree -/

/-- Names lead to every node of a well-formed tree. -/
theorem Node.exists_get?_of_within (h : n.WellFormed) (hm : Within m n) :
    ∃ ks, n.get? ks = some m := by
  induction hm with
  | self => exact ⟨[], rfl⟩
  | @child i cs p hp _ ih =>
      obtain ⟨hcs, hbelow⟩ := wellFormed_dir.mp h
      obtain ⟨ks, hks⟩ := ih (hbelow p hp)
      exact ⟨p.1 :: ks, by rw [Node.get?, hcs.lookup_eq hp, Option.bind_some, hks]⟩

theorem Node.record_times (n : Node) :
    n.record.created = n.info.created ∧ n.record.modified = n.info.modified := by
  cases n <;> exact ⟨rfl, rfl⟩

theorem Dated.within (h : Dated now n) (hn : n.WellFormed) (hm : Node.Within m n) :
    m.info.created ≤ m.info.modified ∧ m.info.modified ≤ now ∧
      ∀ p ∈ m.children, p.2.info.created ≤ m.info.modified := by
  obtain ⟨ks, hks⟩ := Node.exists_get?_of_within hn hm
  have hrecord : n.record? ks = some m.record := by rw [Node.record?, hks, Option.map_some]
  obtain ⟨hle, hnow, hchildren⟩ := h ks m.record hrecord
  obtain ⟨hcreated, hmodified⟩ := m.record_times
  rw [hcreated, hmodified] at hle
  rw [hmodified] at hnow hchildren
  refine ⟨hle, hnow, fun p hp => ?_⟩
  have hchild : n.record? (ks ++ [p.1]) = some p.2.record := by
    rw [Node.record?_append, hks, Option.bind_some, Node.record?_single,
      (hn m hm).lookup_eq hp, Option.map_some]
  rw [← p.2.record_times.1]
  exact hchildren p.1 p.2.record hchild

end Shellbox.Filesystem
