import Shellbox.Filesystem.Directory
import Shellbox.Proofs.Filesystem.Removal
import Shellbox.Proofs.Filesystem.Rows

/-!
# The children of one directory

A step on a directory is about one name. Whether it can be done, and what is filed under the name
afterwards, depends only on what was filed there before; so after any steps each name has what the
steps about it leave, one after another. No two children get the same name, and the entries have a
row for each of them, in strict order.
-/

namespace Shellbox.Filesystem.Directory

open Node

/-- What is done to the children of a directory. -/
inductive Step where
  | addFile (name content : String)
  | addDirectory (name : String) (mode : Int)
  | setContent (name content : String)
  | remove (name : String)
deriving DecidableEq, Repr

namespace Step

def name : Step → String
  | addFile name _ => name
  | addDirectory name _ => name
  | setContent name _ => name
  | remove name => name

def apply (now : Instant) (d : Node) : Step → Except Error Node
  | addFile name content => Directory.addFile now d name content
  | addDirectory name mode => Directory.addDirectory now d name mode
  | setContent name content => Directory.setContent now d name content
  | remove name => Directory.remove now d name

/-- The directory after the step; one that cannot be done leaves it as it was. -/
def perform (now : Instant) (d : Node) (step : Step) : Node := (step.apply now d).toOption.getD d

/-- The step can be done, given what is filed under its name. -/
def Allowed (found : Option Node) : Step → Prop
  | addFile name _ => '/' ∉ name.toList ∧ found = none
  | addDirectory name _ => '/' ∉ name.toList ∧ found = none
  | setContent _ _ => found ≠ none
  | remove _ => found ≠ none

/-- What is filed under the name of the step after it, given what was filed there before. -/
def leaves (now : Instant) (found : Option Node) : Step → Option Node
  | addFile name content =>
    found.or (if '/' ∈ name.toList then none else some (.newFile now name content))
  | addDirectory name mode =>
    found.or (if '/' ∈ name.toList then none else some (.dir ⟨name, mode, now, now⟩ []))
  | setContent _ content => found.map (Node.setContent now content)
  | remove _ => none

/-- The directory after a step that can be done. -/
def change (now : Instant) (d : Node) : Step → Node
  | addFile name content => addChild now (.newFile now name content) d
  | addDirectory name mode => addChild now (.dir ⟨name, mode, now, now⟩ []) d
  | setContent name content => d.modifyAt (.setContent now content) [name]
  | remove name => d.removeChild now name

end Step

def Error.name : Error → String
  | .slashInName n => n
  | .taken n => n
  | .unknown n => n

/-- A directory that files its children under their names, which hold no slash and differ. -/
structure Tidy (d : Node) : Prop where
  isDir : d.isDir
  keyed : ∀ p ∈ d.children, p.1 = p.2.name
  slashless : ∀ p ∈ d.children, '/' ∉ p.1.toList
  distinct : (d.children.map (·.1)).Nodup

/-- The directory after steps, each at its time. -/
def run (d : Node) (steps : List (Instant × Step)) : Node :=
  steps.foldl (fun d step => step.2.perform step.1 d) d

variable {d d' child n : Node} {i : Info} {cs : List (String × Node)} {now : Instant} {step : Step}
  {found : Option Node} {e : Error} {row : Entry} {name : String} {steps : List (Instant × Step)}

/-! ## One step -/

theorem add_eq_ok_iff :
    add now d child = .ok d' ↔
      ('/' ∉ child.name.toList ∧ d.children.lookup child.name = none) ∧
        d' = addChild now child d := by
  unfold add checkName
  by_cases hslash : '/' ∈ child.name.toList
  · simp [hslash]
  · cases hfound : d.children.lookup child.name with
    | none => simp [hslash, eq_comm]
    | some n => simp [hslash]

theorem Step.apply_eq_ok_iff :
    step.apply now d = .ok d' ↔
      step.Allowed (d.children.lookup step.name) ∧ d' = step.change now d := by
  cases step with
  | addFile name content => exact add_eq_ok_iff
  | addDirectory name mode => exact add_eq_ok_iff
  | setContent name content =>
      simp only [apply, Directory.setContent, Allowed, Step.name, change]
      cases d.children.lookup name <;> simp [eq_comm]
  | remove name =>
      simp only [apply, Directory.remove, Allowed, Step.name, change]
      cases d.children.lookup name <;> simp [eq_comm]

/-- An error names the child that the step is about. -/
theorem Step.name_of_apply_eq_error (h : step.apply now d = .error e) : e.name = step.name := by
  have hadd : ∀ {child : Node}, add now d child = .error e → e.name = child.name := by
    intro child h
    unfold add checkName at h
    grind [Error.name]
  cases step with
  | addFile name content => exact hadd h
  | addDirectory name mode => exact hadd h
  | setContent name content =>
      simp only [apply, Directory.setContent] at h
      split at h <;> cases h
      rfl
  | remove name =>
      simp only [apply, Directory.remove] at h
      split at h <;> cases h
      rfl

theorem Step.perform_eq_or :
    step.Allowed (d.children.lookup step.name) ∧ step.perform now d = step.change now d ∨
      ¬ step.Allowed (d.children.lookup step.name) ∧ step.perform now d = d := by
  cases h : step.apply now d with
  | ok d' =>
      obtain ⟨hallowed, rfl⟩ := apply_eq_ok_iff.mp h
      exact .inl ⟨hallowed, by rw [perform, h]; rfl⟩
  | error e =>
      refine .inr ⟨fun hallowed => ?_, by rw [perform, h]; rfl⟩
      cases h.symm.trans (apply_eq_ok_iff.mpr ⟨hallowed, rfl⟩)

/-- A step that cannot be done leaves under its name what was there. -/
theorem Step.leaves_of_not_allowed (h : ¬ step.Allowed found) (now : Instant) :
    step.leaves now found = found := by
  cases step <;> cases found <;> simp_all [Allowed, leaves]

theorem lookup_append_new {key : String} (hfree : cs.lookup key = none) (n : Node)
    (name : String) :
    (cs ++ [(key, n)]).lookup name = if name = key then some n else cs.lookup name := by
  rw [List.lookup_append, lookup_cons]
  split
  · rename_i hname
    rw [hname, hfree, Option.none_or]
  · rw [List.lookup_nil, Option.or_none]

theorem Step.lookup_change (hd : d.isDir) (hallowed : step.Allowed (d.children.lookup step.name))
    (now : Instant) (name : String) :
    (step.change now d).children.lookup name =
      if name = step.name then step.leaves now (d.children.lookup name)
      else d.children.lookup name := by
  cases d with
  | file i text => cases hd
  | dir i cs =>
      cases step with
      | addFile new content =>
          have hslash : '/' ∉ new.toList := hallowed.1
          have hfree : cs.lookup new = none := hallowed.2
          refine (lookup_append_new hfree _ name).trans
            (ite_congr rfl (fun (hname : name = new) => ?_) fun _ => rfl)
          rw [children, hname, hfree, leaves, if_neg hslash, Option.none_or]
      | addDirectory new mode =>
          have hslash : '/' ∉ new.toList := hallowed.1
          have hfree : cs.lookup new = none := hallowed.2
          refine (lookup_append_new hfree _ name).trans
            (ite_congr rfl (fun (hname : name = new) => ?_) fun _ => rfl)
          rw [children, hname, hfree, leaves, if_neg hslash, Option.none_or]
      | setContent held content => exact lookup_updateChild cs _ held name
      | remove held => exact lookup_filter_ne cs held name

/-- A step changes what is filed under its name, and nothing else. -/
theorem Step.lookup_perform (hd : d.isDir) (step : Step) (now : Instant) (name : String) :
    (step.perform now d).children.lookup name =
      if name = step.name then step.leaves now (d.children.lookup name)
      else d.children.lookup name := by
  rcases step.perform_eq_or with ⟨hallowed, hperform⟩ | ⟨hrefused, hperform⟩
  · rw [hperform, lookup_change hd hallowed]
  · rw [hperform]
    split
    · rename_i hname
      rw [hname, leaves_of_not_allowed hrefused]
    · rfl

/-! ## What stays -/

theorem tidy_newDir (now : Instant) (name : String) : Tidy (newDir now name) :=
  ⟨rfl, by simp [newDir, children], by simp [newDir, children], by simp [newDir, children]⟩

theorem Tidy.addChild (hd : Tidy d) (child : Node) (hslash : '/' ∉ child.name.toList)
    (hfree : d.children.lookup child.name = none) (now : Instant) :
    Tidy (addChild now child d) := by
  cases d with
  | file i text => exact hd
  | dir i cs =>
      have hnew : child.name ∉ cs.map (·.1) := by
        intro hmem
        obtain ⟨p, hp, hname⟩ := List.mem_map.mp hmem
        simpa [hname] using List.lookup_eq_none_iff.mp hfree p hp
      constructor
      · rfl
      · exact List.forall_mem_append.mpr ⟨hd.keyed, by simp⟩
      · exact List.forall_mem_append.mpr ⟨hd.slashless, by simpa using hslash⟩
      · rw [Node.addChild, children, List.map_append, List.nodup_append]
        refine ⟨hd.distinct, by simp, fun a ha b hb => ?_⟩
        obtain rfl : b = child.name := by simpa using hb
        exact fun heq => hnew (heq ▸ ha)

theorem Tidy.removeChild (hd : Tidy d) (now : Instant) (name : String) :
    Tidy (d.removeChild now name) := by
  cases d with
  | file i text => exact hd
  | dir i cs =>
      exact ⟨rfl, fun p hp => hd.keyed p (List.mem_filter.mp hp).1,
        fun p hp => hd.slashless p (List.mem_filter.mp hp).1,
        hd.distinct.sublist (List.filter_sublist.map _)⟩

theorem Tidy.setContent (hd : Tidy d) (now : Instant) (name content : String) :
    Tidy (d.modifyAt (.setContent now content) [name]) := by
  cases d with
  | file i text => exact hd
  | dir i cs =>
      have hname : ∀ n : Node, (n.modifyAt (.setContent now content) []).name = n.name := by
        intro n
        cases n <;> rfl
      constructor
      · rfl
      · intro q hq
        obtain ⟨p, hp, ⟨-, rfl⟩ | ⟨-, rfl⟩⟩ := mem_updateChild hq
        · exact (hd.keyed p hp).trans (hname p.2).symm
        · exact hd.keyed q hp
      · intro q hq
        obtain ⟨p, hp, ⟨-, rfl⟩ | ⟨-, rfl⟩⟩ := mem_updateChild hq
        · exact hd.slashless p hp
        · exact hd.slashless q hp
      · have hkeys : ∀ f, (updateChild name f cs).map (·.1) = cs.map (·.1) := by
          intro f
          rw [updateChild, List.map_map]
          refine List.map_congr_left fun p _ => ?_
          dsimp only [Function.comp]
          split <;> rfl
        exact (hkeys _).symm ▸ hd.distinct

theorem Tidy.perform (hd : Tidy d) (now : Instant) (step : Step) : Tidy (step.perform now d) := by
  rcases step.perform_eq_or with ⟨hallowed, hperform⟩ | ⟨-, hperform⟩
  · rw [hperform]
    cases step with
    | addFile name content =>
        exact hd.addChild (.newFile now name content) hallowed.1 hallowed.2 now
    | addDirectory name mode =>
        exact hd.addChild (.dir ⟨name, mode, now, now⟩ []) hallowed.1 hallowed.2 now
    | setContent name content => exact hd.setContent now name content
    | remove name => exact hd.removeChild now name
  · rw [hperform]
    exact hd

/-! ## Runs -/

theorem Tidy.run (hd : Tidy d) (steps : List (Instant × Step)) : Tidy (run d steps) := by
  induction steps generalizing d with
  | nil => exact hd
  | cons step steps ih => exact ih (hd.perform step.1 step.2)

/-- After any steps a name has what the steps about it leave there, one after another. -/
theorem Tidy.lookup_run (hd : Tidy d) (steps : List (Instant × Step)) (name : String) :
    (Directory.run d steps).children.lookup name =
      (steps.filter (·.2.name = name)).foldl (fun found step => step.2.leaves step.1 found)
        (d.children.lookup name) := by
  induction steps generalizing d with
  | nil => rfl
  | cons step steps ih =>
      rw [Directory.run, List.foldl_cons, ← Directory.run, ih (hd.perform step.1 step.2),
        Step.lookup_perform hd.isDir]
      by_cases hname : name = step.2.name
      · rw [if_pos hname, List.filter_cons_of_pos (by simp [hname]), List.foldl_cons]
      · rw [if_neg hname, List.filter_cons_of_neg (by simpa using Ne.symm hname)]

/-! ## Entries -/

theorem Tidy.mem_entries (hd : Tidy d) :
    row ∈ entries d ↔ ∃ name n, d.children.lookup name = some n ∧ row = .ofNode n := by
  have hlookup : ∀ name n, d.children.lookup name = some n ↔ (name, n) ∈ d.children := fun _ _ =>
    ⟨mem_of_lookup, lookup_of_mem hd.distinct⟩
  simp only [entries, List.mem_mergeSort, List.mem_map, hlookup, Prod.exists, eq_comm]

theorem Tidy.entries_before (hd : Tidy d) : (entries d).Pairwise Entry.Before := by
  refine Entry.sorted_before ?_
  rw [List.map_map]
  exact List.map_congr_left hd.keyed ▸ hd.distinct

/-- After any steps on a new directory, those that cannot be done among them, it is tidy; a name has
what the steps about it leave there, one after another; and the entries have a row for each child, in
strict order. -/
theorem run_specified (now : Instant) (steps : List (Instant × Step)) :
    let d := run (newDir now) steps
    Tidy d ∧
    (∀ name, d.children.lookup name =
      (steps.filter (·.2.name = name)).foldl (fun found step => step.2.leaves step.1 found) none) ∧
    (entries d).Pairwise Entry.Before ∧
    ∀ row, row ∈ entries d ↔ ∃ name n, d.children.lookup name = some n ∧ row = .ofNode n := by
  intro d
  have hd : Tidy d := (tidy_newDir now "").run steps
  exact ⟨hd, (tidy_newDir now "").lookup_run steps, hd.entries_before, fun _ => hd.mem_entries⟩

end Shellbox.Filesystem.Directory
