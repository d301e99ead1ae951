import Shellbox.Proofs.Filesystem.Changes
import Shellbox.Proofs.Filesystem.Path
import Shellbox.Proofs.Filesystem.Tree

/-!
# Reachable filesystems

A filesystem is reachable if it comes from a new one by any operations, successful or failing. Each
operation keeps the tree well formed and the working directory a normal path, so both hold of every
reachable filesystem.
-/

namespace Shellbox.Filesystem

open Node (Replaces)

variable {fs fs' : Filesystem} {now : Instant} {path : Option String} {text : String}

/-- A well-formed tree below a nameless root directory, and a normal working directory. -/
structure WellFormed (fs : Filesystem) : Prop where
  root_isDir : fs.root.kind = .directory
  root_name : fs.root.name = ""
  tree : fs.root.WellFormed
  cwd : Path.IsNormal fs.cwd

/-! ## Operations -/

/-- An operation on a filesystem, with the time at which it is done. -/
inductive Change where
  | write (now : Instant) (path : Option String) (text : String)
  | makeDirectory (now : Instant) (path : Option String)
  | makeDirectories (now : Instant) (path : Option String)
  | remove (now : Instant) (path : Option String) (recursive : Bool)
  | changeDirectory (path : Option String)
  | populate (now : Instant) (tree : List (String × Option String))
  | touchNode (now : Instant) (path : Option String)

/-- The filesystem after an operation, whether it succeeds or fails. -/
def apply (fs : Filesystem) : Change → Filesystem
  | .write now path text => (fs.attempt (fs.write now path text)).1
  | .makeDirectory now path => (fs.attempt (fs.makeDirectory now path)).1
  | .makeDirectories now path => (fs.attempt (fs.makeDirectories now path)).1
  | .remove now path recursive => (fs.attempt (fs.remove now path recursive)).1
  | .changeDirectory path => (fs.attempt (fs.changeDirectory path)).1
  | .populate now tree => (fs.populate now tree).1
  | .touchNode now path => fs.touchNode now path

/-- The operation is done at the time; a change of directory takes no note of it. -/
def Change.At (now : Instant) : Change → Prop
  | .write t _ _ => t = now
  | .makeDirectory t _ => t = now
  | .makeDirectories t _ => t = now
  | .remove t _ _ => t = now
  | .changeDirectory _ => True
  | .populate t _ => t = now
  | .touchNode t _ => t = now

/-- What every operation at a time keeps. -/
def KeptAt (now : Instant) (P : Filesystem → Prop) : Prop :=
  ∀ fs (c : Change), c.At now → P fs → P (fs.apply c)

/-- A new filesystem, or what an operation makes of a reachable one. -/
inductive Reachable : Filesystem → Prop
  | create {now home tree initial start} :
      Filesystem.create now home tree initial = .ok start → Reachable start
  | change {before} (c : Change) : Reachable before → Reachable (before.apply c)

/-- What is kept by an operation that succeeds holds after it, whether it succeeds or fails. -/
theorem attempt_induction {P : Filesystem → Prop} {result : Except PathError Filesystem}
    (start : P fs) (step : ∀ fs', result = .ok fs' → P fs') : P (fs.attempt result).1 := by
  cases result with
  | error e => exact start
  | ok fs' => exact step fs' rfl

/-- What planting a path takes is making directories and writing a file. -/
theorem plant_induction {P : Filesystem → Prop}
    (make : ∀ fs path fs', fs.makeDirectories now path = .ok fs' → P fs → P fs')
    (write : ∀ fs path text fs', fs.write now path text = .ok fs' → P fs → P fs') (start : P fs)
    (path : String) (content : Option String) : P (fs.plant now path content).1 := by
  unfold Filesystem.plant
  split
  · exact attempt_induction start fun fs' hm => make fs _ fs' hm start
  · split
    · exact start
    · rename_i made hm
      have hmade := make fs _ made hm start
      exact attempt_induction hmade fun fs' hw => write made _ _ fs' hw hmade

theorem populate_induction {P : Filesystem → Prop}
    (make : ∀ fs path fs', fs.makeDirectories now path = .ok fs' → P fs → P fs')
    (write : ∀ fs path text fs', fs.write now path text = .ok fs' → P fs → P fs') (start : P fs)
    (tree : List (String × Option String)) : P (fs.populate now tree).1 := by
  induction tree generalizing fs with
  | nil => exact start
  | cons entry rest ih =>
      obtain ⟨path, content⟩ := entry
      have hp := plant_induction make write start path content
      simp only [Filesystem.populate]
      split
      · rename_i heq
        rw [heq] at hp
        exact ih hp
      · rename_i heq
        rw [heq] at hp
        exact hp

/-- What is kept by the operations at a time when they succeed is kept by all of them. -/
theorem keptAt_of_ok {P : Filesystem → Prop}
    (write : ∀ fs path text fs', fs.write now path text = .ok fs' → P fs → P fs')
    (makeDirectory : ∀ fs path fs', fs.makeDirectory now path = .ok fs' → P fs → P fs')
    (makeDirectories : ∀ fs path fs', fs.makeDirectories now path = .ok fs' → P fs → P fs')
    (remove : ∀ fs path recursive fs', fs.remove now path recursive = .ok fs' → P fs → P fs')
    (changeDirectory : ∀ fs path fs', fs.changeDirectory path = .ok fs' → P fs → P fs')
    (touchNode : ∀ fs path, P fs → P (fs.touchNode now path)) : KeptAt now P := by
  intro fs c hc h
  cases c with
  | write t path text =>
      cases hc
      exact attempt_induction h fun fs' hw => write fs path text fs' hw h
  | makeDirectory t path =>
      cases hc
      exact attempt_induction h fun fs' hm => makeDirectory fs path fs' hm h
  | makeDirectories t path =>
      cases hc
      exact attempt_induction h fun fs' hm => makeDirectories fs path fs' hm h
  | remove t path recursive =>
      cases hc
      exact attempt_induction h fun fs' hr => remove fs path recursive fs' hr h
  | changeDirectory path =>
      exact attempt_induction h fun fs' hd => changeDirectory fs path fs' hd h
  | populate t tree =>
      cases hc
      exact populate_induction makeDirectories write h tree
  | touchNode t path =>
      cases hc
      exact touchNode fs path h

theorem Change.exists_at (c : Change) : ∃ now, c.At now := by
  cases c with
  | changeDirectory path => exact ⟨0, trivial⟩
  | _ => exact ⟨_, rfl⟩

/-! ## What keeps a filesystem well formed -/

theorem WellFormed.replaceRoot (h : fs.WellFormed) {root : Node} (hr : Replaces root fs.root) :
    WellFormed { fs with root } :=
  ⟨hr.kind_eq.trans h.root_isDir, hr.name_eq.trans h.root_name, hr.wellFormed, h.cwd⟩

theorem WellFormed.isDir_root (h : fs.WellFormed) : fs.root.isDir := by
  have hkind := h.root_isDir
  cases hroot : fs.root with
  | file i text => simp [hroot, Node.kind] at hkind
  | dir i cs => rfl

theorem WellFormed.modifyAt (h : fs.WellFormed) {names : List String} {f : Node → Node}
    (hf : ∀ m, fs.root.get? names = some m → Replaces (f m) m) : (fs.modifyAt names f).WellFormed :=
  h.replaceRoot (Node.replaces_modifyAt h.tree hf)

theorem WellFormed.resolve_isNormal (h : fs.WellFormed) (path : Option String) :
    Path.IsNormal (fs.resolve path) :=
  Path.resolve_isNormal fs.home h.cwd path

theorem WellFormed.moveTo (h : fs.WellFormed) (path : Option String) :
    WellFormed { fs with cwd := fs.resolve path } :=
  ⟨h.root_isDir, h.root_name, h.tree, h.resolve_isNormal path⟩

/-- Whatever text is given as a path, an operation works on proper names. -/
theorem WellFormed.names_isName (h : fs.WellFormed) (path : Option String) :
    ∀ s ∈ fs.names path, Path.IsName s :=
  Path.segments_isName (h.resolve_isNormal path)

theorem WellFormed.names_eq_iff (h : fs.WellFormed) (path q : Option String) :
    fs.names q = fs.names path ↔ fs.resolve q = fs.resolve path :=
  Path.segments_inj (h.resolve_isNormal q) (h.resolve_isNormal path)

theorem WellFormed.names_resolve (h : fs.WellFormed) (path : Option String) :
    fs.names (some (fs.resolve path)) = fs.names path := by
  rw [names, resolve, Path.resolve_of_isNormal _ _ (h.resolve_isNormal path)]
  rfl

/-- A child of a free, proper name may be added to a directory. -/
theorem WellFormed.addChild (h : fs.WellFormed) {ms : List String} {i : Info}
    {cs : List (String × Node)} {child : Node} (hd : fs.root.get? ms = some (.dir i cs))
    (hc : child.WellFormed) (hname : Path.IsName child.name) (hfree : cs.lookup child.name = none) :
    (fs.modifyAt ms (.addChild now child)).WellFormed := by
  refine h.modifyAt fun m hm => ?_
  cases hd.symm.trans hm
  exact Node.replaces_addChild now (h.tree.get? hd) hc hname hfree

/-! ## The operations one by one -/

theorem WellFormed.write (h : fs.WellFormed) (hw : fs.write now path text = .ok fs') :
    fs'.WellFormed := by
  obtain ⟨ms, name, i, cs, hnames, hd, ⟨hfree, rfl⟩ | ⟨j, old, -, rfl⟩⟩ := write_eq_ok hw
  · have hname : Path.IsName name := h.names_isName path name (by simp [hnames])
    exact h.addChild hd (Node.newFile_wellFormed now name text) hname hfree
  · exact h.modifyAt fun m hm => Node.replaces_setContent now text (h.tree.get? hm)

theorem WellFormed.makeDirectory (h : fs.WellFormed) (hm : fs.makeDirectory now path = .ok fs') :
    fs'.WellFormed := by
  obtain ⟨ms, name, i, cs, hnames, hd, hfree, rfl⟩ := makeDirectory_eq_ok hm
  have hname : Path.IsName name := h.names_isName path name (by simp [hnames])
  exact h.addChild hd (Node.newDir_wellFormed now name) hname hfree

theorem WellFormed.makeDirectories (h : fs.WellFormed)
    (hm : fs.makeDirectories now path = .ok fs') : fs'.WellFormed := by
  obtain ⟨root, hroot, rfl⟩ := makeDirectories_eq_ok hm
  exact h.replaceRoot (Node.replaces_ensureDirs h.tree (h.names_isName path) hroot)

theorem WellFormed.remove (h : fs.WellFormed) {recursive : Bool}
    (hr : fs.remove now path recursive = .ok fs') : fs'.WellFormed := by
  obtain ⟨ms, name, i, cs, -, -, -, rfl⟩ := remove_eq_ok hr
  exact h.modifyAt fun m hm => Node.replaces_removeChild now name (h.tree.get? hm)

theorem WellFormed.changeDirectory (h : fs.WellFormed)
    (hc : fs.changeDirectory path = .ok fs') : fs'.WellFormed := by
  obtain rfl := changeDirectory_eq_ok hc
  exact h.moveTo _

theorem WellFormed.touchNode (h : fs.WellFormed) (now : Instant) (path : Option String) :
    (fs.touchNode now path).WellFormed :=
  h.modifyAt fun _ hm => Node.replaces_touch now (h.tree.get? hm)

theorem WellFormed.populate (h : fs.WellFormed) (now : Instant)
    (tree : List (String × Option String)) : (fs.populate now tree).1.WellFormed :=
  populate_induction (fun _ _ _ hm h => h.makeDirectories hm) (fun _ _ _ _ hw h => h.write hw) h
    tree

theorem empty_wellFormed (now : Instant) (home : String) : (empty now home).WellFormed :=
  ⟨rfl, rfl, Node.newDir_wellFormed now "", Path.isNormal_root⟩

theorem WellFormed.startAt (h : fs.WellFormed) (path : String) : (fs.startAt path).WellFormed := by
  unfold Filesystem.startAt
  split
  · exact h.moveTo _
  · exact h

theorem create_wellFormed {home : String} {tree : List (String × Option String)}
    {initial : Option String} (h : Filesystem.create now home tree initial = .ok fs) :
    fs.WellFormed := by
  have hp := (empty_wellFormed now home).populate now tree
  unfold Filesystem.create at h
  split at h
  · cases h
  · rename_i heq
    rw [heq] at hp
    obtain rfl := Except.ok.inj h
    exact hp.startAt _

/-! ## Runs of operations -/

theorem wellFormed_kept (now : Instant) : KeptAt now WellFormed :=
  keptAt_of_ok (fun _ _ _ _ hw h => h.write hw) (fun _ _ _ hm h => h.makeDirectory hm)
    (fun _ _ _ hm h => h.makeDirectories hm) (fun _ _ _ _ hr h => h.remove hr)
    (fun _ _ _ hc h => h.changeDirectory hc) fun _ path h => h.touchNode now path

theorem WellFormed.apply (h : fs.WellFormed) (c : Change) : (fs.apply c).WellFormed := by
  obtain ⟨now, hc⟩ := c.exists_at
  exact wellFormed_kept now fs c hc h

theorem Reachable.wellFormed (h : fs.Reachable) : fs.WellFormed := by
  induction h with
  | create hc => exact create_wellFormed hc
  | change c _ ih => exact ih.apply c

/-- In a reachable filesystem the root is a nameless directory, every directory below it files
children of distinct, proper names under their own names, and the working directory is normal. -/
theorem Reachable.names_in_place (h : fs.Reachable) :
    fs.root.kind = .directory ∧ fs.root.name = "" ∧
    (∀ i cs, Node.Within (.dir i cs) fs.root →
      (∀ p ∈ cs, p.1 = p.2.name) ∧ (cs.map fun p => p.2.name).Nodup ∧
      ∀ p ∈ cs, p.2.name ≠ "" ∧ '/' ∉ p.2.name.toList ∧ p.2.name ≠ "." ∧ p.2.name ≠ "..") ∧
    Path.IsNormal fs.cwd := by
  have hwf := h.wellFormed
  refine ⟨hwf.root_isDir, hwf.root_name, fun i cs hd => ?_, hwf.cwd⟩
  have hcs : Node.Orderly cs := hwf.tree _ hd
  refine ⟨hcs.keyed, hcs.distinct, fun p hp => ?_⟩
  obtain ⟨hempty, hdot, hup, hslash⟩ := hcs.proper p hp
  exact ⟨hempty, hslash, hdot, hup⟩

theorem names_in_place_after_run :
    ∃ fs : Filesystem, fs.Reachable ∧
      fs.root.children.map (·.1) = ["~", "srv"] ∧ fs.cwd = "/srv/a b" ∧
      ∀ i cs, Node.Within (.dir i cs) fs.root → (cs.map fun p => p.2.name).Nodup := by
  have h₀ : Reachable ((empty 0 "~/x").startAt "~/x") := @Reachable.create 0 "~/x" [] none _ rfl
  have h := (((h₀.change (.makeDirectories 1 (some "~//y/.././"))).change
    (.populate 2 [("/srv/a b/../a b/", none), ("/srv", some "text"), ("/never", none)])).change
    (.remove 3 (some "/srv") false)).change (.changeDirectory (some "srv/./a b"))
  refine ⟨_, h, by decide +kernel, by decide +kernel, fun i cs hd => ?_⟩
  exact (h.names_in_place.2.2.1 i cs hd).2.1

end Shellbox.Filesystem
