import Shellbox.Proofs.Filesystem.Reachable
import Shellbox.Proofs.Filesystem.Removal

/-!
# Directories made in turn

The directories on the way to a path may be made one after another, each in a tree that already has
those before it. A file on the way can stop this only before the first of them is made, for behind a
new directory nothing is in the way. So it comes to the same as making all of them at once, or none.
-/

namespace Shellbox.Filesystem

namespace Node

variable {n m : Node} {f g : Node → Node} {i : Info} {cs : List (String × Node)} {s : String}
  {passed ns : List String} {now : Instant}

/-- Makes the directories that are missing behind those already passed, one after another. A file on
the way stops it; what was made before stays. -/
def makeInTurn (now : Instant) (n : Node) (passed : List String) : List String → Node × Bool
  | [] => (n, true)
  | s :: rest =>
    match n.get? (passed ++ [s]) with
    | none => makeInTurn now (n.modifyAt (addChild now (newDir now s)) passed) (passed ++ [s]) rest
    | some (file ..) => (n, false)
    | some (dir ..) => makeInTurn now n (passed ++ [s]) rest

/-! ## Changes at one node -/

theorem updateChild_congr (h : ∀ p ∈ cs, p.1 = s → f p.2 = g p.2) :
    updateChild s f cs = updateChild s g cs := by
  refine List.map_congr_left fun p hp => ?_
  by_cases hs : p.1 = s
  · simp [hs, h p hp hs]
  · simp [hs]

theorem updateChild_id (s : String) (cs : List (String × Node)) :
    updateChild s (fun c => c) cs = cs := by
  simp [updateChild]

theorem updateChild_updateChild (s : String) (f g : Node → Node) (cs : List (String × Node)) :
    updateChild s g (updateChild s f cs) = updateChild s (fun c => g (f c)) cs := by
  rw [updateChild, updateChild, List.map_map]
  refine List.map_congr_left fun p _ => ?_
  by_cases hs : p.1 = s <;> simp [hs]

theorem modifyAt_id (n : Node) (ns : List String) : n.modifyAt (fun m => m) ns = n := by
  induction ns generalizing n with
  | nil => cases n <;> rfl
  | cons s r ih =>
      cases n with
      | file i text => rfl
      | dir i cs => simp only [modifyAt, ih, updateChild_id]

theorem modifyAt_append (n : Node) (f : Node → Node) (ns ks : List String) :
    n.modifyAt f (ns ++ ks) = n.modifyAt (fun m => m.modifyAt f ks) ns := by
  induction ns generalizing n with
  | nil => cases n <;> rfl
  | cons s r ih =>
      cases n with
      | file i text => rfl
      | dir i cs => simp only [List.cons_append, modifyAt, ih]

theorem modifyAt_modifyAt (n : Node) (f g : Node → Node) (ns : List String) :
    (n.modifyAt f ns).modifyAt g ns = n.modifyAt (fun m => g (f m)) ns := by
  induction ns generalizing n with
  | nil => cases n <;> simp [modifyAt]
  | cons s r ih =>
      cases n with
      | file i text => rfl
      | dir i cs => simp only [modifyAt, updateChild_updateChild, ih]

/-- In a well-formed tree names lead to one node only, so a change there puts one node in place. -/
theorem modifyAt_eq (hn : n.WellFormed) (hm : n.get? ns = some m) (f : Node → Node) :
    n.modifyAt f ns = n.modifyAt (fun _ => f m) ns := by
  induction ns generalizing n with
  | nil =>
      cases hm
      cases m <;> rfl
  | cons s r ih =>
      cases n with
      | file i text => rfl
      | dir i cs =>
          obtain ⟨hcs, hbelow⟩ := wellFormed_dir.mp hn
          have hchildren : updateChild s (modifyAt f · r) cs =
              updateChild s (modifyAt (fun _ => f m) · r) cs := by
            refine updateChild_congr fun p hp hs => ih (hbelow p hp) ?_
            rwa [← hs, Node.get?, hcs.lookup_eq hp, Option.bind_some] at hm
          rw [modifyAt, modifyAt, hchildren]

theorem modifyAt_self (hn : n.WellFormed) (hm : n.get? ns = some m) :
    n.modifyAt (fun _ => m) ns = n :=
  (modifyAt_eq hn hm fun k => k).symm.trans (modifyAt_id n ns)

/-! ## One after another and all at once -/

theorem ensureDirs_newDir (now : Instant) (s : String) (ns : List String) :
    (newDir now s).ensureDirs now ns = some (newChain now s ns) := by
  cases ns <;> rfl

/-- One child may be added and then another put in its place. -/
theorem modifyAt_addChild {k : Node} (hfree : cs.lookup s = none) (hm : m.name = s)
    (hk : k.name = s) (now : Instant) (i : Info) :
    (addChild now m (dir i cs)).modifyAt (fun _ => k) [s] = addChild now k (dir i cs) := by
  have hothers : updateChild s (fun _ => k) cs = cs := by
    refine (updateChild_congr fun p hp hs => ?_).trans (updateChild_id s cs)
    have hne := List.lookup_eq_none_iff.mp hfree p hp
    simp [hs] at hne
  have hall : updateChild s (fun _ => k) (cs ++ [(s, m)]) = cs ++ [(s, k)] := by
    refine List.map_append.trans (congrArg₂ (· ++ ·) hothers ?_)
    simp
  simp only [addChild, modifyAt, hm, hk, hall]

theorem get?_addChild (hd : n.get? ns = some (dir i cs)) (hfree : cs.lookup s = none)
    (hm : m.name = s) (now : Instant) :
    (n.modifyAt (addChild now m) ns).get? (ns ++ [s]) = some m := by
  have hlast : (cs ++ [(m.name, m)]).lookup s = some m := by
    rw [List.lookup_append, hfree, Option.none_or, lookup_cons, if_pos hm.symm]
  rw [get?_modifyAt, hd, Option.bind_some, addChild, Node.get?, hlast, Option.bind_some, Node.get?]

/-- Behind directories that are there, either a file is met before anything is made, or all that is
missing gets made. -/
theorem makeInTurn_eq (hn : n.WellFormed) (hm : n.get? passed = some m) (hd : m.isDir)
    (hns : ∀ s ∈ ns, Path.IsName s) :
    n.makeInTurn now passed ns = match m.ensureDirs now ns with
      | none => (n, false)
      | some made => (n.modifyAt (fun _ => made) passed, true) := by
  induction ns generalizing n m passed with
  | nil => simp only [makeInTurn, ensureDirs, modifyAt_self hn hm]
  | cons s r ih =>
      cases m with
      | file i text => cases hd
      | dir i cs =>
          have hs : Path.IsName s := hns s List.mem_cons_self
          have hr : ∀ t ∈ r, Path.IsName t := fun t ht => hns t (List.mem_cons_of_mem _ ht)
          have hnext : n.get? (passed ++ [s]) = cs.lookup s := by
            rw [get?_append, hm, Option.bind_some, Node.get?]
            cases cs.lookup s <;> simp [Node.get?]
          cases hl : cs.lookup s with
          | none =>
              have hadded : (n.modifyAt (addChild now (newDir now s)) passed).WellFormed := by
                refine (replaces_modifyAt hn fun k hk => ?_).wellFormed
                cases hm.symm.trans hk
                exact replaces_addChild now (hn.get? hm) (newDir_wellFormed now s) hs hl
              have hnew : (n.modifyAt (addChild now (newDir now s)) passed).get? (passed ++ [s]) =
                  some (newDir now s) := get?_addChild hm hl rfl now
              simp only [makeInTurn, hnext, hl, ih hadded hnew rfl hr, ensureDirs,
                ensureDirs_newDir]
              rw [modifyAt_append, modifyAt_modifyAt, modifyAt_eq hn hm,
                modifyAt_addChild hl rfl (newChain_name now s r)]
          | some c =>
              cases c with
              | file j text => simp only [makeInTurn, hnext, hl, ensureDirs]
              | dir j ds =>
                  have hc : n.get? (passed ++ [s]) = some (dir j ds) := hnext.trans hl
                  simp only [makeInTurn, hc, ih hn hc rfl hr, ensureDirs, hl]
                  cases (dir j ds).ensureDirs now r with
                  | none => rfl
                  | some made =>
                      simp only [Option.map_some]
                      rw [modifyAt_append, modifyAt_eq hn hm]
                      simp only [modifyAt]

end Node

variable {fs : Filesystem} {now : Instant} {path : Option String}

/-- Makes a directory and all that are missing on the way to it, one after another. -/
def makeInTurn (fs : Filesystem) (now : Instant) (path : Option String) :
    Filesystem × Except PathError Unit :=
  match fs.root.makeInTurn now [] (fs.names path) with
  | (root, true) => ({ fs with root }, .ok ())
  | (root, false) => ({ fs with root }, .error ⟨path, .notDirectory⟩)

theorem WellFormed.makeInTurn_eq (h : fs.WellFormed) (now : Instant) (path : Option String) :
    fs.makeInTurn now path = fs.attempt (fs.makeDirectories now path) := by
  rw [Filesystem.makeInTurn, Node.makeInTurn_eq h.tree rfl h.isDir_root (h.names_isName path),
    Filesystem.makeDirectories]
  cases fs.root.ensureDirs now (fs.names path) <;> rfl

end Shellbox.Filesystem
