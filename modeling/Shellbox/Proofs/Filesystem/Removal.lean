import Mathlib.Data.List.Basic
import Shellbox.Proofs.Filesystem.Walk

/-!
# Removing nodes

A removal takes away the node at its path and leads nowhere new: where no node was before, there is
none after it. It is done whenever there is a node below the root that holds nothing or may be
removed with all that it holds.
-/

namespace Shellbox.Filesystem

namespace Node

variable {n : Node} {cs : List (String × Node)} {s t : String} {ns ks : List String} {now : Instant}

theorem lookup_cons (p : String × Node) (cs : List (String × Node)) (t : String) :
    (p :: cs).lookup t = if t = p.1 then some p.2 else cs.lookup t := by
  rw [List.lookup_cons]
  split
  · rename_i h
    rw [if_pos (beq_iff_eq.mp h)]
  · rename_i h
    rw [if_neg (beq_eq_false_iff_ne.mp h)]

theorem lookup_updateChild (cs : List (String × Node)) (f : Node → Node) (s t : String) :
    (updateChild s f cs).lookup t = if t = s then (cs.lookup t).map f else cs.lookup t := by
  induction cs with
  | nil => simp [updateChild]
  | cons p cs ih =>
      rw [updateChild, List.map_cons, ← updateChild, lookup_cons, lookup_cons, ih]
      by_cases hp : p.1 = s
      · by_cases ht : t = s <;> simp [hp, ht]
      · by_cases ht : t = p.1 <;> simp [hp, ht]

theorem lookup_filter_ne (cs : List (String × Node)) (s t : String) :
    (cs.filter (·.1 ≠ s)).lookup t = if t = s then none else cs.lookup t := by
  induction cs with
  | nil => simp
  | cons p cs ih =>
      by_cases hp : p.1 = s
      · rw [List.filter_cons_of_neg (by simpa using hp), ih, lookup_cons, hp]
        by_cases ht : t = s <;> simp [ht]
      · rw [List.filter_cons_of_pos (by simpa using hp), lookup_cons, lookup_cons, ih]
        by_cases ht : t = p.1 <;> simp [ht, hp]

/-- What names lead to through a node that is changed. -/
theorem get?_modifyAt (n : Node) (f : Node → Node) (ns ks : List String) :
    (n.modifyAt f ns).get? (ns ++ ks) = (n.get? ns).bind fun m => (f m).get? ks := by
  induction ns generalizing n with
  | nil => rfl
  | cons s r ih =>
      cases n with
      | file i text => rfl
      | dir i cs =>
          simp only [modifyAt, List.cons_append, Node.get?, lookup_updateChild, if_true]
          cases cs.lookup s with
          | none => rfl
          | some c => exact ih c

theorem get?_removed (n : Node) (now : Instant) (ns : List String) (s : String) :
    (n.modifyAt (removeChild now s) ns).get? (ns ++ [s]) = none := by
  rw [get?_modifyAt]
  cases n.get? ns with
  | none => rfl
  | some m =>
      cases m with
      | file i text => rfl
      | dir i cs =>
          rw [Option.bind_some, removeChild, Node.get?, lookup_filter_ne, if_pos rfl,
            Option.bind_none]

theorem get?_none_of_removed (h : n.get? ks = none) (now : Instant) (s : String)
    (ns : List String) : (n.modifyAt (removeChild now s) ns).get? ks = none := by
  induction ns generalizing n ks with
  | nil =>
      cases n with
      | file i text => exact h
      | dir i cs =>
          cases ks with
          | nil => cases h
          | cons t ks =>
              simp only [modifyAt, removeChild, Node.get?, lookup_filter_ne] at h ⊢
              split
              · rfl
              · exact h
  | cons u ns ih =>
      cases n with
      | file i text => exact h
      | dir i cs =>
          cases ks with
          | nil => cases h
          | cons t ks =>
              simp only [modifyAt, Node.get?, lookup_updateChild] at h ⊢
              split
              · cases hl : cs.lookup t with
                | none => rfl
                | some c =>
                    rw [hl] at h
                    exact ih h
              · exact h

end Node

variable {fs fs' : Filesystem} {now : Instant} {path : Option String} {recursive : Bool}
  {result : Except PathError Filesystem}

/-- There is a node at the path, it is not the root, and it holds nothing or may be removed with all
that it holds. -/
def Removable (fs : Filesystem) (path : Option String) (recursive : Bool) : Prop :=
  fs.names path ≠ [] ∧ ∃ n, fs.node? path = some n ∧ (n.children = [] ∨ recursive)

/-- There is no node at the path, and not because a file is in the place of the directory for it. -/
def Missing (fs : Filesystem) (path : Option String) : Prop :=
  fs.node? path = none ∧ ∀ d, fs.root.get? (fs.names path).dropLast = some d → d.isDir

theorem Node.isKept_iff (n : Node) (recursive : Bool) :
    (n.isDir && !n.children.isEmpty && !recursive) = true ↔ ¬ (n.children = [] ∨ recursive) := by
  cases n with
  | file i text => simp [Node.isDir, Node.children]
  | dir i cs => simp [Node.isDir, Node.children]

/-- A file is in the place of the directory for the path. -/
def Misplaced (fs : Filesystem) (path : Option String) : Prop :=
  fs.names path ≠ [] ∧ (fs.root.get? (fs.names path).dropLast).any (·.isFile)

/-- There is a node at the path that holds something, and it is not to be removed with it. -/
def Holding (fs : Filesystem) (path : Option String) (recursive : Bool) : Prop :=
  fs.names path ≠ [] ∧ ∃ n, fs.node? path = some n ∧ ¬ (n.children = [] ∨ recursive)

theorem node?_concat {ms : List String} {name : String} (hnames : fs.names path = ms ++ [name]) :
    fs.node? path = (fs.root.get? ms).bind (·.get? [name]) := by
  rw [node?, hnames, Node.get?_append]

theorem node?_of_dir {ms : List String} {name : String} {i : Info} {cs : List (String × Node)}
    (hnames : fs.names path = ms ++ [name]) (hfolder : fs.root.get? ms = some (.dir i cs)) :
    fs.node? path = cs.lookup name := by
  rw [node?_concat hnames, hfolder, Option.bind_some, Node.get?]
  cases cs.lookup name <;> rfl

theorem Misplaced.node?_eq_none (h : fs.Misplaced path) : fs.node? path = none := by
  obtain ⟨hnames, hfolder⟩ := h
  obtain ⟨d, hd, hfile⟩ := (Option.any_eq_true _ _).mp hfolder
  obtain ⟨ms, name, hconcat⟩ := (List.eq_nil_or_concat' (fs.names path)).resolve_left hnames
  rw [hconcat, List.dropLast_concat] at hd
  rw [node?_concat hconcat, hd, Option.bind_some]
  cases d with
  | file i old => rfl
  | dir i cs => cases hfile

theorem Misplaced.not_missing (h : fs.Misplaced path) : ¬ fs.Missing path := by
  rintro ⟨-, hdir⟩
  obtain ⟨d, hd, hfile⟩ := (Option.any_eq_true _ _).mp h.2
  have hdir := hdir d hd
  cases d with
  | file i old => cases hdir
  | dir i cs => cases hfile

/-- All that a removal can come to. -/
inductive Removed (fs : Filesystem) (path : Option String) (recursive : Bool) :
    Except PathError Filesystem → Prop
  | done {after : Filesystem} (h : fs.Removable path recursive) :
      Removed fs path recursive (.ok after)
  | root (h : fs.names path = []) : Removed fs path recursive (.error ⟨path, .notPermitted⟩)
  | missing (h : fs.Missing path) : Removed fs path recursive (.error ⟨path, .notFound⟩)
  | misplaced (h : fs.Misplaced path) : Removed fs path recursive (.error ⟨path, .notDirectory⟩)
  | holding (h : fs.Holding path recursive) : Removed fs path recursive (.error ⟨path, .notEmpty⟩)

theorem remove_removed (fs : Filesystem) (now : Instant) (path : Option String) (recursive : Bool) :
    Removed fs path recursive (fs.remove now path recursive) := by
  cases fs.site path with
  | root hnames =>
      simp only [remove, hnames, List.getLast?_nil]
      exact .root hnames
  | noFolder hnames hfolder =>
      have hnode : fs.node? path = none := by rw [node?_concat hnames, hfolder, Option.bind_none]
      simp only [remove, siblings_of_none hnames hfolder, hnames, List.getLast?_concat]
      exact .missing ⟨hnode, by simp [hnames, hfolder]⟩
  | fileForFolder hnames hfolder =>
      simp only [remove, siblings_of_file hnames hfolder, hnames, List.getLast?_concat]
      exact .misplaced ⟨by simp [hnames], by rw [hnames, List.dropLast_concat, hfolder]; rfl⟩
  | free hnames hfolder hplace =>
      have hnode : fs.node? path = none := (node?_of_dir hnames hfolder).trans hplace
      simp only [remove, siblings_concat hnames hfolder, hnames, List.getLast?_concat, hplace]
      refine .missing ⟨hnode, fun d hd => ?_⟩
      rw [hnames, List.dropLast_concat, hfolder, Option.some_inj] at hd
      rw [← hd, Node.isDir]
  | @taken ms name i cs n hnames hfolder hplace =>
      have hne : fs.names path ≠ [] := by simp [hnames]
      have hnode : fs.node? path = some n := (node?_of_dir hnames hfolder).trans hplace
      simp only [remove, siblings_concat hnames hfolder, hnames, List.getLast?_concat, hplace,
        Node.isKept_iff]
      split
      · rename_i hkept
        exact .holding ⟨hne, n, hnode, hkept⟩
      · rename_i hfree
        exact .done ⟨hne, n, hnode, not_not.mp hfree⟩

theorem not_missing_of_root (h : fs.names path = []) : ¬ fs.Missing path := by
  rintro ⟨hnone, -⟩
  rw [node?, h] at hnone
  cases hnone

theorem Removed.path_of_error {e : PathError} (h : Removed fs path recursive (.error e)) :
    e.path = path := by
  cases h <;> rfl

theorem Removed.ok_iff (h : Removed fs path recursive result) :
    (∃ fs', result = .ok fs') ↔ fs.Removable path recursive := by
  cases h with
  | done h => simp [h]
  | root h => simp [Removable, h]
  | missing h => simp [Removable, h.1]
  | misplaced h => simp [Removable, h.node?_eq_none]
  | holding h =>
      obtain ⟨-, n, hnode, hkept⟩ := h
      simpa [Removable, hnode] using fun _ => hkept

theorem Removed.notPermitted_iff (h : Removed fs path recursive result) :
    result = .error ⟨path, .notPermitted⟩ ↔ fs.names path = [] := by
  cases h with
  | done h => simp [h.1]
  | root h => simp [h]
  | missing h => simpa using fun hnames => not_missing_of_root hnames h
  | misplaced h => simp [h.1]
  | holding h => simp [h.1]

theorem Removed.notFound_iff (h : Removed fs path recursive result) :
    result = .error ⟨path, .notFound⟩ ↔ fs.Missing path := by
  cases h with
  | done h =>
      obtain ⟨-, n, hnode, -⟩ := h
      simp [Missing, hnode]
  | root h => simpa using not_missing_of_root h
  | missing h => simp [h]
  | misplaced h => simpa using h.not_missing
  | holding h =>
      obtain ⟨-, n, hnode, -⟩ := h
      simp [Missing, hnode]

theorem Removed.notDirectory_iff (h : Removed fs path recursive result) :
    result = .error ⟨path, .notDirectory⟩ ↔ fs.Misplaced path := by
  cases h with
  | done h =>
      obtain ⟨-, n, hnode, -⟩ := h
      simpa using fun hfile => by simpa [hnode] using Misplaced.node?_eq_none hfile
  | root h => simp [Misplaced, h]
  | missing h => simpa using fun hfile => Misplaced.not_missing hfile h
  | misplaced h => simp [h]
  | holding h =>
      obtain ⟨-, n, hnode, -⟩ := h
      simpa using fun hfile => by simpa [hnode] using Misplaced.node?_eq_none hfile

theorem Removed.notEmpty_iff (h : Removed fs path recursive result) :
    result = .error ⟨path, .notEmpty⟩ ↔ fs.Holding path recursive := by
  cases h with
  | done h =>
      obtain ⟨-, n, hnode, hfree⟩ := h
      simpa [Holding, hnode] using fun _ => hfree.resolve_left
  | root h => simp [Holding, h]
  | missing h => simp [Holding, h.1]
  | misplaced h => simp [Holding, h.node?_eq_none]
  | holding h => simp [h]

/-- What was removed is there no more. -/
theorem remove_gone (h : fs.remove now path recursive = .ok fs') :
    fs'.root.get? (fs.names path) = none := by
  obtain ⟨ms, name, -, -, hnames, -, -, rfl⟩ := remove_eq_ok h
  rw [hnames]
  exact fs.root.get?_removed now ms name

/-- A removal puts nothing anywhere. -/
theorem remove_adds_nothing (h : fs.remove now path recursive = .ok fs') {ks : List String}
    (hks : fs.root.get? ks = none) : fs'.root.get? ks = none := by
  obtain ⟨ms, name, -, -, -, -, -, rfl⟩ := remove_eq_ok h
  exact Node.get?_none_of_removed hks now name ms

end Shellbox.Filesystem
