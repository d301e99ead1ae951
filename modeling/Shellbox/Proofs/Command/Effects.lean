import Shellbox.Proofs.Command.Catalog
import Shellbox.Proofs.Filesystem.Changes

/-!
# What commands change

Lines change four parts of a session: the tree, the working directory, the aliases and the history.
Only the commands named for a part change it; all others leave it as it was, whatever their
arguments and the text piped into them.
-/

namespace Shellbox

open Filesystem

/-- The parts of a session that lines change. -/
inductive Part where
  | tree
  | directory
  | aliases
  | history
deriving DecidableEq

namespace Part

/-- The names of the commands that change the part. -/
def commands : Part → List String
  | tree => ["touch", "mkdir", "rm"]
  | directory => ["cd"]
  | aliases => ["alias"]
  | history => ["history"]

/-- The part is the same in two sessions. -/
def Same (p : Part) (s t : Session) : Prop :=
  match p with
  | tree => t.fs.root = s.fs.root
  | directory => t.fs.cwd = s.fs.cwd
  | aliases => t.aliases = s.aliases
  | history => t.history = s.history

theorem Same.refl (p : Part) (s : Session) : p.Same s s := by
  cases p <;> rfl

theorem Same.trans {p : Part} {s t u : Session} (h : p.Same s t) (h' : p.Same t u) :
    p.Same s u := by
  cases p <;> exact Eq.trans h' h

/-- Another tree leaves all other parts. -/
theorem same_root {p : Part} (hp : p ≠ tree) (s : Session) (root : Node) :
    p.Same s { s with fs := { s.fs with root } } := by
  cases p with
  | tree => exact absurd rfl hp
  | directory => rfl
  | aliases => rfl
  | history => rfl

end Part

/-- The handler leaves the part as it was. -/
def Handler.Keeps (handler : Handler) (p : Part) : Prop :=
  ∀ cx s args piped, p.Same s (handler cx s args piped).1

/-- The handler changes nothing but the draws that random choices take. -/
def Handler.OnlyDraws (handler : Handler) : Prop :=
  ∀ cx s args piped, ∃ draws, (handler cx s args piped).1 = { s with draws }

theorem Handler.OnlyDraws.keeps {handler : Handler} (h : handler.OnlyDraws) (p : Part) :
    handler.Keeps p := by
  intro cx s args piped
  obtain ⟨draws, hdraws⟩ := h cx s args piped
  rw [hdraws]
  cases p <;> rfl

namespace Command

/-! ## The commands that change a part -/

/-- What every operand that is done with keeps is kept by all of them. -/
theorem eachOperand_induction {P : Filesystem → Prop}
    {act : Filesystem → String → Except String Filesystem}
    (step : ∀ fs p fs', act fs p = .ok fs' → P fs → P fs') {fs : Filesystem} (start : P fs)
    (operands : List String) : P (eachOperand act fs operands).1 := by
  induction operands generalizing fs with
  | nil => exact start
  | cons p operands ih =>
      rw [eachOperand]
      split
      · exact start
      · rename_i hact
        exact ih (step _ _ _ hact start)

/-- Operands of which each puts another tree in place leave all other parts. -/
theorem withFs_same {p : Part} (hp : p ≠ .tree)
    {act : Filesystem → String → Except String Filesystem}
    (hact : ∀ fs path fs', act fs path = .ok fs' → ∃ root, fs' = { fs with root }) (s : Session)
    (operands : List String) : p.Same s (withFs s (eachOperand act s.fs operands)).1 := by
  have hroot : ∃ root, (eachOperand act s.fs operands).1 = { s.fs with root } := by
    refine eachOperand_induction (P := fun fs => ∃ root, fs = { s.fs with root }) ?_
      ⟨s.fs.root, rfl⟩ operands
    rintro _ path fs' hdone ⟨root, rfl⟩
    obtain ⟨root', rfl⟩ := hact _ path fs' hdone
    exact ⟨root', rfl⟩
  obtain ⟨root, hroot⟩ := hroot
  rw [withFs, hroot]
  exact Part.same_root hp s root

theorem ok_of_mapError {ε ε' α : Type} {f : ε → ε'} {x : Except ε α} {a : α}
    (h : x.mapError f = .ok a) : x = .ok a := by
  cases x with
  | error e => cases h
  | ok b =>
      cases h
      rfl

theorem touch_keeps {p : Part} (hp : p ≠ .tree) : touch.Keeps p := by
  intro cx s args piped
  simp only [touch, Handler.acting]
  split
  · exact .refl p s
  · refine withFs_same hp (fun fs path fs' h => ?_) s args
    unfold touchOne at h
    split at h
    · cases h
      exact ⟨_, rfl⟩
    · exact write_eq_root (ok_of_mapError h)

theorem mkdir_keeps {p : Part} (hp : p ≠ .tree) : mkdir.Keeps p := by
  intro cx s args piped
  simp only [mkdir, Handler.acting]
  split
  · exact .refl p s
  · refine withFs_same hp (fun fs path fs' h => ?_) s _
    have hmade := ok_of_mapError h
    split at hmade
    · exact makeDirectories_eq_root hmade
    · exact makeDirectory_eq_root hmade

theorem rm_keeps {p : Part} (hp : p ≠ .tree) : rm.Keeps p := by
  intro cx s args piped
  simp only [rm, Handler.acting]
  split
  · exact .refl p s
  · split
    · exact .refl p s
    · split
      · exact .refl p s
      · refine withFs_same hp (fun fs path fs' h => ?_) s _
        unfold removeOne at h
        split at h
        · rename_i hremove
          cases h
          exact remove_eq_root hremove
        · split at h
          · cases h
            exact ⟨_, rfl⟩
          · cases h

theorem cd_keeps {p : Part} (hp : p ≠ .directory) : cd.Keeps p := by
  intro cx s args piped
  simp only [cd, Handler.acting]
  split
  · exact .refl p s
  · rename_i fs hfs
    obtain ⟨cwd, rfl⟩ := changeDirectory_eq_cwd hfs
    cases p with
    | tree => rfl
    | directory => exact absurd rfl hp
    | aliases => rfl
    | history => rfl

theorem aliasing_keeps {p : Part} (hp : p ≠ .aliases) : aliasing.Keeps p := by
  intro cx s args piped
  simp only [aliasing, Handler.acting]
  split
  · exact .refl p s
  · split
    · exact .refl p s
    · cases p with
      | tree => rfl
      | directory => rfl
      | aliases => exact absurd rfl hp
      | history => rfl

theorem history_keeps {p : Part} (hp : p ≠ .history) : history.Keeps p := by
  intro cx s args piped
  simp only [history, Handler.acting]
  split
  · cases p with
    | tree => rfl
    | directory => rfl
    | aliases => rfl
    | history => exact absurd rfl hp
  · exact .refl p s

/-! ## All shipped commands -/

/-- The shipped commands that change a part, with the part. -/
def changing : List (String × Part × Handler) := [
  ("touch", .tree, touch), ("mkdir", .tree, mkdir), ("rm", .tree, rm), ("cd", .directory, cd),
  ("alias", .aliases, aliasing), ("history", .history, history)]

theorem changing_keep : ∀ x ∈ changing, x.1 ∈ x.2.1.commands ∧ ∀ p ≠ x.2.1, x.2.2.Keeps p := by
  simp only [changing, List.forall_mem_cons]
  refine ⟨⟨by decide, fun p => touch_keeps⟩, ⟨by decide, fun p => mkdir_keeps⟩,
    ⟨by decide, fun p => rm_keeps⟩, ⟨by decide, fun p => cd_keeps⟩,
    ⟨by decide, fun p => aliasing_keeps⟩, ⟨by decide, fun p => history_keeps⟩, by simp⟩

/-- A shipped command changes nothing but the draws, or it is one of those that change a part. -/
theorem shipped_cases : ∀ c ∈ shipped,
    c.handler.OnlyDraws ∨ c.others = [] ∧ ∃ p, (c.name, p, c.handler) ∈ changing := by
  simp only [shipped, List.forall_mem_cons, List.not_mem_nil, false_implies, implies_true, and_true]
  -- The commands that change a part are found in their table; what is left changes only the draws.
  simp only [changing, List.mem_cons, Prod.mk.injEq, String.reduceEq, false_and, true_and, false_or,
    or_false, exists_eq, and_true, or_true, List.not_mem_nil, and_false, exists_false]
  and_intros
  all_goals exact fun _ _ _ _ => ⟨_, rfl⟩

end Command

/-- A shipped command leaves a part unless its name is among those of the part. -/
theorem Catalog.standard_keeps {name : String} {b : Builtin} (hb : standard.find? name = some b)
    {p : Part} (hname : name ∉ p.commands) : b.handler.Keeps p := by
  obtain ⟨hmem, rfl⟩ := of_find? hb
  obtain ⟨c, hc, hhandler, hn⟩ := mem_standard hmem
  rw [hhandler]
  rcases Command.shipped_cases c hc with hdraws | ⟨hothers, q, hq⟩
  · exact hdraws.keeps p
  · obtain ⟨hcommand, hkeep⟩ := Command.changing_keep _ hq
    rw [hothers, List.mem_singleton] at hn
    refine hkeep p ?_
    rintro rfl
    exact hname (hn ▸ hcommand)

end Shellbox
