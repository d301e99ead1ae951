import Shellbox.Proofs.Command.Effects
import Shellbox.Proofs.Command.Guard
import Shellbox.Proofs.Filesystem.Removal

/-!
# What `rm` removes

`rm` removes something unless its guard looks out for the arguments or it stops before the first
operand that can be removed.
-/

namespace Shellbox.Command

open Filesystem

variable {fs fs' : Filesystem} {now : Instant} {o : RemoveOptions} {p : String}
  {operands : List String}

/-- Among the operands there is one that can be removed, and those before it are passed over. -/
def Removes (o : RemoveOptions) (fs : Filesystem) (operands : List String) : Prop :=
  ∃ before p after, operands = before ++ p :: after ∧
    (∀ q ∈ before, o.force ∧ fs.Missing (some q)) ∧ fs.Removable (some p) o.recursive

/-! ## One operand -/

theorem removeOne_removable (now : Instant) (h : fs.Removable (some p) o.recursive) :
    ∃ fs', removeOne now o fs p = .ok fs' ∧ fs.remove now (some p) o.recursive = .ok fs' := by
  obtain ⟨fs', hdone⟩ := (remove_removed fs now (some p) o.recursive).ok_iff.mpr h
  exact ⟨fs', by simp [removeOne, hdone], hdone⟩

theorem removeOne_missing (h : fs.Missing (some p)) (hforce : o.force) :
    removeOne now o fs p = .ok fs := by
  have hmissing := (remove_removed fs now (some p) o.recursive).notFound_iff.mpr h
  simp [removeOne, hmissing, hforce]

/-- An operand that can neither be removed nor passed over stops `rm`. -/
theorem removeOne_refused (now : Instant) (h : ¬ fs.Removable (some p) o.recursive)
    (h' : ¬ (o.force ∧ fs.Missing (some p))) : ∃ m, removeOne now o fs p = .error m := by
  have hremoved := remove_removed fs now (some p) o.recursive
  unfold removeOne
  generalize fs.remove now (some p) o.recursive = result at hremoved ⊢
  cases hremoved with
  | done hyes => exact absurd hyes h
  | missing hmissing =>
      have hforce : o.force = false := by simpa [hmissing] using h'
      simp [hforce]
  | root => simp
  | misplaced => simp
  | holding => simp

/-! ## All operands -/

theorem eachOperand_of_not_removes (h : ¬ Removes o fs operands) :
    (eachOperand (removeOne now o) fs operands).1 = fs := by
  induction operands with
  | nil => rfl
  | cons p operands ih =>
      have hp : ¬ fs.Removable (some p) o.recursive := fun hp =>
        h ⟨[], p, operands, rfl, by simp, hp⟩
      by_cases hpass : o.force ∧ fs.Missing (some p)
      · rw [eachOperand, removeOne_missing hpass.2 hpass.1]
        refine ih ?_
        rintro ⟨before, q, after, hsplit, hbefore, hq⟩
        exact h ⟨p :: before, q, after, by simp [hsplit],
          List.forall_mem_cons.mpr ⟨hpass, hbefore⟩, hq⟩
      · obtain ⟨m, hm⟩ := removeOne_refused now hp hpass
        rw [eachOperand, hm]

theorem removeOne_adds_nothing {ks : List String} (h : removeOne now o fs p = .ok fs')
    (hks : fs.root.get? ks = none) : fs'.root.get? ks = none := by
  unfold removeOne at h
  split at h
  · rename_i hremove
    cases h
    exact remove_adds_nothing hremove hks
  · split at h
    · cases h
      exact hks
    · cases h

/-- Where something is removed, names that led to a node lead nowhere in the end. -/
theorem eachOperand_of_removes (now : Instant) (h : Removes o fs operands) :
    ∃ ks, (fs.root.get? ks).isSome ∧
      (eachOperand (removeOne now o) fs operands).1.root.get? ks = none := by
  obtain ⟨before, p, after, rfl, hbefore, hp⟩ := h
  induction before with
  | nil =>
      obtain ⟨fs', hdone, hremove⟩ := removeOne_removable now hp
      obtain ⟨-, n, hn, -⟩ := hp
      refine ⟨fs.names (some p), by rw [← node?, hn]; rfl, ?_⟩
      rw [List.nil_append, eachOperand, hdone]
      -- The operands behind may remove more, but put nothing back.
      exact eachOperand_induction (P := fun fs => fs.root.get? _ = none)
        (fun _ _ _ => removeOne_adds_nothing) (remove_gone hremove) after
  | cons q before ih =>
      obtain ⟨⟨hforce, hmissing⟩, hbefore⟩ := List.forall_mem_cons.mp hbefore
      rw [List.cons_append, eachOperand, removeOne_missing hmissing hforce]
      exact ih hbefore

/-- What `rm` leaves. -/
theorem rm_fs (cx : Context) (s : Session) (args : List String) (piped : Option String) :
    (rm cx s args piped).1.fs = if isDangerous args then s.fs else
      (eachOperand (removeOne cx.now (.ofWords args)) s.fs (args.filter (!isDashed ·))).1 := by
  simp only [rm, Handler.acting]
  split
  · rename_i hargs
    rw [List.isEmpty_iff.mp hargs]
    simp [eachOperand]
  · split
    · rfl
    · split
      · rename_i hoperands
        rw [List.isEmpty_iff.mp hoperands]
        rfl
      · rfl

/-- `rm` leaves the tree as it was just when its guard looks out for the arguments or it removes
nothing. -/
theorem rm_tree_iff (cx : Context) (s : Session) (args : List String) (piped : Option String) :
    (rm cx s args piped).1.fs.root = s.fs.root ↔
      Guarded args ∨ ¬ Removes (.ofWords args) s.fs (args.filter (!isDashed ·)) := by
  rw [rm_fs, ← isDangerous_iff]
  split
  · rename_i hguard
    simp [hguard]
  · rename_i hguard
    rw [or_iff_right hguard]
    constructor
    · intro hsame hremoves
      obtain ⟨ks, hbefore, hafter⟩ := eachOperand_of_removes cx.now hremoves
      rw [hsame, Option.isSome_iff_ne_none] at *
      exact hbefore hafter
    · intro hno
      rw [eachOperand_of_not_removes hno]

/-- Options in two words get the home directory past the guard. -/
theorem rm_options_apart :
    let fs := ((Filesystem.empty 0 "/home/user").populate 0 [("/home/user/note", some "x")]).1
    let s : Session := ⟨{}, fs, .empty 10, [], []⟩
    let args := ["-r", "-f", "~"]
    (RemoveOptions.ofWords args).recursive ∧
    "~" ∈ args.filter (!isDashed ·) ∧ "~".toList ∈ everything ∧
    ¬ (rm ⟨0, []⟩ s args none).1.fs.root = s.fs.root := by
  intro fs s args
  have hbefore : (s.fs.root.get? ["home", "user"]).isSome := by decide +kernel
  have hafter : ((rm ⟨0, []⟩ s args none).1.fs.root.get? ["home", "user"]).isSome = false := by
    decide +kernel
  refine ⟨by decide, by decide, by decide, fun hsame => ?_⟩
  rw [hsame, hbefore] at hafter
  cases hafter

end Shellbox.Command
