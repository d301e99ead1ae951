import Shellbox.Proofs.Command.Removal
import Shellbox.Proofs.Filesystem.Directories
import Shellbox.Proofs.Filesystem.Making
import Shellbox.Proofs.Shell.Calls

/-!
# Operands in turn

`touch`, `mkdir` and `rm` try one operand after another, each in the tree that those before it left.
An operand that fails has no effect and ends the command with an error about the text that was
typed; even the directories of `mkdir -p`, which are made one by one, are made all or none.
-/

namespace Shellbox.Command

open Filesystem

variable {fs fs' : Filesystem} {now : Instant} {p name : String} {args operands : List String}
  {s : Session} {piped : Option String}

/-- What is done with every operand of a command. -/
inductive Task where
  | touch
  | mkdir (parents : Bool)
  | rm (options : RemoveOptions)

namespace Task

variable {task : Task}

/-! ## What is done with one operand -/

/-- What an operand comes to and what it leaves, with all that it does before it fails. -/
def attempt (now : Instant) (fs : Filesystem) (p : String) :
    Task → Filesystem × Except PathError Unit
  | touch =>
    if fs.pathExists (some p) then (fs.touchNode now (some p), .ok ())
    else fs.attempt (fs.write now (some p) "")
  | mkdir false => fs.attempt (fs.makeDirectory now (some p))
  | mkdir true => fs.makeInTurn now (some p)
  | rm o => fs.attempt (fs.remove now (some p) o.recursive)

/-- An operand that fails for this cause does not count as failing. -/
def PassesOver (cause : PathError.Cause) : Task → Prop
  | rm o => o.force ∧ cause = .notFound
  | _ => False

/-- What is said of an operand that fails. -/
def complaint (p : String) (cause : PathError.Cause) : Task → String
  | touch => "touch: cannot touch '" ++ p ++ "': " ++ cause.reason
  | mkdir _ => "mkdir: cannot create directory '" ++ p ++ "': " ++ cause.reason
  | rm _ => "rm: cannot remove '" ++ p ++ "': " ++ cause.reason ++
      if cause = .notEmpty then " (use -r for recursive)" else ""

/-- What is said where there are no operands. -/
def missing : Task → String
  | touch => "touch: missing file operand"
  | mkdir _ => "mkdir: missing operand"
  | rm _ => "rm: missing operand"

/-- The words ask for the task with the operands; those of `rm` get past its guard. -/
inductive Asked : Task → String → List String → List String → Prop
  | touch (args : List String) : Asked .touch "touch" args args
  | mkdir (args : List String) : Asked (.mkdir ((Arguments.ofWords args).has 'p')) "mkdir" args
      (Arguments.ofWords args).operands
  | rm (args : List String) (h : isDangerous args = false) :
      Asked (.rm (.ofWords args)) "rm" args (args.filter (!isDashed ·))

/-- The operands are tried in turn, each in what those before it left, and none of them fails. -/
inductive Through (task : Task) (now : Instant) : Filesystem → List String → Filesystem → Prop
  | nil (fs : Filesystem) : Through task now fs [] fs
  | done {fs fs' fs'' : Filesystem} {p : String} {operands : List String}
      (h : task.attempt now fs p = (fs', .ok ())) (hrest : Through task now fs' operands fs'') :
      Through task now fs (p :: operands) fs''
  | passed {fs fs' : Filesystem} {p : String} {operands : List String} {cause : PathError.Cause}
      (h : task.attempt now fs p = (fs, .error ⟨some p, cause⟩)) (hcause : task.PassesOver cause)
      (hrest : Through task now fs operands fs') : Through task now fs (p :: operands) fs'

/-- Either no operand fails, and there is an empty success, or one is the first that fails: there is
an error about it, and the filesystem is the one that the operands before it left. -/
def StopsCleanly (task : Task) (now : Instant) (s : Session) (operands : List String)
    (left : Session × Outcome) : Prop :=
  (∃ fs', task.Through now s.fs operands fs' ∧ left = ({ s with fs := fs' }, .nothing)) ∨
  ∃ before p after fs' cause, operands = before ++ p :: after ∧
    task.Through now s.fs before fs' ∧ task.attempt now fs' p = (fs', .error ⟨some p, cause⟩) ∧
    ¬ task.PassesOver cause ∧
    left = ({ s with fs := fs' }, .error (task.complaint p cause))

/-- How the command treats one operand. -/
def act (now : Instant) : Task → Filesystem → String → Except String Filesystem
  | touch => touchOne now
  | mkdir parents => mkdirOne now parents
  | rm o => removeOne now o

/-! ## One operand -/

/-- All that one operand can come to in a command. -/
inductive Turn (task : Task) (now : Instant) (fs : Filesystem) (p : String) :
    Except String Filesystem → Prop
  | done {fs' : Filesystem} (h : task.attempt now fs p = (fs', .ok ())) :
      Turn task now fs p (.ok fs')
  | passed {cause : PathError.Cause} (h : task.attempt now fs p = (fs, .error ⟨some p, cause⟩))
      (hcause : task.PassesOver cause) : Turn task now fs p (.ok fs)
  | failed {cause : PathError.Cause} (h : task.attempt now fs p = (fs, .error ⟨some p, cause⟩))
      (hcause : ¬ task.PassesOver cause) : Turn task now fs p (.error (task.complaint p cause))

/-- A command that words every failure and passes over none. -/
theorem Turn.of_mapError {result : Except PathError Filesystem} {wording : PathError → String}
    (hattempt : task.attempt now fs p = fs.attempt result)
    (hpath : ∀ e, result = .error e → e.path = some p)
    (hwords : ∀ cause, wording ⟨some p, cause⟩ = task.complaint p cause)
    (hnone : ∀ cause, ¬ task.PassesOver cause) :
    task.Turn now fs p (result.mapError wording) := by
  cases result with
  | ok fs' => exact .done hattempt
  | error e =>
      obtain ⟨path, cause⟩ := e
      obtain rfl : path = some p := hpath _ rfl
      rw [Except.mapError, hwords]
      exact .failed hattempt (hnone cause)

theorem removeOne_turn (fs : Filesystem) (o : RemoveOptions) (now : Instant) (p : String) :
    (rm o).Turn now fs p (removeOne now o fs p) := by
  have hattempt : (rm o).attempt now fs p = fs.attempt (fs.remove now (some p) o.recursive) := rfl
  have hremoved := remove_removed fs now (some p) o.recursive
  unfold removeOne
  generalize fs.remove now (some p) o.recursive = result at hattempt hremoved ⊢
  cases result with
  | ok fs' => exact .done hattempt
  | error e =>
      obtain ⟨path, cause⟩ := e
      obtain rfl : path = some p := hremoved.path_of_error
      dsimp only
      split
      · rename_i hpass
        exact .passed hattempt (by simpa [PassesOver, and_comm] using hpass)
      · rename_i hpass
        exact .failed hattempt (by simpa [PassesOver, and_comm] using hpass)

theorem act_turn (hfs : fs.WellFormed) (task : Task) (now : Instant) (p : String) :
    task.Turn now fs p (task.act now fs p) := by
  cases task with
  | touch =>
      simp only [act, touchOne]
      split
      · rename_i hthere
        exact .done (by rw [attempt, if_pos hthere])
      · rename_i hthere
        refine .of_mapError (by rw [attempt, if_neg hthere]) (fun e he => ?_) (fun cause => rfl)
          fun cause => id
        exact Written.path_of_error (he ▸ write_written fs now (some p) "")
  | mkdir parents =>
      simp only [act, mkdirOne]
      refine .of_mapError ?_ ?_ (fun cause => rfl) fun cause => id
      · cases parents with
        | false => rw [attempt, if_neg Bool.false_ne_true]
        | true => rw [attempt, if_pos rfl, hfs.makeInTurn_eq]
      · intro e he
        split at he
        · rw [makeDirectories_eq_error he]
        · exact Founded.path_of_error (he ▸ makeDirectory_founded fs now (some p))
  | rm o => exact removeOne_turn fs o now p

theorem act_of_done (hfs : fs.WellFormed) (h : task.attempt now fs p = (fs', .ok ())) :
    task.act now fs p = .ok fs' := by
  have hturn := act_turn hfs task now p
  generalize task.act now fs p = result at hturn ⊢
  cases hturn with
  | done h' =>
      cases h.symm.trans h'
      rfl
  | passed h' => cases h.symm.trans h'
  | failed h' => cases h.symm.trans h'

theorem act_of_passed {cause : PathError.Cause} (hfs : fs.WellFormed)
    (h : task.attempt now fs p = (fs, .error ⟨some p, cause⟩)) (hcause : task.PassesOver cause) :
    task.act now fs p = .ok fs := by
  have hturn := act_turn hfs task now p
  generalize task.act now fs p = result at hturn ⊢
  cases hturn with
  | done h' => cases h.symm.trans h'
  | passed => rfl
  | failed h' hfails =>
      cases h.symm.trans h'
      exact absurd hcause hfails

theorem attempt_wellFormed (hfs : fs.WellFormed) (task : Task) (now : Instant) (p : String) :
    (task.attempt now fs p).1.WellFormed := by
  cases task with
  | touch =>
      rw [attempt]
      split
      · exact hfs.touchNode now (some p)
      · exact attempt_induction hfs fun fs' hw => hfs.write hw
  | mkdir parents =>
      cases parents with
      | false =>
          rw [attempt]
          exact attempt_induction hfs fun fs' hm => hfs.makeDirectory hm
      | true =>
          rw [attempt, hfs.makeInTurn_eq]
          exact attempt_induction hfs fun fs' hm => hfs.makeDirectories hm
  | rm o =>
      rw [attempt]
      exact attempt_induction hfs fun fs' hr => hfs.remove hr

/-! ## All operands -/

/-- No operand fails, or the one that fails first stops the others. -/
theorem eachOperand_act (hfs : fs.WellFormed) (task : Task) (now : Instant)
    (operands : List String) :
    (∃ fs', task.Through now fs operands fs' ∧
      eachOperand (task.act now) fs operands = (fs', .nothing)) ∨
    ∃ before p after fs' cause, operands = before ++ p :: after ∧
      task.Through now fs before fs' ∧ task.attempt now fs' p = (fs', .error ⟨some p, cause⟩) ∧
      ¬ task.PassesOver cause ∧
      eachOperand (task.act now) fs operands = (fs', .error (task.complaint p cause)) := by
  induction operands generalizing fs with
  | nil => exact .inl ⟨fs, .nil fs, rfl⟩
  | cons p operands ih =>
      have hturn := act_turn hfs task now p
      rw [eachOperand]
      generalize task.act now fs p = result at hturn ⊢
      cases hturn with
      | @done fs' h =>
          have hfs' : fs'.WellFormed := by
            have hleft := attempt_wellFormed hfs task now p
            rwa [h] at hleft
          rcases ih hfs' with ⟨last, hrest, hall⟩ | ⟨before, q, after, last, cause, rfl, hrest, hq⟩
          · exact .inl ⟨last, .done h hrest, hall⟩
          · exact .inr ⟨p :: before, q, after, last, cause, rfl, .done h hrest, hq⟩
      | passed h hcause =>
          rcases ih hfs with ⟨last, hrest, hall⟩ | ⟨before, q, after, last, cause, rfl, hrest, hq⟩
          · exact .inl ⟨last, .passed h hcause hrest, hall⟩
          · exact .inr ⟨p :: before, q, after, last, cause, rfl, .passed h hcause hrest, hq⟩
      | failed h hcause => exact .inr ⟨[], p, operands, fs, _, rfl, .nil fs, h, hcause, rfl⟩

/-- Operands of which none fails come to the same in the command. -/
theorem Through.eachOperand_eq (h : task.Through now fs operands fs') (hfs : fs.WellFormed) :
    eachOperand (task.act now) fs operands = (fs', .nothing) := by
  induction h with
  | nil fs => rfl
  | @done fs fs' last p operands h _ ih =>
      have hleft := attempt_wellFormed hfs task now p
      rw [h] at hleft
      rw [eachOperand, act_of_done hfs h]
      exact ih hleft
  | passed h hcause _ ih =>
      rw [eachOperand, act_of_passed hfs h hcause]
      exact ih hfs

theorem Asked.runWords_eq (h : task.Asked name args operands) (now : Instant) (s : Session)
    (piped : Option String) :
    runWords ⟨Catalog.standard, now⟩ s (name :: args) piped =
      if operands.isEmpty then (s, .error task.missing)
      else withFs s (eachOperand (task.act now) s.fs operands) := by
  cases h with
  | touch =>
      rw [runWords_standard "touch" Command.touch rfl]
      simp only [Command.touch, Handler.acting]
      split <;> rfl
  | mkdir =>
      rw [runWords_standard "mkdir" Command.mkdir rfl]
      simp only [Command.mkdir, Handler.acting]
      split <;> rfl
  | rm _ hguard =>
      rw [runWords_standard "rm" Command.rm rfl]
      simp only [Command.rm, Handler.acting, hguard]
      cases args with
      | nil => rfl
      | cons arg args =>
          simp only [List.isEmpty_cons, Bool.false_eq_true, ↓reduceIte]
          split <;> rfl

/-- On every list of operands that is not empty, `touch`, `mkdir` and `rm` stop cleanly: all are
done with, or the first that fails leaves what those before it left and is named as it was typed.
What those before it left is what the command leaves when it is asked for them alone. Where there
are no operands, that is said, and the session stays as it was. -/
theorem Asked.stops_cleanly (hasked : task.Asked name args operands) (h : s.fs.Reachable)
    (now : Instant) (piped : Option String) :
    let left := runWords ⟨Catalog.standard, now⟩ s (name :: args) piped
    (operands ≠ [] → task.StopsCleanly now s operands left) ∧
    (∀ args' before fs', task.Asked name args' before → before ≠ [] →
      task.Through now s.fs before fs' →
      runWords ⟨Catalog.standard, now⟩ s (name :: args') piped =
        ({ s with fs := fs' }, .nothing)) ∧
    (operands = [] → left = (s, .error task.missing)) := by
  intro left
  have hleft : left = if operands.isEmpty then (s, .error task.missing)
      else withFs s (eachOperand (task.act now) s.fs operands) := hasked.runWords_eq now s piped
  refine ⟨fun hne => ?_, fun args' before fs' hasked' hne hthrough => ?_, fun hnil => ?_⟩
  · rw [if_neg (by simpa using hne)] at hleft
    rcases eachOperand_act h.wellFormed task now operands with ⟨fs', hthrough, hall⟩ |
      ⟨before, p, after, fs', cause, rfl, hthrough, hp, hcause, hall⟩
    · exact .inl ⟨fs', hthrough, by rw [hleft, hall, withFs]⟩
    · exact .inr ⟨before, p, after, fs', cause, rfl, hthrough, hp, hcause, by
        rw [hleft, hall, withFs]⟩
  · rw [hasked'.runWords_eq, if_neg (by simpa using hne), hthrough.eachOperand_eq h.wellFormed,
      withFs]
  · exact hleft.trans (if_pos (by simpa using hnil))

theorem Asked.stops_cleanly_between :
    let fs := (((empty 0 "/h").startAt "/h").apply
      (.populate 1 [("~/a", some "x"), ("~/d", none)])).apply (.changeDirectory none)
    let s : Session := ⟨{}, fs, .empty 10, [], []⟩
    let left := runWords ⟨Catalog.standard, 5⟩ s ["mkdir", "d/e", "-p", "./a/x/y", "z"] none
    (Task.mkdir true).Asked "mkdir" ["d/e", "-p", "./a/x/y", "z"] ["d/e", "./a/x/y", "z"] ∧
    s.fs.Reachable ∧ (Task.mkdir true).StopsCleanly 5 s ["d/e", "./a/x/y", "z"] left ∧
    left.2 = .error "mkdir: cannot create directory './a/x/y': Not a directory" ∧
    runWords ⟨Catalog.standard, 5⟩ s ["mkdir", "-p", "d/e"] none =
      ({ s with fs := (s.fs.makeInTurn 5 (some "d/e")).1 }, .nothing) := by
  intro fs s left
  have hnew : Reachable ((empty 0 "/h").startAt "/h") := @Reachable.create 0 "/h" [] none _ rfl
  have hs : s.fs.Reachable := by
    dsimp only [s]
    exact (hnew.change _).change _
  have hwords : Arguments.ofWords ["d/e", "-p", "./a/x/y", "z"] =
      ⟨['p'], ["d/e", "./a/x/y", "z"]⟩ := by decide +kernel
  have hwords' : Arguments.ofWords ["-p", "d/e"] = ⟨['p'], ["d/e"]⟩ := by decide +kernel
  have hasked := Asked.mkdir ["d/e", "-p", "./a/x/y", "z"]
  rw [hwords] at hasked
  have hasked' := Asked.mkdir ["-p", "d/e"]
  rw [hwords'] at hasked'
  have hmade : (s.fs.makeInTurn 5 (some "d/e")).2 = .ok () := by decide +kernel
  have hattempt : (Task.mkdir true).attempt 5 s.fs "d/e" =
      ((s.fs.makeInTurn 5 (some "d/e")).1, .ok ()) := by
    rw [attempt, ← hmade]
  have hthrough := Through.done hattempt (.nil _)
  obtain ⟨hstops, halone, -⟩ := hasked.stops_cleanly hs 5 none
  exact ⟨hasked, hs, hstops (by simp), by decide +kernel, halone _ _ _ hasked' (by simp) hthrough⟩

/-- Without operands there is neither an empty success nor an operand that the error could name. -/
theorem not_stops_cleanly_without_operands :
    let s : Session := ⟨{}, .empty 0 "/h", .empty 10, [], []⟩
    let left := runWords ⟨Catalog.standard, 5⟩ s ["touch"] none
    Task.touch.Asked "touch" [] [] ∧ s.fs.Reachable ∧
    left = (s, .error "touch: missing file operand") ∧ ¬ Task.touch.StopsCleanly 5 s [] left := by
  intro s left
  have hs : s.fs.Reachable := @Reachable.create 0 "/h" [] none _ rfl
  have hasked : Task.touch.Asked "touch" [] [] := .touch []
  have hleft : left = (s, .error "touch: missing file operand") := hasked.runWords_eq 5 s none
  refine ⟨hasked, hs, hleft, ?_⟩
  rw [hleft]
  rintro (⟨fs', -, hdone⟩ | ⟨before, p, after, fs', cause, hsplit, -⟩)
  · have hsuccess : (Outcome.error "touch: missing file operand").success = true := by
      rw [(Prod.mk.inj hdone).2]
      rfl
    cases hsuccess
  · simp at hsplit

end Task

end Shellbox.Command
