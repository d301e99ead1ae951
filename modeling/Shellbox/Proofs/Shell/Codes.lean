import Shellbox.Proofs.Command.Codes
import Shellbox.Proofs.Shell.Launch
import Shellbox.Proofs.Shell.Run

/-!
# Exit codes

The code with which a line ends tells whether the line succeeded, whether the last command that was
attempted is there at all, and whether `grep` could not read a file. A shell that is started for one
line ends with the code of that line.
-/

namespace Shellbox

open Text Line

variable {env : Environment} {s s' : Session} {piped : Option String} {words : List String}
  {o o' : Outcome} {a : Attempt} {called : Option String} {stage typed : String}
  {more : List Command.Shipped} {now : Filesystem.Instant}

/-! ## What an outcome tells about a command -/

/-- The outcome ends as lines do, and its code tells about the command that was called, if any. -/
structure Outcome.Tells (env : Environment) (called : Option String) (o : Outcome) : Prop where
  endsIn : o.EndsIn [1, 2, 127]
  missing_iff : o.exitCode = 127 ↔ ∃ name, called = some name ∧ env.catalog.find? name = none
  grep_of_two : o.exitCode = 2 → called = some "grep" ∧
    (env.catalog.find? "grep").map (·.handler) = some Command.grep

/-- An outcome that cannot have the codes two and 127 tells that the command is there. -/
theorem Outcome.Tells.of_endsIn (h : o.EndsIn [1])
    (hthere : ∀ name, called = some name → env.catalog.find? name ≠ none) :
    o.Tells env called := by
  have hcode : o.exitCode = 0 ∨ o.exitCode = 1 := by simpa using h.code_mem
  refine ⟨h.mono (by decide), ?_, fun htwo => by omega⟩
  constructor
  · intro hmissing
    omega
  · rintro ⟨name, hname, hnone⟩
    exact absurd hnone (hthere name hname)

/-- Where no command was called, the code is neither two nor 127. -/
theorem Outcome.Tells.endsIn_one (h : o.Tells env none) : o.EndsIn [1] := by
  have hmissing : o.exitCode ≠ 127 := fun hcode => by simpa using h.missing_iff.mp hcode
  have htwo : o.exitCode ≠ 2 := fun hcode => by simpa using (h.grep_of_two hcode).1
  refine h.endsIn.restrict fun hmem => ?_
  simpa [hmissing, htwo] using hmem

theorem Outcome.Tells.registered (h : o.Tells env called) (ho : o.success) :
    ∀ name, called = some name → env.catalog.find? name ≠ none := by
  intro name hname hnone
  have hzero : o.exitCode = 0 := (h.endsIn.success_iff (by decide)).mp ho
  have hmissing := h.missing_iff.mpr ⟨name, hname, hnone⟩
  omega

/-! ## Catalogs -/

/-- Every command fails with the code one only, but for `grep`, which keeps its name to itself. -/
def Environment.Ends (env : Environment) : Prop :=
  ∀ name b, env.catalog.find? name = some b →
    b.handler.EndsIn [1] ∨ name = "grep" ∧ b.handler = Command.grep

theorem Environment.ends_registerAll (hmore : ∀ c ∈ more, c.handler.EndsIn [1]) :
    Environment.Ends ⟨Catalog.standard.registerAll more, now⟩ := by
  intro name b hb
  obtain ⟨hmem, rfl⟩ := Catalog.of_find? hb
  rcases Catalog.mem_registerAll hmem with hstandard | ⟨c, hc, hhandler, -⟩
  · obtain ⟨c, hc, hhandler, hname⟩ := Catalog.mem_standard hstandard
    rw [hhandler]
    refine (Command.shipped_endsIn c hc).imp_right ?_
    rintro ⟨hgrep, hothers, hhandler⟩
    rw [hothers, hgrep, List.mem_singleton] at hname
    exact ⟨hname, hhandler⟩
  · exact .inl (hhandler ▸ hmore c hc)

/-! ## One attempt -/

theorem Calls.tells {name : String} {args : List String} (henv : env.Ends)
    (h : Calls env s name args piped s' o) : o.Tells env (some name) := by
  have hthere {b : Builtin} (hb : env.catalog.find? name = some b) :
      ∀ n, some name = some n → env.catalog.find? n ≠ none := by
    rintro _ ⟨⟩
    simp [hb]
  cases h with
  | missing hb =>
      exact ⟨.failure _ (by decide), ⟨fun _ => ⟨name, rfl, hb⟩, fun _ => rfl⟩, nofun⟩
  | raised hb => exact .of_endsIn (.error _) (hthere hb)
  | unresolved hb => exact .of_endsIn (.error _) (hthere hb)
  | @resolved b _ r _ hb hcall hr =>
      have hreply : (b.handler env.context s args piped).2 = .ok r := by rw [hcall]
      rcases henv name b hb with hends | ⟨rfl, hgrep⟩
      · exact .of_endsIn (hends _ _ _ _ _ _ hreply hr) (hthere hb)
      · have hends : o.EndsIn [1, 2] := by
          rw [hgrep] at hreply
          exact Command.grep_endsIn _ _ _ _ _ _ hreply hr
        have hcode : o.exitCode = 0 ∨ o.exitCode = 1 ∨ o.exitCode = 2 := by
          simpa using hends.code_mem
        refine ⟨hends.mono (by decide), ?_, fun _ => ⟨rfl, by rw [hb, Option.map_some, hgrep]⟩⟩
        constructor
        · intro hmissing
          omega
        · rintro ⟨n, hn, hnone⟩
          exact absurd hnone (hthere hb n hn)

theorem Tried.tells (henv : env.Ends) (h : Tried env s piped words s' o) :
    o.Tells env words.head? := by
  cases h with
  | blank => exact .of_endsIn (.error _) nofun
  | called hcalls => exact hcalls.tells henv

/-- What is said in the place of a success when its output is saved tells no less of the command. -/
theorem Saved.tells (henv : env.Ends) (h : Saved env s piped stage s' o) :
    o.Tells env (((redirection? stage).map (·.command)).getD []).head? := by
  cases h with
  | malformed hr =>
      rw [hr]
      exact .of_endsIn (.error _) nofun
  | failed hr htried =>
      rw [hr]
      exact htried.tells henv
  | refused hr htried ho =>
      rw [hr]
      exact .of_endsIn (.error _) ((htried.tells henv).registered ho)
  | written hr htried ho =>
      rw [hr]
      exact .of_endsIn .nothing ((htried.tells henv).registered ho)

theorem Attempt.Holds.tells (henv : env.Ends) (h : a.Holds env) :
    a.outcome.Tells env a.words.head? := by
  cases hsaves : a.saves with
  | true =>
      simp only [Holds, hsaves, ↓reduceIte] at h
      simp only [words, hsaves, ↓reduceIte]
      exact Saved.tells henv h
  | false =>
      simp only [Holds, hsaves, Bool.false_eq_true, ↓reduceIte] at h
      simp only [words, hsaves, Bool.false_eq_true, ↓reduceIte]
      exact Tried.tells henv h

/-! ## The whole line -/

/-- The names of the commands that are attempted while a typed line is run. A stage without words
attempts none. -/
def attemptedNames (env : Environment) (s : Session) (typed : String) : List String :=
  (lineAttempts env s typed).filterMap (·.words.head?)

/-- The outcome of the last attempt tells about the last command that was attempted: if the last
attempt has no words, all commands before it are there, since they succeeded. -/
theorem PipelineRun.tells {ss : List String} {run : List Attempt} (henv : env.Ends)
    (h : PipelineRun env s piped ss run) (ha : run.getLast? = some a) :
    a.outcome.Tells env (run.filterMap (·.words.head?)).getLast? := by
  obtain ⟨early, hrun⟩ := List.getLast?_eq_some_iff.mp ha
  have htells : a.outcome.Tells env a.words.head? := (h.holds a (by simp [hrun])).tells henv
  cases hwords : a.words.head? with
  | some name =>
      rw [hwords] at htells
      simpa [hrun, hwords] using htells
  | none =>
      rw [hwords] at htells
      refine .of_endsIn htells.endsIn_one fun name hname => ?_
      obtain ⟨b, hb, hbname⟩ := List.mem_filterMap.mp (List.mem_of_getLast? hname)
      refine ((h.holds b hb).tells henv).registered ?_ name hbname
      rw [← Bool.not_eq_false]
      intro hfail
      obtain rfl := Option.some_inj.mp (ha.symm.trans (h.last_of_failed hb hfail))
      simp [hwords] at hbname

theorem execute_tells (henv : env.Ends) (s : Session) (typed : String) :
    (execute env s typed).2.Tells env (attemptedNames env s typed).getLast? := by
  unfold attemptedNames lineAttempts
  cases hline : expanded? s.aliases typed with
  | none =>
      have hblank : (trim typed).isEmpty := by
        unfold expanded? at hline
        split at hline
        · rename_i hempty
          exact hempty
        · cases hline
      simp only [execute, hblank, ↓reduceIte]
      exact .of_endsIn .nothing (by simp)
  | some line =>
      obtain ⟨a, ha, hrun⟩ :=
        runStages_eq_last env (s.recording typed) none (parts_ne_nil line)
      rw [execute_eq_runStages hline, hrun]
      exact (attempts_run env _ none (parts_ne_nil line)).tells henv ha

/-! ## The whole shell -/

/-- With any more commands that succeed, fail with the code one, give a fault or answer later in one
of these ways, the success, the code and the markers of a line agree, and so does the code that a
shell ends with that was started for the line. -/
theorem exit_status_agrees (more : List Command.Shipped) (hmore : ∀ c ∈ more, c.handler.EndsIn [1])
    (now : Filesystem.Instant) :
    let env : Environment := ⟨Catalog.standard.registerAll more, now⟩
    (∀ s typed,
      let o := (execute env s typed).2
      let last := (attemptedNames env s typed).getLast?
      (o.success ↔ o.exitCode = 0) ∧ o.exitCode ∈ [0, 1, 2, 127] ∧
      (o.exitCode = 127 ↔ ∃ name, last = some name ∧ env.catalog.find? name = none) ∧
      (o.exitCode = 2 → last = some "grep" ∧
        (env.catalog.find? "grep").map (·.handler) = some Command.grep) ∧
      (o.success = false → o.markers = [])) ∧
    (∀ e words q line draws inputs clock, Launch.Request.ofWords words e = .ok q →
      q.task = .line line →
      ∃ s ending, Session.create now q.settings draws = .ok s ∧
        Launch.run env q draws inputs clock = .ok ending ∧
        ending.code = (execute ⟨env.catalog, clock 0⟩ s line).2.exitCode ∧
        (ending.code = 0 ↔ (execute ⟨env.catalog, clock 0⟩ s line).2.success)) ∧
    ∀ e (line : String),
      (line.toList.head? ≠ some '-' →
        Launch.Request.ofWords ["-c", line] e = .ok { command := some line }) ∧
      Launch.Request.ofWords ["--command=" ++ line] e = .ok { command := e.kept line } ∧
      (line ≠ "" → ({ command := some line } : Launch.Request).task = .line line) := by
  intro env
  have henv : env.Ends := Environment.ends_registerAll hmore
  have hnow : env.now = now := rfl
  clear_value env
  subst hnow
  refine ⟨fun s typed => ?_, fun e words q line draws inputs clock _ htask => ?_,
    fun e line => ⟨Launch.ofWords_command e, Launch.ofWords_command_joined e line, fun hline => ?_⟩⟩
  · have h := execute_tells henv s typed
    exact ⟨h.endsIn.success_iff (by decide), h.endsIn.code_mem, h.missing_iff, h.grep_of_two,
      h.endsIn.markers_eq_nil⟩
  · obtain ⟨s, hs⟩ := Launch.create_session env.now q.settings draws
    have hends : Environment.Ends ⟨env.catalog, clock 0⟩ := henv
    refine ⟨s, _, hs, Launch.run_line hs htask inputs clock, Launch.Ending.ofOutcome_code _, ?_⟩
    rw [Launch.Ending.ofOutcome_code]
    exact ((execute_tells hends s line).endsIn.success_iff (by decide)).symm
  · exact Launch.task_eq_line.mpr ⟨rfl, rfl, hline⟩

theorem exit_status_agrees_extended :
    let broken : Handler := fun _ s _ _ => ({ s with draws := [7] }, .error (.raised "no"))
    let later : Handler := .deferring fun _ _ args _ => .pending (.ok (.ok (" ".intercalate args)))
    let more : List Command.Shipped := [⟨"break", .utility, ["snap"], {}, broken⟩,
      ⟨"later", .utility, [], {}, later⟩]
    let env : Environment := ⟨Catalog.standard.registerAll more, 0⟩
    let s : Session := ⟨{}, .empty 0 "/home/user", .empty 10, [], []⟩
    (∀ c ∈ more, c.handler.EndsIn [1]) ∧
    (execute env s "grep b c | nope").2.exitCode = 2 ∧
    (execute env s "later a | nope > f").2.exitCode = 127 ∧
    (attemptedNames env s "later a | nope > f").getLast? = some "nope" ∧
    env.catalog.find? "nope" = none ∧
    ∃ q start ending, Launch.Request.ofWords ["-vc=snap", "-ubob"] .later = .ok q ∧
      q.task = .line "snap" ∧ Session.create 0 q.settings [] = .ok start ∧
      Launch.run env q [] [] (fun _ => 7) = .ok ending ∧
      ending.code = (execute ⟨env.catalog, 7⟩ start "snap").2.exitCode := by
  intro broken later more env s
  have hmore : ∀ c ∈ more, c.handler.EndsIn [1] := by
    have hbroken : broken.EndsIn [1] := fun _ _ _ _ _ _ hr => by cases hr
    have hlater : later.EndsIn [1] := .of_deferring fun _ _ args _ o ho =>
      Except.ok.inj ho ▸ .ok (" ".intercalate args)
    simpa [more] using ⟨hbroken, hlater⟩
  have hgrep : (execute env s "grep b c | nope").2.exitCode = 2 := by decide +kernel
  have hmissing : (execute env s "later a | nope > f").2.exitCode = 127 := by decide +kernel
  have hlast : (attemptedNames env s "later a | nope > f").getLast? = some "nope" := by
    decide +kernel
  obtain ⟨hline, hstart, -⟩ := exit_status_agrees more hmore 0
  obtain ⟨-, -, hiff, -⟩ := hline s "later a | nope > f"
  obtain ⟨name, hname, hnone⟩ := hiff.mp hmissing
  obtain rfl := Option.some_inj.mp (hlast.symm.trans hname)
  let q : Launch.Request := { command := some "snap", user := "bob" }
  have hwords : Launch.Request.ofWords ["-vc=snap", "-ubob"] .later = .ok q := by decide +kernel
  have htask : q.task = .line "snap" := by decide
  obtain ⟨start, ending, hcreate, hrun, hcode, -⟩ :=
    hstart .later _ q "snap" [] [] (fun _ => 7) hwords htask
  exact ⟨hmore, hgrep, hmissing, hlast, hnone, q, start, ending, hwords, htask, hcreate, hrun, hcode⟩

end Shellbox
