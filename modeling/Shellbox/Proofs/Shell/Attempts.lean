import Mathlib.Data.List.Chain
import Shellbox.Proofs.Line.Stages
import Shellbox.Proofs.Shell.Calls

/-!
# The stages of a line as they are run

An attempt is one stage of a line as it was run, with what it found and what it left. The attempts
of a line are its stages from the first on, up to the last one or to one that fails. Each finds the
session as the attempt before it left it, and gets the output of that attempt piped in; the outcome
of the line is that of the last attempt.
-/

namespace Shellbox

open Text Line

variable {env : Environment} {s : Session} {piped : Option String} {stage : String}
  {ss : List String}

/-! ## What a typed line stands for -/

/-- The text that a typed line stands for: trimmed, and with its alias replaced. A blank line stands
for nothing. -/
def expanded? (aliases : Aliases) (typed : String) : Option String :=
  if (trim typed).isEmpty then none else some (expandAlias aliases (trim typed))

/-- The session in which a line is run: it has recorded the line. -/
def Session.recording (s : Session) (typed : String) : Session :=
  { s with history := s.history.add (trim typed) }

/-- The parts in which a line is run: the stages of a pipeline, or the line itself. -/
def parts (line : String) : List String := if hasPipe line then stages line else [line]

theorem parts_ne_nil (line : String) : parts line ≠ [] := by
  unfold parts
  split
  · exact stages_ne_nil line
  · simp

theorem runExpanded_eq_runStages (env : Environment) (s : Session) (line : String) :
    runExpanded env s line = runStages env s none (parts line) := by
  unfold runExpanded parts
  split
  · rfl
  · rfl

theorem execute_eq_runStages {typed line : String} (h : expanded? s.aliases typed = some line) :
    execute env s typed = runStages env (s.recording typed) none (parts line) := by
  unfold expanded? at h
  split at h
  · cases h
  · rename_i hne
    cases h
    rw [← runExpanded_eq_runStages]
    simp only [execute, hne, Bool.false_eq_true, ↓reduceIte]
    rfl

/-! ## One stage -/

/-- Trying words leaves a session and gives an outcome: they call a command, unless there are
none. -/
inductive Tried (env : Environment) (s : Session) (piped : Option String) :
    List String → Session → Outcome → Prop
  | blank : Tried env s piped [] s (.error "Error: Invalid pipeline syntax")
  | called {name args s' o} (h : Calls env s name args piped s' o) :
      Tried env s piped (name :: args) s' o

/-- Saving the output of a stage to the file that it names leaves a session and gives an outcome.
Nothing is written unless the command of the stage succeeds. -/
inductive Saved (env : Environment) (s : Session) (piped : Option String) (stage : String) :
    Session → Outcome → Prop
  | malformed (hr : redirection? stage = none) :
      Saved env s piped stage s (.error "Error: Invalid redirect syntax")
  | failed {r s' o} (hr : redirection? stage = some r) (h : Tried env s piped r.command s' o)
      (ho : o.success = false) : Saved env s piped stage s' o
  | refused {r s' o e} (hr : redirection? stage = some r) (h : Tried env s piped r.command s' o)
      (ho : o.success) (hw : writeRedirected env.now s'.fs r o.output = .error e) :
      Saved env s piped stage s'
        (.error ("Error: cannot create file '" ++ e.shownPath ++ "': " ++ e.reason))
  | written {r s' o fs} (hr : redirection? stage = some r) (h : Tried env s piped r.command s' o)
      (ho : o.success) (hw : writeRedirected env.now s'.fs r o.output = .ok fs) :
      Saved env s piped stage { s' with fs } .nothing

theorem runWords_tried (env : Environment) (s : Session) (words : List String)
    (piped : Option String) :
    Tried env s piped words (runWords env s words piped).1 (runWords env s words piped).2 := by
  cases words with
  | nil => exact .blank
  | cons name args => exact .called (runWords_calls env s name args piped)

theorem runRedirected_saved (env : Environment) (s : Session) (stage : String)
    (piped : Option String) :
    Saved env s piped stage (runRedirected env s stage piped).1
      (runRedirected env s stage piped).2 := by
  cases hr : redirection? stage with
  | none =>
      simp only [runRedirected, hr]
      exact .malformed hr
  | some r =>
      have h := runWords_tried env s r.command piped
      simp only [runRedirected, hr]
      cases ho : (runWords env s r.command piped).2.success with
      | false => exact .failed hr h ho
      | true =>
          simp only [Bool.not_true, Bool.false_eq_true, ↓reduceIte]
          cases hw : writeRedirected env.now (runWords env s r.command piped).1.fs r
              (runWords env s r.command piped).2.output with
          | error e => exact .refused hr h ho hw
          | ok fs => exact .written hr h ho hw

/-- One stage of a line as it was run. -/
structure Attempt where
  stage : String
  /-- No stage of the line stands behind it. -/
  isLast : Bool
  piped : Option String
  before : Session
  after : Session
  outcome : Outcome

namespace Attempt

/-- The output of the stage goes to a file; in a stage before the last one a redirect sign is a word
like any other. -/
def saves (a : Attempt) : Bool := a.isLast && hasRedirect a.stage

/-- The words that the stage tries; a redirection that cannot be read leaves none. -/
def words (a : Attempt) : List String :=
  if a.saves then ((redirection? a.stage).map (·.command)).getD [] else tokenTexts a.stage

/-- The attempt left what its stage leaves. -/
def Holds (env : Environment) (a : Attempt) : Prop :=
  if a.saves then Saved env a.before a.piped a.stage a.after a.outcome
  else Tried env a.before a.piped (tokenTexts a.stage) a.after a.outcome

/-- Runs a stage. -/
def make (env : Environment) (s : Session) (piped : Option String) (stage : String)
    (isLast : Bool) : Attempt :=
  let left :=
    if isLast && hasRedirect stage then runRedirected env s stage piped
    else runWords env s (tokenTexts stage) piped
  ⟨stage, isLast, piped, s, left.1, left.2⟩

theorem make_holds (env : Environment) (s : Session) (piped : Option String) (stage : String)
    (isLast : Bool) : (make env s piped stage isLast).Holds env := by
  simp only [Holds, saves, make]
  split
  · exact runRedirected_saved env s stage piped
  · exact runWords_tried env s (tokenTexts stage) piped

/-- Before the last stage its words are run, redirect signs and all. -/
theorem make_early (env : Environment) (s : Session) (piped : Option String) (stage : String) :
    ((make env s piped stage false).after, (make env s piped stage false).outcome) =
      runWords env s (tokenTexts stage) piped := by
  simp [make]

theorem words_make_early (env : Environment) (s : Session) (piped : Option String)
    (stage : String) : (make env s piped stage false).words = tokenTexts stage := by
  simp [words, saves, make]

end Attempt

/-! ## All stages of a line -/

/-- The attempts that running stages comes to. -/
def attempts (env : Environment) (s : Session) (piped : Option String) :
    List String → List Attempt
  | [] => []
  | stage :: rest =>
    let a := Attempt.make env s piped stage rest.isEmpty
    a :: if a.outcome.success then attempts env a.after (some a.outcome.output) rest else []

theorem attempts_last (env : Environment) (s : Session) (piped : Option String) (stage : String) :
    attempts env s piped [stage] = [Attempt.make env s piped stage true] := by
  simp [attempts]

theorem attempts_stop {a : Attempt} (ha : a = Attempt.make env s piped stage ss.isEmpty)
    (ho : a.outcome.success = false) : attempts env s piped (stage :: ss) = [a] := by
  simp [attempts, ← ha, ho]

theorem attempts_pass {a : Attempt} (ha : a = Attempt.make env s piped stage ss.isEmpty)
    (ho : a.outcome.success) :
    attempts env s piped (stage :: ss) =
      a :: attempts env a.after (some a.outcome.output) ss := by
  simp [attempts, ← ha, ho]

/-- A run of stages from a session and a piped text on. -/
structure PipelineRun (env : Environment) (start : Session) (piped : Option String)
    (ss : List String) (run : List Attempt) : Prop where
  nonempty : run ≠ []
  /-- The stages from the first on, in order and each once. -/
  in_order : run.map (·.stage) <+: ss
  last_iff : ∀ i a, run[i]? = some a → (a.isLast ↔ i + 1 = ss.length)
  holds : ∀ a ∈ run, a.Holds env
  first : ∀ a ∈ run.head?, a.before = start ∧ a.piped = piped
  /-- Only behind a success another stage is run, with the output of that success. -/
  chained : run.IsChain fun a b =>
    a.outcome.success ∧ b.before = a.after ∧ b.piped = some a.outcome.output
  /-- Only a failure keeps stages from being run. -/
  stopped : ∀ a ∈ run.getLast?, run.length < ss.length → a.outcome.success = false

theorem PipelineRun.single {a : Attempt}
    (ha : a = Attempt.make env s piped stage ss.isEmpty)
    (hstop : ss ≠ [] → a.outcome.success = false) :
    PipelineRun env s piped (stage :: ss) [a] where
  nonempty := by simp
  in_order := by simp [ha, Attempt.make]
  last_iff i b hb := by
    obtain ⟨rfl, rfl⟩ : i = 0 ∧ a = b := by
      cases i with
      | zero => simpa using hb
      | succ i => simp at hb
    simp [ha, Attempt.make]
  holds b hb := by
    obtain rfl := List.mem_singleton.mp hb
    rw [ha]
    exact Attempt.make_holds env s piped stage _
  first b hb := by
    obtain rfl : a = b := by simpa using hb
    simp [ha, Attempt.make]
  chained := .singleton a
  stopped b hb hlen := by
    obtain rfl : a = b := by simpa using hb
    exact hstop (by rintro rfl; simp at hlen)

theorem PipelineRun.cons {a : Attempt} {run : List Attempt}
    (ha : a = Attempt.make env s piped stage ss.isEmpty) (ho : a.outcome.success)
    (h : PipelineRun env a.after (some a.outcome.output) ss run) :
    PipelineRun env s piped (stage :: ss) (a :: run) where
  nonempty := by simp
  in_order := by
    have hstage : a.stage = stage := by simp [ha, Attempt.make]
    simpa [hstage] using h.in_order
  last_iff i b hb := by
    cases i with
    | zero =>
        obtain rfl : a = b := by simpa using hb
        simp [ha, Attempt.make]
    | succ i => simpa using h.last_iff i b (by simpa using hb)
  holds b hb := by
    rcases List.mem_cons.mp hb with rfl | hb
    · rw [ha]
      exact Attempt.make_holds env s piped stage _
    · exact h.holds b hb
  first b hb := by
    obtain rfl : a = b := by simpa using hb
    simp [ha, Attempt.make]
  chained := by
    obtain ⟨b, rest, rfl⟩ := List.exists_cons_of_ne_nil h.nonempty
    obtain ⟨hbefore, hpiped⟩ := h.first b (by simp)
    exact .cons_cons ⟨ho, hbefore, hpiped⟩ h.chained
  stopped b hb hlen := by
    refine h.stopped b ?_ (by simpa using hlen)
    rwa [List.getLast?_cons_of_ne_nil h.nonempty] at hb

/-- The attempts of stages are a run of them. -/
theorem attempts_run (env : Environment) (s : Session) (piped : Option String) (hne : ss ≠ []) :
    PipelineRun env s piped ss (attempts env s piped ss) := by
  induction ss generalizing s piped with
  | nil => exact absurd rfl hne
  | cons stage rest ih =>
      cases ho : (Attempt.make env s piped stage rest.isEmpty).outcome.success with
      | false =>
          rw [attempts_stop rfl ho]
          exact .single rfl fun _ => ho
      | true =>
          rw [attempts_pass rfl ho]
          by_cases hrest : rest = []
          · subst hrest
            exact .single rfl (absurd rfl)
          · exact .cons rfl ho (ih _ _ hrest)

theorem runStages_cons (env : Environment) (s : Session) (piped : Option String) (stage : String)
    (hne : ss ≠ []) :
    runStages env s piped (stage :: ss) =
      let left := runWords env s (tokenTexts stage) piped
      if left.2.success then runStages env left.1 (some left.2.output) ss else left := by
  obtain ⟨next, rest, rfl⟩ := List.exists_cons_of_ne_nil hne
  rfl

/-- The last attempt leaves what running the stages leaves. -/
theorem runStages_eq_last (env : Environment) (s : Session) (piped : Option String)
    (hne : ss ≠ []) :
    ∃ a, (attempts env s piped ss).getLast? = some a ∧
      runStages env s piped ss = (a.after, a.outcome) := by
  induction ss generalizing s piped with
  | nil => exact absurd rfl hne
  | cons stage rest ih =>
      by_cases hrest : rest = []
      · subst hrest
        refine ⟨.make env s piped stage true, by rw [attempts_last]; rfl, ?_⟩
        simp only [runStages, Attempt.make, Bool.true_and]
      · have hmore : rest.isEmpty = false := by simpa using hrest
        have hmake : Attempt.make env s piped stage false =
            .make env s piped stage rest.isEmpty := by rw [hmore]
        rw [runStages_cons env s piped stage hrest, ← Attempt.make_early]
        cases ho : (Attempt.make env s piped stage false).outcome.success with
        | false =>
            refine ⟨.make env s piped stage false, by rw [attempts_stop hmake ho]; rfl, ?_⟩
            simp only [ho, Bool.false_eq_true, ↓reduceIte]
        | true =>
            obtain ⟨a, ha, hrun⟩ := ih (Attempt.make env s piped stage false).after
              (some (Attempt.make env s piped stage false).outcome.output) hrest
            refine ⟨a, ?_, ?_⟩
            · rw [attempts_pass hmake ho,
                List.getLast?_cons_of_ne_nil (attempts_run _ _ _ hrest).nonempty, ha]
            · simp only [ho, ↓reduceIte, hrun]

/-! ## What stops a pipeline, and what is written -/

/-- No command answers the words: there are none, no command has the name, or the command that has
it gives a fault. -/
inductive Unanswered (env : Environment) (s : Session) (piped : Option String) :
    List String → Prop
  | blank : Unanswered env s piped []
  | missing {name args} (hb : env.catalog.find? name = none) :
      Unanswered env s piped (name :: args)
  | raised {name args b f} (hb : env.catalog.find? name = some b)
      (hf : (b.handler env.context s args piped).2 = .error f) :
      Unanswered env s piped (name :: args)
  | unresolved {name args b r f} (hb : env.catalog.find? name = some b)
      (hr : (b.handler env.context s args piped).2 = .ok r) (hf : r.resolve = .error f) :
      Unanswered env s piped (name :: args)

theorem Tried.unanswered {words : List String} {s' : Session} {o : Outcome}
    (h : Tried env s piped words s' o) (hu : Unanswered env s piped words) :
    o.success = false := by
  cases h with
  | blank => rfl
  | called hcalls =>
      cases hcalls with
      | missing => rfl
      | raised => rfl
      | unresolved => rfl
      | resolved hb hcall hr =>
          -- A command that gave an outcome is registered and gave no fault.
          cases hu with
          | missing hb' => simp [hb] at hb'
          | raised hb' hf =>
              obtain rfl := Option.some_inj.mp (hb.symm.trans hb')
              simp [hcall] at hf
          | unresolved hb' hr' hf =>
              obtain rfl := Option.some_inj.mp (hb.symm.trans hb')
              obtain rfl := Except.ok.inj ((congrArg Prod.snd hcall).symm.trans hr')
              simp [hr] at hf

/-- Every attempt tries its words; what they left is changed only to save the output of a success. -/
theorem Attempt.Holds.tried {a : Attempt} (h : a.Holds env) :
    ∃ left o, Tried env a.before a.piped a.words left o ∧
      (o.success = false → a.outcome.success = false) ∧
      (a.after ≠ left → a.isLast ∧ hasRedirect a.stage ∧ o.success) := by
  cases hsaves : a.saves with
  | false =>
      simp only [Holds, hsaves, Bool.false_eq_true, ↓reduceIte] at h
      refine ⟨a.after, a.outcome, ?_, id, absurd rfl⟩
      simpa only [words, hsaves, Bool.false_eq_true, ↓reduceIte] using h
  | true =>
      simp only [Holds, hsaves, ↓reduceIte] at h
      have hlast : a.isLast ∧ hasRedirect a.stage := by simpa [saves] using hsaves
      have hwords : a.words = ((redirection? a.stage).map (·.command)).getD [] := by
        simp only [words, hsaves, ↓reduceIte]
      rw [hwords]
      generalize hafter : a.after = after at h ⊢
      generalize houtcome : a.outcome = outcome at h ⊢
      cases h with
      | malformed hr =>
          rw [hr]
          exact ⟨a.before, _, .blank, fun _ => rfl, absurd rfl⟩
      | failed hr ht ho =>
          rw [hr]
          exact ⟨_, _, ht, id, absurd rfl⟩
      | refused hr ht ho hw =>
          rw [hr]
          exact ⟨_, _, ht, fun _ => rfl, absurd rfl⟩
      | written hr ht ho hw =>
          rw [hr]
          exact ⟨_, _, ht, fun hfail => absurd ho (by simp [hfail]), fun _ => ⟨hlast.1, hlast.2, ho⟩⟩

theorem PipelineRun.last_of_failed {run : List Attempt}
    (h : PipelineRun env s piped ss run) {a : Attempt} (ha : a ∈ run)
    (hfail : a.outcome.success = false) : run.getLast? = some a := by
  obtain ⟨early, late, rfl⟩ := List.append_of_mem ha
  cases late with
  | nil => simp
  | cons b late =>
      have hpass := (List.isChain_cons_cons.mp h.chained.right_of_append).1.1
      simp [hfail] at hpass

/-- A line with a bar is run as a pipeline: its stages from the first on are attempted, in order and
each once, up to one that fails or to the last, which alone may write a file; the outcome is that
of the last attempt. Words that no command answers are a failure. -/
theorem execute_pipeline (env : Environment) (s : Session) (typed line : String)
    (hline : expanded? s.aliases typed = some line) (hbar : hasPipe line) :
    let run := attempts env (s.recording typed) none (stages line)
    PipelineRun env (s.recording typed) none (stages line) run ∧
      (∀ a, run.getLast? = some a → execute env s typed = (a.after, a.outcome)) ∧
      ∀ a ∈ run,
        (Unanswered env a.before a.piped a.words →
          a.outcome.success = false ∧ run.getLast? = some a) ∧
        ∃ left o, Tried env a.before a.piped a.words left o ∧
          (a.after ≠ left → a.isLast ∧ hasRedirect a.stage ∧ o.success) := by
  intro run
  have hparts : parts line = stages line := if_pos hbar
  have hne : stages line ≠ [] := hparts ▸ parts_ne_nil line
  have hrun : PipelineRun env (s.recording typed) none (stages line) run :=
    attempts_run env _ none hne
  refine ⟨hrun, fun a ha => ?_, fun a ha => ?_⟩
  · obtain ⟨b, hb, hrun⟩ := runStages_eq_last env (s.recording typed) none hne
    obtain rfl := Option.some_inj.mp (ha.symm.trans hb)
    rw [execute_eq_runStages hline, hparts, hrun]
  · obtain ⟨left, o, htried, hfail, hleft⟩ := (hrun.holds a ha).tried
    refine ⟨fun hu => ?_, left, o, htried, hleft⟩
    have hfailed := hfail (htried.unanswered hu)
    exact ⟨hfailed, hrun.last_of_failed ha hfailed⟩

theorem execute_pipeline_raising :
    let broken : Handler := fun _ s _ _ => ({ s with draws := [7] }, .error (.raised "no"))
    let env : Environment := ⟨[⟨⟨"echo", .text, false, {}⟩, Command.echo⟩,
      ⟨⟨"break", .text, false, {}⟩, broken⟩], 0⟩
    let s : Session := ⟨{}, .empty 0 "/home/user", .empty 10, [("say", "echo a > b | break")], []⟩
    expanded? s.aliases " say c | echo > f " = some "echo a > b | break c | echo > f" ∧
    hasPipe "echo a > b | break c | echo > f" ∧
    (attempts env (s.recording " say c | echo > f ") none
      (stages "echo a > b | break c | echo > f")).map (fun a => (a.words, a.piped)) =
        [(["echo", "a", ">", "b"], none), (["break", "c"], some "a > b\n")] ∧
    (execute env s " say c | echo > f ").2 = .error "Error executing break: no" := by
  intro broken env s
  have hline : expanded? s.aliases " say c | echo > f " =
      some "echo a > b | break c | echo > f" := by decide +kernel
  have hbar : hasPipe "echo a > b | break c | echo > f" := by decide +kernel
  refine ⟨hline, hbar, by decide +kernel, ?_⟩
  have hlast := (execute_pipeline env s _ _ hline hbar).2.1
  have houtcome : (attempts env (s.recording " say c | echo > f ") none
      (stages "echo a > b | break c | echo > f")).getLast?.map (·.outcome) =
        some (.error "Error executing break: no") := by decide +kernel
  obtain ⟨a, ha, ho⟩ := Option.map_eq_some_iff.mp houtcome
  rw [hlast a ha, ← ho]

end Shellbox
