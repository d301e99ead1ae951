import Shellbox.Proofs.Shell.Attempts

/-!
# The sessions along a run

The attempts of a line lead from the session that has recorded the line to the one that the line
leaves, each from where the attempt before it ended. So what each attempt does to a session is
summed up along the run by induction.
-/

namespace Shellbox

open Text Line

variable {env : Environment} {s s' : Session} {piped : Option String} {run : List Attempt}

/-- Attempts that lead from one session to another. -/
inductive Leads : Session → List Attempt → Session → Prop
  | done (s : Session) : Leads s [] s
  | step {a : Attempt} {run : List Attempt} {s' : Session} (h : Leads a.after run s') :
      Leads a.before (a :: run) s'

theorem Leads.single (a : Attempt) : Leads a.before [a] a.after := .step (.done a.after)

theorem attempts_leads (env : Environment) (s : Session) (piped : Option String)
    (ss : List String) : Leads s (attempts env s piped ss) (runStages env s piped ss).1 := by
  induction ss generalizing s piped with
  | nil => exact .done s
  | cons stage rest ih =>
      by_cases hrest : rest = []
      · subst hrest
        rw [attempts_last]
        have hrun : (runStages env s piped [stage]).1 =
            (Attempt.make env s piped stage true).after := by
          simp only [runStages, Attempt.make, Bool.true_and]
        rw [hrun]
        exact .single (.make env s piped stage true)
      · have hmore : rest.isEmpty = false := by simpa using hrest
        have hmake : Attempt.make env s piped stage false =
            .make env s piped stage rest.isEmpty := by rw [hmore]
        rw [runStages_cons env s piped stage hrest, ← Attempt.make_early]
        cases ho : (Attempt.make env s piped stage false).outcome.success with
        | false =>
            rw [attempts_stop hmake ho]
            simp only [ho, Bool.false_eq_true, ↓reduceIte]
            exact .single (.make env s piped stage false)
        | true =>
            rw [attempts_pass hmake ho]
            simp only [ho, ↓reduceIte]
            exact .step (a := .make env s piped stage false) (ih _ _)

/-- What holds at the start of a run and is kept by its attempts holds at its end. -/
theorem Leads.invariant {P : Session → Prop} (h : Leads s run s')
    (step : ∀ a ∈ run, P a.before → P a.after) (start : P s) : P s' := by
  induction h with
  | done s => exact start
  | step h ih =>
      exact ih (fun a ha => step a (List.mem_cons_of_mem _ ha)) (step _ List.mem_cons_self start)

/-! ## Typed lines -/

/-- The attempts in which a typed line is run; a blank line has none. -/
def lineAttempts (env : Environment) (s : Session) (typed : String) : List Attempt :=
  match expanded? s.aliases typed with
  | none => []
  | some line => attempts env (s.recording typed) none (parts line)

@[simp]
theorem recording_fs (s : Session) (typed : String) : (s.recording typed).fs = s.fs := by
  rw [Session.recording]

@[simp]
theorem recording_settings (s : Session) (typed : String) :
    (s.recording typed).settings = s.settings := by
  rw [Session.recording]

@[simp]
theorem recording_aliases (s : Session) (typed : String) :
    (s.recording typed).aliases = s.aliases := by
  rw [Session.recording]

@[simp]
theorem recording_history (s : Session) (typed : String) :
    (s.recording typed).history = s.history.add (trim typed) := by
  rw [Session.recording]

theorem recording_blank {typed : String} (h : (trim typed).isEmpty) : s.recording typed = s := by
  rw [String.isEmpty_iff] at h
  rw [Session.recording, h]
  rfl

theorem execute_leads (env : Environment) (s : Session) (typed : String) :
    Leads (s.recording typed) (lineAttempts env s typed) (execute env s typed).1 := by
  unfold lineAttempts
  split
  · rename_i hblank
    unfold expanded? at hblank
    split at hblank
    · rename_i h
      rw [recording_blank h]
      simp only [execute, h, ↓reduceIte]
      exact .done s
    · cases hblank
  · rename_i line hline
    rw [execute_eq_runStages hline]
    exact attempts_leads env _ none _

theorem lineAttempts_holds {typed : String} : ∀ a ∈ lineAttempts env s typed, a.Holds env := by
  unfold lineAttempts
  split
  · simp
  · exact (attempts_run env _ none (parts_ne_nil _)).holds

end Shellbox
