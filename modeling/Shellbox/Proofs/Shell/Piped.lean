import Shellbox.Proofs.Line.Spelled
import Shellbox.Proofs.Shell.Run

/-!
# Pipelines of spelled words

A line whose stages spell words runs these words, each command with the output of the one before it,
up to one that fails. How the words are spelled makes no difference.
-/

namespace Shellbox

open Text Line

variable {env : Environment} {s : Session} {piped : Option String} {ts : List String}
  {ws : List String} {wss : List (List String)}

/-- Runs commands given by their words, each with the output of the one before, up to one that
fails. -/
def runPiped (env : Environment) (s : Session) (piped : Option String) :
    List (List String) → Session × Outcome
  | [] => (s, .nothing)
  | [ws] => runWords env s ws piped
  | ws :: rest =>
    let left := runWords env s ws piped
    if left.2.success then runPiped env left.1 (some left.2.output) rest else left

theorem runPiped_cons (env : Environment) (s : Session) (piped : Option String) (ws : List String)
    (hne : wss ≠ []) :
    runPiped env s piped (ws :: wss) =
      let left := runWords env s ws piped
      if left.2.success then runPiped env left.1 (some left.2.output) wss else left := by
  obtain ⟨vs, rest, rfl⟩ := List.exists_cons_of_ne_nil hne
  rfl

theorem runPiped_ok {s' : Session} {text : String} (h : runWords env s ws piped = (s', .ok text))
    (hne : wss ≠ []) : runPiped env s piped (ws :: wss) = runPiped env s' (some text) wss := by
  rw [runPiped_cons env s piped ws hne, h]
  simp only [Outcome.ok, ↓reduceIte]

theorem runPiped_failed {s' : Session} {o : Outcome} (h : runWords env s ws piped = (s', o))
    (ho : o.success = false) : runPiped env s piped (ws :: wss) = (s', o) := by
  cases wss with
  | nil => exact h
  | cons vs rest =>
      rw [runPiped_cons env s piped ws (by simp), h]
      simp only [ho, Bool.false_eq_true, ↓reduceIte]

theorem runStages_spelled (h : List.Forall₂ Spells ts wss) (s : Session) (piped : Option String) :
    runStages env s piped ts = runPiped env s piped wss := by
  induction h generalizing s piped with
  | nil => rfl
  | @cons t ws ts wss ht hts ih =>
      -- Only the last stage is looked at for a redirection.
      cases hts with
      | nil =>
          simp only [runStages, runPiped, ht.no_redirect, ht.tokenTexts_eq, Bool.false_eq_true,
            ↓reduceIte]
      | cons hu hts =>
          rw [runStages_cons env s piped t (by simp), ht.tokenTexts_eq,
            runPiped_cons env s piped ws (by simp)]
          simp only [ih]

theorem parts_pipeline (h : List.Forall₂ Spells ts wss) (hne : ts ≠ []) :
    parts (pipeline ts) = ts := by
  cases h with
  | nil => exact absurd rfl hne
  | cons ht hts =>
      cases hts with
      | nil =>
          have hno := ht.no_pipe
          simp [parts, pipeline, hno]
      | cons hu hts =>
          have hall := List.Forall₂.cons ht (.cons hu hts)
          rw [parts, if_pos (hasPipe_pipeline hall), stages_pipeline hall (by simp)]

/-- A line whose stages spell words runs these words if its first word is no alias. -/
theorem execute_spelled (h : List.Forall₂ Spells ts wss) (hne : ts ≠ [])
    (hwss : ∀ ws ∈ wss, ws ≠ [])
    (halias : s.aliases.lookup (splitFirstWord (pipeline ts)).1 = none) :
    execute env s (pipeline ts) = runPiped env (s.recording (pipeline ts)) none wss := by
  have hline : expanded? s.aliases (pipeline ts) = some (pipeline ts) := by
    cases h with
    | nil => exact absurd rfl hne
    | @cons t ws ts wss ht hts =>
        have htext : (pipeline (t :: ts)).isEmpty = false := by
          rw [← Bool.not_eq_true, String.isEmpty_iff]
          exact pipeline_ne_empty (ht.ne_empty (hwss ws (by simp))) ts
        rw [expanded?, trim_pipeline (.cons ht hts) hwss, htext, expandAlias]
        simp only [Bool.false_eq_true, ↓reduceIte, halias]
  rw [execute_eq_runStages hline, parts_pipeline h hne, runStages_spelled h]

/-- A line of a single stage runs its words as one command. -/
theorem execute_stage {line : String} (h : Spells line ws) (hws : ws ≠ [])
    (halias : s.aliases.lookup (splitFirstWord line).1 = none) :
    execute env s line = runWords env (s.recording line) ws none := by
  have hline : pipeline [line] = line := by simp [pipeline]
  have hrun : execute env s (pipeline [line]) =
      runPiped env (s.recording (pipeline [line])) none [ws] :=
    execute_spelled (.cons h .nil) (by simp) (by simpa using hws) (by rw [hline, halias])
  rw [hline] at hrun
  exact hrun

end Shellbox
