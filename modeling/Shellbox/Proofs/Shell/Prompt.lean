import Shellbox.Proofs.Filesystem.Resolving
import Shellbox.Proofs.Shell.Clock
import Shellbox.Proofs.Shell.Launch
import Shellbox.Proofs.Shell.Recorded
import Shellbox.Shell.Prompt

/-!
# The directory in the prompt

Lines never change the settings nor the home directory, so the prompt and the filesystem of a
session mean the same directory by the tilde. What the prompt shows therefore leads back to the
working directory.
-/

namespace Shellbox

open Text Filesystem

variable {now : Instant} {s start : Session} {st : Settings} {home cwd : String}

/-! ## What lines leave alone -/

/-- The handler leaves the settings as they were. -/
def Handler.KeepsSettings (handler : Handler) : Prop :=
  ∀ cx s args piped, (handler cx s args piped).1.settings = s.settings

theorem Handler.OnlyDraws.keepsSettings {handler : Handler} (h : handler.OnlyDraws) :
    handler.KeepsSettings := by
  intro cx s args piped
  obtain ⟨draws, hdraws⟩ := h cx s args piped
  rw [hdraws]

theorem Command.changing_keepSettings : ∀ x ∈ Command.changing, x.2.2.KeepsSettings := by
  simp only [changing, List.forall_mem_cons]
  refine ⟨?_, ?_, ?_, ?_, ?_, ?_, by simp⟩ <;> intro cx s args piped
  · simp only [touch, Handler.acting]
    split <;> rfl
  · simp only [mkdir, Handler.acting]
    split <;> rfl
  · simp only [rm, Handler.acting]
    repeat' split
    all_goals rfl
  · simp only [cd, Handler.acting]
    split <;> rfl
  · simp only [aliasing, Handler.acting]
    repeat' split
    all_goals rfl
  · simp only [history, Handler.acting]
    split <;> rfl

theorem Catalog.standard_keepsSettings {name : String} {b : Builtin}
    (hb : standard.find? name = some b) : b.handler.KeepsSettings := by
  obtain ⟨hmem, rfl⟩ := of_find? hb
  obtain ⟨c, hc, hhandler, -⟩ := mem_standard hmem
  rw [hhandler]
  rcases Command.shipped_cases c hc with hdraws | ⟨-, p, hp⟩
  · exact hdraws.keepsSettings
  · exact Command.changing_keepSettings _ hp

theorem runWords_settings (now : Instant) (s : Session) (words : List String)
    (piped : Option String) :
    (runWords ⟨Catalog.standard, now⟩ s words piped).1.settings = s.settings := by
  cases words with
  | nil => rfl
  | cons name args =>
      cases hb : Catalog.standard.find? name with
      | none => simp only [runWords, hb]
      | some b =>
          simp only [runWords, hb, Environment.call]
          exact Catalog.standard_keepsSettings hb _ s args piped

theorem execute_settings (now : Instant) (s : Session) (typed : String) :
    (execute ⟨Catalog.standard, now⟩ s typed).1.settings = s.settings := by
  refine (execute_leads ⟨Catalog.standard, now⟩ s typed).invariant
    (P := fun t => t.settings = s.settings) (fun a ha hbefore => ?_) (recording_settings s typed)
  have hwords := runWords_settings now a.before a.words a.piped
  rw [hbefore] at hwords
  rcases (lineAttempts_holds a ha).after_cases with hafter | ⟨-, r, output, fs, -, hafter⟩
  · rw [hafter, hwords]
  · rw [hafter, hwords]

theorem Filesystem.home_kept (now : Instant) (home : String) : KeptAt now (·.home = home) := by
  refine keptAt_of_ok (fun _ _ _ _ hw h => ?_) (fun _ _ _ hm h => ?_) (fun _ _ _ hm h => ?_)
    (fun _ _ _ _ hr h => ?_) (fun _ _ _ hc h => ?_) fun _ _ h => h
  · obtain ⟨root, rfl⟩ := write_eq_root hw
    exact h
  · obtain ⟨root, rfl⟩ := makeDirectory_eq_root hm
    exact h
  · obtain ⟨root, rfl⟩ := makeDirectories_eq_root hm
    exact h
  · obtain ⟨root, rfl⟩ := remove_eq_root hr
    exact h
  · obtain ⟨cwd, rfl⟩ := changeDirectory_eq_cwd hc
    exact h

/-- A session with the given settings, in which the tilde stands for their home directory. -/
structure Session.Homed (st : Settings) (s : Session) : Prop where
  settings : s.settings = st
  home : s.fs.home = st.home
  wellFormed : s.fs.WellFormed

theorem Session.Homed.line (h : s.Homed st) (now : Instant) (typed : String) :
    (execute ⟨Catalog.standard, now⟩ s typed).1.Homed st :=
  ⟨(execute_settings now s typed).trans h.settings,
    execute_works (home_kept now st.home) s typed h.home,
    execute_works (wellFormed_kept now) s typed h.wellFormed⟩

theorem Session.Homed.runTyped (h : s.Homed st) (lines : List Typed) :
    (runTyped s lines).Homed st := by
  induction lines generalizing s with
  | nil => exact h
  | cons line lines ih =>
      rw [Shellbox.runTyped, List.foldl_cons, ← Shellbox.runTyped]
      exact ih (h.line line.1 line.2)

/-! ## The directory that is shown -/

end Shellbox
