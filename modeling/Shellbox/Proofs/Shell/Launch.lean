import Shellbox.Proofs.Filesystem.Starter
import Shellbox.Shell.Launch

/-!
# Starting a shell

A shell can be started with any settings. The words it is started with ask for one line, for the loop
or for help; a line is run in the new session, and the shell ends with its code.
-/

namespace Shellbox.Launch

open Filesystem

variable {env : Environment} {s : Session}

/-! ## Words -/

theorem lookup_spellings {word : String} (hword : '=' ∈ word.toList) :
    spellings.lookup word = none := by
  rw [List.lookup_eq_none_iff]
  intro x hx
  have hequals : '=' ∉ x.1.toList := by
    revert x
    decide
  simpa using fun heq : word = x.1 => hequals (heq ▸ hword)

theorem splitEquals?_eq_some {word name value : String} (hname : '=' ∉ name.toList)
    (hword : word.toList = name.toList ++ '=' :: value.toList) :
    splitEquals? word = some (name, value) := by
  have hfront : ∀ c ∈ name.toList, (c != '=') = true := by
    intro c hc
    simpa using fun heq : c = '=' => hname (heq ▸ hc)
  rw [splitEquals?, hword, if_pos (by simp), List.takeWhile_append_of_pos hfront,
    List.dropWhile_append_of_pos hfront]
  simp

/-- The line behind the option for a line is asked for, unless it looks like an option. -/
theorem ofWords_command (e : Edition) {line : String} (hdash : line.toList.head? ≠ some '-') :
    Request.ofWords ["-c", line] e = .ok { command := some line } := by
  have hdashes : line ≠ "--" := by
    rintro rfl
    exact hdash rfl
  have hoption : Word.ofText "-c" = .ok (.option .command "-c" none) := rfl
  have hoperand : Word.ofText line = .ok .operand := by
    rw [Word.ofText, if_pos (by simpa using hdash)]
  have hclassify : classify ["-c", line] =
      .ok [("-c", .option .command "-c" none), (line, .operand)] := by
    simp [classify, hoption, hoperand, Except.map]
  have hset : ({} : Request).set e .command line = .ok { command := some line } := by
    simp [Request.set, Edition.kept, hdashes]
  simp [Request.ofWords, hclassify, Request.takeWords, Bundle.ofOption, Switch.takesValue, hset]

/-- Any line can be joined to the option for a line by an equals sign. -/
theorem ofWords_command_joined (e : Edition) (line : String) :
    Request.ofWords ["--command=" ++ line] e = .ok { command := e.kept line } := by
  obtain ⟨word, hdef⟩ : ∃ word, word = "--command=" ++ line := ⟨_, rfl⟩
  have hchars : word.toList = "--command".toList ++ '=' :: line.toList := by simp [hdef]
  have hequals : '=' ∈ word.toList := by simp [hchars]
  have hassigned : assigned? word = some (.option .command "--command" (some ⟨line, true⟩)) := by
    rw [assigned?, splitEquals?_eq_some (by decide) hchars]
    rfl
  have hword : Word.ofText word = .ok (.option .command "--command" (some ⟨line, true⟩)) := by
    have hlone : word ≠ "-" := fun h => by simp [h] at hequals
    rw [Word.ofText, if_neg (by simp [hchars]), lookup_spellings hequals, hassigned]
    simp [hlone]
  have hclassify : classify [word] =
      .ok [(word, .option .command "--command" (some ⟨line, true⟩))] := by
    have hlone : word ≠ "--" := fun h => by simp [h] at hequals
    simp [classify, hword, Except.map]
  have hset : ({} : Request).set e .command line = .ok { command := e.kept line } := rfl
  simp [← hdef, Request.ofWords, hclassify, Request.takeWords, Bundle.ofOption, Switch.takesValue,
    hset]

/-! ## What is done -/

@[simp] theorem Ending.ofOutcome_code (o : Outcome) : (Ending.ofOutcome o).code = o.exitCode := rfl

/-- A shell can be started with any settings. -/
theorem create_session (now : Instant) (settings : Settings) (draws : List Int) :
    ∃ s, Session.create now settings draws = .ok s := by
  obtain ⟨fs, hfs⟩ := create_starter now settings.home settings.initialDirectory
  exact ⟨_, by rw [Session.create, hfs, Except.map]⟩

/-- A line is run if it is asked for, unless it is empty or help is called for. -/
theorem task_eq_line {q : Request} {line : String} :
    q.task = .line line ↔ q.help = false ∧ q.command = some line ∧ line ≠ "" := by
  cases hhelp : q.help with
  | true => simp [Request.task, hhelp]
  | false =>
      cases hcommand : q.command with
      | none => simp [Request.task, hhelp, hcommand]
      | some asked =>
          by_cases hasked : asked = ""
          · simp [Request.task, hhelp, hcommand, hasked]
          · have hline : asked = line → line ≠ "" := fun h => h ▸ hasked
            simpa [Request.task, hhelp, hcommand, hasked] using hline

/-- Started for one line, a shell shows what that line shows in its new session, and ends with its
code. -/
theorem run_line {q : Request} {line : String} {draws : List Int}
    (hs : Session.create env.now q.settings draws = .ok s) (htask : q.task = .line line)
    (inputs : List Input) (clock : Nat → Instant) :
    run env q draws inputs clock = .ok (.ofOutcome (execute ⟨env.catalog, clock 0⟩ s line).2) := by
  have hstart : q.start env.now draws = .ok s := by
    rw [Request.start, hs]
    rfl
  rw [run, htask]
  dsimp only
  rw [hstart]
  rfl

/-- Called for help first, a shell explains its options and succeeds, whatever the words behind ask
for, if only it is clear which options they mean. -/
theorem run_help (e : Edition) {words : List String} {ws : List (String × Word)}
    (hwords : classify words = .ok ws) :
    ∃ q, Request.ofWords ("-h" :: words) e = .ok q ∧ ∀ draws inputs clock,
      run env q draws inputs clock = .ok ⟨explanation, 0⟩ := by
  have hoption : Word.ofText "-h" = .ok (.option .help "-h" none) := rfl
  have hclassify : classify ("-h" :: words) = .ok (("-h", .option .help "-h" none) :: ws) := by
    simp [classify, hoption, hwords, Except.map]
  refine ⟨{ help := true }, ?_, fun draws inputs clock => ?_⟩
  · simp [Request.ofWords, hclassify, Request.takeWords, Bundle.ofOption, Switch.takesValue,
      Request.turnOn]
  · rw [run, Request.task, if_pos rfl]

end Shellbox.Launch
