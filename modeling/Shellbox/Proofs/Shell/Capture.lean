import Shellbox.Proofs.Command.History
import Shellbox.Proofs.Filesystem.Changes
import Shellbox.Proofs.Line.Saving
import Shellbox.Proofs.Shell.Attempts
import Shellbox.Proofs.Shell.FirstWord

/-!
# Redirection captures the plain run

A line with a redirection written behind it does what the line does alone, and then sends the output
of the line to the file if the line succeeds. Both lines go into the history as they were typed, so
this holds as long as no command reads the history.
-/

namespace Shellbox

open Text Line

variable {env : Environment} {s : Session} {piped : Option String} {aliases : Aliases}
  {line expansion stage target : String} {words ss : List String}

/-! ## The alias at the start -/

theorem expandAlias_redirectedTo (h : trim line = line) (target : String) :
    expandAlias aliases (redirectedTo line target) =
      redirectedTo (expandAlias aliases line) target := by
  have hblank : ∀ c ∈ " ".toList, isBlank c := by simp [isBlank]
  have hsplit (line : String) :
      redirectedTo line target = line ++ " " ++ signed false (quote target) := by
    simp [redirectedTo, signed, signOf, Operator.text, ← String.toList_inj]
  obtain ⟨blanks, hblanks, hexpand⟩ := expandAlias_append_gap aliases h hblank
    (by simp) (trim_signed (quote_spells target) false) (signed_ne_empty _ _)
  obtain rfl : blanks = " " := by simpa using hblanks
  rw [hsplit, hexpand, ← hsplit]

theorem ne_empty_of_expanded? (hline : expanded? aliases line = some expansion) : line ≠ "" := by
  rintro rfl
  cases hline

theorem expanded?_redirectedTo (h : trim line = line) (hline : expanded? aliases line = some expansion)
    (target : String) :
    expanded? aliases (redirectedTo line target) = some (redirectedTo expansion target) := by
  have hne : line ≠ "" := ne_empty_of_expanded? hline
  have hempty : (redirectedTo line target).isEmpty = false := by
    simp [redirectedTo, ← Bool.not_eq_true]
  have hsome : some (expandAlias aliases line) = some expansion := by
    simpa [expanded?, h, hne] using hline
  rw [expanded?, trim_redirectedTo hne h, hempty, if_neg (by simp), expandAlias_redirectedTo h,
    Option.some.inj hsome]

/-- The parts of a trimmed line are its stages, also if there is but one. -/
theorem parts_eq_stages (h : trim line = line) : parts line = stages line := by
  unfold parts
  split
  · rfl
  · rename_i hbar
    rw [Bool.not_eq_true] at hbar
    have hlabel : ∀ x ∈ QuoteState.clean.label line.toList, x.2 ≠ .pipe := by
      simpa [labels] using List.any_eq_false.mp hbar
    rw [stages, labels, QuoteState.splitOnP_label_last hlabel]
    simpa [trim] using h.symm

/-! ## Sending what a run leaves to a file -/

/-- Sends the output that a run leaves to a file, if the run succeeded. -/
def saveTo (now : Filesystem.Instant) (target : String) (left : Session × Outcome) :
    Session × Outcome :=
  if !left.2.success then left
  else
    match left.1.fs.write now (some target) (dropFinalBreak left.2.output) with
    | .error e =>
      (left.1, .error ("Error: cannot create file '" ++ e.shownPath ++ "': " ++ e.reason))
    | .ok fs => ({ left.1 with fs }, .nothing)

theorem saveTo_failed {now : Filesystem.Instant} {left : Session × Outcome}
    (h : left.2.success = false) : saveTo now target left = left := by
  simp [saveTo, h]

theorem saveTo_written {now : Filesystem.Instant} {left : Session × Outcome} {fs : Filesystem}
    (h : left.2.success)
    (hw : left.1.fs.write now (some target) (dropFinalBreak left.2.output) = .ok fs) :
    saveTo now target left = ({ left.1 with fs }, .nothing) := by
  simp [saveTo, h, hw]

theorem saveTo_refused {now : Filesystem.Instant} {left : Session × Outcome}
    {e : Filesystem.PathError} (h : left.2.success)
    (hw : left.1.fs.write now (some target) (dropFinalBreak left.2.output) = .error e) :
    saveTo now target left =
      (left.1, .error ("Error: cannot create file '" ++ e.shownPath ++ "': " ++ e.reason)) := by
  simp [saveTo, h, hw]

theorem Filesystem.write_cwd {fs fs' : Filesystem} {now : Filesystem.Instant}
    {path : Option String} {text : String} (h : fs.write now path text = .ok fs') :
    fs'.cwd = fs.cwd := by
  obtain ⟨root, rfl⟩ := write_eq_root h
  rfl

theorem runRedirected_redirectedTo (env : Environment) (s : Session) (piped : Option String)
    (h : endState stage = .clean) (hwords : scan stage ≠ []) (hno : hasRedirect stage = false)
    (target : String) :
    runRedirected env s (redirectedTo stage target) piped =
      saveTo env.now target (runWords env s (tokenTexts stage) piped) := by
  simp only [runRedirected, redirection?_redirectedTo h hwords hno, writeRedirected, redirectedText,
    Bool.false_and, Bool.false_eq_true, ↓reduceIte]
  generalize runWords env s (tokenTexts stage) piped = left
  cases ho : left.2.success with
  | false => simp [saveTo_failed ho]
  | true =>
      cases hw : left.1.fs.write env.now (some target) (dropFinalBreak left.2.output) with
      | error e => simp [saveTo_refused ho hw]
      | ok fs => simp [saveTo_written ho hw]

/-- A redirection behind the last stage sends what all stages leave to the file. -/
theorem runStages_redirectedTo (env : Environment) (s : Session) (piped : Option String)
    (front : List String) (h : endState stage = .clean) (hwords : scan stage ≠ [])
    (hno : hasRedirect stage = false) (target : String) :
    runStages env s piped (front ++ [redirectedTo stage target]) =
      saveTo env.now target (runStages env s piped (front ++ [stage])) := by
  induction front generalizing s piped with
  | nil =>
      simp only [List.nil_append, runStages, hasRedirect_redirectedTo h, hno, Bool.false_eq_true,
        ↓reduceIte]
      exact runRedirected_redirectedTo env s piped h hwords hno target
  | cons first front ih =>
      rw [List.cons_append, runStages_cons env s piped first (by simp), List.cons_append,
        runStages_cons env s piped first (by simp)]
      dsimp only
      cases ho : (runWords env s (tokenTexts first) piped).2.success with
      | false =>
          simp only [Bool.false_eq_true, ↓reduceIte]
          exact (saveTo_failed ho).symm
      | true =>
          simp only [↓reduceIte]
          exact ih _ _

/-! ## Runs with another history -/

/-- All commands but the one of that name ignore the history. -/
def Environment.IgnoresHistory (env : Environment) : Prop :=
  ∀ name b, env.catalog.find? name = some b → name ≠ "history" → b.handler.IgnoresHistory

theorem Environment.standard_ignoresHistory (now : Filesystem.Instant) :
    Environment.IgnoresHistory ⟨Catalog.standard, now⟩ := by
  intro name b hb hname
  dsimp only at hb
  exact Catalog.standard_ignoresHistory hb hname

theorem runWords_withHistory (henv : env.IgnoresHistory) (s : Session) (piped : Option String)
    (h : History) (hwords : words.head? ≠ some "history") :
    runWords env (s.withHistory h) words piped =
      ((runWords env s words piped).1.withHistory h, (runWords env s words piped).2) := by
  cases words with
  | nil => rfl
  | cons name args =>
      cases hb : env.catalog.find? name with
      | none => simp only [runWords, hb]
      | some b =>
          have hname : name ≠ "history" := by simpa using hwords
          simp only [runWords, hb, Environment.call, henv name b hb hname env.context s args piped h]

theorem runRedirected_withHistory (henv : env.IgnoresHistory) (s : Session) (piped : Option String)
    (h : History)
    (hwords : (((redirection? stage).map (·.command)).getD []).head? ≠ some "history") :
    runRedirected env (s.withHistory h) stage piped =
      ((runRedirected env s stage piped).1.withHistory h,
        (runRedirected env s stage piped).2) := by
  cases hr : redirection? stage with
  | none => simp only [runRedirected, hr]
  | some r =>
      have hcommand : r.command.head? ≠ some "history" := by simpa [hr] using hwords
      simp only [runRedirected, hr, runWords_withHistory henv s piped h hcommand]
      cases ho : (runWords env s r.command piped).2.success with
      | false => rfl
      | true =>
          simp only [Session.withHistory, Bool.not_true, Bool.false_eq_true, ↓reduceIte]
          split <;> rfl

theorem saveTo_withHistory (now : Filesystem.Instant) (target : String) (left : Session × Outcome)
    (h : History) :
    saveTo now target (left.1.withHistory h, left.2) =
      ((saveTo now target left).1.withHistory h, (saveTo now target left).2) := by
  cases ho : left.2.success with
  | false => simp [saveTo, ho]
  | true =>
      simp only [saveTo, ho, Session.withHistory, Bool.not_true, Bool.false_eq_true, ↓reduceIte]
      split <;> rfl

/-- Stages of which none calls the command for the history run alike with any history. -/
theorem runStages_withHistory (henv : env.IgnoresHistory) (s : Session) (piped : Option String)
    (h : History) (hrun : ∀ a ∈ attempts env s piped ss, a.words.head? ≠ some "history") :
    runStages env (s.withHistory h) piped ss =
      ((runStages env s piped ss).1.withHistory h, (runStages env s piped ss).2) := by
  induction ss generalizing s piped with
  | nil => rfl
  | cons stage rest ih =>
      by_cases hrest : rest = []
      · subst hrest
        rw [attempts_last, List.forall_mem_singleton] at hrun
        simp only [Attempt.words, Attempt.saves, Attempt.make, Bool.true_and] at hrun
        cases hred : hasRedirect stage with
        | true =>
            simp only [hred, ↓reduceIte] at hrun
            simp only [runStages, hred, ↓reduceIte]
            exact runRedirected_withHistory henv s piped h hrun
        | false =>
            simp only [hred, Bool.false_eq_true, ↓reduceIte] at hrun
            simp only [runStages, hred, Bool.false_eq_true, ↓reduceIte]
            exact runWords_withHistory henv s piped h hrun
      · have hmore : rest.isEmpty = false := by simpa using hrest
        have hleft := Attempt.make_early env s piped stage
        have hfirst := hrun (.make env s piped stage rest.isEmpty) (by simp [attempts])
        rw [hmore, Attempt.words_make_early] at hfirst
        rw [runStages_cons _ _ _ _ hrest, runStages_cons _ _ _ _ hrest,
          runWords_withHistory henv s piped h hfirst, ← hleft]
        cases ho : (Attempt.make env s piped stage false).outcome.success with
        | false => simp only [ho, Bool.false_eq_true, ↓reduceIte]
        | true =>
            rw [attempts_pass (by rw [hmore]) ho, List.forall_mem_cons] at hrun
            simp only [ho, ↓reduceIte]
            exact ih _ _ hrun.2

/-! ## The whole line -/

/-- Running a line with a redirection behind it saves what running the line leaves, with another
history. -/
theorem execute_redirectedTo (henv : env.IgnoresHistory) (s : Session) (h : trim line = line)
    (hline : expanded? s.aliases line = some expansion) (hred : Redirectable expansion)
    (hrun : ∀ a ∈ attempts env (s.recording line) none (parts expansion),
      a.words.head? ≠ some "history") (target : String) :
    execute env s (redirectedTo line target) =
      ((saveTo env.now target (execute env s line)).1.withHistory
          (s.history.add (redirectedTo line target)),
        (saveTo env.now target (execute env s line)).2) := by
  have hne : line ≠ "" := ne_empty_of_expanded? hline
  have hexpansion : expansion ≠ "" := by
    rintro rfl
    exact hred.tokens rfl
  obtain ⟨front, last, hclean, hwords, hno, hplain, hredirected⟩ := hred.stages target
  have hrecord : s.recording (redirectedTo line target) =
      (s.recording line).withHistory (s.history.add (redirectedTo line target)) := by
    simp only [Session.recording, Session.withHistory, trim_redirectedTo hne h]
  rw [execute_eq_runStages (expanded?_redirectedTo h hline target), execute_eq_runStages hline,
    parts_eq_stages (trim_redirectedTo hexpansion hred.trimmed target), hredirected,
    parts_eq_stages hred.trimmed, hplain, hrecord,
    runStages_redirectedTo env _ none front hclean hwords hno, runStages_withHistory henv,
    saveTo_withHistory]
  rwa [parts_eq_stages hred.trimmed, hplain] at hrun

/-- What a run left once its output is sent to a file, against what it left without that: a failure
stays as it is, and a success is followed by just one write of its output without the final break. -/
structure Captured (now : Filesystem.Instant) (target : String)
    (plain redirected : Session × Outcome) : Prop where
  cwd : redirected.1.fs.cwd = plain.1.fs.cwd
  aliases : redirected.1.aliases = plain.1.aliases
  failed : plain.2.success = false → redirected.2 = plain.2 ∧ redirected.1.fs = plain.1.fs
  written : ∀ fs, plain.2.success →
    plain.1.fs.write now (some target) (dropFinalBreak plain.2.output) = .ok fs →
      redirected.2 = .nothing ∧ redirected.1.fs = fs
  refused : ∀ e, plain.2.success →
    plain.1.fs.write now (some target) (dropFinalBreak plain.2.output) = .error e →
      redirected.2 = .error ("Error: cannot create file '" ++ e.shownPath ++ "': " ++ e.reason) ∧
        redirected.1.fs = plain.1.fs

theorem saveTo_captured (now : Filesystem.Instant) (target : String) (left : Session × Outcome)
    (h : History) :
    Captured now target left
      ((saveTo now target left).1.withHistory h, (saveTo now target left).2) := by
  cases ho : left.2.success with
  | false =>
      rw [saveTo_failed ho]
      exact ⟨rfl, rfl, fun _ => ⟨rfl, rfl⟩, fun fs hs => by simp [ho] at hs,
        fun e hs => by simp [ho] at hs⟩
  | true =>
      cases hw : left.1.fs.write now (some target) (dropFinalBreak left.2.output) with
      | error e =>
          rw [saveTo_refused ho hw]
          refine ⟨rfl, rfl, fun hs => by simp [ho] at hs, fun fs _ hfs => ?_, fun e' _ he => ?_⟩
          · rw [hw] at hfs
            cases hfs
          · rw [hw] at he
            cases he
            exact ⟨rfl, rfl⟩
      | ok fs =>
          rw [saveTo_written ho hw]
          refine ⟨Filesystem.write_cwd hw, rfl, fun hs => by simp [ho] at hs, fun fs' _ hfs => ?_,
            fun e _ he => ?_⟩
          · rw [hw] at hfs
            cases hfs
            exact ⟨rfl, rfl⟩
          · rw [hw] at he
            cases he

/-- A line with a redirection behind it leaves what the line alone leaves, with the output of a
success sent to the file, unless one of the commands that run is the one for the history. -/
theorem redirection_captures (now : Filesystem.Instant) (s : Session)
    (line expansion target : String) (htrim : trim line = line)
    (hline : expanded? s.aliases line = some expansion) (hred : Redirectable expansion)
    (hrun : ∀ a ∈ attempts ⟨Catalog.standard, now⟩ (s.recording line) none (parts expansion),
      a.words.head? ≠ some "history") :
    Captured now target (execute ⟨Catalog.standard, now⟩ s line)
      (execute ⟨Catalog.standard, now⟩ s (line ++ " > " ++ quote target)) := by
  have hcapture := execute_redirectedTo (Environment.standard_ignoresHistory now) s htrim hline hred
    hrun target
  rw [redirectedTo] at hcapture
  rw [hcapture]
  exact saveTo_captured now target _ _

theorem redirection_captures_reversed :
    let env : Environment := ⟨Catalog.standard, 0⟩
    let s : Session := ⟨{}, .empty 0 "/home/user", .empty 10, [("say", "echo 'a > b'")], []⟩
    let redirected := execute env s "say c | rev > \"/the \\\"file\\\"\""
    redirected.2 = .nothing ∧
      (redirected.1.fs.read (some "/the \"file\"")).toOption = some "c b > a" := by
  intro env s redirected
  have hline : expanded? s.aliases "say c | rev" = some "echo 'a > b' c | rev" := by
    decide +kernel
  have hred : Redirectable "echo 'a > b' c | rev" :=
    ⟨by decide +kernel, by decide +kernel, by decide +kernel, by decide +kernel⟩
  have hwords : ∀ words ∈ (attempts env (s.recording "say c | rev") none
      (parts "echo 'a > b' c | rev")).map (·.words), words.head? ≠ some "history" := by
    decide +kernel
  have hcaptured := redirection_captures 0 s "say c | rev" _ "/the \"file\"" (by decide +kernel)
    hline hred fun a ha => hwords _ (List.mem_map_of_mem ha)
  have hsuccess : (execute env s "say c | rev").2.success := by decide +kernel
  have hread : ((execute env s "say c | rev").1.fs.write 0 (some "/the \"file\"")
      (dropFinalBreak (execute env s "say c | rev").2.output)).toOption.map
        (fun fs => (fs.read (some "/the \"file\"")).toOption) = some (some "c b > a") := by
    decide +kernel
  cases hw : (execute env s "say c | rev").1.fs.write 0 (some "/the \"file\"")
      (dropFinalBreak (execute env s "say c | rev").2.output) with
  | error e =>
      rw [hw] at hread
      cases hread
  | ok fs =>
      rw [hw] at hread
      obtain ⟨houtcome, hfs⟩ := hcaptured.written fs hsuccess hw
      have hline' : "say c | rev" ++ " > " ++ quote "/the \"file\"" =
          "say c | rev > \"/the \\\"file\\\"\"" := by decide +kernel
      rw [hline'] at houtcome hfs
      exact ⟨houtcome, by rw [hfs]; exact Option.some.inj hread⟩

end Shellbox
