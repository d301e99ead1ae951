import Shellbox.Proofs.Filesystem.Filling
import Shellbox.Proofs.Shell.Expansion

/-!
# Appending accumulates

A line that saves the output of a command to a file runs the command and then writes the output
without its final break, behind a new break if the file holds anything. Over any number of such
lines the file comes to hold all the outputs, one behind the other, whatever else is typed between
them, as long as nothing else is done to the file and to the directory that holds it.
-/

namespace Shellbox

open Text Line
open Filesystem (Instant Path.IsAbsolute)

variable {aliases : Aliases} {catalog : Catalog} {env : Environment} {s : Session}
  {fs fs' : Filesystem} {line text spelled p : String} {append : Bool} {texts : List String}

/-! ## A line that saves the output of a command -/

/-- The line is a single command: what it stands for reads as words, and nothing is pending at its
end. -/
def IsCommand (aliases : Aliases) (line : String) : Prop :=
  ∃ text ∈ expanded? aliases line, Plain text

instance (aliases : Aliases) (line : String) : Decidable (IsCommand aliases line) :=
  inferInstanceAs (Decidable (∃ text ∈ expanded? aliases line, Plain text))

/-- The words of what a line stands for. -/
def commandWords (aliases : Aliases) (line : String) : List String :=
  ((expanded? aliases line).map tokenTexts).getD []

/-- With a sign and a word behind it, a line stands for what it stood for, with the sign and the
word behind it. -/
theorem expanded?_savedTo (hline : expanded? aliases line = some text)
    (hspelled : Spells spelled [p]) (append : Bool) :
    ∃ gap, (∀ c ∈ gap.toList, isBlank c) ∧ gap ≠ "" ∧
      expanded? aliases (savedTo line append spelled) =
        some (text ++ gap ++ signed append spelled) := by
  have htail := trim_signed hspelled append
  have hne := signed_ne_empty append spelled
  unfold expanded? at hline
  split at hline
  · cases hline
  · rename_i hempty
    obtain rfl := Option.some_inj.mp hline
    rw [String.isEmpty_iff] at hempty
    obtain ⟨blanks, hblanks, htrim⟩ := trim_append_gap hempty htail hne " "
    have hgap : ∀ c ∈ (blanks ++ " ").toList, isBlank c := by
      simpa [or_imp, forall_and, isBlank] using hblanks
    obtain ⟨gap, hcases, hexpand⟩ := expandAlias_append_gap aliases (trim_trim line) hgap
      (by simp) htail hne
    have hfull : (trim (savedTo line append spelled)).isEmpty = false := by
      rw [savedTo, htrim]
      simp [← Bool.not_eq_true, hne]
    refine ⟨gap, ?_, ?_, ?_⟩
    · rcases hcases with rfl | rfl
      · exact hgap
      · simp [isBlank]
    · rcases hcases with rfl | rfl <;> simp
    · rw [expanded?, hfull, if_neg Bool.false_ne_true, savedTo, htrim, hexpand]

/-- What the command of a line leaves before its output is saved. -/
def commandRun (env : Environment) (s : Session) (line : String) (append : Bool)
    (spelled : String) : Session × Outcome :=
  runWords env (s.recording (savedTo line append spelled)) (commandWords s.aliases line) none

theorem commandWords_eq (h : expanded? aliases line = some text) :
    commandWords aliases line = tokenTexts text := by
  rw [commandWords, h]
  rfl

/-- The line alone runs the same words. -/
theorem IsCommand.execute_eq (h : IsCommand s.aliases line) :
    execute env s line = runWords env (s.recording line) (commandWords s.aliases line) none := by
  obtain ⟨text, htext, hplain⟩ := h
  rw [commandWords_eq htext, execute_eq_runStages htext, ← runExpanded_eq_runStages]
  simp only [runExpanded, hplain.no_pipe, hplain.no_redirect, Bool.false_eq_true, ↓reduceIte]

/-- Unless it reads the history, a command gives the outcome of its line alone. -/
theorem IsCommand.commandRun_eq (h : IsCommand s.aliases line) (henv : env.IgnoresHistory)
    (hwords : (commandWords s.aliases line).head? ≠ some "history") (append : Bool)
    (spelled : String) : (commandRun env s line append spelled).2 = (execute env s line).2 := by
  have hrecord : s.recording (savedTo line append spelled) =
      (s.recording line).withHistory (s.history.add (trim (savedTo line append spelled))) := by
    simp only [Session.recording, Session.withHistory]
  rw [commandRun, hrecord, runWords_withHistory henv _ none _ hwords, h.execute_eq]

theorem commandWords_ne_nil (ho : (commandRun env s line append spelled).2.success) :
    commandWords s.aliases line ≠ [] := by
  intro hnil
  rw [commandRun, hnil] at ho
  cases ho

/-- A command that succeeds and whose output can be written gives an empty success. -/
theorem execute_savedTo (hcommand : IsCommand s.aliases line) (hspelled : Spells spelled [p])
    (ho : (commandRun env s line append spelled).2.success)
    (hw : writeRedirected env.now (commandRun env s line append spelled).1.fs
      ⟨commandWords s.aliases line, p, append⟩ (commandRun env s line append spelled).2.output =
        .ok fs) :
    execute env s (savedTo line append spelled) =
      ({ (commandRun env s line append spelled).1 with fs }, .nothing) := by
  have hne := commandWords_ne_nil ho
  obtain ⟨text, htext, hplain⟩ := hcommand
  obtain ⟨gap, hgap, hgapne, hexpanded⟩ := expanded?_savedTo htext hspelled append
  have htried := runWords_tried env (s.recording (savedTo line append spelled))
    (commandWords s.aliases line) none
  rw [commandWords_eq htext] at hne hw htried
  rw [commandRun, commandWords_eq htext] at ho hw ⊢
  rw [execute_eq_runStages hexpanded, ← runExpanded_eq_runStages, runExpanded_eq_iff]
  exact .redirected (hplain.no_pipe_signed hgap hgapne hspelled append)
    (hplain.redirect_signed hgap hgapne hspelled append)
    (.written (hplain.redirection?_signed hgap hgapne hspelled hne append) htried ho hw)

/-- The output is written behind what the file holds. -/
theorem writeRedirected_filled (h : fs.Filled p texts) (hp : Path.IsAbsolute p)
    (hsign : texts ≠ [] → append) (now : Instant) (words : List String) (output : String) :
    ∃ fs', writeRedirected now fs ⟨words, p, append⟩ output = .ok fs' ∧
      fs'.Filled p (texts ++ [dropFinalBreak output]) := by
  have htext : redirectedText fs ⟨words, p, append⟩ output =
      .ok (joinLines (texts ++ [dropFinalBreak output])) := by
    have hfile := h.isFile_iff
    by_cases hnil : texts = []
    · subst hnil
      have hnofile : fs.isFile (some p) = false := by simpa using hfile
      simp [redirectedText, hnofile, joinLines]
    · rw [joinLines_concat hnil]
      simp only [redirectedText, hsign hnil, hfile.mpr hnil, h.content, hnil, Bool.and_self,
        ↓reduceIte, Except.map]
  obtain ⟨fs', hwrite, hfilled⟩ := h.write hp now (dropFinalBreak output)
  exact ⟨fs', by simp only [writeRedirected, htext, hwrite], hfilled⟩

/-! ## Turns -/

/-- What is typed at some time while a file is filled: a line whose output is saved to the file, or
any other line. -/
inductive Turn where
  | saving (now : Instant) (line : String) (append : Bool)
  | other (now : Instant) (line : String)

namespace Turn

def now : Turn → Instant
  | saving now _ _ => now
  | other now _ => now

/-- The line without the word that names the file. -/
def alone : Turn → String
  | saving _ line _ => line
  | other _ line => line

/-- The whole line, with the word that names the file. -/
def typed (spelled : String) : Turn → String
  | saving _ line append => savedTo line append spelled
  | other _ line => line

/-- Whether a line that saves its output puts it behind what the file holds. -/
def append? : Turn → Option Bool
  | saving _ _ append => some append
  | other .. => none

end Turn

/-- The file at the path is what it was before, or still not there, and the directory that holds it
is there. -/
structure Filesystem.Spares (fs : Filesystem) (p : String) (fs' : Filesystem) : Prop where
  read_eq : fs'.read (some p) = fs.read (some p)
  folder : fs'.HasFolder p

instance (fs : Filesystem) (p : String) (fs' : Filesystem) : Decidable (fs.Spares p fs') :=
  decidable_of_iff (fs'.read (some p) = fs.read (some p) ∧ fs'.HasFolder p)
    ⟨fun h => ⟨h.1, h.2⟩, fun h => ⟨h.read_eq, h.folder⟩⟩

theorem Filesystem.Filled.spares (h : fs.Filled p texts) (hspares : fs.Spares p fs') :
    fs'.Filled p texts :=
  ⟨hspares.folder, hspares.read_eq.trans h.content⟩

section

variable (catalog : Catalog) (spelled : String)

def Turn.run (s : Session) (t : Turn) : Session × Outcome :=
  execute ⟨catalog, t.now⟩ s (t.typed spelled)

/-- The output of a command before it is saved. -/
def Turn.output? (s : Session) : Turn → Option String
  | saving now line append =>
    some (commandRun ⟨catalog, now⟩ s line append spelled).2.output
  | other .. => none

def runTurns (s : Session) (ts : List Turn) : Session :=
  ts.foldl (fun s t => (t.run catalog spelled s).1) s

/-- The turns, each with the session that it finds. -/
def visits (s : Session) : List Turn → List (Session × Turn)
  | [] => []
  | t :: ts => (s, t) :: visits (t.run catalog spelled s).1 ts

/-- The outputs that turns save, in their order. -/
def savedOutputs (s : Session) (ts : List Turn) : List String :=
  (visits catalog spelled s ts).filterMap fun v => v.2.output? catalog spelled v.1

theorem runTurns_cons (s : Session) (t : Turn) (ts : List Turn) :
    runTurns catalog spelled s (t :: ts) =
      runTurns catalog spelled (t.run catalog spelled s).1 ts :=
  List.foldl_cons

theorem savedOutputs_cons (s : Session) (t : Turn) (ts : List Turn) :
    savedOutputs catalog spelled s (t :: ts) =
      (t.output? catalog spelled s).toList ++
        savedOutputs catalog spelled (t.run catalog spelled s).1 ts := by
  rw [savedOutputs, visits, List.filterMap_cons]
  cases t.output? catalog spelled s <;> rfl

/-- The turn helps to fill the file at the path: a line whose output is saved is a command that
succeeds, and nothing else is done to the file. -/
def Turn.Fits (p : String) (s : Session) : Turn → Prop
  | saving now line append =>
    let left := commandRun ⟨catalog, now⟩ s line append spelled
    IsCommand s.aliases line ∧ left.2.success ∧ s.fs.Spares p left.1.fs
  | other now line => s.fs.Spares p (execute ⟨catalog, now⟩ s line).1.fs

instance (p : String) (s : Session) : (t : Turn) → Decidable (t.Fits catalog spelled p s)
  | .saving .. => inferInstanceAs (Decidable (_ ∧ _ ∧ _))
  | .other .. => inferInstanceAs (Decidable (Filesystem.Spares ..))

end

variable {t : Turn} {ts : List Turn}

/-- One turn puts its output, if it saves one, behind what the file holds. -/
theorem Turn.Fits.filled (h : t.Fits catalog spelled p s) (hp : Path.IsAbsolute p)
    (hspelled : Spells spelled [p]) (hfilled : s.fs.Filled p texts)
    (hsign : texts ≠ [] → ∀ append ∈ t.append?, append) :
    (t.run catalog spelled s).1.fs.Filled p
        (texts ++ (t.output? catalog spelled s).toList.map dropFinalBreak) ∧
      (t.append?.isSome → (t.run catalog spelled s).2 = .nothing) := by
  cases t with
  | saving now line append =>
      obtain ⟨hcommand, ho, hspares⟩ := h
      have happend : texts ≠ [] → append := fun hne => hsign hne append rfl
      obtain ⟨fs, hwrite, hholds⟩ := writeRedirected_filled (hfilled.spares hspares) hp happend now
        (commandWords s.aliases line) (commandRun ⟨catalog, now⟩ s line append spelled).2.output
      have hexecute := execute_savedTo hcommand hspelled ho hwrite
      simp only [run, typed, Turn.now, output?, hexecute, Option.toList_some, List.map_cons,
        List.map_nil, implies_true, and_true]
      exact hholds
  | other now line =>
      simp only [run, typed, Turn.now, output?, append?, Option.toList_none, List.map_nil,
        List.append_nil, Option.isSome_none, Bool.false_eq_true, false_implies, and_true]
      exact hfilled.spares h

/-- Turns put their outputs behind what the file holds; only the very first output may take the
place of nothing. -/
theorem Filesystem.Filled.turns (hp : Path.IsAbsolute p) (hspelled : Spells spelled [p])
    (h : s.fs.Filled p texts)
    (hfits : ∀ v ∈ visits catalog spelled s ts, v.2.Fits catalog spelled p v.1)
    (hlater : ∀ append ∈ (ts.filterMap Turn.append?).tail, append)
    (hfirst : texts ≠ [] → ∀ append ∈ ts.filterMap Turn.append?, append) :
    (runTurns catalog spelled s ts).fs.Filled p
        (texts ++ (savedOutputs catalog spelled s ts).map dropFinalBreak) ∧
      ∀ v ∈ visits catalog spelled s ts, v.2.append?.isSome →
        (v.2.run catalog spelled v.1).2 = .nothing := by
  induction ts generalizing s texts with
  | nil => simpa [runTurns, savedOutputs, visits] using h
  | cons t ts ih =>
      obtain ⟨hfit, hrest⟩ := List.forall_mem_cons.mp hfits
      have hsign : texts ≠ [] → ∀ append ∈ t.append?, append := fun hne append happend =>
        hfirst hne append (List.mem_filterMap.mpr ⟨t, List.mem_cons_self, happend⟩)
      obtain ⟨hstep, hsilent⟩ := hfit.filled hp hspelled h hsign
      have htail : ∀ append ∈ (ts.filterMap Turn.append?).tail, append := by
        cases t with
        | saving now line append => exact fun a ha => hlater a (List.mem_of_mem_tail ha)
        | other now line => exact hlater
      -- Behind an output all signs append: behind the first one here, or behind an earlier one.
      have hnext : texts ++ (t.output? catalog spelled s).toList.map dropFinalBreak ≠ [] →
          ∀ append ∈ ts.filterMap Turn.append?, append := by
        intro hne a ha
        cases t with
        | saving now line append => exact hlater a ha
        | other now line => exact hfirst (by simpa [Turn.output?] using hne) a ha
      obtain ⟨hfilled, hothers⟩ := ih hstep hrest htail hnext
      rw [runTurns_cons, savedOutputs_cons, List.map_append, ← List.append_assoc, visits]
      exact ⟨hfilled, List.forall_mem_cons.mpr ⟨hsilent, hothers⟩⟩

/-- Lines that save the outputs of commands to a file that is not there yet, all but the first of
them with the sign that appends, each give an empty success, and in the end the file holds all these
outputs, each without its final break, with breaks between them. Other lines may be typed at any
time, as long as nothing else is done to the file and to the directory that holds it. The outputs
are those of the lines alone, but for a command that reads the history. -/
theorem appends_accumulate (catalog : Catalog) (s : Session) (p spelled : String)
    (ts : List Turn) (hp : Path.IsAbsolute p) (hspelled : Spells spelled [p])
    (habsent : s.fs.node? (some p) = none) (hfolder : s.fs.HasFolder p)
    (hfits : ∀ v ∈ visits catalog spelled s ts, v.2.Fits catalog spelled p v.1)
    (hlater : ∀ append ∈ (ts.filterMap Turn.append?).tail, append)
    (hsome : savedOutputs catalog spelled s ts ≠ []) :
    (runTurns catalog spelled s ts).fs.read (some p) =
        .ok (joinLines ((savedOutputs catalog spelled s ts).map dropFinalBreak)) ∧
      (∀ v ∈ visits catalog spelled s ts, v.2.append?.isSome →
        (v.2.run catalog spelled v.1).2 = .nothing) ∧
      ∀ v ∈ visits catalog spelled s ts, v.2.append?.isSome →
        Environment.IgnoresHistory ⟨catalog, v.2.now⟩ →
        (commandWords v.1.aliases v.2.alone).head? ≠ some "history" →
        v.2.output? catalog spelled v.1 =
          some (execute ⟨catalog, v.2.now⟩ v.1 v.2.alone).2.output := by
  obtain ⟨hfilled, hsilent⟩ := (Filesystem.Filled.of_absent hfolder habsent).turns hp hspelled hfits
    hlater (absurd rfl)
  have hread := hfilled.content
  rw [List.nil_append, if_neg (by simpa using hsome)] at hread
  refine ⟨hread, hsilent, ?_⟩
  rintro ⟨s, t⟩ hv hsaves henv hwords
  cases t with
  | saving now line append =>
      obtain ⟨hcommand, -⟩ := hfits _ hv
      have hplain : (commandRun ⟨catalog, now⟩ s line append spelled).2 =
          (execute ⟨catalog, now⟩ s line).2 := hcommand.commandRun_eq henv hwords append spelled
      simp only [Turn.output?, Turn.alone, Turn.now, hplain]
  | other now line => cases hsaves

theorem appends_accumulate_interleaved :
    let s : Session := ⟨{}, .empty 0 "/home/user", .empty 10, [("say", "echo -n")], []⟩
    let ts : List Turn := [.saving 1 " echo one " false, .other 2 "echo two >> /other",
      .saving 3 "say \"three\n\n\"" true, .saving 4 "echo" true]
    (runTurns Catalog.standard "'/the log'" s ts).fs.read (some "/the log") =
        .ok "one\nthree\n\n" ∧
      ∀ v ∈ visits Catalog.standard "'/the log'" s ts, v.2.append?.isSome →
        (v.2.run Catalog.standard "'/the log'" v.1).2 = .nothing := by
  intro s ts
  have hfits : ∀ v ∈ visits Catalog.standard "'/the log'" s ts,
      v.2.Fits Catalog.standard "'/the log'" "/the log" v.1 := by decide +kernel
  have houtputs : savedOutputs Catalog.standard "'/the log'" s ts =
      ["one\n", "three\n\n", ""] := by decide +kernel
  have htext : joinLines (["one\n", "three\n\n", ""].map dropFinalBreak) = "one\nthree\n\n" := by
    decide +kernel
  obtain ⟨hread, hsilent, -⟩ := appends_accumulate Catalog.standard s "/the log" "'/the log'" ts rfl
    (by decide +kernel) (by decide +kernel) (by decide +kernel) hfits (by decide +kernel)
    (by rw [houtputs]; simp)
  rw [houtputs, htext] at hread
  exact ⟨hread, hsilent⟩

end Shellbox
