import Shellbox.Proofs.Shell.Capture
import Shellbox.Proofs.Shell.Frame

/-!
# Aliases stand for their words

An alias at the start of a line is replaced by its text, and the tokens of the new line are those of
the text and of the rest: no quote leaks from one into the other and no two redirect signs become
one. The new line is then run as it is, without another look at the aliases.
-/

namespace Shellbox

open Text Line

variable {env : Environment} {s s' : Session} {o : Outcome} {piped : Option String}
  {name gap rest text line : String} {ss : List String} {run : List Attempt}

/-! ## The only run of some stages -/

theorem Saved.runRedirected_eq {stage : String} (h : Saved env s piped stage s' o) :
    runRedirected env s stage piped = (s', o) := by
  cases h with
  | malformed hr => simp only [runRedirected, hr]
  | failed hr ht ho =>
      simp only [runRedirected, hr, ht.runWords_eq, ho, Bool.not_false, ↓reduceIte]
  | refused hr ht ho hw =>
      simp only [runRedirected, hr, ht.runWords_eq, ho, hw, Bool.not_true, Bool.false_eq_true,
        ↓reduceIte]
  | written hr ht ho hw =>
      simp only [runRedirected, hr, ht.runWords_eq, ho, hw, Bool.not_true, Bool.false_eq_true,
        ↓reduceIte]

theorem Attempt.Holds.eq_make {a : Attempt} (h : a.Holds env) :
    a = .make env a.before a.piped a.stage a.isLast := by
  cases hsaves : a.saves with
  | true =>
      simp only [Holds, hsaves, ↓reduceIte] at h
      rw [saves] at hsaves
      simp only [make, hsaves, ↓reduceIte, h.runRedirected_eq]
  | false =>
      simp only [Holds, hsaves, Bool.false_eq_true, ↓reduceIte] at h
      rw [saves] at hsaves
      simp only [make, hsaves, Bool.false_eq_true, ↓reduceIte, h.runWords_eq]

theorem PipelineRun.tail {stage : String} {a b : Attempt}
    (h : PipelineRun env s piped (stage :: ss) (a :: b :: run)) :
    PipelineRun env a.after (some a.outcome.output) ss (b :: run) := by
  obtain ⟨⟨-, hbefore, hpiped⟩, hchained⟩ := List.isChain_cons_cons.mp h.chained
  refine ⟨by simp, ?_, fun i c hc => ?_, fun c hc => ?_, ?_, hchained, fun c hc hlen => ?_⟩
  · have hstages := h.in_order
    rw [List.map_cons, List.cons_prefix_cons] at hstages
    exact hstages.2
  · simpa using h.last_iff (i + 1) c hc
  · exact h.holds c (List.mem_cons_of_mem _ hc)
  · simp [hbefore, hpiped]
  · refine h.stopped c ?_ (by simpa using hlen)
    rwa [List.getLast?_cons_cons]

/-- Stages have one run only. -/
theorem PipelineRun.eq_attempts (h : PipelineRun env s piped ss run) :
    run = attempts env s piped ss := by
  induction ss generalizing s piped run with
  | nil =>
      have hnil := h.in_order
      rw [List.prefix_nil, List.map_eq_nil_iff] at hnil
      exact absurd hnil h.nonempty
  | cons stage rest ih =>
      obtain ⟨a, run, rfl⟩ := List.exists_cons_of_ne_nil h.nonempty
      have hstages := h.in_order
      rw [List.map_cons, List.cons_prefix_cons] at hstages
      obtain ⟨hbefore, hpiped⟩ := h.first a rfl
      have hlast : a.isLast = rest.isEmpty := by
        rw [Bool.eq_iff_iff, h.last_iff 0 a rfl, List.isEmpty_iff, List.length_cons,
          ← List.length_eq_zero_iff]
        omega
      have hmake : a = .make env s piped stage rest.isEmpty := by
        rw [← hstages.1, ← hbefore, ← hpiped, ← hlast]
        exact (h.holds a (by simp)).eq_make
      cases run with
      | nil =>
          cases ho : a.outcome.success with
          | false => rw [attempts_stop hmake ho]
          | true =>
              -- A success alone is a whole run only if no stage stands behind it.
              have hrest : rest = [] := by
                by_contra hne
                have hstop := h.stopped a rfl (by simpa [List.length_pos_iff] using hne)
                simp [ho] at hstop
              rw [attempts_pass hmake ho, hrest]
              rfl
      | cons b run =>
          have ho : a.outcome.success := (List.isChain_cons_cons.mp h.chained).1.1
          rw [attempts_pass hmake ho, ih h.tail]

/-! ## Running a text -/

/-- Running a text leaves a session and gives an outcome: the text is run as a pipeline if a bar is
among its tokens, else with its output sent to a file if a redirect sign is among them, and else as
one command. The aliases have no part in it. -/
inductive Runs (env : Environment) (s : Session) (text : String) : Session → Outcome → Prop
  | pipeline {run : List Attempt} {last} (hbar : Token.operator .pipe ∈ scan text)
      (hrun : PipelineRun env s none (stages text) run) (hlast : run.getLast? = some last) :
      Runs env s text last.after last.outcome
  | redirected {s' : Session} {o : Outcome} (hbar : Token.operator .pipe ∉ scan text)
      (hsign : Token.operator .redirect ∈ scan text ∨ Token.operator .append ∈ scan text)
      (h : Saved env s none text s' o) : Runs env s text s' o
  | command {words : List String} {s' : Session} {o : Outcome}
      (hwords : scan text = words.map .word) (h : Tried env s none words s' o) :
      Runs env s text s' o

theorem runExpanded_runs (env : Environment) (s : Session) (text : String) :
    Runs env s text (runExpanded env s text).1 (runExpanded env s text).2 := by
  cases hbar : hasPipe text with
  | true =>
      obtain ⟨last, hlast, hrun⟩ := runStages_eq_last env s none (stages_ne_nil text)
      simp only [runExpanded, hbar, ↓reduceIte, hrun]
      exact .pipeline ((hasPipe_iff text).mp hbar) (attempts_run env s none (stages_ne_nil text))
        hlast
  | false =>
      cases hsign : hasRedirect text with
      | true =>
          simp only [runExpanded, hbar, hsign, Bool.false_eq_true, ↓reduceIte]
          refine .redirected ?_ ((hasRedirect_iff _).mp hsign) (runRedirected_saved env s text none)
          rw [← hasPipe_iff, hbar]
          exact Bool.false_ne_true
      | false =>
          simp only [runExpanded, hbar, hsign, Bool.false_eq_true, ↓reduceIte]
          exact .command (scan_eq_words hbar hsign) (runWords_tried env s _ none)

/-- A text runs in one way only. -/
theorem runExpanded_eq_iff : runExpanded env s text = (s', o) ↔ Runs env s text s' o := by
  constructor
  · intro h
    have hruns := runExpanded_runs env s text
    rwa [h] at hruns
  · intro h
    cases h with
    | pipeline hbar hrun hlast =>
        rw [← hasPipe_iff] at hbar
        obtain ⟨a, ha, hleft⟩ := runStages_eq_last env s none (stages_ne_nil text)
        rw [← hrun.eq_attempts, hlast, Option.some_inj] at ha
        simp only [runExpanded, hbar, ↓reduceIte, hleft, ha]
    | redirected hbar hsign h =>
        rw [← hasPipe_iff, Bool.not_eq_true] at hbar
        rw [← hasRedirect_iff] at hsign
        simp only [runExpanded, hbar, hsign, Bool.false_eq_true, ↓reduceIte, h.runRedirected_eq]
    | command hwords h =>
        simp only [runExpanded, hasPipe_of_words hwords, hasRedirect_of_words hwords,
          tokenTexts_of_words hwords, Bool.false_eq_true, ↓reduceIte, h.runWords_eq]

/-! ## The tokens of an expansion -/

theorem scan_trim (h : trimEnd rest.toList = rest.toList) : scan (trim rest) = scan rest := by
  rw [trim, scan_ofList, ← trimStart_trimEnd, h, gather_trimStart, scan, labels]

theorem scan_expandAlias {aliases : Aliases} (halias : aliases.lookup name = some text)
    (hclean : endState text = .clean) (hname : ∀ c ∈ name.toList, isBlank c = false)
    (hgap : ∀ c ∈ gap.toList, isBlank c) (hapart : gap = "" → rest = "")
    (htrim : trim (name ++ gap ++ rest) = name ++ gap ++ rest) :
    scan (expandAlias aliases (name ++ gap ++ rest)) = scan text ++ scan rest := by
  have hend : trimEnd rest.toList = rest.toList :=
    trimEnd_of_suffix ⟨(name ++ gap).toList, by simp⟩ (trimEnd_of_trimChars (toList_of_trim htrim))
  rw [expandAlias_append halias hname hgap hapart, ← scan_trim hend]
  split
  · rename_i hempty
    rw [String.isEmpty_iff] at hempty
    rw [hempty]
    exact (List.append_nil _).symm
  · exact scan_append_blank hclean _

/-! ## The whole line -/

/-- A line that begins with an alias reads as the text of the alias and the rest of the line: so it
is a pipeline or a redirection just if one of the two has the operator for it. It runs as this new
text does without aliases, after the line has been recorded as it was typed; and unless a command
reads the history, typing the new text does the same, if its own first word is no alias. -/
theorem alias_substitutes (env : Environment) (s : Session) (name text gap rest : String)
    (halias : s.aliases.lookup name = some text) (hclean : endState text = .clean)
    (hname : ∀ c ∈ name.toList, isBlank c = false) (hgap : ∀ c ∈ gap.toList, isBlank c)
    (hapart : gap = "" → rest = "") (htrim : trim (name ++ gap ++ rest) = name ++ gap ++ rest)
    (hne : name ++ gap ++ rest ≠ "") :
    let line := name ++ gap ++ rest
    let expansion := expandAlias s.aliases line
    scan expansion = scan text ++ scan rest ∧
    (hasPipe expansion ↔ hasPipe text ∨ hasPipe rest) ∧
    (hasRedirect expansion ↔ hasRedirect text ∨ hasRedirect rest) ∧
    (∀ s' o, execute env s line = (s', o) ↔
      Runs env { s with history := s.history.add line } expansion s' o) ∧
    (env.IgnoresHistory → expanded? s.aliases expansion = some expansion →
      (∀ a ∈ lineAttempts env s expansion, a.words.head? ≠ some "history") →
      execute env s line = ((execute env s expansion).1.withHistory (s.history.add line),
        (execute env s expansion).2)) := by
  intro line expansion
  have hline : trim line = line := htrim
  have hscan : scan expansion = scan text ++ scan rest :=
    scan_expandAlias halias hclean hname hgap hapart htrim
  have hexpanded : expanded? s.aliases line = some expansion := by
    have hempty : line.isEmpty = false := by rwa [← Bool.not_eq_true, String.isEmpty_iff]
    rw [expanded?, hline, hempty]
    exact if_neg Bool.false_ne_true
  clear_value expansion
  have hexecute : execute env s line = runExpanded env (s.recording line) expansion := by
    rw [execute_eq_runStages hexpanded, ← runExpanded_eq_runStages]
  refine ⟨hscan, ?_, ?_, fun s' o => ?_, fun henv htyped hrun => ?_⟩
  · rw [hasPipe_iff, hasPipe_iff, hasPipe_iff, hscan, List.mem_append]
  · rw [hasRedirect_iff, hasRedirect_iff, hasRedirect_iff, hscan, List.mem_append, List.mem_append]
    exact or_or_or_comm
  · rw [hexecute, runExpanded_eq_iff, Session.recording, hline]
  · have hrecord : s.recording line =
        (s.recording expansion).withHistory (s.history.add line) := by
      simp only [Session.recording, Session.withHistory, hline]
    rw [lineAttempts, htyped] at hrun
    rw [hexecute, runExpanded_eq_runStages, execute_eq_runStages htyped, hrecord]
    exact runStages_withHistory henv _ none _ hrun

theorem alias_substitutes_pipeline :
    let env : Environment := ⟨Catalog.standard, 0⟩
    let s : Session :=
      ⟨{}, .empty 0 "/home/user", .empty 10, [("say", "echo 'a > b' | rev"), ("echo", "no")], []⟩
    let line := "say\t > \"/c | d\""
    let expansion := "echo 'a > b' | rev > \"/c | d\""
    scan expansion = [.word "echo", .word "a > b", .operator .pipe, .word "rev",
      .operator .redirect, .word "/c | d"] ∧
    hasPipe expansion ∧ hasRedirect expansion ∧
    Runs env { s with history := ⟨10, [line]⟩ } expansion (execute env s line).1 .nothing ∧
    (execute env s line).1.fs.read (some "/c | d") = .ok "b > a" := by
  intro env s line expansion
  have hline : "say" ++ "\t " ++ "> \"/c | d\"" = line := by decide +kernel
  have htrim : trim ("say" ++ "\t " ++ "> \"/c | d\"") = "say" ++ "\t " ++ "> \"/c | d\"" := by
    decide +kernel
  have hexpansion : expandAlias s.aliases line = expansion := by decide +kernel
  have hhistory : s.history.add line = ⟨10, [line]⟩ := by decide +kernel
  have houtcome : (execute env s line).2 = .nothing := by decide +kernel
  have hname : ∀ c ∈ "say".toList, isBlank c = false := by simp [isBlank]
  have hgap : ∀ c ∈ "\t ".toList, isBlank c := by simp [isBlank]
  obtain ⟨hscan, hpipe, hredirect, hruns, -⟩ := alias_substitutes env s "say" "echo 'a > b' | rev"
    "\t " "> \"/c | d\"" rfl (by decide +kernel) hname hgap (by decide) htrim (by decide)
  rw [hline, hexpansion] at hscan hpipe hredirect hruns
  refine ⟨hscan.trans (by decide +kernel), hpipe.mpr (.inl (by decide +kernel)),
    hredirect.mpr (.inr (by decide +kernel)), ?_, by decide +kernel⟩
  rw [← hhistory, ← hruns, ← houtcome]

end Shellbox
