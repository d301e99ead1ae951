import Mathlib.Data.List.Destutter
import Mathlib.Data.List.DropRight
import Shellbox.Proofs.Shell.Frame

/-!
# What a history holds

A history looks only at the lines that it still holds, and yet after any run of additions and
clearings it holds the latest of all lines added since the last clearing, without blank lines and
repetitions. A session adds every line that is typed, and clears when a line calls for it.
-/

namespace Shellbox

open Text

/-! ## The latest elements of a list -/

section Latest

variable {α : Type}

/-- One more element behind the latest ones pushes out the first of them if they are too many. -/
theorem rtake_concat (l : List α) (a : α) (n : Nat) :
    (l ++ [a]).rtake n =
      if n < (l.rtake n ++ [a]).length then (l.rtake n ++ [a]).drop 1 else l.rtake n ++ [a] := by
  have hconcat : l.rtake n ++ [a] = (l ++ [a]).drop (l.length - n) := by
    rw [List.rtake, List.drop_append_of_le_length (Nat.sub_le _ _)]
  rw [hconcat, List.rtake]
  simp only [List.length_append, List.length_singleton, List.length_drop, List.drop_drop]
  split
  · congr 1
    omega
  · congr 1
    omega

theorem getLast?_rtake (l : List α) {n : Nat} (hn : n ≠ 0) : (l.rtake n).getLast? = l.getLast? := by
  rw [List.rtake, List.getLast?_drop]
  split
  · rename_i h
    have hl : l = [] := by
      rw [← List.length_eq_zero_iff]
      omega
    rw [hl, List.getLast?_nil]
  · rfl

variable [DecidableEq α]

theorem destutter'_concat (a : α) (l : List α) (b : α) :
    (l ++ [b]).destutter' (· ≠ ·) a =
      if (a :: l).getLast? = some b then l.destutter' (· ≠ ·) a
      else l.destutter' (· ≠ ·) a ++ [b] := by
  induction l generalizing a with
  | nil => by_cases h : a = b <;> simp [h]
  | cons c l ih =>
      rw [List.getLast?_cons_cons]
      by_cases h : a = c
      · subst h
        simp only [List.cons_append, ne_eq, not_true_eq_false, not_false_eq_true,
          List.destutter'_cons_neg, ih]
      · simp only [List.cons_append, ne_eq, h, not_false_eq_true, List.destutter'_cons_pos, ih]
        split <;> rfl

theorem destutter_concat (l : List α) (b : α) :
    (l ++ [b]).destutter (· ≠ ·) =
      if l.getLast? = some b then l.destutter (· ≠ ·) else l.destutter (· ≠ ·) ++ [b] := by
  cases l with
  | nil => simp
  | cons a l => exact destutter'_concat a l b

theorem getLast?_destutter (l : List α) : (l.destutter (· ≠ ·)).getLast? = l.getLast? := by
  induction l using List.reverseRecOn with
  | nil => rfl
  | append_singleton l b ih =>
      rw [destutter_concat]
      split
      · rename_i h
        rw [ih, h, List.getLast?_concat]
      · rw [List.getLast?_concat, List.getLast?_concat]

end Latest

/-! ## Additions and clearings -/

namespace History

/-- What is done to a history. -/
inductive Step where
  | add (line : String)
  | clear
deriving DecidableEq

/-- The line that the step adds; a blank one is never added. -/
def Step.added? : Step → Option String
  | .add line => if isAllBlank line then none else some line
  | .clear => none

@[simp]
theorem Step.added?_add (line : String) :
    (Step.add line).added? = if isAllBlank line then none else some line := rfl

@[simp]
theorem Step.added?_clear : Step.clear.added? = none := rfl

def apply (h : History) : Step → History
  | .add line => h.add line
  | .clear => h.clear

def run (h : History) (steps : List Step) : History := steps.foldl apply h

/-- The lines that the steps add behind the last clearing. -/
def added (steps : List Step) : List String := (steps.rtakeWhile (· ≠ .clear)).filterMap Step.added?

theorem run_append (h : History) (steps steps' : List Step) :
    h.run (steps ++ steps') = (h.run steps).run steps' :=
  List.foldl_append

theorem run_cons (h : History) (step : Step) (steps : List Step) :
    h.run (step :: steps) = (h.apply step).run steps :=
  List.foldl_cons

/-- The history keeps up to `n` lines, and these are the latest of the given ones, each line without
its repetitions right behind it. -/
structure Holds (n : Nat) (h : History) (lines : List String) : Prop where
  bound : h.bound = n
  entries : h.entries = (lines.destutter (· ≠ ·)).rtake n

variable {n : Nat} {h : History} {lines : List String} {line : String}

theorem Holds.empty (n : Nat) : Holds n (.empty n) [] := ⟨rfl, by simp [History.empty]⟩

theorem add_blank (hline : isAllBlank line) (h : History) : h.add line = h := by
  simp [add, accepts, hline]

theorem Holds.add (hholds : Holds n h lines) (hline : isAllBlank line = false) :
    Holds n (h.add line) (lines ++ [line]) := by
  obtain ⟨hbound, hentries⟩ := hholds
  have hpush := rtake_concat (lines.destutter (· ≠ ·)) line n
  rw [← hentries] at hpush
  rw [History.add, accepts, hline, Bool.not_false, Bool.true_and]
  split
  · rename_i hnew
    refine ⟨hbound, ?_⟩
    simp only [hbound, gt_iff_lt, Int.ofNat_lt]
    rw [← hpush, destutter_concat]
    split
    · -- A line that is repeated and yet not held: the history keeps none.
      rename_i hlast
      obtain rfl : n = 0 := by
        by_contra hn
        rw [hentries, getLast?_rtake _ hn, getLast?_destutter, hlast] at hnew
        simp at hnew
      simp
    · rfl
  · rename_i hold
    have hlast : h.entries.getLast? = some line := by simpa using hold
    have hn : n ≠ 0 := by
      rintro rfl
      simp [hentries] at hlast
    rw [hentries, getLast?_rtake _ hn, getLast?_destutter] at hlast
    exact ⟨hbound, by rw [destutter_concat, if_pos hlast, hentries]⟩

theorem Holds.clear (hholds : Holds n h lines) : Holds n h.clear [] :=
  ⟨hholds.bound, by simp [History.clear]⟩

theorem added_add (steps : List Step) (line : String) :
    added (steps ++ [.add line]) =
      if isAllBlank line then added steps else added steps ++ [line] := by
  rw [added, List.rtakeWhile_concat_pos _ _ _ (by simp), List.filterMap_append]
  by_cases hline : isAllBlank line <;> simp [added, hline]

theorem added_clear (steps : List Step) : added (steps ++ [.clear]) = [] := by
  rw [added, List.rtakeWhile_concat_neg _ _ _ (by simp), List.filterMap_nil]

/-- After any steps the history holds the latest of the lines that they add. -/
theorem run_holds (n : Nat) (steps : List Step) :
    Holds n ((History.empty n).run steps) (added steps) := by
  induction steps using List.reverseRecOn with
  | nil => exact .empty n
  | append_singleton steps step ih =>
      rw [run_append]
      cases step with
      | add line =>
          rw [added_add]
          split
          · rename_i hline
            have hkept : ((History.empty n).run steps).run [.add line] =
                (History.empty n).run steps := add_blank hline _
            rw [hkept]
            exact ih
          · rename_i hline
            exact ih.add (by simpa using hline)
      | clear =>
          rw [added_clear]
          exact ih.clear

end History

/-! ## Lines of a session -/

/-- The words call for the history to be cleared. -/
def isClearing (words : List String) : Bool := ["history", "-c"].isPrefixOf words

/-- What running a typed line does to the history: a line that is not blank is added as it was
typed, but trimmed, and every attempt that calls for it clears. -/
def lineSteps (env : Environment) (s : Session) (typed : String) : List History.Step :=
  if (trim typed).isEmpty then []
  else .add (trim typed) ::
    ((lineAttempts env s typed).filter (isClearing ·.words)).map fun _ => .clear

/-- Runs lines one after another with the shipped commands. -/
def runTyped (s : Session) (lines : List Typed) : Session :=
  lines.foldl (fun s line => (execute ⟨Catalog.standard, line.1⟩ s line.2).1) s

/-- What running lines one after another does to the history. -/
def typedSteps (s : Session) : List Typed → List History.Step
  | [] => []
  | line :: lines =>
    let env : Environment := ⟨Catalog.standard, line.1⟩
    lineSteps env s line.2 ++ typedSteps (execute env s line.2).1 lines

variable {now : Filesystem.Instant} {s s' : Session} {run : List Attempt}

theorem runWords_history (now : Filesystem.Instant) (s : Session) (words : List String)
    (piped : Option String) :
    (runWords ⟨Catalog.standard, now⟩ s words piped).1.history =
      if isClearing words then s.history.clear else s.history := by
  cases words with
  | nil => rfl
  | cons name args =>
      by_cases hname : name = "history"
      · subst hname
        rw [runWords_standard "history" Command.history rfl]
        simp only [Command.history, Handler.acting]
        cases args with
        | nil => simp [isClearing]
        | cons arg args =>
            by_cases harg : arg = "-c"
            · simp [isClearing, harg]
            · simp [isClearing, harg, Ne.symm harg]
      · have hsame : Part.history.Same s
            (runWords ⟨Catalog.standard, now⟩ s (name :: args) piped).1 :=
          runWords_same (Environment.standard_keepsParts now) s piped
            (by simp [Part.commands, hname])
        have hclear : isClearing (name :: args) = false := by
          rw [isClearing, List.isPrefixOf_cons_cons, beq_false_of_ne (Ne.symm hname),
            Bool.false_and]
        rw [hclear]
        exact hsame

theorem Attempt.Holds.history {a : Attempt} (h : a.Holds ⟨Catalog.standard, now⟩) :
    a.after.history = if isClearing a.words then a.before.history.clear else a.before.history := by
  rw [← runWords_history now a.before a.words a.piped]
  rcases h.after_cases with hafter | ⟨-, r, output, fs, -, hafter⟩
  · rw [hafter]
  · rw [hafter]

theorem Leads.history (h : Leads s run s') (hrun : ∀ a ∈ run, a.Holds ⟨Catalog.standard, now⟩) :
    s'.history = s.history.run ((run.filter (isClearing ·.words)).map fun _ => .clear) := by
  induction h with
  | done s => rfl
  | @step a run s' h ih =>
      obtain ⟨ha, hrest⟩ := List.forall_mem_cons.mp hrun
      rw [ih hrest, ha.history]
      by_cases hclear : isClearing a.words
      · simp only [hclear, ↓reduceIte, List.filter_cons_of_pos, List.map_cons]
        rfl
      · simp only [hclear, Bool.false_eq_true, ↓reduceIte, not_false_eq_true,
          List.filter_cons_of_neg]

theorem execute_history (now : Filesystem.Instant) (s : Session) (typed : String) :
    (execute ⟨Catalog.standard, now⟩ s typed).1.history =
      s.history.run (lineSteps ⟨Catalog.standard, now⟩ s typed) := by
  have hleads := (execute_leads ⟨Catalog.standard, now⟩ s typed).history lineAttempts_holds
  unfold lineSteps
  split
  · rename_i hblank
    simp only [execute, hblank, ↓reduceIte]
    rfl
  · rw [hleads, recording_history, History.run_cons, History.apply]

theorem runTyped_history (s : Session) (lines : List Typed) :
    (runTyped s lines).history = s.history.run (typedSteps s lines) := by
  induction lines generalizing s with
  | nil => rfl
  | cons line lines ih =>
      rw [typedSteps, History.run_append, ← execute_history, ← ih, runTyped, List.foldl_cons,
        ← runTyped]

theorem isAllBlank_trim (text : String) : isAllBlank (trim text) = (trim text).isEmpty := by
  have hall : ∀ cs, (∀ c ∈ trimEnd cs, isBlank c) ↔ trimEnd cs = [] := by
    intro cs
    have htwice := List.dropWhile_eq_nil_iff (p := isBlank) (l := cs.reverse.dropWhile isBlank)
    rw [List.dropWhile_idempotent] at htwice
    simp only [trimEnd, List.mem_reverse, List.reverse_eq_nil_iff, htwice]
  rw [Bool.eq_iff_iff, isAllBlank, List.all_eq_true, String.isEmpty_iff, trim, String.toList_ofList,
    trimChars, hall]
  simp

theorem added?_lineSteps (env : Environment) (s : Session) (typed : String) :
    (lineSteps env s typed).filterMap History.Step.added? =
      [trim typed].filter (!isAllBlank ·) := by
  unfold lineSteps
  split
  · rename_i hblank
    rw [← isAllBlank_trim] at hblank
    simp [hblank]
  · rename_i hblank
    rw [← isAllBlank_trim] at hblank
    have hclears (run : List Attempt) :
        (run.map fun _ => History.Step.clear).filterMap History.Step.added? = [] := by
      rw [List.filterMap_eq_nil_iff]
      intro step hstep
      obtain ⟨-, -, rfl⟩ := List.mem_map.mp hstep
      rfl
    rw [List.filterMap_cons, hclears, History.Step.added?_add]
    simp [hblank]

theorem added?_typedSteps (s : Session) (lines : List Typed) :
    (typedSteps s lines).filterMap History.Step.added? =
      (lines.map (trim ·.2)).filter (!isAllBlank ·) := by
  induction lines generalizing s with
  | nil => rfl
  | cons line lines ih =>
      rw [typedSteps, List.filterMap_append, added?_lineSteps, ih, List.map_cons,
        ← List.filter_append, List.singleton_append]

/-- After any additions and clearings a history of up to `n` lines holds the latest `n` of the lines
added since the last clearing, without the blank ones and without those that repeat the one before
them; so no two neighbours are equal. When lines are run, the history takes the steps of these
lines, and the lines that are added are the typed ones, trimmed, that are not blank. -/
theorem history_latest (n : Nat) (steps : List History.Step) (s : Session) (lines : List Typed) :
    let entries := ((History.empty n).run steps).entries
    entries = ((History.added steps).destutter (· ≠ ·)).rtake n ∧
    entries.IsChain (· ≠ ·) ∧ entries.length ≤ n ∧
    (runTyped s lines).history = s.history.run (typedSteps s lines) ∧
    (typedSteps s lines).filterMap History.Step.added? =
      (lines.map (trim ·.2)).filter (!isAllBlank ·) := by
  intro entries
  have hentries : entries = ((History.added steps).destutter (· ≠ ·)).rtake n :=
    (History.run_holds n steps).entries
  refine ⟨hentries, ?_, ?_, runTyped_history s lines, added?_typedSteps s lines⟩
  · rw [hentries, List.rtake]
    exact (List.isChain_destutter _ _).drop _
  · rw [hentries, List.rtake, List.length_drop]
    omega

end Shellbox
