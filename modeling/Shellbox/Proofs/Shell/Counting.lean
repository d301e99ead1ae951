import Shellbox.Proofs.Command.Sorting
import Shellbox.Proofs.Shell.Piped

/-!
# Counting lines behind a pipe

Commands that pass on lines join them without a final line break, so a last line that is empty is
lost to the command that reads them. Counting the lines that `grep` or `sort` passes on gives their
number just if the last of them is not empty.
-/

namespace Shellbox

open Text Line Command

variable {now : Filesystem.Instant} {s : Session} {piped : Option String} {name : String}
  {args : List String} {handler : Handler} {f c P tf tP : String} {p : Regex}

/-! ## Commands by their words -/

/-- The word is no flag, so a command takes it as an operand. -/
def IsOperand (word : String) : Prop := flagLetters? word = none

instance (word : String) : Decidable (IsOperand word) := inferInstanceAs (Decidable (_ = _))

theorem runWords_cat (now : Filesystem.Instant) (hread : s.fs.read (some f) = .ok c) :
    runWords ⟨Catalog.standard, now⟩ s ["cat", f] none =
      (s, if IsOperand f then .ok c else .error "cat: missing file operand") := by
  rw [runWords_standard "cat" cat rfl]
  cases hf : flagLetters? f with
  | none =>
      have hargs : Arguments.ofWords [f] = ⟨[], [f]⟩ := by simp [Arguments.ofWords, hf]
      have hall : readAll s.fs [f] = .ok [c] := by simp [readAll, hread]
      simp [cat, Handler.looking, hargs, hall, Arguments.has, IsOperand, hf, settle, Reply.resolve]
  | some ls =>
      have hargs : Arguments.ofWords [f] = ⟨ls, []⟩ := by simp [Arguments.ofWords, hf]
      simp [cat, Handler.looking, hargs, IsOperand, hf, settle, Reply.resolve]

/-- The words that call `grep`. -/
def grepWords (inverted : Bool) (P : String) : List String :=
  if inverted then ["grep", "-v", P] else ["grep", P]

theorem runWords_grep (now : Filesystem.Instant) (hp : Pattern.compile P false = .ok p)
    (s : Session) (text : String) (inverted : Bool) :
    runWords ⟨Catalog.standard, now⟩ s (grepWords inverted P) (some text) =
      (s, if IsOperand P then linesOutcome ((lines text).filter (p.occursIn · != inverted))
        else .error "grep: missing pattern") := by
  let flags : List Char := if inverted then ['v'] else []
  have hwords : grepWords inverted P = "grep" :: ((if inverted then ["-v"] else []) ++ [P]) := by
    cases inverted <;> rfl
  have hflag : flagLetters? "-v" = some ['v'] := rfl
  rw [hwords, runWords_standard "grep" grep rfl]
  cases hP : flagLetters? P with
  | none =>
      have hargs : Arguments.ofWords ((if inverted then ["-v"] else []) ++ [P]) =
          ⟨flags, [P]⟩ := by
        cases inverted <;> simp [Arguments.ofWords, hP, hflag, flags]
      have hi : Arguments.has ⟨flags, [P]⟩ 'i' = false := by cases inverted <;> rfl
      have hv : Arguments.has ⟨flags, [P]⟩ 'v' = inverted := by cases inverted <;> rfl
      have hn : Arguments.has ⟨flags, [P]⟩ 'n' = false := by cases inverted <;> rfl
      simp only [grep, Handler.trying, hargs, hi, hv, hn, hp, grepWith, select_plain, IsOperand, hP,
        settle, Reply.resolve, Except.map, ↓reduceIte]
  | some ls =>
      have hargs :
          (Arguments.ofWords ((if inverted then ["-v"] else []) ++ [P])).operands = [] := by
        cases inverted <;> simp [Arguments.ofWords, hP, hflag]
      simp only [grep, Handler.trying, hargs, IsOperand, hP, settle, Reply.resolve, Except.map,
        reduceCtorEq, ↓reduceIte]

/-- The words that call `sort`. -/
def sortWords (reversed : Bool) : List String := if reversed then ["sort", "-r"] else ["sort"]

theorem runWords_sort (s : Session) (text : String) (reversed : Bool) :
    runWords ⟨Catalog.standard, now⟩ s (sortWords reversed) (some text) =
      (s, .ok (joinLines (sortByText reversed (lines text)))) := by
  have hwords : sortWords reversed = "sort" :: (if reversed then ["-r"] else []) := by
    cases reversed <;> rfl
  have hn : (Arguments.ofWords (if reversed then ["-r"] else [])).has 'n' = false := by
    cases reversed <;> rfl
  have hr : (Arguments.ofWords (if reversed then ["-r"] else [])).has 'r' = reversed := by
    cases reversed <;> rfl
  rw [hwords, runWords_sort_text now (.inl rfl) hn, hr]

theorem runWords_wc (s : Session) (text : String) :
    runWords ⟨Catalog.standard, now⟩ s ["wc", "-l"] (some text) =
      (s, .ok (padLeft 7 (toString (lines text).length))) := by
  have hargs : Arguments.ofWords ["-l"] = ⟨['l'], []⟩ := rfl
  have hrow (counts : Counts) :
      counts.row ⟨['l'], []⟩ "" = padLeft 7 (toString counts.lines) := by
    simp [Counts.row, Counts.columns, Arguments.has]
  rw [runWords_standard "wc" wc rfl]
  simp only [wc, Handler.looking, hargs, hrow, Counts.ofText, settle, Reply.resolve]

/-! ## Lines that count -/

/-- The line that shows a file, sends its text through stages and counts the lines behind them. -/
def countLine (tf : String) (between : List String) : String :=
  pipeline (("cat " ++ tf) :: (between ++ ["wc -l"]))

/-- The stage that chooses the lines in which a pattern occurs, or does not. -/
def grepStage (inverted : Bool) (tP : String) : String :=
  (if inverted then "grep -v" else "grep") ++ " " ++ tP

def sortStage (reversed : Bool) : String := if reversed then "sort -r" else "sort"

theorem catStage_spells (htf : Spells tf [f]) : Spells ("cat " ++ tf) ["cat", f] := by
  have hcat : Spells "cat" ["cat"] := by decide +kernel
  exact hcat.append htf (by simp) (by simp)

theorem grepStage_spells (htP : Spells tP [P]) (inverted : Bool) :
    Spells (grepStage inverted tP) (grepWords inverted P) := by
  cases inverted with
  | false =>
      have hgrep : Spells "grep" ["grep"] := by decide +kernel
      exact hgrep.append htP (by simp) (by simp)
  | true =>
      have hgrep : Spells "grep -v" ["grep", "-v"] := by decide +kernel
      exact hgrep.append htP (by simp) (by simp)

theorem sortStage_spells (reversed : Bool) : Spells (sortStage reversed) (sortWords reversed) := by
  cases reversed with
  | false => decide +kernel
  | true => decide +kernel

theorem countStage_spells : Spells "wc -l" ["wc", "-l"] := by decide +kernel

theorem splitFirstWord_countLine (tf : String) (between : List String) :
    (splitFirstWord (countLine tf between)).1 = "cat" := by
  have hfront : ∃ rest, (countLine tf between).toList = 'c' :: 'a' :: 't' :: ' ' :: rest := by
    cases between with
    | nil => exact ⟨(tf ++ " | wc -l").toList, by simp [countLine, pipeline]⟩
    | cons t ts =>
        rw [countLine, List.cons_append, pipeline_cons_cons]
        exact ⟨_, by simp only [String.toList_append]; rfl⟩
  have hletters : isBlank 'c' = false ∧ isBlank 'a' = false ∧ isBlank 't' = false ∧
      isBlank ' ' = true := by decide
  obtain ⟨rest, hrest⟩ := hfront
  simp [splitFirstWord, hrest, hletters]

/-- Only the text of the file goes into the stages behind it. -/
theorem execute_countLine (hcat : s.aliases.lookup "cat" = none) (htf : Spells tf [f])
    (hread : s.fs.read (some f) = .ok c) {between : List String} {bss : List (List String)}
    (hbetween : List.Forall₂ Spells between bss) (hbss : ∀ ws ∈ bss, ws ≠ []) :
    (execute ⟨Catalog.standard, now⟩ s (countLine tf between)).2 =
      if IsOperand f then
        (runPiped ⟨Catalog.standard, now⟩ (s.recording (countLine tf between)) (some c)
          (bss ++ [["wc", "-l"]])).2
      else .error "cat: missing file operand" := by
  have hspells : List.Forall₂ Spells (("cat " ++ tf) :: (between ++ ["wc -l"]))
      (["cat", f] :: (bss ++ [["wc", "-l"]])) :=
    .cons (catStage_spells htf) (List.rel_append hbetween (.cons countStage_spells .nil))
  have hwords : ∀ ws ∈ ["cat", f] :: (bss ++ [["wc", "-l"]]), ws ≠ [] := by
    simpa [or_imp, forall_and] using hbss
  have halias : s.aliases.lookup (splitFirstWord (countLine tf between)).1 = none := by
    rw [splitFirstWord_countLine, hcat]
  rw [countLine, execute_spelled hspells (by simp) hwords halias, ← countLine]
  have hread' : (s.recording (countLine tf between)).fs.read (some f) = .ok c := by
    rw [recording_fs, hread]
  have hrun := runWords_cat now hread'
  by_cases hf : IsOperand f
  · rw [if_pos hf] at hrun ⊢
    rw [runPiped_ok hrun (by simp)]
  · rw [if_neg hf] at hrun ⊢
    rw [runPiped_failed hrun rfl]

/-! ## What is counted -/

/-- The count that is shown for lines. -/
def countOutcome (ls : List String) : Outcome := .ok (padLeft 7 (toString ls.length))

theorem countOutcome_inj {ls ms : List String} :
    countOutcome ls = countOutcome ms ↔ ls.length = ms.length := by
  simp only [countOutcome, Outcome.ok, Outcome.mk.injEq, padLeft_toString_inj, and_true]

theorem runPiped_wc (s : Session) (text : String) :
    (runPiped ⟨Catalog.standard, now⟩ s (some text) [["wc", "-l"]]).2 =
      countOutcome (lines text) := by
  rw [runPiped, runWords_wc, countOutcome]

/-- Of lines that are passed on a last one that is empty is not counted. -/
theorem runPiped_passed {ws : List String} {ls : List String} (s : Session) (text : String)
    (h : runWords ⟨Catalog.standard, now⟩ s ws (some text) = (s, .ok (joinLines ls)))
    (hls : ∀ l ∈ ls, '\n' ∉ l.toList) :
    (runPiped ⟨Catalog.standard, now⟩ s (some text) ([ws] ++ [["wc", "-l"]])).2 =
      countOutcome (dropLastEmpty ls) := by
  rw [List.singleton_append, runPiped_ok h (by simp), runPiped_wc, lines_joinLines hls]

theorem count_plain (hcat : s.aliases.lookup "cat" = none) (htf : Spells tf [f])
    (hread : s.fs.read (some f) = .ok c) :
    (execute ⟨Catalog.standard, now⟩ s (countLine tf [])).2 =
      if IsOperand f then countOutcome (lines c) else .error "cat: missing file operand" := by
  rw [execute_countLine hcat htf hread .nil (by simp), List.nil_append, runPiped_wc]

theorem count_sorted (hcat : s.aliases.lookup "cat" = none) (htf : Spells tf [f])
    (hread : s.fs.read (some f) = .ok c) (reversed : Bool) :
    (execute ⟨Catalog.standard, now⟩ s (countLine tf [sortStage reversed])).2 =
      if IsOperand f then countOutcome (dropLastEmpty (sortByText reversed (lines c)))
      else .error "cat: missing file operand" := by
  have hwords : ∀ ws ∈ [sortWords reversed], ws ≠ [] := by cases reversed <;> simp [sortWords]
  have hlines : ∀ l ∈ sortByText reversed (lines c), '\n' ∉ l.toList := fun l hl =>
    not_mem_of_mem_lines ((sortByText_perm reversed (lines c)).mem_iff.mp hl)
  rw [execute_countLine hcat htf hread (.cons (sortStage_spells reversed) .nil) hwords,
    runPiped_passed _ c (runWords_sort _ c reversed) hlines]

theorem count_chosen (hcat : s.aliases.lookup "cat" = none) (htf : Spells tf [f])
    (hread : s.fs.read (some f) = .ok c) (htP : Spells tP [P])
    (hp : Pattern.compile P false = .ok p) (inverted : Bool)
    (hchosen : (lines c).filter (p.occursIn · != inverted) ≠ []) :
    (execute ⟨Catalog.standard, now⟩ s (countLine tf [grepStage inverted tP])).2 =
      if IsOperand f then
        if IsOperand P then
          countOutcome (dropLastEmpty ((lines c).filter (p.occursIn · != inverted)))
        else .error "grep: missing pattern"
      else .error "cat: missing file operand" := by
  have hwords : ∀ ws ∈ [grepWords inverted P], ws ≠ [] := by cases inverted <;> simp [grepWords]
  have hlines : ∀ l ∈ (lines c).filter (p.occursIn · != inverted), '\n' ∉ l.toList := fun l hl =>
    not_mem_of_mem_lines (List.mem_filter.mp hl).1
  rw [execute_countLine hcat htf hread (.cons (grepStage_spells htP inverted) .nil) hwords]
  have hgrep := runWords_grep now hp (s.recording (countLine tf [grepStage inverted tP])) c inverted
  by_cases hP : IsOperand P
  · rw [if_pos hP, linesOutcome, if_neg (by simpa using hchosen)] at hgrep
    rw [if_pos hP, runPiped_passed _ c hgrep hlines]
  · rw [if_neg hP] at hgrep
    rw [if_neg hP, List.singleton_append, runPiped_failed hgrep rfl]

/-- Behind `grep`, lines are counted right just if the pattern is no flag and the last of the chosen
lines is not empty; behind `sort`, just if the lines are not all empty, or with `-r`, if none of
them is. -/
theorem counts_survive_iff (now : Filesystem.Instant) (s : Session) (f tf c : String)
    (hcat : s.aliases.lookup "cat" = none) (htf : Spells tf [f])
    (hread : s.fs.read (some f) = .ok c) :
    let counted (between : List String) : Outcome :=
      (execute ⟨Catalog.standard, now⟩ s (countLine tf between)).2
    (∀ P tP p, Spells tP [P] → Pattern.compile P false = .ok p → ∀ inverted,
      let chosen := (lines c).filter (p.occursIn · != inverted)
      chosen ≠ [] →
        (counted [grepStage inverted tP] = .ok (padLeft 7 (toString chosen.length)) ↔
          IsOperand f ∧ IsOperand P ∧ chosen.getLast? ≠ some "")) ∧
    ∀ reversed, counted [sortStage reversed] = counted [] ↔
      (IsOperand f → if reversed then "" ∉ lines c else lines c = [] ∨ ∃ l ∈ lines c, l ≠ "") := by
  intro counted
  constructor
  · intro P tP p htP hp inverted chosen hchosen
    have hcount : counted [grepStage inverted tP] = _ :=
      count_chosen hcat htf hread htP hp inverted hchosen
    rw [hcount, ← countOutcome]
    by_cases hf : IsOperand f
    · by_cases hP : IsOperand P
      · simp only [hf, hP, ↓reduceIte, true_and, countOutcome_inj]
        exact length_dropLastEmpty_eq_iff chosen
      · simp [hf, hP, countOutcome, Outcome.ok, Outcome.error, Outcome.errorCode]
    · simp [hf, countOutcome, Outcome.ok, Outcome.error, Outcome.errorCode]
  · intro reversed
    have hsorted : counted [sortStage reversed] = _ := count_sorted hcat htf hread reversed
    have hplain : counted [] = _ := count_plain hcat htf hread
    rw [hsorted, hplain]
    by_cases hf : IsOperand f
    · have hlength : (lines c).length = (sortByText reversed (lines c)).length :=
        (sortByText_perm reversed (lines c)).length_eq.symm
      simp only [hf, ↓reduceIte, forall_const, countOutcome_inj]
      rw [hlength, length_dropLastEmpty_eq_iff, ne_eq, getLast?_sortByText]
      cases reversed with
      | false => simp [or_iff_not_imp_left]
      | true => simp
    · simp [hf]

theorem counts_survive_blank_between :
    let fs := ((Filesystem.empty 0 "/home/user").populate 0 [("/tmp/f", some "a\n\nb\n")]).1
    let s : Session := ⟨{}, fs, .empty 10, [], []⟩
    let counted (between : List String) : Outcome :=
      (execute ⟨Catalog.standard, 0⟩ s (countLine "/tmp/f" between)).2
    counted ["grep -v \"a\""] = .ok "      2" ∧ counted ["sort"] = counted [] ∧
      ¬ counted ["sort -r"] = counted [] := by
  intro fs s counted
  have hcat : s.aliases.lookup "cat" = none := rfl
  have hspells : Spells "/tmp/f" ["/tmp/f"] :=
    ⟨by decide +kernel, by decide +kernel, by decide +kernel⟩
  have hread : s.fs.read (some "/tmp/f") = .ok "a\n\nb\n" := by decide +kernel
  have hf : IsOperand "/tmp/f" := by decide +kernel
  obtain ⟨hgrep, hsort⟩ := counts_survive_iff 0 s "/tmp/f" "/tmp/f" "a\n\nb\n" hcat hspells hread
  have hlines : lines "a\n\nb\n" = ["a", "", "b"] := by decide +kernel
  obtain ⟨p, hp, hchosen⟩ : ∃ p, Pattern.compile "a" false = .ok p ∧
      (lines "a\n\nb\n").filter (p.occursIn · != true) = ["", "b"] := ⟨_, rfl, by decide +kernel⟩
  have hcount := hgrep "a" (quote "a") p (quote_spells "a") hp true
  rw [hchosen] at hcount
  refine ⟨(hcount (by simp)).mpr ⟨hf, by decide +kernel, by simp⟩, (hsort false).mpr ?_,
    fun h => ?_⟩
  · simp [hlines]
  · simpa [hlines] using (hsort true).mp h hf

/-- A last line that is empty is not counted, though the pattern occurs in it. -/
theorem count_lost_at_end :
    let fs := ((Filesystem.empty 0 "/home/user").populate 0 [("/tmp/f", some "a\n\n")]).1
    let s : Session := ⟨{}, fs, .empty 10, [], []⟩
    s.aliases.lookup "cat" = none ∧ s.fs.read (some "/tmp/f") = .ok "a\n\n" ∧
    (∃ p, Pattern.compile "a*" false = .ok p ∧ (lines "a\n\n").filter p.occursIn = ["a", ""]) ∧
    ¬ (execute ⟨Catalog.standard, 0⟩ s "cat /tmp/f | grep \"a*\" | wc -l").2 =
      .ok (padLeft 7 (toString 2)) := by
  intro fs s
  exact ⟨rfl, by decide +kernel, ⟨_, rfl, by decide +kernel⟩, by decide +kernel⟩

end Shellbox
