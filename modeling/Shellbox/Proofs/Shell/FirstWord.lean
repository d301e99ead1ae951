import Shellbox.Proofs.Line.Redirected
import Shellbox.Proofs.Text.Words
import Shellbox.Shell.Executor

/-!
# The first word of a line

Only the first word of a line can be an alias, and it ends at the first blank. So what is written
behind a line, with blanks between them, stays behind it when the line is trimmed and when its alias
is replaced.
-/

namespace Shellbox

open Text Line

variable {aliases : Aliases} {line name gap rest tail text : String}

/-! ## Cutting off the first word -/

theorem splitFirstWord_append (hname : ∀ c ∈ name.toList, isBlank c = false)
    (hgap : ∀ c ∈ gap.toList, isBlank c) (hapart : gap = "" → rest = "") :
    splitFirstWord (name ++ gap ++ rest) = (name, trim rest) := by
  have hlist : (name ++ gap ++ rest).toList = name.toList ++ (gap ++ rest).toList := by simp
  have hplain : ∀ c ∈ name.toList, (!isBlank c) := by simpa using hname
  have hbegins : (gap ++ rest).toList.takeWhile (!isBlank ·) = [] ∧
      (gap ++ rest).toList.dropWhile (!isBlank ·) = (gap ++ rest).toList := by
    rcases hcs : gap.toList with - | ⟨c, cs⟩
    · rw [String.toList_eq_nil_iff] at hcs
      simp [hcs, hapart hcs]
    · have hblank : isBlank c := hgap c (by simp [hcs])
      simp [hcs, hblank]
  have hskip : trimStart (gap.toList ++ rest.toList) = trimStart rest.toList :=
    List.dropWhile_append_of_pos hgap
  rw [splitFirstWord, hlist, List.takeWhile_append_of_pos hplain, hbegins.1,
    List.dropWhile_append_of_pos hplain, hbegins.2, String.toList_append, trimChars, hskip]
  simp [trim, trimChars]

/-- A trimmed line is its first word, blanks and the rest. -/
theorem exists_eq_append (h : trim line = line) :
    ∃ name gap rest, line = name ++ gap ++ rest ∧ (∀ c ∈ name.toList, isBlank c = false) ∧
      (∀ c ∈ gap.toList, isBlank c) ∧ (gap = "" ↔ rest = "") ∧ trim rest = rest := by
  have hsplit := firstWord_append_behind line.toList
  have hblank := beginsBlank_behindFirstWord line.toList
  have hname : ∀ c ∈ firstWord line.toList, isBlank c = false := fun c hc => by
    simpa using List.mem_takeWhile_imp hc
  have hend : trimEnd (behindFirstWord line.toList) = behindFirstWord line.toList :=
    trimEnd_of_suffix ⟨_, hsplit⟩ (trimEnd_of_trimChars (toList_of_trim h))
  generalize behindFirstWord line.toList = behind at hsplit hblank hend
  refine ⟨String.ofList (firstWord line.toList), String.ofList (behind.takeWhile isBlank),
    String.ofList (trimStart behind), ?_, by simpa using hname, ?_, ?_, ?_⟩
  · rw [← String.toList_inj]
    simpa [trimStart] using hsplit.symm
  · simpa using fun c hc => List.mem_takeWhile_imp hc
  · -- Without blanks behind the first word the line ends there, and it does not end in blanks.
    cases behind with
    | nil => simp
    | cons c cs =>
        have hc : isBlank c := hblank c rfl
        have hrest := trimStart_ne_nil (by simp) hend
        simp [hc, hrest]
  · have hrest : trimStart behind = trimChars behind := by rw [← trimStart_trimEnd, hend]
    have hstage : String.ofList (trimChars behind) = trim (String.ofList behind) := by
      rw [trim, String.toList_ofList]
    rw [hrest, hstage, trim_trim]

/-! ## Replacing the alias -/

theorem expandAlias_append (halias : aliases.lookup name = some text)
    (hname : ∀ c ∈ name.toList, isBlank c = false) (hgap : ∀ c ∈ gap.toList, isBlank c)
    (hapart : gap = "" → rest = "") :
    expandAlias aliases (name ++ gap ++ rest) =
      if (trim rest).isEmpty then text else text ++ " " ++ trim rest := by
  simp only [expandAlias, splitFirstWord_append hname hgap hapart, halias]

theorem expandAlias_append_none (halias : aliases.lookup name = none)
    (hname : ∀ c ∈ name.toList, isBlank c = false) (hgap : ∀ c ∈ gap.toList, isBlank c)
    (hapart : gap = "" → rest = "") :
    expandAlias aliases (name ++ gap ++ rest) = name ++ gap ++ rest := by
  simp only [expandAlias, splitFirstWord_append hname hgap hapart, halias]

/-- A text behind a trimmed line stays behind it. -/
theorem expandAlias_append_gap (aliases : Aliases) (h : trim line = line)
    (hgap : ∀ c ∈ gap.toList, isBlank c) (hgapne : gap ≠ "") (htail : trim tail = tail)
    (hne : tail ≠ "") :
    ∃ blanks, (blanks = gap ∨ blanks = " ") ∧
      expandAlias aliases (line ++ gap ++ tail) = expandAlias aliases line ++ blanks ++ tail := by
  obtain ⟨name, between, rest, rfl, hname, hbetween, hrest, htrim⟩ := exists_eq_append h
  by_cases hnil : rest = ""
  · -- The line is its first word, and the text behind it becomes the rest.
    obtain rfl := hnil
    obtain rfl := hrest.mpr rfl
    have hline : name ++ "" ++ "" = name := by simp
    have hapart : gap = "" → tail = "" := fun hgap => absurd hgap hgapne
    cases halias : aliases.lookup name with
    | none =>
        refine ⟨gap, .inl rfl, ?_⟩
        rw [expandAlias_append_none halias hname hbetween fun _ => rfl, hline,
          expandAlias_append_none halias hname hgap hapart]
    | some text =>
        refine ⟨" ", .inr rfl, ?_⟩
        rw [expandAlias_append halias hname hbetween fun _ => rfl, hline,
          expandAlias_append halias hname hgap hapart, htail]
        have htailne : tail.isEmpty = false := by simpa [← Bool.not_eq_true] using hne
        have hempty : (trim "").isEmpty := rfl
        simp only [htailne, hempty, Bool.false_eq_true, ↓reduceIte]
  · have hapart : between = "" → rest ++ gap ++ tail = "" := fun hempty =>
      absurd (hrest.mp hempty) hnil
    have hbehind : trim (rest ++ gap ++ tail) = rest ++ gap ++ tail :=
      trim_append hnil htrim hne htail gap
    have hassoc : name ++ between ++ rest ++ gap ++ tail =
        name ++ between ++ (rest ++ gap ++ tail) := by simp only [String.append_assoc]
    refine ⟨gap, .inl rfl, ?_⟩
    cases halias : aliases.lookup name with
    | none =>
        rw [expandAlias_append_none halias hname hbetween hrest.mp, hassoc,
          expandAlias_append_none halias hname hbetween hapart]
    | some text =>
        have hrestne : rest.isEmpty = false := by simpa [← Bool.not_eq_true] using hnil
        have hwholene : (rest ++ gap ++ tail).isEmpty = false := by
          simp [← Bool.not_eq_true, hne]
        rw [expandAlias_append halias hname hbetween hrest.mp, hassoc,
          expandAlias_append halias hname hbetween hapart, hbehind, htrim, hrestne, hwholene]
        simp only [Bool.false_eq_true, ↓reduceIte, String.append_assoc]

end Shellbox
