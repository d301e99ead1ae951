import Shellbox.Proofs.Command.Lines
import Shellbox.Proofs.Number.Leading
import Shellbox.Proofs.Shell.Calls

/-!
# Sorting is stable

`sort` shows the lines of a text in the order of a key: of the lines themselves, or under `-n` of
the whole numbers that they lead with. Lines of one key keep their order, also in reverse. By number
this holds just if none of the numbers is spoilt.
-/

namespace Shellbox.Command

open Filesystem Text Number

variable {s : Session} {args : List String} {piped : Option String} {text : String}
  {ls : List String} {number : String → Int}

/-! ## The numbers of lines -/

theorem mapM_withNumber (hnumber : ∀ l ∈ ls, LeadsWith l (number l))
    (hclean : ∀ l ∈ ls, ¬ IsSpoilt l) :
    ls.mapM withNumber = .ok (ls.map fun l => (Binary64.ofInteger (number l), l)) := by
  induction ls with
  | nil => rfl
  | cons l ls ih =>
      rw [List.forall_mem_cons] at hnumber hclean
      rw [List.mapM_cons, ih hnumber.2 hclean.2, withNumber,
        leadingNumber_of_leadsWith hnumber.1 hclean.1]
      rfl

theorem exists_mapM_withNumber_eq_error (h : ∃ l ∈ ls, IsSpoilt l) :
    ∃ t, ls.mapM withNumber = .error (.fraction t) := by
  induction ls with
  | nil => simp at h
  | cons l ls ih =>
      rw [List.mapM_cons, withNumber]
      cases hfront : leadingNumber l with
      | error t => exact ⟨t, rfl⟩
      | ok n =>
          obtain ⟨m, hm, hspoilt⟩ := h
          rcases List.mem_cons.mp hm with rfl | hm
          · obtain ⟨t, ht⟩ := exists_leadingNumber_eq_error_iff.mpr hspoilt
            rw [hfront] at ht
            cases ht
          · obtain ⟨t, ht⟩ := ih ⟨m, hm, hspoilt⟩
            exact ⟨t, by rw [ht]; rfl⟩

theorem sortByNumber_eq (hnumber : ∀ l ∈ ls, LeadsWith l (number l))
    (hclean : ∀ l ∈ ls, ¬ IsSpoilt l) (reversed : Bool) :
    sortByNumber reversed ls = .ok (sortBy (fun l m => number l ≤ number m) reversed ls) := by
  let keyed (l : String) : Binary64 × String := (.ofInteger (number l), l)
  have hsorted : (sortBy (fun l m => decide (number l ≤ number m)) reversed ls).map keyed =
      sortBy (fun a b => a.1.le b.1) reversed (ls.map keyed) :=
    map_sortBy keyed (fun l m => (Binary64.le_ofInteger _ _).symm) reversed ls
  rw [sortByNumber, mapM_withNumber hnumber hclean, Except.map, ← hsorted, List.map_map]
  exact congrArg Except.ok (List.map_id _)

theorem exists_sortByNumber_eq_error (h : ∃ l ∈ ls, IsSpoilt l) (reversed : Bool) :
    ∃ t, sortByNumber reversed ls = .error (.fraction t) := by
  obtain ⟨t, ht⟩ := exists_mapM_withNumber_eq_error h
  exact ⟨t, by rw [sortByNumber, ht]; rfl⟩

/-! ## The command -/

theorem runWords_sort_text (now : Instant)
    (hinput : IsInput s.fs (Arguments.ofWords args).operands piped text)
    (hn : (Arguments.ofWords args).has 'n' = false) :
    runWords ⟨Catalog.standard, now⟩ s ("sort" :: args) piped =
      (s, .ok (joinLines (sortByText ((Arguments.ofWords args).has 'r') (lines text)))) := by
  rw [runWords_standard "sort" sort rfl]
  simp only [sort, Handler.trying, inputText_eq_ok_iff.mpr hinput, hn, Bool.false_eq_true,
    ↓reduceIte, Except.map, settle, Reply.resolve]

theorem runWords_sort_numbers (now : Instant)
    (hinput : IsInput s.fs (Arguments.ofWords args).operands piped text)
    (hn : (Arguments.ofWords args).has 'n') :
    runWords ⟨Catalog.standard, now⟩ s ("sort" :: args) piped =
      (s, settle "sort" ((sortByNumber ((Arguments.ofWords args).has 'r') (lines text)).map
        fun sorted => .ready (.ok (joinLines sorted)))) := by
  rw [runWords_standard "sort" sort rfl]
  simp only [sort, Handler.trying, inputText_eq_ok_iff.mpr hinput, hn, ↓reduceIte]
  cases sortByNumber ((Arguments.ofWords args).has 'r') (lines text) <;> rfl

theorem faultOutcome_fraction (t : String) :
    faultOutcome "sort" (.fraction t) =
      .error ("Error executing sort: could not convert string to float: " ++ quoted t) := by
  have hmessage : Fault.message (.fraction t) = "could not convert string to float: " ++ quoted t :=
    rfl
  have hfront : "Error executing " ++ "sort" ++ ": " ++ "could not convert string to float: " =
      "Error executing sort: could not convert string to float: " := by simp
  rw [faultOutcome, hmessage, ← String.append_assoc, hfront]

/-- By text, `sort` shows the lines of its input in ascending order, or under `-r` in descending
order. By number it does the same with the whole numbers that the lines lead with, and keeps the
order of lines of one number, just if no line has an information separator among the blanks before
its number; else it fails. -/
theorem sort_stable_iff (now : Instant) (s : Session) {args : List String} {piped : Option String}
    {text : String} (hinput : IsInput s.fs (Arguments.ofWords args).operands piped text) :
    let a := Arguments.ofWords args
    let run := runWords ⟨Catalog.standard, now⟩ s ("sort" :: args) piped
    (a.has 'n' = false → ∃ sorted, IsStableSort id (a.has 'r') (lines text) sorted ∧
      run = (s, ⟨joinLines sorted, true, 0, []⟩)) ∧
    (a.has 'n' → ∀ number : String → Int, (∀ l ∈ lines text, LeadsWith l (number l)) →
      ((∃ sorted, IsStableSort number (a.has 'r') (lines text) sorted ∧
        run = (s, ⟨joinLines sorted, true, 0, []⟩)) ↔ ∀ l ∈ lines text, ¬ IsSpoilt l) ∧
      ((∃ l ∈ lines text, IsSpoilt l) → ∃ t, run = (s,
        .error ("Error executing sort: could not convert string to float: " ++ quoted t)))) := by
  intro a run
  constructor
  · intro hn
    exact ⟨_, isStableSort_sortBy String.le_trans String.le_total id (a.has 'r') (lines text),
      runWords_sort_text now hinput hn⟩
  · intro hn number hnumber
    have hrun := runWords_sort_numbers now hinput hn
    have hfails : (∃ l ∈ lines text, IsSpoilt l) → ∃ t, run = (s,
        .error ("Error executing sort: could not convert string to float: " ++ quoted t)) := by
      intro hspoilt
      obtain ⟨t, ht⟩ := exists_sortByNumber_eq_error hspoilt (a.has 'r')
      rw [ht] at hrun
      exact ⟨t, hrun.trans (by rw [← faultOutcome_fraction]; rfl)⟩
    refine ⟨⟨?_, fun hclean => ?_⟩, hfails⟩
    · rintro ⟨sorted, -, hshown⟩ l hl hspoilt
      obtain ⟨t, ht⟩ := hfails ⟨l, hl, hspoilt⟩
      have hsuccess := congrArg (·.2.success) (hshown.symm.trans ht)
      exact absurd hsuccess (by simp [Outcome.error, Outcome.errorCode])
    · refine ⟨_, isStableSort_sortBy Int.le_trans Int.le_total number (a.has 'r') (lines text), ?_⟩
      rw [sortByNumber_eq hnumber hclean] at hrun
      exact hrun

theorem sort_stable_iff_descending :
    let fs := ((empty 0 "/").populate 0 [("/f", some "7\n\t-12x\nfig\n+7 b")]).1
    let s : Session := ⟨{}, fs, .empty 10, [], []⟩
    let number (l : String) : Int := if l = "\t-12x" then -12 else if l = "fig" then 0 else 7
    IsInput s.fs (Arguments.ofWords ["-rn", "/f"]).operands none "7\n\t-12x\nfig\n+7 b" ∧
      (∀ l ∈ lines "7\n\t-12x\nfig\n+7 b", LeadsWith l (number l) ∧ ¬ IsSpoilt l) ∧
      ∃ sorted, IsStableSort number true (lines "7\n\t-12x\nfig\n+7 b") sorted ∧
        runWords ⟨Catalog.standard, 0⟩ s ["sort", "-rn", "/f"] none =
          (s, ⟨joinLines sorted, true, 0, []⟩) := by
  intro fs s number
  have hread : s.fs.read (some "/f") = .ok "7\n\t-12x\nfig\n+7 b" := by decide +kernel
  have hinput : IsInput s.fs (Arguments.ofWords ["-rn", "/f"]).operands none
      "7\n\t-12x\nfig\n+7 b" := .inr ⟨rfl, "/f", by decide, hread⟩
  have hlines : lines "7\n\t-12x\nfig\n+7 b" = ["7", "\t-12x", "fig", "+7 b"] := by decide +kernel
  have hnumber : ∀ l ∈ lines "7\n\t-12x\nfig\n+7 b", LeadsWith l (number l) := by
    have hfig : ¬ (takeNumber? (trimStart "fig".toList)).isSome := by decide
    simp only [hlines, List.forall_mem_cons, List.not_mem_nil, false_implies, implies_true,
      and_true]
    refine ⟨?_, ?_, .absent (takeNumber?_trimStart_isSome_iff.not.mp hfig), ?_⟩
    · exact .of_whole [] [] ['7'] [] rfl (by simp) (by decide)
        ⟨by simp, by decide, by simp, by simp⟩
    · exact .of_whole ['\t'] ['-'] ['1', '2'] ['x'] rfl (by simp [isBlank]) (by decide)
        ⟨by simp, by decide, by simp, by rintro c ⟨⟩; decide⟩
    · exact .of_whole [] ['+'] ['7'] [' ', 'b'] rfl (by simp) (by decide)
        ⟨by simp, by decide, by simp, by rintro c ⟨⟩; decide⟩
  have hclean : ∀ l ∈ lines "7\n\t-12x\nfig\n+7 b", ¬ IsSpoilt l := by
    have hall : (lines "7\n\t-12x\nfig\n+7 b").all fun l => !l.toList.any isSeparator := by
      rw [hlines]
      decide
    intro l hl hspoilt
    have hnone := List.all_eq_true.mp hall l hl
    rw [List.any_eq_true.mpr hspoilt.exists_mem] at hnone
    cases hnone
  exact ⟨hinput, fun l hl => ⟨hnumber l hl, hclean l hl⟩,
    (((sort_stable_iff 0 s hinput).2 (by decide) number hnumber).1).mpr hclean⟩

/-- A separator before a number is taken for a blank, and then refused, so that `sort` fails. -/
theorem sort_refuses_separator :
    let fs := ((empty 0 "/").populate 0 [("/f", some "\x1c5")]).1
    let s : Session := ⟨{}, fs, .empty 10, [], []⟩
    IsInput s.fs (Arguments.ofWords ["-n", "/f"]).operands none "\x1c5" ∧
      (∀ l ∈ lines "\x1c5", LeadsWith l 5) ∧
      ¬ ∃ sorted, IsStableSort (fun _ => (5 : Int)) false (lines "\x1c5") sorted ∧
        runWords ⟨Catalog.standard, 0⟩ s ["sort", "-n", "/f"] none =
          (s, ⟨joinLines sorted, true, 0, []⟩) := by
  intro fs s
  have hread : s.fs.read (some "/f") = .ok "\x1c5" := by decide +kernel
  have hlines : lines "\x1c5" = ["\x1c5"] := by decide +kernel
  refine ⟨.inr ⟨rfl, "/f", by decide, hread⟩, ?_, ?_⟩
  · rw [hlines, List.forall_mem_singleton]
    exact .of_whole ['\x1c'] [] ['5'] [] rfl (by simp [isBlank]) (by decide)
      ⟨by simp, by decide, by simp, by simp⟩
  · rintro ⟨sorted, -, hrun⟩
    have hfailed :
        (runWords ⟨Catalog.standard, 0⟩ s ["sort", "-n", "/f"] none).2.success = false := by
      decide +kernel
    rw [hrun] at hfailed
    cases hfailed

end Shellbox.Command
