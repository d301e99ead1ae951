import Shellbox.Proofs.Command.Runs
import Shellbox.Proofs.Shell.Calls

/-!
# Collapsing is run-length encoding

The runs of a text are the one list of lengths and lines that stands for its lines, with no run
empty and neighbouring runs of different lines. `uniq` shows these runs.
-/

namespace Shellbox.Command

open Filesystem Text

variable {s : Session} {args : List String} {piped : Option String} {text : String}

theorem existsUnique_runs (ls : List String) : ∃! rs, AreRuns rs ∧ expand rs = ls := by
  refine ⟨runs ls, ⟨runs_areRuns ls, expand_runs ls⟩, ?_⟩
  rintro rs ⟨hruns, rfl⟩
  exact hruns.runs_expand.symm

theorem runWords_uniq_runs (now : Instant)
    (hinput : IsInput s.fs (Arguments.ofWords args).operands piped text) :
    runWords ⟨Catalog.standard, now⟩ s ("uniq" :: args) piped =
      (s, .ok (joinLines (collapse ((Arguments.ofWords args).has 'c')
        ((Arguments.ofWords args).has 'd') (lines text)))) := by
  rw [runWords_standard "uniq" uniq rfl]
  simp only [uniq, Handler.looking, overInput, inputText_eq_ok_iff.mpr hinput, settle,
    Reply.resolve]

theorem filter_of_flag (flag : Bool) (rs : List (Nat × String)) :
    (rs.filter fun x => !flag || decide (2 ≤ x.1)) =
      if flag then rs.filter (2 ≤ ·.1) else rs := by
  cases flag with
  | false => exact List.filter_eq_self.mpr fun x _ => rfl
  | true => rfl

/-- There is one list of counts and lines, no count zero and neighbouring lines different, that
stands for the lines of a text. `uniq` shows its lines, under `-d` only those with a count of two
and more, and under `-c` each behind its count in seven columns and a blank. -/
theorem uniq_shows_runs (now : Instant) (s : Session) {args : List String}
    {piped : Option String} {text : String}
    (hinput : IsInput s.fs (Arguments.ofWords args).operands piped text) :
    (∃! rs, AreRuns rs ∧ expand rs = lines text) ∧
      ∀ rs, AreRuns rs → expand rs = lines text →
        let a := Arguments.ofWords args
        let kept := if a.has 'd' then rs.filter (2 ≤ ·.1) else rs
        let row (x : Nat × String) : String :=
          if a.has 'c' then padLeft 7 (toString x.1) ++ " " ++ x.2 else x.2
        runWords ⟨Catalog.standard, now⟩ s ("uniq" :: args) piped =
          (s, ⟨joinLines (kept.map row), true, 0, []⟩) := by
  refine ⟨existsUnique_runs (lines text), fun rs hruns hexpand => ?_⟩
  intro a kept row
  have hrs : runs (lines text) = rs := by rw [← hexpand, hruns.runs_expand]
  rw [runWords_uniq_runs now hinput, collapse, hrs, filter_of_flag]
  rfl

theorem uniq_shows_runs_counted_twice :
    let fs := ((empty 0 "/").populate 0 [("/f", some "b\nb\n\n\n\na\nb\nb")]).1
    let s : Session := ⟨{}, fs, .empty 10, [], []⟩
    let rs := [(2, "b"), (3, ""), (1, "a"), (2, "b")]
    AreRuns rs ∧ expand rs = lines "b\nb\n\n\n\na\nb\nb" ∧
      runWords ⟨Catalog.standard, 0⟩ s ["uniq", "-c", "/f", "-d", "/g"] none =
        (s, ⟨"      2 b\n      3 \n      2 b", true, 0, []⟩) := by
  intro fs s rs
  have hread : s.fs.read (some "/f") = .ok "b\nb\n\n\n\na\nb\nb" := by decide +kernel
  have hlines : expand rs = lines "b\nb\n\n\n\na\nb\nb" := by decide +kernel
  have hruns : AreRuns rs := ⟨by decide, by decide⟩
  have hinput : IsInput s.fs (Arguments.ofWords ["-c", "/f", "-d", "/g"]).operands none
      "b\nb\n\n\n\na\nb\nb" := .inr ⟨rfl, "/f", by decide, hread⟩
  have hshown := (uniq_shows_runs 0 s hinput).2 rs hruns hlines
  have houtput : joinLines ["      2 b", "      3 ", "      2 b"] =
      "      2 b\n      3 \n      2 b" := by decide
  rw [← houtput]
  refine ⟨hruns, hlines, hshown.trans ?_⟩
  exact congrArg (fun ls => (s, (⟨joinLines ls, true, 0, []⟩ : Outcome))) (by decide +kernel)

end Shellbox.Command
