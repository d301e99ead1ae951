import Shellbox.Proofs.Command.Lines
import Shellbox.Proofs.Command.Options
import Shellbox.Proofs.Number.Numeral
import Shellbox.Proofs.Shell.Calls

/-!
# The first and the last lines

`head` and `tail` read their counts and operands in any order. The last count and the first operand
hold. They show that many lines of one text from its two ends, so that for counts that add up to
the number of lines they share the text out.
-/

namespace Shellbox.Command

open Filesystem Text Number

variable {counts : List Nat} {files args ws ls : List String} {digits : List Char} {n k : Nat}

/-! ## Counts and operands -/

/-- The ways to ask for a count: the option and the digits in two words, both in one word, or a dash
in front of the digits. -/
def countWords (digits : String) : List (List String) :=
  [["-n", digits], ["-n" ++ digits], ["-" ++ digits]]

/-- Words that ask for counts, each in one of the ways, and operands among them, both in their
order. -/
inductive IsExtractCall : List Nat → List String → List String → Prop
  | nil : IsExtractCall [] [] []
  | count {n : Nat} {digits : List Char} {ws : List String} {counts : List Nat}
      {files args : List String} (hn : IsNumeral digits n)
      (hws : ws ∈ countWords (String.ofList digits)) (hargs : IsExtractCall counts files args) :
      IsExtractCall (n :: counts) files (ws ++ args)
  | operand {f : String} {counts : List Nat} {files args : List String} (hf : IsUndashed f)
      (hargs : IsExtractCall counts files args) : IsExtractCall counts (f :: files) (f :: args)

theorem readCount_eq (h : IsNumeral digits n) :
    readCount (String.ofList digits) = .ok (some n) := by
  simp only [readCount, h.isDigits, h.readNumeral_eq, ↓reduceIte]

theorem countAndFiles_countWords (h : IsNumeral digits n)
    (hws : ws ∈ countWords (String.ofList digits)) (count : Nat) (args : List String) :
    countAndFiles count (ws ++ args) = countAndFiles n args := by
  have hgiven : withCount (readCount (String.ofList digits)) args = countAndFiles n args := by
    rw [readCount_eq h, withCount]
  have hne : String.ofList digits ≠ "" := by simpa using h.ne_nil
  simp only [countWords, List.mem_cons, List.not_mem_nil, or_false] at hws
  rcases hws with rfl | rfl | rfl
  · exact (countAndFiles_option count _ args).trans hgiven
  · exact (countAndFiles_joined (CountWord.ofWord_letter hne) count args).trans hgiven
  · exact (countAndFiles_joined (CountWord.ofWord_dash h.isDigits) count args).trans hgiven

/-- The last count holds, and the operands are left over in their order. -/
theorem IsExtractCall.countAndFiles_eq (h : IsExtractCall counts files args) (count : Nat) :
    countAndFiles count args = .ok (some (counts.getLast?.getD count, files)) := by
  induction h generalizing count with
  | nil => rfl
  | @count n digits ws counts files args hn hws _ ih =>
      rw [countAndFiles_countWords hn hws, ih, List.getLast?_cons, Option.getD_some]
  | operand hf _ ih => rw [countAndFiles_operand hf.countWord_eq, ih]; rfl

/-! ## The two ends of a text -/

theorem firstLines_isPrefix (n : Nat) (ls : List String) :
    firstLines n ls <+: ls ∧ (firstLines n ls).length = min n ls.length :=
  ⟨List.take_prefix n ls, List.length_take⟩

theorem lastLines_isSuffix (n : Nat) (ls : List String) :
    lastLines n ls <:+ ls ∧ (lastLines n ls).length = min n ls.length := by
  refine ⟨List.drop_suffix _ ls, ?_⟩
  rw [lastLines, List.length_drop]
  omega

theorem firstLines_append_lastLines (h : k ≤ ls.length) :
    firstLines k ls ++ lastLines (ls.length - k) ls = ls := by
  rw [firstLines, lastLines, Nat.sub_sub_self h, List.take_append_drop]

/-! ## The commands -/

theorem someLines_eq {s : Session} {piped : Option String} {text : String} (name : String)
    (take : Nat → List String → List String) (hargs : IsExtractCall counts files args)
    (hinput : IsInput s.fs files piped text) :
    someLines name take s args piped =
      .ok (.ok (joinLines (take (counts.getLast?.getD 10) (lines text)))) := by
  rw [someLines, hargs.countAndFiles_eq]
  rcases hinput with rfl | ⟨rfl, f, hf, hread⟩
  · rfl
  · obtain ⟨rest, rfl⟩ := List.head?_eq_some_iff.mp hf
    simp only [hread]

theorem runWords_head (now : Instant) {s : Session} {piped : Option String} {text : String}
    (hargs : IsExtractCall counts files args) (hinput : IsInput s.fs files piped text) :
    runWords ⟨Catalog.standard, now⟩ s ("head" :: args) piped =
      (s, .ok (joinLines (firstLines (counts.getLast?.getD 10) (lines text)))) := by
  rw [runWords_standard "head" head rfl]
  simp only [head, Handler.trying, someLines_eq "head" firstLines hargs hinput]
  rfl

theorem runWords_tail (now : Instant) {s : Session} {piped : Option String} {text : String}
    (hargs : IsExtractCall counts files args) (hinput : IsInput s.fs files piped text) :
    runWords ⟨Catalog.standard, now⟩ s ("tail" :: args) piped =
      (s, .ok (joinLines (lastLines (counts.getLast?.getD 10) (lines text)))) := by
  rw [runWords_standard "tail" tail rfl]
  simp only [tail, Handler.trying, someLines_eq "tail" lastLines hargs hinput]
  rfl

/-- For counts and operands in any order, the last count holds, ten if there is none, and the first
operand is read. `head` shows that many first lines of the text and `tail` that many last ones, all
of them if there are fewer. Counts that add up to the number of lines share them out. -/
theorem extracts_share_out (now : Instant) (s : Session) {counts : List Nat}
    {files args : List String} {piped : Option String} {text : String}
    (hargs : IsExtractCall counts files args) (hinput : IsInput s.fs files piped text) :
    let run name := runWords ⟨Catalog.standard, now⟩ s (name :: args) piped
    let count := counts.getLast?.getD 10
    let ls := lines text
    run "head" = (s, ⟨joinLines (firstLines count ls), true, 0, []⟩) ∧
    run "tail" = (s, ⟨joinLines (lastLines count ls), true, 0, []⟩) ∧
    (∀ n, firstLines n ls <+: ls ∧ (firstLines n ls).length = min n ls.length) ∧
    (∀ n, lastLines n ls <:+ ls ∧ (lastLines n ls).length = min n ls.length) ∧
    ∀ k ≤ ls.length, firstLines k ls ++ lastLines (ls.length - k) ls = ls :=
  ⟨runWords_head now hargs hinput, runWords_tail now hargs hinput,
    fun n => firstLines_isPrefix n (lines text), fun n => lastLines_isSuffix n (lines text),
    fun _ hk => firstLines_append_lastLines hk⟩

theorem extracts_share_out_last_count :
    let fs := ((empty 0 "/").populate 0 [("/f", some "a\nb\n\nc\n"), ("/g", some "g")]).1
    let s : Session := ⟨{}, fs, .empty 10, [], []⟩
    let args := ["-n7", "/f", "-n", "1", "-03", "/g"]
    IsExtractCall [7, 1, 3] ["/f", "/g"] args ∧
      runWords ⟨Catalog.standard, 0⟩ s ("head" :: args) none = (s, ⟨"a\nb\n", true, 0, []⟩) ∧
      runWords ⟨Catalog.standard, 0⟩ s ("tail" :: args) none = (s, ⟨"b\n\nc", true, 0, []⟩) := by
  intro fs s args
  have hread : s.fs.read (some "/f") = .ok "a\nb\n\nc\n" := by decide +kernel
  have hargs : IsExtractCall [7, 1, 3] ["/f", "/g"] args := by
    have hseven : IsNumeral ['7'] 7 := by decide
    have hone : IsNumeral ['1'] 1 := by decide
    have hthree : IsNumeral ['0', '3'] 3 := by decide
    have hjoined : ["-n7"] ∈ countWords (String.ofList ['7']) := by decide
    have hapart : ["-n", "1"] ∈ countWords (String.ofList ['1']) := by decide
    have hshort : ["-03"] ∈ countWords (String.ofList ['0', '3']) := by decide
    exact .count hseven hjoined (.operand (by decide) (.count hone hapart
      (.count hthree hshort (.operand (by decide) .nil))))
  obtain ⟨hhead, htail, -⟩ := extracts_share_out 0 s hargs (.inr ⟨rfl, "/f", rfl, hread⟩)
  have hfirst : joinLines (firstLines 3 (lines "a\nb\n\nc\n")) = "a\nb\n" := by decide +kernel
  have hlast : joinLines (lastLines 3 (lines "a\nb\n\nc\n")) = "b\n\nc" := by decide +kernel
  exact ⟨hargs, hhead.trans (by rw [← hfirst]; rfl), htail.trans (by rw [← hlast]; rfl)⟩

end Shellbox.Command
