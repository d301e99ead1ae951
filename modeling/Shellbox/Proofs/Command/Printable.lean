import Shellbox.Proofs.Pattern.Reading
import Shellbox.Proofs.Pattern.Runs
import Shellbox.Proofs.Shell.Calls

/-!
# Printable runs

`strings` searches a text for runs of printable characters. What it shows are the blocks of such
characters that are long enough, each of them once and whole.
-/

namespace Shellbox.Command

open Filesystem Text Number Pattern

variable {least n : Nat} {digits : List Char} {v : String} {args before after : List String}
  {fs : Filesystem} {piped : Option String} {text : String}

/-! ## The pattern -/

/-- A printable character of ASCII. -/
def isPlain (c : Char) : Bool := 0x20 ≤ c.toNat && c.toNat ≤ 0x7e

/-- The test of the pattern. -/
def plainTest : CharTest := .among .exact false [.range 0x20 0x7e]

theorem passes_plainTest : plainTest.passes = isPlain := by
  funext c
  simp [plainTest, CharTest.passes, SetItem.holds, isPlain]

theorem isNumeral_toDigits (h : n < unbounded) : IsNumeral (Nat.toDigits 10 n) n where
  ne_nil := List.ne_nil_of_length_pos Nat.length_toDigits_pos
  length_le := by
    have hten : n < 10 ^ 10 := h.trans (by decide)
    exact ((Nat.length_toDigits_le_iff (by decide) (by decide)).mpr hten).trans (by decide)
  isDigit _ := Nat.isDigit_of_mem_toDigits (by decide) (by decide)
  value := Nat.ofDigitChars_ten_toDigits

/-- The text of the pattern is read as a repetition of one test. -/
theorem compile_plainPattern (h : least < unbounded) :
    compile (plainPattern least) false = .ok (runRegex plainTest least) := by
  let s : Source := ⟨(plainPattern least).toList, 0, {}, [], [], none, []⟩
  let digits := Nat.toDigits 10 least
  have hn : IsNumeral digits least := isNumeral_toDigits h
  have htext : (plainPattern least).toList =
      '[' :: "\\x20-\\x7e]".toList ++ '\x7b' :: (digits ++ [',', '\x7d']) := by
    simp [plainPattern, digits]
  have hs : Source.ofText {} (plainPattern least).toList = .ok s :=
    Source.ofText_eq_ok.mpr ⟨by rw [htext]; simp, rfl⟩
  have hset : readSet {} (s.drop 1) = .ok (.one plainTest, s.drop 11) := by
    simp only [s, htext]
    rfl
  have hopen : (s.drop 11).rest = '\x7b' :: (digits ++ [',', '\x7d']) := by
    simp only [s, Source.drop, htext]
    rfl
  have hdigits : ((s.drop 11).drop 1).rest = digits ++ [',', '\x7d'] := by
    rw [Source.drop, hopen]
    rfl
  have hne : digits ++ [',', '\x7d'] ≠ ['\\'] := fun heq => by
    simpa using congrArg List.length heq
  have hbraces := readBraces_atLeast hdigits hn h
  have hend : (((s.drop 11).drop 1).drop (digits.length + 2)).rest = [] := by
    rw [Source.drop, hdigits]
    simp
  have hseq : readSequence (4 * (plainPattern least).length + 7) {} true [] s =
      .ok ([(runRegex plainTest least).pattern],
        ((s.drop 11).drop 1).drop (digits.length + 2)) := by
    have hgreed := readGreed_plain (s := ((s.drop 11).drop 1).drop (digits.length + 2))
      (by simp [hend]) (by simp [hend])
    rw [readSequence_set rfl htext (by simp) hset,
      readSequence_braces rfl hopen hne rfl hbraces hgreed, readSequence_end hend]
    rfl
  rw [Source.drop_drop, Source.drop_drop] at hseq hend
  obtain ⟨groups, hcompile⟩ := ofText_of_sequence hs hseq hend rfl rfl fun _ => rfl
  have hwidth : ((runRegex plainTest least).pattern.width groups).1 = least :=
    Nat.min_eq_left (Nat.le_sub_one_of_lt h)
  rw [compile, hcompile, seqOf, hwidth]
  rfl

theorem plainRuns_eq (h : least < unbounded) (text : String) :
    plainRuns least text = (runRegex plainTest least).findAll text := by
  rw [plainRuns, compile_plainPattern h]

/-! ## The arguments -/

theorem readLeast_operands (n : Nat) (h : "-n" ∉ args) : readLeast n args = .ok (some (n, args)) := by
  induction args with
  | nil => rfl
  | cons w ws ih =>
      obtain ⟨hw, hws⟩ := not_or.mp (List.mem_cons.not.mp h)
      rw [readLeast, ih hws]
      · rfl
      · rintro v r rfl
        exact absurd rfl hw

/-- A least length among operands is read, wherever it stands. -/
theorem readLeast_option (hdigits : IsNumeral digits least) (hpos : 0 < least) (n : Nat)
    (h : "-n" ∉ before ++ after) :
    readLeast n (before ++ "-n" :: String.ofList digits :: after) =
      .ok (some (least, before ++ after)) := by
  induction before with
  | nil =>
      rw [List.nil_append] at h
      have hvalue : ¬ least < 1 := Nat.not_lt.mpr hpos
      simp [readLeast, hdigits.isDigits, hdigits.readNumeral_eq, hvalue, readLeast_operands _ h]
  | cons w ws ih =>
      rw [List.cons_append] at h
      obtain ⟨hw, hws⟩ := not_or.mp (List.mem_cons.not.mp h)
      rw [List.cons_append, readLeast, ih hws]
      · rfl
      · rintro v r rfl
        exact absurd rfl hw

/-- The text comes from the pipe unless it is empty, or else from the first file. -/
def IsSource (fs : Filesystem) (paths : List String) (piped : Option String) (text : String) :
    Prop :=
  piped = some text ∧ text ≠ "" ∨
    (piped = none ∨ piped = some "") ∧ ∃ f, paths.head? = some f ∧ fs.read (some f) = .ok text

theorem pipedOrFile_of_isSource {paths : List String} (name : String)
    (h : IsSource fs paths piped text) : pipedOrFile name fs paths piped = .ok text := by
  rcases h with ⟨rfl, hne⟩ | ⟨hpiped, f, hf, hread⟩
  · have htext : pipedText? (some text) = some text := by simp [pipedText?, hne]
    simp only [pipedOrFile, htext]
  · have hnone : pipedText? piped = none := by
      rcases hpiped with rfl | rfl <;> rfl
    obtain ⟨rest, rfl⟩ := List.head?_eq_some_iff.mp hf
    simp only [pipedOrFile, hnone, requireFile, hread, Except.mapError]

/-! ## The command -/

theorem runWords_strings (now : Instant) {s : Session} (hdigits : IsNumeral digits least)
    (hpos : 0 < least) (hlt : least < unbounded) (hoption : "-n" ∉ before ++ after)
    (hsource : IsSource s.fs (before ++ after) piped text) :
    runWords ⟨Catalog.standard, now⟩ s
        ("strings" :: (before ++ "-n" :: String.ofList digits :: after)) piped =
      (s, .ok (joinLines ((runRegex plainTest least).findAll text))) := by
  rw [runWords_standard "strings" strings rfl]
  simp only [strings, Handler.trying, readLeast_option hdigits hpos 4 hoption,
    pipedOrFile_of_isSource "strings" hsource, if_neg (Nat.not_le.mpr hlt), plainRuns_eq hlt]
  rfl

/-- For a least length among any operands and a text from a file or the pipe, the lines shown are
the blocks of printable characters in the text that are at least so long, from the left and apart:
every such block, and nothing else. -/
theorem strings_finds_blocks (now : Instant) (s : Session) {before after : List String}
    {digits : List Char} {least : Nat} {piped : Option String} {text : String}
    (hdigits : IsNumeral digits least) (hpos : 1 ≤ least) (hlt : least < 4294967295)
    (hoption : "-n" ∉ before ++ after) (hsource : IsSource s.fs (before ++ after) piped text) :
    ∃ blocks : List (List Char × List Char),
      runWords ⟨Catalog.standard, now⟩ s
          ("strings" :: (before ++ "-n" :: String.ofList digits :: after)) piped =
        (s, .ok (joinLines (blocks.map fun x => String.ofList x.2))) ∧
      blocks.Pairwise (fun x y => x.1.length + x.2.length < y.1.length) ∧
      ∀ front block, (front, block) ∈ blocks ↔
        least ≤ block.length ∧
          ∃ back, text.toList = front ++ block ++ back ∧ IsBlock isPlain front block back := by
  obtain ⟨blocks, hfound, hpairwise, hmem⟩ := findAll_run (t := plainTest) hpos text
  rw [passes_plainTest] at hmem
  refine ⟨blocks, ?_, hpairwise, hmem⟩
  rw [runWords_strings now hdigits hpos hlt hoption hsource, hfound]

theorem strings_finds_blocks_apart :
    let s : Session := ⟨{}, .empty 0 "/", .empty 10, [], []⟩
    let run := runWords ⟨Catalog.standard, 0⟩ s ["strings", "-n", "03"] (some "ab\tabc\ndefg")
    run.2 = .ok "abc\ndefg" ∧
      ∃ blocks : List (List Char × List Char),
        run = (s, .ok (joinLines (blocks.map fun x => String.ofList x.2))) ∧
        (['a', 'b', '\t'], ['a', 'b', 'c']) ∈ blocks ∧ ([], ['a', 'b']) ∉ blocks := by
  intro s run
  have hdigits : IsNumeral ['0', '3'] 3 := by decide
  have hsource : IsSource s.fs ([] ++ []) (some "ab\tabc\ndefg") "ab\tabc\ndefg" :=
    .inl ⟨rfl, by decide⟩
  have hblock : IsBlock isPlain ['a', 'b', '\t'] ['a', 'b', 'c'] ['\n', 'd', 'e', 'f', 'g'] :=
    ⟨by simp, by simp [isPlain], by simp [isPlain], by simp [isPlain]⟩
  obtain ⟨blocks, hrun, -, hmem⟩ :=
    strings_finds_blocks 0 s hdigits (by decide) (by decide) (by decide) hsource
  refine ⟨by decide +kernel, blocks, hrun, (hmem _ _).mpr ⟨by decide, _, rfl, hblock⟩, fun h => ?_⟩
  exact absurd ((hmem _ _).mp h).1 (by decide)

end Shellbox.Command
