import Shellbox.Proofs.Command.Collapsing
import Shellbox.Proofs.Shell.Counting
import Shellbox.Proofs.Shell.FirstWord

/-!
# Sorting a file and collapsing its lines

What `sort` passes on is a sorted list, so `uniq` behind it leaves each line once. Empty lines can
be lost between the two only at the end of the list, where none stands in ascending order unless all
are empty, and then nothing is to be seen either way.
-/

namespace Shellbox

open Text Line Command

variable {now : Filesystem.Instant} {s : Session} {f c tf : String}

/-! ## The commands by their words -/

theorem runWords_sort_file (now : Filesystem.Instant) (hread : s.fs.read (some f) = .ok c)
    (reversed : Bool) :
    runWords ⟨Catalog.standard, now⟩ s (sortWords reversed ++ [f]) none =
      (s, if IsOperand f then .ok (joinLines (sortByText reversed (lines c)))
        else .error "sort: no input provided (use pipe or provide filename)") := by
  have hflag : flagLetters? "-r" = some ['r'] := rfl
  have hwords : sortWords reversed ++ [f] =
      "sort" :: ((if reversed then ["-r"] else []) ++ [f]) := by
    cases reversed <;> rfl
  rw [hwords]
  cases hf : flagLetters? f with
  | none =>
      have hargs : Arguments.ofWords ((if reversed then ["-r"] else []) ++ [f]) =
          ⟨if reversed then ['r'] else [], [f]⟩ := by
        cases reversed <;> simp [Arguments.ofWords, hf, hflag]
      have hinput : IsInput s.fs
          (Arguments.ofWords ((if reversed then ["-r"] else []) ++ [f])).operands none c := by
        rw [hargs]
        exact .inr ⟨rfl, f, rfl, hread⟩
      have hn : Arguments.has ⟨if reversed then ['r'] else [], [f]⟩ 'n' = false := by
        cases reversed <;> rfl
      have hr : Arguments.has ⟨if reversed then ['r'] else [], [f]⟩ 'r' = reversed := by
        cases reversed <;> rfl
      have hoperand : IsOperand f := hf
      rw [runWords_sort_text now hinput (by rw [hargs, hn]), hargs, hr, if_pos hoperand]
  | some ls =>
      have hargs :
          (Arguments.ofWords ((if reversed then ["-r"] else []) ++ [f])).operands = [] := by
        cases reversed <;> simp [Arguments.ofWords, hf, hflag]
      rw [runWords_standard "sort" Command.sort rfl]
      simp only [Command.sort, Handler.trying, inputText, hargs, Except.map, settle, Reply.resolve,
        IsOperand, hf, reduceCtorEq, ↓reduceIte]
      rfl

/-- The words that call `uniq`. -/
def uniqWords (repeatedOnly : Bool) : List String :=
  if repeatedOnly then ["uniq", "-d"] else ["uniq"]

theorem runWords_uniq (s : Session) (text : String) (repeatedOnly : Bool) :
    runWords ⟨Catalog.standard, now⟩ s (uniqWords repeatedOnly) (some text) =
      (s, .ok (joinLines (collapse false repeatedOnly (lines text)))) := by
  have hwords : uniqWords repeatedOnly = "uniq" :: (if repeatedOnly then ["-d"] else []) := by
    cases repeatedOnly <;> rfl
  have hc : (Arguments.ofWords (if repeatedOnly then ["-d"] else [])).has 'c' = false := by
    cases repeatedOnly <;> rfl
  have hd : (Arguments.ofWords (if repeatedOnly then ["-d"] else [])).has 'd' = repeatedOnly := by
    cases repeatedOnly <;> rfl
  rw [hwords, runWords_uniq_runs now (.inl rfl), hc, hd]

/-! ## The line -/

/-- The line that sorts a file and collapses its lines. -/
def sortUniqLine (reversed repeatedOnly : Bool) (tf : String) : String :=
  pipeline [sortStage reversed ++ " " ++ tf, if repeatedOnly then "uniq -d" else "uniq"]

theorem sortFileStage_spells (htf : Spells tf [f]) (reversed : Bool) :
    Spells (sortStage reversed ++ " " ++ tf) (sortWords reversed ++ [f]) :=
  (sortStage_spells reversed).append htf (by cases reversed <;> simp [sortWords]) (by simp)

theorem uniqStage_spells (repeatedOnly : Bool) :
    Spells (if repeatedOnly then "uniq -d" else "uniq") (uniqWords repeatedOnly) := by
  cases repeatedOnly with
  | false => decide +kernel
  | true => decide +kernel

theorem splitFirstWord_sortUniqLine (reversed repeatedOnly : Bool) (tf : String) :
    (splitFirstWord (sortUniqLine reversed repeatedOnly tf)).1 = "sort" := by
  obtain ⟨rest, hrest⟩ : ∃ rest, sortUniqLine reversed repeatedOnly tf = "sort" ++ " " ++ rest := by
    refine ⟨(if reversed then "-r " else "") ++
      (tf ++ " | " ++ if repeatedOnly then "uniq -d" else "uniq"), ?_⟩
    rw [← String.toList_inj]
    cases reversed <;> simp [sortUniqLine, pipeline, sortStage]
  have hname : "sort".toList.all (!isBlank ·) := by decide
  rw [hrest, splitFirstWord_append (by simpa using hname) (by simp [isBlank]) (by simp)]

/-- The lines that `sort` passes on are collapsed, but for a last one that is empty. -/
theorem execute_sortUniqLine (now : Filesystem.Instant) (hsort : s.aliases.lookup "sort" = none)
    (htf : Spells tf [f]) (hread : s.fs.read (some f) = .ok c) (reversed repeatedOnly : Bool) :
    (execute ⟨Catalog.standard, now⟩ s (sortUniqLine reversed repeatedOnly tf)).2 =
      if IsOperand f then
        .ok (joinLines (collapse false repeatedOnly
          (dropLastEmpty (sortByText reversed (lines c)))))
      else .error "sort: no input provided (use pipe or provide filename)" := by
  have hspells : List.Forall₂ Spells
      [sortStage reversed ++ " " ++ tf, if repeatedOnly then "uniq -d" else "uniq"]
      [sortWords reversed ++ [f], uniqWords repeatedOnly] :=
    .cons (sortFileStage_spells htf reversed) (.cons (uniqStage_spells repeatedOnly) .nil)
  have hwords : ∀ ws ∈ [sortWords reversed ++ [f], uniqWords repeatedOnly], ws ≠ [] := by
    cases repeatedOnly <;> simp [uniqWords]
  have halias : s.aliases.lookup (splitFirstWord (sortUniqLine reversed repeatedOnly tf)).1 =
      none := by
    rw [splitFirstWord_sortUniqLine, hsort]
  have hlines : ∀ l ∈ sortByText reversed (lines c), '\n' ∉ l.toList := fun l hl =>
    not_mem_of_mem_lines ((sortByText_perm reversed (lines c)).mem_iff.mp hl)
  rw [sortUniqLine, execute_spelled hspells (by simp) hwords halias, ← sortUniqLine]
  have hread' : (s.recording (sortUniqLine reversed repeatedOnly tf)).fs.read (some f) = .ok c := by
    rw [recording_fs, hread]
  have hrun := runWords_sort_file now hread' reversed
  by_cases hf : IsOperand f
  · rw [if_pos hf] at hrun ⊢
    rw [runPiped_ok hrun (by simp), runPiped, runWords_uniq, lines_joinLines hlines]
  · rw [if_neg hf] at hrun ⊢
    rw [runPiped_failed hrun rfl]

/-! ## What the line shows -/

/-- The outcome is a success that shows just the lines with the property, each once and in order. -/
def ShowsSorted (o : Outcome) (r : String → String → Prop) (P : String → Prop) : Prop :=
  ∃ ls, o = .ok (joinLines ls) ∧ ls.Pairwise r ∧ ∀ l, l ∈ ls ↔ P l

theorem showsSorted_iff (now : Filesystem.Instant) (hsort : s.aliases.lookup "sort" = none)
    (htf : Spells tf [f]) (hread : s.fs.read (some f) = .ok c) (reversed repeatedOnly : Bool)
    (hempty : reversed → "" ∉ lines c) :
    ShowsSorted (execute ⟨Catalog.standard, now⟩ s (sortUniqLine reversed repeatedOnly tf)).2
      (Precedes reversed) (fun l => (if repeatedOnly then 2 else 1) ≤ (lines c).count l) ↔
      IsOperand f := by
  rw [execute_sortUniqLine now hsort htf hread]
  by_cases hf : IsOperand f
  · simp only [hf, ↓reduceIte, iff_true]
    exact ⟨_, by rw [joinLines_collapse_dropLastEmpty repeatedOnly hempty],
      pairwise_collapse_sortByText reversed repeatedOnly (lines c),
      fun l => mem_collapse_sortByText reversed repeatedOnly (lines c)⟩
  · simp [hf, ShowsSorted, Outcome.ok, Outcome.error, Outcome.errorCode]

/-- A file that is sorted and collapsed shows each of its lines once, in ascending order. In reverse
and with repeated lines only it shows each of these once, in descending order, if none is empty.
Both are so just if the name of the file is not read as flags. -/
theorem sort_uniq_extracts_iff (now : Filesystem.Instant) (s : Session) (f tf c : String)
    (hsort : s.aliases.lookup "sort" = none) (htf : Spells tf [f])
    (hread : s.fs.read (some f) = .ok c) :
    let outcome (line : String) : Outcome := (execute ⟨Catalog.standard, now⟩ s line).2
    (ShowsSorted (outcome ("sort " ++ tf ++ " | uniq")) (· < ·) (· ∈ lines c) ↔ IsOperand f) ∧
    ("" ∉ lines c →
      (ShowsSorted (outcome ("sort -r " ++ tf ++ " | uniq -d")) (· > ·)
        (2 ≤ (lines c).count ·) ↔ IsOperand f)) := by
  have hplain : sortUniqLine false false tf = "sort " ++ tf ++ " | uniq" := by
    simp [sortUniqLine, pipeline, sortStage, ← String.toList_inj]
  have hrepeated : sortUniqLine true true tf = "sort -r " ++ tf ++ " | uniq -d" := by
    simp [sortUniqLine, pipeline, sortStage, ← String.toList_inj]
  have hmem : (fun l => (if false then 2 else 1) ≤ (lines c).count l) = (· ∈ lines c) := by
    funext l
    simp
  intro outcome
  constructor
  · have h := showsSorted_iff now hsort htf hread false false (by simp)
    rw [hplain, hmem] at h
    exact h
  · intro hempty
    have h := showsSorted_iff now hsort htf hread true true fun _ => hempty
    rw [hrepeated] at h
    exact h

theorem sort_uniq_extracts_words :
    let fs := ((Filesystem.empty 0 "/home/user").populate 0
      [("/tmp/f", some "pear\n\nfig\n\npear\n"),
        ("/tmp/g", some "fig\npear\nfig\nplum\npear")]).1
    let s : Session := ⟨{}, fs, .empty 10, .initial, []⟩
    let outcome (line : String) : Outcome := (execute ⟨Catalog.standard, 0⟩ s line).2
    ShowsSorted (outcome "sort /tmp/f | uniq") (· < ·) (· ∈ ["pear", "", "fig", "", "pear"]) ∧
      ShowsSorted (outcome "sort -r /tmp/g | uniq -d") (· > ·)
        (2 ≤ ["fig", "pear", "fig", "plum", "pear"].count ·) := by
  intro fs s outcome
  have hsort : s.aliases.lookup "sort" = none := by decide
  have hspells : Spells "/tmp/f" ["/tmp/f"] ∧ Spells "/tmp/g" ["/tmp/g"] := by decide +kernel
  have hreadf : s.fs.read (some "/tmp/f") = .ok "pear\n\nfig\n\npear\n" := by decide +kernel
  have hreadg : s.fs.read (some "/tmp/g") = .ok "fig\npear\nfig\nplum\npear" := by decide +kernel
  have hoperand : IsOperand "/tmp/f" ∧ IsOperand "/tmp/g" := by decide
  have hlinesf : lines "pear\n\nfig\n\npear\n" = ["pear", "", "fig", "", "pear"] := by
    decide +kernel
  have hlinesg : lines "fig\npear\nfig\nplum\npear" =
      ["fig", "pear", "fig", "plum", "pear"] := by
    decide +kernel
  have hplain := (sort_uniq_extracts_iff 0 s _ _ _ hsort hspells.1 hreadf).1.mpr hoperand.1
  have hrepeated := ((sort_uniq_extracts_iff 0 s _ _ _ hsort hspells.2 hreadg).2
    (by rw [hlinesg]; decide)).mpr hoperand.2
  rw [hlinesf] at hplain
  rw [hlinesg] at hrepeated
  exact ⟨hplain, hrepeated⟩

/-- A file whose name begins with a dash is taken for a flag, so that `sort` has nothing to read. -/
theorem sort_misses_dashed_file :
    let fs := ((Filesystem.empty 0 "/").populate 0 [("/-d", some "b\na\nb\n")]).1
    let s : Session := ⟨{}, fs, .empty 10, .initial, []⟩
    s.aliases.lookup "sort" = none ∧ Spells "-d" ["-d"] ∧
      s.fs.read (some "-d") = .ok "b\na\nb\n" ∧
      ¬ ShowsSorted (execute ⟨Catalog.standard, 0⟩ s "sort -d | uniq").2 (· < ·)
        (· ∈ lines "b\na\nb\n") := by
  intro fs s
  have hsort : s.aliases.lookup "sort" = none := by decide
  have hspells : Spells "-d" ["-d"] := by decide +kernel
  have hread : s.fs.read (some "-d") = .ok "b\na\nb\n" := by decide +kernel
  have hflag : ¬ IsOperand "-d" := by decide
  have hline : sortUniqLine false false "-d" = "sort -d | uniq" := by decide
  have hfailed := execute_sortUniqLine 0 hsort hspells hread false false
  rw [hline, if_neg hflag] at hfailed
  refine ⟨hsort, hspells, hread, ?_⟩
  rintro ⟨ls, hls, -⟩
  rw [hfailed] at hls
  exact Bool.false_ne_true (congrArg Outcome.success hls)

end Shellbox
