import Shellbox.Proofs.Command.Columns
import Shellbox.Proofs.Command.Lines
import Shellbox.Proofs.Command.Readers
import Shellbox.Proofs.Shell.Calls

/-!
# Cutting keeps lines

`cut` shows each line of its input by the columns at the positions that are asked for, and loses
none of a line if all of them are. Its two options may stand in any order, before or behind the
operands, each with its value in a word of its own or in one word with it.
-/

namespace Shellbox.Command

open Filesystem Text

variable {s : Session} {option letter value d spec w : String}
  {before ws behind files args : List String} {piped : Option String} {text : String}

/-! ## Options among other words -/

/-- The words of an option of one letter and its value: two, or both in one. -/
def optionWords (letter value : String) : List (List String) :=
  [["-" ++ letter, value], ["-" ++ letter ++ value]]

theorem IsTakenFor.isPrefix (h : IsTakenFor option w) : option.toList <+: w.toList := by
  rcases h with rfl | h
  · exact List.prefix_refl _
  · unfold joinedValue? at h
    split at h
    · rename_i hcond
      exact List.isPrefixOf_iff_prefix.mp (Bool.and_eq_true_iff.mp hcond).1
    · cases h

theorem joinedValue?_append (hletter : letter.length = 1) (hvalue : value ≠ "") :
    joinedValue? ("-" ++ letter) ("-" ++ letter ++ value) = some value := by
  have hpre : ("-" ++ letter).toList.isPrefixOf ("-" ++ letter ++ value).toList = true :=
    List.isPrefixOf_iff_prefix.mpr ⟨value.toList, by simp⟩
  have hdash : ("-" ++ letter).length = 2 := by rw [String.length_append, hletter]; rfl
  have hlong : decide (("-" ++ letter ++ value).length > 2) = true := by
    have hpos : value.length ≠ 0 := by simpa using hvalue
    rw [String.length_append, hdash, decide_eq_true_eq]
    omega
  have hrest : ("-" ++ letter ++ value).toList.drop 2 = value.toList := by
    rw [String.toList_append, ← hdash, ← String.length_toList, List.drop_left]
  rw [joinedValue?, hpre, hlong, Bool.and_self, if_pos rfl, hrest, String.ofList_toList]

/-- Words that are not taken for an option are left over. -/
theorem takeOptionFrom_append (h : ∀ w ∈ ws, ¬ IsTakenFor option w) (found : Option String)
    (behind : List String) :
    takeOptionFrom option found (ws ++ behind) =
      ((takeOptionFrom option found behind).1, ws ++ (takeOptionFrom option found behind).2) := by
  induction ws with
  | nil => rfl
  | cons w ws ih =>
      obtain ⟨hw, hws⟩ := List.forall_mem_cons.mp h
      obtain ⟨hne, hjoined⟩ : w ≠ option ∧ joinedValue? option w = none := by
        simpa [IsTakenFor] using hw
      rw [List.cons_append, takeOptionFrom.eq_def]
      simp only [if_neg hne, hjoined, ih hws, List.cons_append]

theorem takeOptionFrom_optionWords (hletter : letter.length = 1) (hvalue : value ≠ "")
    (hws : ws ∈ optionWords letter value) (found : Option String) (behind : List String) :
    takeOptionFrom ("-" ++ letter) found (ws ++ behind) =
      takeOptionFrom ("-" ++ letter) (some value) behind := by
  simp only [optionWords, List.mem_cons, List.not_mem_nil, or_false] at hws
  rcases hws with rfl | rfl
  · rw [List.cons_append, takeOptionFrom.eq_def]
    simp
  · have hne : "-" ++ letter ++ value ≠ "-" ++ letter := by
      intro heq
      have hlength := congrArg String.length heq
      have hpos : value.length ≠ 0 := by simpa using hvalue
      rw [String.length_append] at hlength
      omega
    rw [List.cons_append, takeOptionFrom.eq_def]
    simp only [if_neg hne, joinedValue?_append hletter hvalue, List.nil_append]

/-- An option that is given once is taken out of the words around it. -/
theorem takeOption_around (hletter : letter.length = 1) (hvalue : value ≠ "")
    (hws : ws ∈ optionWords letter value) (hbefore : ∀ w ∈ before, ¬ IsTakenFor ("-" ++ letter) w)
    (hbehind : ∀ w ∈ behind, ¬ IsTakenFor ("-" ++ letter) w) :
    takeOption letter (before ++ (ws ++ behind)) = (some value, before ++ behind) := by
  have hrest : takeOptionFrom ("-" ++ letter) (some value) behind = (some value, behind) := by
    simpa [takeOptionFrom] using takeOptionFrom_append hbehind (some value) []
  rw [takeOption, takeOptionFrom_append hbefore, takeOptionFrom_optionWords hletter hvalue hws,
    hrest]

/-! ## The arguments of `cut` -/

/-- A delimiter and a list of fields, in either order, before or behind operands. -/
def IsCutCall (d spec : String) (files args : List String) : Prop :=
  ∃ ds ∈ optionWords "d" d, ∃ fs ∈ optionWords "f" spec, ∃ opts ∈ [ds ++ fs, fs ++ ds],
    args ∈ [files ++ opts, opts ++ files]

theorem IsUndashed.not_isTakenFor (h : IsUndashed w) (letter : String) :
    ¬ IsTakenFor ("-" ++ letter) w := by
  simpa [IsTakenFor] using joinedValue?_of_undashed h

/-- No word of a delimiter is taken for a list of fields. -/
theorem not_isTakenFor_of_mem_optionWords (hd : ¬ "-f".toList <+: d.toList)
    (hws : ws ∈ optionWords "d" d) : ∀ w ∈ ws, ¬ IsTakenFor "-f" w := by
  simp only [optionWords, List.mem_cons, List.not_mem_nil, or_false] at hws
  intro w hw htaken
  have hpre := htaken.isPrefix
  rcases hws with rfl | rfl
  · rcases List.mem_pair.mp hw with rfl | rfl
    · simp at hpre
    · exact hd hpre
  · rw [List.mem_singleton.mp hw] at hpre
    simp at hpre

/-- Whatever the order and the spelling, the options and the operands are read apart. -/
theorem IsCutCall.ofWords_eq (h : IsCutCall d spec files args) (hd : d ≠ "")
    (hapart : ¬ "-f".toList <+: d.toList) (hspec : spec ≠ "") (hfiles : ∀ f ∈ files, IsUndashed f) :
    CutArguments.ofWords args = ⟨some spec, some d, files⟩ := by
  obtain ⟨ds, hds, fs, hfs, opts, hopts, hargs⟩ := h
  have hdelimiter : ∀ w ∈ ds, ¬ IsTakenFor "-f" w := not_isTakenFor_of_mem_optionWords hapart hds
  have hoperands (letter : String) : ∀ w ∈ files, ¬ IsTakenFor ("-" ++ letter) w :=
    fun w hw => (hfiles w hw).not_isTakenFor letter
  have haround (before behind : List String) (hbefore : ∀ w ∈ before, ¬ IsTakenFor "-f" w)
      (hbehind : ∀ w ∈ behind, ¬ IsTakenFor "-f" w) :
      takeOption "f" (before ++ (fs ++ behind)) = (some spec, before ++ behind) :=
    takeOption_around rfl hspec hfs hbefore hbehind
  -- The fields are taken out first, which leaves the delimiter before or behind the operands.
  have hspecTaken : takeOption "f" args = (some spec, files ++ ds) ∨
      takeOption "f" args = (some spec, ds ++ files) := by
    have hbefore : ∀ w ∈ files ++ ds, ¬ IsTakenFor "-f" w :=
      List.forall_mem_append.mpr ⟨hoperands "f", hdelimiter⟩
    have hbehind : ∀ w ∈ ds ++ files, ¬ IsTakenFor "-f" w :=
      List.forall_mem_append.mpr ⟨hdelimiter, hoperands "f"⟩
    rcases List.mem_pair.mp hopts with rfl | rfl <;> rcases List.mem_pair.mp hargs with rfl | rfl
    · exact .inl (by simpa using haround (files ++ ds) [] hbefore (List.forall_mem_nil _))
    · exact .inr (by simpa using haround ds files hdelimiter (hoperands "f"))
    · exact .inl (haround files ds (hoperands "f") hdelimiter)
    · exact .inr (by simpa using haround [] (ds ++ files) (List.forall_mem_nil _) hbehind)
  have hfirst : takeOption "d" (ds ++ files) = (some d, files) :=
    takeOption_around rfl hd hds (List.forall_mem_nil _) (hoperands "d")
  have hlast : takeOption "d" (files ++ ds) = (some d, files) := by
    simpa using takeOption_around rfl hd hds (hoperands "d") (List.forall_mem_nil _)
  rcases hspecTaken with htaken | htaken
  · simp only [CutArguments.ofWords, htaken, hlast, Arguments.ofWords_undashed hfiles]
  · simp only [CutArguments.ofWords, htaken, hfirst, Arguments.ofWords_undashed hfiles]

theorem runWords_cut (now : Instant) (h : IsCutCall d spec files args) (hd : d ≠ "")
    (hapart : ¬ "-f".toList <+: d.toList) (hspec : spec ≠ "") (hfiles : ∀ f ∈ files, IsUndashed f) :
    runWords ⟨Catalog.standard, now⟩ s ("cut" :: args) piped =
      (s, CutArguments.answer ⟨some spec, some d, files⟩ (inputText "cut" s.fs files piped)) := by
  rw [runWords_standard "cut" cut rfl]
  have hanswer : settle "cut" (cut ⟨now, Catalog.standard.pages⟩ s args piped).2 =
      cutOutcome s.fs args piped := Reader.answer_cut _ s args piped
  have hsame : (cut ⟨now, Catalog.standard.pages⟩ s args piped).1 = s := rfl
  simp only [hanswer, hsame, cutOutcome, h.ofWords_eq hd hapart hspec hfiles]

/-! ## Lines that are cut -/

/-- A line has one list of columns. `cut` does the same for its options in either order and
spelling, before or behind its operands: it shows each line of its input by the columns at the
chosen positions, in their order and with the delimiter between them. If all positions are chosen
up to the greatest number of columns, it shows the lines themselves. -/
theorem cut_keeps_lines (now : Instant) (s : Session) {d spec : String} {fields : List Nat}
    {files : List String} (piped : Option String) (hd : d ≠ "")
    (hapart : ¬ "-f".toList <+: d.toList) (hspec : readFields spec = .ok fields)
    (hfiles : ∀ f ∈ files, IsUndashed f) :
    let run args := runWords ⟨Catalog.standard, now⟩ s ("cut" :: args) piped
    (∀ line, ∃! columns, IsColumns d line columns) ∧
    (∀ args args', IsCutCall d spec files args → IsCutCall d spec files args' →
      run args = run args') ∧
    ∀ args text, IsCutCall d spec files args → IsInput s.fs files piped text →
      ∃ shown, run args = (s, ⟨joinLines shown, true, 0, []⟩) ∧
        List.Forall₂ (fun line out => ∃ columns, IsColumns d line columns ∧
          out = d.intercalate (chosen fields columns)) (lines text) shown ∧
        ∀ n, (∀ k, 0 < k → k ≤ n → k ∈ fields) →
          (∀ line ∈ lines text, ∀ columns, IsColumns d line columns → columns.length ≤ n) →
            joinLines shown = joinLines (lines text) := by
  intro run
  have hne : spec ≠ "" := by
    rintro rfl
    cases hspec
  refine ⟨fun line => ⟨columnsOf d line, (isColumns_iff hd).mpr rfl,
    fun _ => (isColumns_iff hd).mp⟩, ?_, ?_⟩
  · intro args args' h h'
    exact (runWords_cut now h hd hapart hne hfiles).trans
      (runWords_cut now h' hd hapart hne hfiles).symm
  · intro args text hargs hinput
    refine ⟨(lines text).map (pickColumns d fields), ?_, ?_, ?_⟩
    · refine (runWords_cut now hargs hd hapart hne hfiles).trans ?_
      simp only [CutArguments.answer, String.isEmpty_eq_false_iff.mpr hd, Option.getD_some,
        String.isEmpty_eq_false_iff.mpr hne, hspec, inputText_eq_ok_iff.mpr hinput,
        Bool.false_eq_true, ↓reduceIte, Outcome.ok]
    · refine List.forall₂_map_right_iff.mpr (List.forall₂_same.mpr fun line _ => ?_)
      have hcolumns : IsColumns d line (columnsOf d line) := (isColumns_iff hd).mpr rfl
      exact ⟨_, hcolumns, pickColumns_eq hd hspec hcolumns⟩
    · intro n hcovered hlines
      refine congrArg joinLines ((List.map_congr_left fun line hline => ?_).trans (List.map_id _))
      have hcolumns : IsColumns d line (columnsOf d line) := (isColumns_iff hd).mpr rfl
      have hwidth := hlines line hline _ hcolumns
      rw [pickColumns_eq hd hspec hcolumns,
        chosen_of_covered fun k hpos hk => hcovered k hpos (hk.trans hwidth),
        hcolumns.intercalate_eq, id]

theorem cut_keeps_lines_overlapping :
    let fs := ((empty 0 "/").populate 0 [("/f", some "a:::b::\n\nc")]).1
    let s : Session := ⟨{}, fs, .empty 10, [], []⟩
    let run args := runWords ⟨Catalog.standard, 0⟩ s ("cut" :: args) none
    run ["-d::", "-f3,1-2", "/f"] = run ["/f", "-f", "3,1-2", "-d", "::"] ∧
      ∃ shown, run ["-d::", "-f3,1-2", "/f"] = (s, ⟨joinLines shown, true, 0, []⟩) ∧
        List.Forall₂ (fun line out => ∃ columns, IsColumns "::" line columns ∧
          out = "::".intercalate (chosen [1, 2, 3] columns)) ["a:::b::", "", "c"] shown ∧
        joinLines shown = "a:::b::\n\nc" := by
  intro fs s run
  have hread : s.fs.read (some "/f") = .ok "a:::b::\n\nc" := by decide +kernel
  have hlines : lines "a:::b::\n\nc" = ["a:::b::", "", "c"] := by decide +kernel
  have hspec : readFields "3,1-2" = .ok [1, 2, 3] := by
    refine readFields_eq_ok_iff.mpr ⟨[[3], [1, 2]], ?_, ?_⟩
    · have hpieces : "3,1-2".toList.splitOn ',' = [['3'], ['1', '-', '2']] := by decide
      rw [hpieces]
      exact .cons (by decide) (.cons (by decide) .nil)
    · have hstrict : [1, 2, 3].Pairwise (· < ·) := by decide
      refine hstrict.eq_of_mem_iff (pairwise_increasing _) fun n => ?_
      simp only [mem_increasing, List.flatten_cons, List.flatten_nil, List.cons_append,
        List.nil_append, List.mem_cons, List.not_mem_nil, or_false]
      omega
  have hjoined : IsCutCall "::" "3,1-2" ["/f"] ["-d::", "-f3,1-2", "/f"] :=
    ⟨["-d::"], by decide, ["-f3,1-2"], by decide, _, List.mem_cons_self, by decide⟩
  have hapart : IsCutCall "::" "3,1-2" ["/f"] ["/f", "-f", "3,1-2", "-d", "::"] :=
    ⟨["-d", "::"], by decide, ["-f", "3,1-2"], by decide, ["-f", "3,1-2", "-d", "::"], by decide,
      by decide⟩
  have hinput : IsInput s.fs ["/f"] none "a:::b::\n\nc" := .inr ⟨rfl, "/f", rfl, hread⟩
  have hfiles : ∀ f ∈ ["/f"], IsUndashed f := by decide
  have hd : "::" ≠ "" := by decide
  obtain ⟨-, hsame, hcut⟩ := cut_keeps_lines 0 s none hd (by decide) hspec hfiles
  obtain ⟨shown, hshown, hcolumns, hcovered⟩ := hcut _ _ hjoined hinput
  have hchosen : ∀ k, 0 < k → k ≤ 3 → k ∈ [1, 2, 3] := by
    intro k hpos hk
    simp only [List.mem_cons, List.not_mem_nil, or_false]
    omega
  have hwidth : ∀ line ∈ lines "a:::b::\n\nc", ∀ columns, IsColumns "::" line columns →
      columns.length ≤ 3 := by
    have hall : ∀ line ∈ ["a:::b::", "", "c"], (columnsOf "::" line).length ≤ 3 := by decide
    intro line hline columns h
    rw [(isColumns_iff hd).mp h]
    exact hall line (hlines ▸ hline)
  have hjoin : joinLines (lines "a:::b::\n\nc") = "a:::b::\n\nc" := by
    rw [hlines]
    decide
  rw [hlines] at hcolumns
  exact ⟨hsame _ _ hjoined hapart, shown, hshown, hcolumns,
    (hcovered 3 hchosen hwidth).trans hjoin⟩

end Shellbox.Command
