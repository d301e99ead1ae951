import Mathlib.Data.List.DropRight
import Shellbox.Proofs.Line.Quoted

/-!
# Lines with a redirection behind them

A redirection written behind a line belongs to its last stage: the other stages stay as they are,
and the last one has the same words as before and the new file as its target.
-/

namespace Shellbox.Line

open Text QuoteState

variable {line stage target : String} {as bs cs tail : List Char}

/-! ## Texts that do not end in a blank -/

theorem trimEnd_eq_self_iff : trimEnd cs = cs ↔ ∀ c ∈ cs.getLast?, isBlank c = false := by
  rcases cs.eq_nil_or_concat with rfl | ⟨cs, c, rfl⟩
  · simp
  · rw [List.concat_eq_append, trimEnd_concat, List.getLast?_concat]
    cases hc : isBlank c with
    | false => simp [hc]
    | true =>
        have hlen := congrArg List.length (trimEnd_append_takeWhile cs)
        rw [List.length_append] at hlen
        have hne : trimEnd cs ≠ cs ++ [c] := by
          intro h
          rw [h, List.length_append, List.length_singleton] at hlen
          omega
        simp [hc, hne]

theorem trimEnd_of_suffix (h : bs <:+ cs) (hcs : trimEnd cs = cs) : trimEnd bs = bs := by
  obtain ⟨as, rfl⟩ := h
  rw [trimEnd_eq_self_iff] at hcs ⊢
  intro c hc
  exact hcs c (by simp [List.getLast?_append, Option.mem_def.mp hc])

theorem trimEnd_append (hne : bs ≠ []) (hbs : trimEnd bs = bs) (as : List Char) :
    trimEnd (as ++ bs) = as ++ bs := by
  rw [trimEnd_eq_self_iff] at hbs ⊢
  rwa [List.getLast?_append, List.getLast?_eq_some_getLast hne, Option.some_or,
    ← List.getLast?_eq_some_getLast hne]

theorem trimStart_append (h : trimStart as ≠ []) (bs : List Char) :
    trimStart (as ++ bs) = trimStart as ++ bs := by
  rw [trimStart, List.dropWhile_append, if_neg (by simpa [trimStart] using h), trimStart]

theorem trimEnd_of_trimChars (h : trimChars cs = cs) : trimEnd cs = cs := by
  have hlen : cs.length ≤ (trimEnd cs).length := by
    calc cs.length = (trimStart (trimEnd cs)).length := by rw [trimStart_trimEnd, h]
      _ ≤ (trimEnd cs).length := (List.dropWhile_suffix _).length_le
  exact List.IsPrefix.eq_of_length_le ⟨_, trimEnd_append_takeWhile cs⟩ hlen

theorem trimStart_ne_nil (hne : cs ≠ []) (hcs : trimEnd cs = cs) : trimStart cs ≠ [] := by
  intro hnil
  have hall : cs.takeWhile isBlank = cs := by
    have hsplit := List.takeWhile_append_dropWhile (p := isBlank) (l := cs)
    rwa [← trimStart, hnil, List.append_nil] at hsplit
  have hblank := List.all_eq_true.mp (hall ▸ List.all_takeWhile) _ (List.getLast_mem hne)
  have hlast := trimEnd_eq_self_iff.mp hcs _ (List.getLast?_eq_some_getLast hne)
  simp [hblank] at hlast

/-- Trimming a text and one behind it trims the first, if neither ends in a blank. -/
theorem trimChars_append (ha : as ≠ []) (has : trimEnd as = as) (hb : bs ≠ [])
    (hbs : trimEnd bs = bs) : trimChars (as ++ bs) = trimChars as ++ bs := by
  rw [← trimStart_trimEnd as, has, trimChars, trimStart_append (trimStart_ne_nil ha has),
    trimEnd_append hb hbs]

theorem toList_of_trim (h : trim line = line) : trimChars line.toList = line.toList := by
  rw [← String.toList_ofList (l := trimChars line.toList), ← trim, h]

theorem trim_trim (text : String) : trim (trim text) = trim text := by
  have hstart (cs : List Char) : trimStart (trimStart cs) = trimStart cs :=
    List.dropWhile_idempotent _ _
  have hend (cs : List Char) : trimEnd (trimEnd cs) = trimEnd cs := by
    rw [trimEnd, trimEnd, List.reverse_reverse, List.dropWhile_idempotent]
  have htwice : trimChars (trimChars text.toList) = trimChars text.toList := by
    rw [trimChars, ← trimStart_trimEnd text.toList, hstart, trimStart_trimEnd, trimChars, hend]
  rw [trim, trim, String.toList_ofList, htwice]

/-- Trimming reaches into neither of two trimmed texts, whatever is between them. -/
theorem trim_append {a b : String} (ha : a ≠ "") (hta : trim a = a) (hb : b ≠ "")
    (htb : trim b = b) (between : String) : trim (a ++ between ++ b) = a ++ between ++ b := by
  have hbehind : trimEnd (between.toList ++ b.toList) = between.toList ++ b.toList :=
    trimEnd_append (by simpa using hb) (trimEnd_of_trimChars (toList_of_trim htb)) _
  rw [trim, String.toList_append, String.toList_append, List.append_assoc,
    trimChars_append (by simpa using ha) (trimEnd_of_trimChars (toList_of_trim hta))
      (by simpa using fun _ => hb) hbehind, toList_of_trim hta]
  simp [← String.toList_inj]

/-- The blanks that are trimmed off the end of a line alone stay if a text stands behind them. -/
theorem trim_append_gap {tail : String} (hline : trim line ≠ "") (htail : trim tail = tail)
    (hne : tail ≠ "") (gap : String) :
    ∃ blanks : String, (∀ c ∈ blanks.toList, isBlank c) ∧
      trim (line ++ gap ++ tail) = trim line ++ (blanks ++ gap) ++ tail := by
  have hstart : trimStart line.toList ≠ [] := by
    intro hnil
    exact hline (by simp [trim, trimChars, hnil])
  have hbehind : trimEnd (gap.toList ++ tail.toList) = gap.toList ++ tail.toList :=
    trimEnd_append (by simpa using hne) (trimEnd_of_trimChars (toList_of_trim htail)) _
  obtain ⟨blanks, hblanks, hsplit⟩ : ∃ blanks : List Char, (∀ c ∈ blanks, isBlank c) ∧
      trimStart line.toList = trimChars line.toList ++ blanks :=
    ⟨_, fun c hc => List.all_eq_true.mp List.all_takeWhile c (List.mem_reverse.mp hc),
      (trimEnd_append_takeWhile _).symm⟩
  refine ⟨String.ofList blanks, by simpa using hblanks, ?_⟩
  rw [trim, String.toList_append, String.toList_append, List.append_assoc, trimChars,
    trimStart_append hstart, trimEnd_append (by simpa using fun _ => hne) hbehind, hsplit]
  simp [← String.toList_inj, trim]

/-! ## Tokens with a redirection -/

/-- Behind tokens without a redirect sign, a sign and words make a redirection to these words. -/
theorem ofTokens?_append {ts us : List Token} {op : Operator} (hne : ts ≠ [])
    (hplain : ∀ t ∈ ts, (!t.isRedirect)) (hop : (Token.operator op).isRedirect) (hus : us ≠ [])
    (hwords : ∀ t ∈ us, (!t.isOperator)) :
    Redirection.ofTokens? (ts ++ .operator op :: us) =
      some ⟨ts.map Token.text, " ".intercalate (us.map Token.text), op = .append⟩ := by
  have htake : (ts ++ Token.operator op :: us).takeWhile (!·.isRedirect) = ts := by
    rw [List.takeWhile_append_of_pos hplain]
    simp [hop]
  have hdrop : (ts ++ Token.operator op :: us).dropWhile (!·.isRedirect) = .operator op :: us := by
    rw [List.dropWhile_append_of_pos hplain]
    simp [hop]
  have hany : us.any (·.isOperator) = false := by simpa using hwords
  rw [Redirection.ofTokens?, htake, hdrop]
  simp [hne, hus, hany]

theorem scan_not_isRedirect (h : hasRedirect line = false) : ∀ t ∈ scan line, (!t.isRedirect) := by
  rw [← Bool.not_eq_true, hasRedirect_iff, not_or] at h
  intro t ht
  cases t with
  | word t => rfl
  | operator op =>
      cases op with
      | pipe => rfl
      | redirect => exact absurd ht h.1
      | append => exact absurd ht h.2

/-! ## The text of a redirection -/

/-- The line with its output sent to a file. -/
def redirectedTo (line target : String) : String := line ++ " > " ++ quote target

/-- What stands behind the line. -/
def redirectChars (target : String) : List Char := ' ' :: '>' :: ' ' :: (quote target).toList

theorem toList_redirectedTo (line target : String) :
    (redirectedTo line target).toList = line.toList ++ redirectChars target := by
  simp [redirectedTo, redirectChars]

theorem trimEnd_redirectChars (target : String) :
    trimEnd (redirectChars target) = redirectChars target := by
  rw [trimEnd_eq_self_iff, redirectChars, toList_quote]
  intro c hc
  obtain rfl : '"' = c := by simpa [List.getLast?_cons] using hc
  rfl

/-- Trimming stops before the redirection. -/
theorem trimChars_append_redirectChars (hne : cs ≠ []) (hcs : trimEnd cs = cs) (target : String) :
    trimChars (cs ++ redirectChars target) = trimChars cs ++ redirectChars target :=
  trimChars_append hne hcs (by simp [redirectChars]) (trimEnd_redirectChars target)

theorem label_redirectChars (target : String) :
    clean.label (redirectChars target) =
      (' ', .space) :: ('>', .redirect) :: (' ', .space) :: clean.label (quote target).toList := by
  simp only [redirectChars, label_cons]
  rfl

theorem redirectChars_no_pipe (target : String) :
    ∀ x ∈ clean.label (redirectChars target), x.2 ≠ .pipe := by
  have hquote : hasPipe (quote target) = false := by simpa [quoteWords] using quoteWords_no_pipe [target]
  intro x hx
  simp only [label_redirectChars, List.mem_cons] at hx
  rcases hx with rfl | rfl | rfl | hx
  · simp
  · simp
  · simp
  · simpa using List.any_eq_false.mp hquote x hx

theorem scan_redirectedTo (h : endState line = .clean) (target : String) :
    scan (redirectedTo line target) = scan line ++ [.operator .redirect, .word target] := by
  have hsign : endState ">" = .clean ∧ scan ">" = [.operator .redirect] := by decide
  have hquote : scan (quote target) = [.word target] := by
    simpa [quoteWords] using scan_quoteWords [target]
  have hline : redirectedTo line target = line ++ " " ++ (">" ++ " " ++ quote target) := by
    simp [redirectedTo, ← String.toList_inj]
  rw [hline, scan_append_blank h, scan_append_blank hsign.1, hsign.2, hquote]
  rfl

theorem hasRedirect_redirectedTo (h : endState line = .clean) (target : String) :
    hasRedirect (redirectedTo line target) := by
  rw [hasRedirect_iff, scan_redirectedTo h]
  simp

/-- The redirection behind a line without one has the words of the line and the new target. -/
theorem redirection?_redirectedTo (h : endState line = .clean) (hwords : scan line ≠ [])
    (hno : hasRedirect line = false) (target : String) :
    redirection? (redirectedTo line target) = some ⟨tokenTexts line, target, false⟩ := by
  rw [redirection?, scan_redirectedTo h, ofTokens?_append hwords (scan_not_isRedirect hno) rfl (by simp)
    (by simp [Token.isOperator])]
  rfl

/-- A trimmed line stays trimmed with a redirection behind it. -/
theorem trim_redirectedTo (hne : line ≠ "") (h : trim line = line) (target : String) :
    trim (redirectedTo line target) = redirectedTo line target :=
  trim_append hne h (by simp [← String.toList_inj, toList_quote])
    (by simpa [quoteWords] using trim_quoteWords target []) " > "

/-! ## The last stage -/

theorem after_trimStart (cs : List Char) : clean.after (trimStart cs) = clean.after cs := by
  induction cs with
  | nil => rfl
  | cons c cs ih =>
      rw [trimStart_cons]
      split
      · rename_i hc
        rw [ih, after_cons, (clean_blank hc).2]
      · rfl

/-- A text without bars behind a line goes behind what its last bar leaves. -/
theorem splitOnP_label_append (cs : List Char) :
    ∃ front last, last <:+ cs ∧ clean.after last = clean.after cs ∧
      ∀ tail, (∀ x ∈ (clean.after cs).label tail, x.2 ≠ .pipe) →
        (clean.label (cs ++ tail)).splitOnP (·.2 = .pipe) =
          front ++ [clean.label (last ++ tail)] := by
  induction cs using stage_induction with
  | last cs h =>
      refine ⟨[], cs, List.suffix_refl cs, rfl, fun tail htail => ?_⟩
      refine splitOnP_label_last ?_
      rw [label_append]
      exact List.forall_mem_append.mpr ⟨h, htail⟩
  | bar as bs has hclean ih =>
      have hafter : clean.after (as ++ '|' :: bs) = clean.after bs := by
        rw [after_append, hclean]
        rfl
      obtain ⟨front, last, hsuffix, hlast, hsplit⟩ := ih
      refine ⟨clean.label as :: front, last, ?_, hlast.trans hafter.symm, fun tail htail => ?_⟩
      · exact (hsuffix.trans (List.suffix_cons _ _)).trans (List.suffix_append _ _)
      · rw [hafter] at htail
        rw [List.append_assoc, List.cons_append, splitOnP_label_bar has hclean, hsplit tail htail,
          List.cons_append]

/-- The labelled characters behind the last bar of a line. -/
def behindLastBar (line : String) : List (Char × CharKind) :=
  ((labels line).splitOnP (·.2 = .pipe)).getLastD []

/-- A redirection can be written behind the line: nothing is pending at its end, and behind its last
bar there are words and no redirect sign. -/
structure Redirectable (line : String) : Prop where
  trimmed : trim line = line
  settled : endState line = .clean
  tokens : Token.gather none (behindLastBar line) ≠ []
  no_redirect : ∀ x ∈ behindLastBar line, x.2 ≠ .redirect

theorem Redirectable.stages (h : Redirectable line) (target : String) :
    ∃ front last, endState last = .clean ∧ scan last ≠ [] ∧ hasRedirect last = false ∧
      stages line = front ++ [last] ∧
      stages (redirectedTo line target) = front ++ [redirectedTo last target] := by
  obtain ⟨front, last, hsuffix, hafter, hsplit⟩ := splitOnP_label_append line.toList
  have hplain := hsplit [] (by simp)
  have hredirected := hsplit (redirectChars target) (by
    rw [← endState, h.settled]
    exact redirectChars_no_pipe target)
  rw [List.append_nil, List.append_nil] at hplain
  have hbehind : behindLastBar line = clean.label last := by
    rw [behindLastBar, labels, hplain]
    simp
  have hne : last ≠ [] := by
    rintro rfl
    exact h.tokens (by rw [hbehind]; rfl)
  have hend : trimEnd last = last :=
    trimEnd_of_suffix hsuffix (trimEnd_of_trimChars (toList_of_trim h.trimmed))
  have hstart : trimChars last = trimStart last := by rw [← trimStart_trimEnd, hend]
  have htrim := trimChars_append_redirectChars hne hend target
  refine ⟨front.map fun cs => String.ofList (trimChars (cs.map (·.1))),
    String.ofList (trimChars last), ?_, ?_, ?_, ?_, ?_⟩
  · rw [endState, String.toList_ofList, hstart, after_trimStart, hafter, ← endState, h.settled]
  · rw [scan_ofList, hstart, gather_trimStart, ← hbehind]
    exact h.tokens
  · refine List.any_eq_false.mpr fun x hx => ?_
    rw [labels, String.toList_ofList] at hx
    simpa using h.no_redirect x (hbehind ▸ mem_label_trimChars hx)
  · rw [Line.stages, labels, hplain]
    simp
  · have hstage : String.ofList (trimChars last ++ redirectChars target) =
        redirectedTo (String.ofList (trimChars last)) target := by
      simp [← String.toList_inj, toList_redirectedTo]
    rw [Line.stages, labels, toList_redirectedTo, hredirected]
    simp [htrim, hstage]

end Shellbox.Line
