import Shellbox.Proofs.Line.Stages

/-!
# Words in double quotes

Inside double quotes a written word reads back character by character, and its closing quote leaves
nothing pending. So a line of written words has just these words as its tokens, and no bar, redirect
sign or blank of a word counts as one.
-/

namespace Shellbox.Line

open Text QuoteState

/-- The state inside double quotes. -/
def QuoteState.insideDouble : QuoteState := ⟨some .double, false⟩

/-! ## One word -/

theorem after_escapeChars (cs : List Char) :
    insideDouble.after (escapeChars cs) = insideDouble := by
  fun_induction escapeChars cs with
  | case1 => rfl
  | case2 c r hc ih => simpa [next, insideDouble] using ih
  | case3 c r hc ih =>
      obtain ⟨hquote, hback⟩ := not_or.mp hc
      have hnext : insideDouble.next c = insideDouble := by
        simp [next, insideDouble, QuoteMark.char, hquote, hback]
      rw [after_cons, hnext, ih]

/-- Inside double quotes an escaped word goes behind the word under way as it was. -/
theorem gather_escapeChars (w : String) (cs : List Char) (rest : List (Char × CharKind)) :
    Token.gather (some w) (insideDouble.label (escapeChars cs) ++ rest) =
      Token.gather (some (w ++ String.ofList cs)) rest := by
  have hpush (w : String) (c : Char) (r : List Char) :
      w.push c ++ String.ofList r = w ++ String.ofList (c :: r) := by
    simp [← String.toList_inj]
  fun_induction escapeChars cs generalizing w with
  | case1 => simp
  | case2 c r hc ih =>
      have hkind : insideDouble.kind '\\' = .escape := rfl
      have hescaped : (insideDouble.next '\\').kind c = .literal := rfl
      have hnext : (insideDouble.next '\\').next c = insideDouble := rfl
      rw [label_cons, label_cons, hkind, hescaped, hnext]
      simp only [List.cons_append, Token.gather, Option.getD_some]
      rw [ih, hpush]
  | case3 c r hc ih =>
      obtain ⟨hquote, hback⟩ := not_or.mp hc
      have hkind : insideDouble.kind c = .literal := by
        simp [kind, insideDouble, QuoteMark.char, hquote, hback]
      have hnext : insideDouble.next c = insideDouble := by
        simp [next, insideDouble, QuoteMark.char, hquote, hback]
      rw [label_cons, hkind, hnext]
      simp only [List.cons_append, Token.gather, Option.getD_some]
      rw [ih, hpush]

theorem toList_quote (w : String) :
    (quote w).toList = '"' :: (escapeChars w.toList ++ ['"']) := by
  simp [quote]

theorem after_quote (w : String) : clean.after (quote w).toList = clean := by
  have hopen : clean.next '"' = insideDouble := rfl
  rw [toList_quote, after_cons, hopen, after_append, after_escapeChars]
  rfl

/-- A written word is one word, also an empty one. -/
theorem gather_quote (w : String) (rest : List (Char × CharKind)) :
    Token.gather none (clean.label (quote w).toList ++ rest) = Token.gather (some w) rest := by
  have hopen : clean.kind '"' = .quote ∧ clean.next '"' = insideDouble := ⟨rfl, rfl⟩
  have hclose : insideDouble.label ['"'] = [('"', .quote)] := by
    rw [label_cons, label_nil]
    rfl
  rw [toList_quote, label_cons, hopen.1, hopen.2, label_append, after_escapeChars, hclose]
  simp only [List.cons_append, List.append_assoc, Token.gather, Option.getD_none]
  rw [gather_escapeChars]
  simp [Token.gather]

/-! ## A line of words -/

theorem quoteWords_cons_cons (w v : String) (ws : List String) :
    quoteWords (w :: v :: ws) = quote w ++ " " ++ quoteWords (v :: ws) := by
  simp [quoteWords]

theorem scan_quoteWords (ws : List String) : scan (quoteWords ws) = ws.map .word := by
  induction ws with
  | nil => rfl
  | cons w ws ih =>
      cases ws with
      | nil =>
          have h := gather_quote w []
          rw [List.append_nil] at h
          simpa [quoteWords, scan, labels, Token.gather, Token.flush] using h
      | cons v ws =>
          have hspace : clean.kind ' ' = .space ∧ clean.next ' ' = clean := ⟨rfl, rfl⟩
          have hlabels : labels (quoteWords (w :: v :: ws)) =
              clean.label (quote w).toList ++ (' ', .space) :: labels (quoteWords (v :: ws)) := by
            rw [labels, quoteWords_cons_cons, String.toList_append, String.toList_append,
              List.append_assoc, label_append, after_quote, ← hspace.1]
            simp [labels, hspace.2]
          rw [scan, hlabels, gather_quote, Token.gather, ← scan, ih]
          rfl

theorem quoteWords_no_pipe (ws : List String) : hasPipe (quoteWords ws) = false :=
  hasPipe_of_words (scan_quoteWords ws)

theorem quoteWords_no_redirect (ws : List String) : hasRedirect (quoteWords ws) = false :=
  hasRedirect_of_words (scan_quoteWords ws)

theorem tokenTexts_quoteWords (ws : List String) : tokenTexts (quoteWords ws) = ws :=
  tokenTexts_of_words (scan_quoteWords ws)

/-! ## The ends of a line of words -/

theorem quoteWords_ends (w : String) (ws : List String) :
    ∃ cs, (quoteWords (w :: ws)).toList = '"' :: (cs ++ ['"']) := by
  induction ws generalizing w with
  | nil => exact ⟨escapeChars w.toList, by simp [quoteWords, toList_quote]⟩
  | cons v ws ih =>
      obtain ⟨cs, hcs⟩ := ih v
      refine ⟨escapeChars w.toList ++ '"' :: ' ' :: '"' :: cs, ?_⟩
      rw [quoteWords_cons_cons, String.toList_append, String.toList_append, hcs, toList_quote]
      simp

theorem trim_quoteWords (w : String) (ws : List String) :
    trim (quoteWords (w :: ws)) = quoteWords (w :: ws) := by
  have hquote : isBlank '"' = false := rfl
  obtain ⟨cs, hcs⟩ := quoteWords_ends w ws
  rw [trim, hcs, trimChars, trimStart_cons, if_neg (by simp [hquote]), ← List.cons_append,
    trimEnd_concat, if_neg (by simp [hquote]), List.cons_append, ← hcs, String.ofList_toList]

theorem isAllBlank_quoteWords (w : String) (ws : List String) :
    isAllBlank (quoteWords (w :: ws)) = false := by
  have hquote : isBlank '"' = false := rfl
  obtain ⟨cs, hcs⟩ := quoteWords_ends w ws
  simp [isAllBlank, hcs, hquote]

end Shellbox.Line
