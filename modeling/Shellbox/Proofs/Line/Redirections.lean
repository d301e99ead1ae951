import Shellbox.Proofs.Line.Saving

/-!
# Lines with one redirection

A line has a redirection just if it has one redirect sign with something before it and nothing but
words behind it. So the words that are written on both sides of a sign are read back, with blanks
around the sign or without.
-/

namespace Shellbox.Line

open Text QuoteState

variable {line rest gap : String} {ts : List Token} {r : Redirection}

/-! ## The tokens of a redirection -/

theorem ofTokens?_eq_some (h : Redirection.ofTokens? ts = some r) :
    ∃ before op after, ts = before ++ .operator op :: after ∧ (∀ t ∈ before, (!t.isRedirect)) ∧
      (Token.operator op).isRedirect ∧ before ≠ [] ∧ after ≠ [] ∧ (∀ t ∈ after, (!t.isOperator)) ∧
      r = ⟨before.map Token.text, " ".intercalate (after.map Token.text), op = .append⟩ := by
  have hsplit : ts.takeWhile (!·.isRedirect) ++ ts.dropWhile (!·.isRedirect) = ts :=
    List.takeWhile_append_dropWhile
  simp only [Redirection.ofTokens?] at h
  split at h
  · cases h
  · rename_i t after hdrop
    have hsign : t.isRedirect := by
      simpa [hdrop] using List.head_dropWhile_not (!·.isRedirect) (l := ts) (by simp [hdrop])
    split at h
    · cases h
    · rename_i hcond
      simp only [Bool.or_eq_true, List.isEmpty_iff, List.any_eq_true, not_or] at hcond
      cases t with
      | word t => cases hsign
      | operator op =>
          refine ⟨_, op, after, by rw [← hdrop, hsplit], fun t ht => ?_, hsign, hcond.1.1,
            hcond.1.2, ?_, ?_⟩
          · simpa using List.mem_takeWhile_imp ht
          · simpa using hcond.2
          · simpa using h.symm

theorem countP_isRedirect_eq_one_iff {before after : List Token} {op : Operator}
    (hop : (Token.operator op).isRedirect) :
    (before ++ .operator op :: after).countP (·.isRedirect) = 1 ↔
      (∀ t ∈ before, (!t.isRedirect)) ∧ ∀ t ∈ after, (!t.isRedirect) := by
  have hnone (us : List Token) : us.countP (·.isRedirect) = 0 ↔ ∀ t ∈ us, (!t.isRedirect) := by
    simp [List.countP_eq_zero]
  simp only [List.countP_append, List.countP_cons, hop, ↓reduceIte, ← hnone]
  omega

theorem forall_not_isOperator_iff :
    (∀ t ∈ ts, (!t.isOperator)) ↔ (∀ t ∈ ts, (!t.isRedirect)) ∧ Token.operator .pipe ∉ ts := by
  constructor
  · intro h
    refine ⟨fun t ht => ?_, fun hpipe => by simpa [Token.isOperator] using h _ hpipe⟩
    cases t with
    | word t => rfl
    | operator op => simpa [Token.isOperator] using h _ ht
  · rintro ⟨h, hpipe⟩ t ht
    cases t with
    | word t => rfl
    | operator op =>
        cases op with
        | pipe => exact absurd ht hpipe
        | redirect => simpa [Token.isRedirect] using h _ ht
        | append => simpa [Token.isRedirect] using h _ ht

/-- A line has a redirection just if one of its tokens is a redirect sign, something is before it,
and something, but no bar, is behind it. -/
theorem redirection?_eq_some_iff :
    redirection? line = some r ↔
      (scan line).countP (·.isRedirect) = 1 ∧
      ∃ before op after, scan line = before ++ .operator op :: after ∧
        (Token.operator op).isRedirect ∧ before ≠ [] ∧ after ≠ [] ∧
        Token.operator .pipe ∉ after ∧
        r = ⟨before.map Token.text, " ".intercalate (after.map Token.text), op = .append⟩ := by
  rw [redirection?]
  constructor
  · intro h
    obtain ⟨before, op, after, hts, hplain, hop, hbefore, hafter, hwords, hr⟩ :=
      ofTokens?_eq_some h
    obtain ⟨hno, hpipe⟩ := forall_not_isOperator_iff.mp hwords
    refine ⟨?_, before, op, after, hts, hop, hbefore, hafter, hpipe, hr⟩
    rw [hts]
    exact (countP_isRedirect_eq_one_iff hop).mpr ⟨hplain, hno⟩
  · rintro ⟨hcount, before, op, after, hts, hop, hbefore, hafter, hpipe, rfl⟩
    rw [hts] at hcount ⊢
    obtain ⟨hplain, hno⟩ := (countP_isRedirect_eq_one_iff hop).mp hcount
    exact ofTokens?_append hbefore hplain hop hafter (forall_not_isOperator_iff.mpr ⟨hno, hpipe⟩)

/-! ## Words on both sides of a sign -/

theorem gather_labels_not_redirect (h : hasRedirect line = false) :
    ∀ x ∈ labels line, x.2 ≠ .redirect := by
  intro x hx
  simpa using List.any_eq_false.mp h x hx

/-- A sign between texts without signs stands between the tokens of the texts. -/
theorem scan_append_sign (h : endState line = .clean) (hline : hasRedirect line = false)
    (hrest : hasRedirect rest = false) (append : Bool) :
    scan (line ++ (signOf append).text ++ rest) =
      scan line ++ .operator (signOf append) :: scan rest := by
  have hsign : clean.kind '>' = .redirect ∧ clean.next '>' = clean := ⟨rfl, rfl⟩
  have hbefore : ∀ x ∈ (labels line).getLast?, x.2 ≠ .redirect := fun x hx =>
    gather_labels_not_redirect hline x (List.mem_of_getLast? hx)
  have hbehind := gather_labels_not_redirect hrest
  have hlabels : labels (line ++ (signOf append).text ++ rest) =
      labels line ++ clean.label ((signOf append).text.toList ++ rest.toList) := by
    rw [labels, String.toList_append, String.toList_append, List.append_assoc, label_append,
      ← endState, h, ← labels]
  rw [scan, hlabels]
  cases append with
  | false =>
      have hlone : ∀ d r, labels rest ≠ (d, .redirect) :: r := by
        intro d r hr
        exact hbehind (d, .redirect) (by simp [hr]) rfl
      have hlist : (signOf false).text.toList = ['>'] := rfl
      rw [hlist, List.singleton_append, label_cons, hsign.1, hsign.2, ← labels,
        Token.gather_append none _ (.inr (.inr ⟨rfl, hbefore⟩)),
        Token.gather_lone_redirect none _ hlone]
      rfl
  | true =>
      have hlist : (signOf true).text.toList = ['>', '>'] := rfl
      rw [hlist, List.cons_append, List.singleton_append, label_cons, hsign.1, hsign.2,
        Token.gather_append none _ (.inr (.inr ⟨rfl, hbefore⟩)), label_cons, hsign.1, hsign.2,
        ← labels, Token.gather]
      rfl

theorem scan_append_blanks (h : endState line = .clean) (hgap : ∀ c ∈ gap.toList, isBlank c) :
    scan (line ++ gap) = scan line := by
  by_cases hne : gap = ""
  · rw [hne, String.append_empty]
  · have hnil : scan "" = [] := rfl
    have happend := scan_append_gap h hgap hne ""
    rwa [String.append_empty, hnil, List.append_nil] at happend

theorem scan_blanks_append (hgap : ∀ c ∈ gap.toList, isBlank c) (rest : String) :
    scan (gap ++ rest) = scan rest := by
  by_cases hne : gap = ""
  · rw [hne, String.empty_append]
  · have hnil : scan "" = [] := rfl
    have happend := scan_append_gap (a := "") rfl hgap hne rest
    rwa [String.empty_append, hnil, List.nil_append] at happend

theorem endState_append_blanks (h : endState line = .clean)
    (hgap : ∀ c ∈ gap.toList, isBlank c) : endState (line ++ gap) = .clean := by
  have hblanks : ∀ cs : List Char, (∀ c ∈ cs, isBlank c) → clean.after cs = clean := by
    intro cs hcs
    induction cs with
    | nil => rfl
    | cons c cs ih =>
        obtain ⟨hc, hcs⟩ := List.forall_mem_cons.mp hcs
        rw [after_cons, (clean_blank hc).2, ih hcs]
  rw [endState, String.toList_append, after_append, ← endState, h, hblanks _ hgap]

/-- Words on both sides of a sign are read back, and a line has a redirection only if it has just
one redirect sign, between the words of the command and those of the target. -/
theorem redirections_read_back :
    (∀ (ws ts : List String) (append : Bool) (gap gap' : String), ws ≠ [] → ts ≠ [] →
      (∀ c ∈ gap.toList, isBlank c) → (∀ c ∈ gap'.toList, isBlank c) →
      redirection? (quoteWords ws ++ gap ++ (signOf append).text ++ gap' ++ quoteWords ts) =
        some ⟨ws, " ".intercalate ts, append⟩) ∧
    ∀ line r, redirection? line = some r ↔
      (scan line).countP (·.isRedirect) = 1 ∧
      ∃ before op after, scan line = before ++ .operator op :: after ∧
        (Token.operator op).isRedirect ∧ before ≠ [] ∧ after ≠ [] ∧
        Token.operator .pipe ∉ after ∧
        r = ⟨before.map Token.text, " ".intercalate (after.map Token.text), op = .append⟩ := by
  refine ⟨fun ws ts append gap gap' hws hts hgap hgap' => ?_, fun _ _ => redirection?_eq_some_iff⟩
  have hsettled := (quoteWords_spells hws).settled
  have hbefore : scan (quoteWords ws ++ gap) = ws.map .word := by
    rw [scan_append_blanks hsettled hgap, scan_quoteWords]
  have hafter : scan (gap' ++ quoteWords ts) = ts.map .word := by
    rw [scan_blanks_append hgap', scan_quoteWords]
  rw [String.append_assoc, redirection?,
    scan_append_sign (endState_append_blanks hsettled hgap) (hasRedirect_of_words hbefore)
      (hasRedirect_of_words hafter), hbefore, hafter,
    ofTokens?_append (by simpa using hws) (by simp [Token.isRedirect]) (signOf_isRedirect append)
      (by simpa using hts) (by simp [Token.isOperator])]
  cases append <;> simp [Function.comp_def, Token.text, signOf]

theorem redirections_read_back_quoted_sign :
    let line := "\"echo\" \"a > b\" \"\">>\t \"my\" \"notes|\""
    redirection? line = some ⟨["echo", "a > b", ""], "my notes|", true⟩ ∧
      (scan line).countP (·.isRedirect) = 1 ∧
      redirection? "echo a >>> b" = none := by
  intro line
  have hline : line = quoteWords ["echo", "a > b", ""] ++ "" ++ (signOf true).text ++ "\t " ++
      quoteWords ["my", "notes|"] := by
    decide +kernel
  have hread := redirections_read_back.1 ["echo", "a > b", ""] ["my", "notes|"] true "" "\t "
    (by simp) (by simp) (by simp) (by simp [isBlank])
  rw [← hline] at hread
  have hcount := ((redirections_read_back.2 line _).mp hread).1
  have htwice : (scan "echo a >>> b").countP (·.isRedirect) ≠ 1 := by decide +kernel
  refine ⟨hread, hcount, ?_⟩
  cases hr : redirection? "echo a >>> b" with
  | none => rfl
  | some r => exact absurd ((redirections_read_back.2 _ r).mp hr).1 htwice

end Shellbox.Line
