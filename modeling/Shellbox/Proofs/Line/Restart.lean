import Shellbox.Proofs.Line.Conservation

/-!
# Where a line is read afresh

Behind a text at whose end nothing is pending, a line is labelled as if it began there, and behind a
blank it is cut into tokens as if it began there. Where something is pending a blank is a part of a
word, so it is read afresh at no other place.
-/

namespace Shellbox.Line

open Text QuoteState

variable {a b : String} {w : Char}

/-- Nothing is pending just if no quotes are open and no backslash waits for its character. -/
theorem QuoteState.eq_clean_iff {s : QuoteState} :
    s = clean ↔ s.isQuoted = false ∧ s.escaped = false := by
  obtain ⟨m, e⟩ := s
  cases m <;> simp [clean, isQuoted]

/-! ## Labels behind a text -/

theorem labels_append_eq (a b : String) :
    labels (a ++ b) = labels a ++ (endState a).label b.toList := by
  rw [labels, String.toList_append, label_append, ← labels, ← endState]

theorem length_labels (a : String) : (labels a).length = a.length := by
  rw [← String.length_toList, ← map_fst_label clean a.toList, List.length_map, labels]

/-- Behind a text the labels depend on nothing but what is pending at its end. -/
theorem drop_labels_append (a b : String) :
    (labels (a ++ b)).drop a.length = (endState a).label b.toList := by
  rw [labels_append_eq, ← length_labels, List.drop_left]

theorem endState_append (a b : String) : endState (a ++ b) = (endState a).after b.toList := by
  rw [endState, String.toList_append, after_append, ← endState]

/-- A blank behind a text tells by its label whether something is pending. -/
theorem eq_clean_of_labels (hw : isBlank w)
    (h : (labels (a ++ String.singleton w)).drop a.length = labels (String.singleton w)) :
    endState a = clean := by
  rw [drop_labels_append, String.toList_singleton, label_cons, labels, String.toList_singleton,
    label_cons, (clean_blank hw).1, List.cons.injEq, Prod.mk.injEq] at h
  exact eq_clean_of_kind (.inl h.1.2)

/-! ## Tokens behind a blank -/

/-- A blank that is no space makes a word of the line longer. -/
theorem eq_clean_of_scan (hw : isBlank w) (h : scan (a ++ String.singleton w) = scan a) :
    endState a = clean := by
  have hlabels : labels (a ++ String.singleton w) = labels a ++ [(w, (endState a).kind w)] := by
    rw [labels_append_eq, String.toList_singleton, label_cons, label_nil]
  rcases kind_blank (endState a) hw with hspace | hliteral
  · exact eq_clean_of_kind (.inl hspace)
  · have hlength := congrArg Token.wordLength h
    rw [scan, scan, hlabels, Token.wordLength_gather, Token.wordLength_gather, hliteral] at hlength
    simp at hlength

/-- Behind a text a line is read as if it began there just if neither quotes are open at the end of
the text nor a backslash waits for its character: so it is with the labels and with what is pending,
and so it is with the tokens if a blank stands between. -/
theorem reading_restarts_iff (a : String) :
    ((endState a).isQuoted = false ∧ (endState a).escaped = false ↔
      ∀ b, (labels (a ++ b)).drop a.length = labels b ∧ endState (a ++ b) = endState b) ∧
    ((endState a).isQuoted = false ∧ (endState a).escaped = false ↔
      ∀ w b, isBlank w → scan (a ++ String.singleton w ++ b) = scan a ++ scan b) := by
  rw [← eq_clean_iff]
  refine ⟨⟨fun h b => ?_, fun h => ?_⟩, fun h w b hw => ?_, fun h => ?_⟩
  · rw [drop_labels_append, endState_append, h]
    exact ⟨rfl, rfl⟩
  · exact eq_clean_of_labels rfl (h (String.singleton ' ')).1
  · refine scan_append_gap h (by simpa using hw) ?_ b
    simp [← String.toList_inj]
  · have hblank := h ' ' "" rfl
    have hempty : scan "" = [] := rfl
    rw [String.append_empty, hempty, List.append_nil] at hblank
    exact eq_clean_of_scan rfl hblank

theorem reading_restarts_iff_between_signs :
    let a := "x'>|'\\' ''>"
    let b := ">'y z"
    (endState a).isQuoted = false ∧ (endState a).escaped = false ∧
    (labels (a ++ b)).drop a.length = labels b ∧ endState (a ++ b) = ⟨some .single, false⟩ ∧
    isBlank '\t' ∧ scan (a ++ "\t" ++ b) = scan a ++ scan b ∧
    scan a = [.word "x>|'", .word "", .operator .redirect] ∧
    scan b = [.operator .redirect, .word "y z"] := by
  intro a b
  obtain ⟨hlabels, htokens⟩ := reading_restarts_iff a
  have hsettled : (endState a).isQuoted = false ∧ (endState a).escaped = false := by
    decide +kernel
  obtain ⟨hbehind, hstate⟩ := hlabels.mp hsettled b
  have hend : endState b = ⟨some .single, false⟩ := by decide +kernel
  exact ⟨hsettled.1, hsettled.2, hbehind, hstate.trans hend, rfl, htokens.mp hsettled '\t' b rfl,
    by decide +kernel, by decide +kernel⟩

end Shellbox.Line
