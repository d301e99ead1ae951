import Mathlib.Data.List.Forall2
import Shellbox.Proofs.Line.Redirected

/-!
# Spelled words and the lines made of them

A text spells words if it reads as just these words and stands on its own: it is trimmed, and
nothing is pending at its end. Spelled words can be written behind each other, and texts that spell
words are the stages of the line in which they stand between bars.
-/

namespace Shellbox.Line

open Text QuoteState

variable {text a b : String} {ws vs : List String} {ts : List String} {wss : List (List String)}

/-- The text reads as the words, is trimmed and leaves nothing pending. -/
structure Spells (text : String) (ws : List String) : Prop where
  scan_eq : scan text = ws.map .word
  settled : endState text = .clean
  trimmed : trim text = text

instance (text : String) (ws : List String) : Decidable (Spells text ws) :=
  decidable_of_iff (scan text = ws.map .word ∧ endState text = .clean ∧ trim text = text)
    ⟨fun h => ⟨h.1, h.2.1, h.2.2⟩, fun h => ⟨h.scan_eq, h.settled, h.trimmed⟩⟩

namespace Spells

theorem no_pipe (h : Spells text ws) : hasPipe text = false := hasPipe_of_words h.scan_eq

theorem no_redirect (h : Spells text ws) : hasRedirect text = false :=
  hasRedirect_of_words h.scan_eq

theorem tokenTexts_eq (h : Spells text ws) : tokenTexts text = ws := tokenTexts_of_words h.scan_eq

theorem ne_empty (h : Spells text ws) (hws : ws ≠ []) : text ≠ "" := by
  rintro rfl
  have hnil : scan "" = [] := rfl
  have hscan := h.scan_eq
  rw [hnil] at hscan
  exact hws (by simpa using hscan.symm)

theorem toList_trimmed (h : Spells text ws) : trimChars text.toList = text.toList :=
  toList_of_trim h.trimmed

/-- Two spellings with a blank between them spell all the words. -/
theorem append (ha : Spells a ws) (hb : Spells b vs) (hws : ws ≠ []) (hvs : vs ≠ []) :
    Spells (a ++ " " ++ b) (ws ++ vs) := by
  have hspace : clean.next ' ' = clean := (clean_blank rfl).2
  have hlist : (a ++ " " ++ b).toList = a.toList ++ ' ' :: b.toList := by simp
  constructor
  · rw [scan_append_blank ha.settled, ha.scan_eq, hb.scan_eq, List.map_append]
  · rw [endState, hlist, after_append, ← endState, ha.settled, after_cons, hspace]
    exact hb.settled
  · exact trim_append (ha.ne_empty hws) ha.trimmed (hb.ne_empty hvs) hb.trimmed " "

end Spells

theorem quote_spells (w : String) : Spells (quote w) [w] := by
  have hquote : quoteWords [w] = quote w := by simp [quoteWords]
  rw [← hquote]
  refine ⟨scan_quoteWords [w], ?_, trim_quoteWords w []⟩
  rw [hquote, endState, after_quote]

theorem quoteWords_spells {ws : List String} (h : ws ≠ []) : Spells (quoteWords ws) ws := by
  induction ws with
  | nil => exact absurd rfl h
  | cons w ws ih =>
      cases ws with
      | nil => simpa [quoteWords] using quote_spells w
      | cons v ws =>
          rw [quoteWords_cons_cons]
          exact (quote_spells w).append (ih (by simp)) (by simp) (by simp)

/-! ## Stages between bars -/

/-- The line with the texts as its stages. -/
def pipeline (ts : List String) : String := " | ".intercalate ts

theorem pipeline_cons_cons (t u : String) (ts : List String) :
    pipeline (t :: u :: ts) = t ++ " | " ++ pipeline (u :: ts) := by
  simp [pipeline]

theorem pipeline_ne_empty {t : String} (ht : t ≠ "") (ts : List String) :
    pipeline (t :: ts) ≠ "" := by
  cases ts with
  | nil => simpa [pipeline] using ht
  | cons u ts =>
      rw [pipeline_cons_cons]
      simp [ht]

theorem stages_blank (line : String) : stages (" " ++ line) = stages line := by
  have hspace : clean.kind ' ' = .space ∧ clean.next ' ' = clean := clean_blank rfl
  have hblank : isBlank ' ' = true := rfl
  have hlabels : labels (" " ++ line) = (' ', .space) :: labels line := by
    rw [labels, String.toList_append, ← hspace.1]
    simp [labels, hspace.2]
  rw [stages, hlabels, List.splitOnP_cons_eq_if_modifyHead, if_neg (by simp), stages]
  cases (labels line).splitOnP (·.2 = .pipe) with
  | nil => rfl
  | cons seg segs => simp [trimChars, trimStart_cons, hblank]

theorem stages_of_no_pipe {line : String} (h : hasPipe line = false) :
    stages line = [trim line] := by
  have hbars : ∀ x ∈ clean.label line.toList, x.2 ≠ .pipe := by
    simpa [hasPipe, labels] using h
  rw [stages, labels, splitOnP_label_last hbars, List.map_singleton, map_fst_label, trim]

/-- Texts that spell words are the stages of their line. -/
theorem stages_pipeline (h : List.Forall₂ Spells ts wss) (hne : ts ≠ []) :
    stages (pipeline ts) = ts := by
  induction h with
  | nil => exact absurd rfl hne
  | @cons t ws ts wss ht hts ih =>
      cases ts with
      | nil =>
          have hline : pipeline [t] = t := by simp [pipeline]
          rw [hline, stages_of_no_pipe ht.no_pipe, ht.trimmed]
      | cons u ts =>
          have hspace : clean.kind ' ' = .space ∧ clean.next ' ' = clean := clean_blank rfl
          have hblank : isBlank ' ' = true := rfl
          have hlist : (pipeline (t :: u :: ts)).toList =
              (t.toList ++ [' ']) ++ '|' :: (" " ++ pipeline (u :: ts)).toList := by
            rw [pipeline_cons_cons]
            simp
          have hafter : clean.after (t.toList ++ [' ']) = clean := by
            rw [after_append, ← endState, ht.settled, after_cons, hspace.2, after_nil]
          have hbars : ∀ x ∈ clean.label (t.toList ++ [' ']), x.2 ≠ .pipe := by
            have hplain := ht.no_pipe
            rw [hasPipe, labels, List.any_eq_false] at hplain
            rw [label_append, ← endState, ht.settled, label_cons, hspace.1, label_nil]
            exact List.forall_mem_append.mpr ⟨by simpa using hplain, by simp⟩
          have htrim : trimChars (t.toList ++ [' ']) = t.toList := by
            rw [← trimStart_trimEnd, trimEnd_concat, if_pos hblank, trimStart_trimEnd,
              ht.toList_trimmed]
          have hsplit := splitOnP_label_bar hbars hafter (" " ++ pipeline (u :: ts)).toList
          rw [stages, labels, hlist, hsplit, List.map_cons, ← labels, ← stages, stages_blank,
            ih (by simp), map_fst_label, htrim, String.ofList_toList]

theorem hasPipe_pipeline {t u : String} (h : List.Forall₂ Spells (t :: u :: ts) wss) :
    hasPipe (pipeline (t :: u :: ts)) := by
  have hlength := length_stages (pipeline (t :: u :: ts))
  rw [stages_pipeline h (by simp)] at hlength
  rw [hasPipe_iff, ← List.count_pos_iff]
  simp only [List.length_cons] at hlength
  omega

theorem trim_pipeline (h : List.Forall₂ Spells ts wss) (hwss : ∀ ws ∈ wss, ws ≠ []) :
    trim (pipeline ts) = pipeline ts := by
  induction h with
  | nil => rfl
  | @cons t ws ts wss ht hts ih =>
      obtain ⟨hws, hwss⟩ := List.forall_mem_cons.mp hwss
      cases hts with
      | nil => simpa [pipeline] using ht.trimmed
      | @cons u vs ts wss hu hts =>
          have hne : pipeline (u :: ts) ≠ "" :=
            pipeline_ne_empty (hu.ne_empty (hwss vs (by simp))) ts
          rw [pipeline_cons_cons]
          exact trim_append (ht.ne_empty hws) ht.trimmed hne (ih hwss) " | "

end Shellbox.Line
