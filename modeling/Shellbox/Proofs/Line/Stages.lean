import Shellbox.Proofs.Line.Tokens
import Shellbox.Line.Stage

/-!
# Stages and tokens

The tokens of a line are those of its stages before trimming, with a bar between neighbours. The
tests for a bar and for a redirect sign, the stages and the tokens all tell the same operators.
Trimming a stage keeps its tokens just if it takes off nothing but spaces: an escaped or quoted
blank at the end of a stage is lost.
-/

namespace Shellbox.Line

open Text QuoteState

variable {cs : List Char} {seg : List (Char × CharKind)}

/-! ## Labels and trimming -/

theorem gather_trimStart (cs : List Char) :
    Token.gather none (clean.label (trimStart cs)) = Token.gather none (clean.label cs) := by
  induction cs with
  | nil => rfl
  | cons c cs ih =>
      rw [trimStart_cons]
      split
      · rename_i hc
        obtain ⟨hk, hn⟩ := clean_blank hc
        rw [ih, label_cons, hk, hn]
        rfl
      · rfl

theorem mem_label_trimStart {x : Char × CharKind} (h : x ∈ clean.label (trimStart cs)) :
    x ∈ clean.label cs := by
  induction cs with
  | nil => exact h
  | cons c cs ih =>
      rw [trimStart_cons] at h
      split at h
      · rename_i hc
        rw [label_cons, (clean_blank hc).2]
        exact List.mem_cons_of_mem _ (ih h)
      · exact h

/-- The labelled characters that trimming takes off the end of a stage. -/
def trimmedOff (seg : List (Char × CharKind)) : List (Char × CharKind) :=
  seg.drop (trimEnd (seg.map (·.1))).length

theorem trimmedOff_label (s : QuoteState) (cs : List Char) :
    trimmedOff (s.label cs) =
      (s.after (trimEnd cs)).label (cs.reverse.takeWhile isBlank).reverse := by
  have hlen : (s.label (trimEnd cs)).length = (trimEnd cs).length := by
    rw [← List.length_map (·.1), map_fst_label]
  have hcs : s.label cs = s.label (trimEnd cs) ++
      (s.after (trimEnd cs)).label (cs.reverse.takeWhile isBlank).reverse := by
    rw [← label_append, trimEnd_append_takeWhile]
  rw [trimmedOff, map_fst_label, ← hlen, hcs, List.drop_left]

theorem label_trimEnd (s : QuoteState) (cs : List Char) :
    s.label cs = s.label (trimEnd cs) ++ trimmedOff (s.label cs) := by
  rw [trimmedOff_label, ← label_append, trimEnd_append_takeWhile]

theorem label_blanks (s : QuoteState) (h : ∀ c ∈ cs, isBlank c) :
    ∀ x ∈ s.label cs, x.2 = .space ∨ x.2 = .literal := by
  induction cs generalizing s with
  | nil => simp
  | cons c cs ih =>
      intro x hx
      rw [label_cons] at hx
      rcases List.mem_cons.mp hx with rfl | hx
      · exact kind_blank s (h c (by simp))
      · exact ih (s.next c) (fun d hd => h d (by simp [hd])) x hx

theorem trimmedOff_kind (s : QuoteState) (cs : List Char) :
    ∀ x ∈ trimmedOff (s.label cs), x.2 = .space ∨ x.2 = .literal := by
  rw [trimmedOff_label]
  refine label_blanks _ fun c hc => ?_
  exact List.all_eq_true.mp List.all_takeWhile c (List.mem_reverse.mp hc)

theorem mem_label_trimChars {x : Char × CharKind} (h : x ∈ clean.label (trimChars cs)) :
    x ∈ clean.label cs := by
  rw [← trimStart_trimEnd] at h
  rw [label_trimEnd]
  exact List.mem_append_left _ (mem_label_trimStart h)

/-- Trimming keeps the tokens of a text just if no escaped or quoted blank is taken off its end. -/
theorem gather_trimChars_iff (cs : List Char) :
    Token.gather none (clean.label cs) = Token.gather none (clean.label (trimChars cs)) ↔
      ∀ x ∈ trimmedOff (clean.label cs), x.2 = .space := by
  rw [← trimStart_trimEnd, gather_trimStart]
  constructor
  · intro h x hx
    have hlen := congrArg Token.wordLength h
    rw [label_trimEnd clean cs] at hlen
    simp only [Token.wordLength_gather, List.countP_append] at hlen
    have hnone : (trimmedOff (clean.label cs)).countP (·.2 = .literal) = 0 := by omega
    rcases trimmedOff_kind clean cs x hx with hk | hk
    · exact hk
    · exact absurd hk (by simpa using List.countP_eq_zero.mp hnone x hx)
  · intro h
    rw [label_trimEnd, Token.gather_append_spaces none _ h]

/-! ## Stage by stage -/

theorem segment_label (cs : List Char) :
    ∀ seg ∈ (clean.label cs).splitOnP (·.2 = .pipe),
      seg = clean.label (seg.map (·.1)) ∧ ∀ x ∈ seg, x.2 ≠ .pipe := by
  induction cs using stage_induction with
  | last cs h =>
      intro seg hseg
      rw [splitOnP_label_last h, List.mem_singleton] at hseg
      subst hseg
      exact ⟨by rw [map_fst_label], h⟩
  | bar as bs has hclean ih =>
      intro seg hseg
      rw [splitOnP_label_bar has hclean] at hseg
      rcases List.mem_cons.mp hseg with rfl | hseg
      · exact ⟨by rw [map_fst_label], has⟩
      · exact ih seg hseg

theorem gather_eq_intercalate (cs : List Char) :
    Token.gather none (clean.label cs) =
      [Token.operator .pipe].intercalate
        (((clean.label cs).splitOnP (·.2 = .pipe)).map (Token.gather none)) := by
  induction cs using stage_induction with
  | last cs h => rw [splitOnP_label_last h]; simp
  | bar as bs has hclean ih =>
      rw [splitOnP_label_bar has hclean, List.map_cons, List.intercalate_cons_of_ne_nil (by simp),
        ← ih, label_bar hclean, Token.gather_append_pipe]
      simp

theorem length_splitOnP {α : Type} (p : α → Bool) (xs : List α) :
    (xs.splitOnP p).length = xs.countP p + 1 := by
  induction xs with
  | nil => simp
  | cons x xs ih =>
      rw [List.splitOnP_cons_eq_if_modifyHead, List.countP_cons]
      split <;> simp [ih]

/-! ## The tests, the stages and the tokens -/

theorem scan_ofList (cs : List Char) :
    scan (String.ofList cs) = Token.gather none (clean.label cs) := by
  simp [scan, labels]

theorem hasPipe_iff (line : String) : hasPipe line ↔ Token.operator .pipe ∈ scan line := by
  rw [hasPipe, scan, Token.mem_pipe_gather, List.any_eq_true]
  simp

theorem hasRedirect_iff (line : String) :
    hasRedirect line ↔
      Token.operator .redirect ∈ scan line ∨ Token.operator .append ∈ scan line := by
  rw [hasRedirect, scan, Token.mem_redirect_gather, List.any_eq_true]
  simp

theorem length_stages (line : String) :
    (stages line).length = (scan line).count (.operator .pipe) + 1 := by
  rw [stages, List.length_map, length_splitOnP, scan, Token.count_pipe_gather]

theorem stages_ne_nil (line : String) : stages line ≠ [] := by
  rw [← List.length_pos_iff, length_stages]
  omega

theorem stages_no_pipe {line stage : String} (h : stage ∈ stages line) :
    hasPipe stage = false := by
  obtain ⟨seg, hseg, rfl⟩ := List.mem_map.mp h
  obtain ⟨hlabel, hbar⟩ := segment_label _ seg hseg
  refine List.any_eq_false.mpr fun x hx => ?_
  rw [labels, String.toList_ofList] at hx
  have hmem := mem_label_trimChars hx
  rw [← hlabel] at hmem
  simpa using hbar x hmem

/-- A line has a bar outside quotes just if a bar is among its tokens, and so for redirect signs; it
has one stage more than bars, and no stage has a bar. -/
theorem operators_agree (line : String) :
    (hasPipe line ↔ Token.operator .pipe ∈ scan line) ∧
    (hasRedirect line ↔
      Token.operator .redirect ∈ scan line ∨ Token.operator .append ∈ scan line) ∧
    (stages line).length = (scan line).count (.operator .pipe) + 1 ∧
    ∀ stage ∈ stages line, hasPipe stage = false :=
  ⟨hasPipe_iff line, hasRedirect_iff line, length_stages line, fun _ => stages_no_pipe⟩

theorem operators_agree_quoted_bar :
    let line := "echo 'a|b' \\> c>>d |rev"
    Token.operator .pipe ∈ scan line ∧ Token.operator .append ∈ scan line ∧
    (stages line).length = 2 ∧ "echo 'a|b' \\> c>>d" ∈ stages line ∧
    hasPipe "echo 'a|b' \\> c>>d" = false := by
  intro line
  obtain ⟨hpipe, -, hlength, hstage⟩ := operators_agree line
  have hbar : hasPipe line := by decide +kernel
  have hone : (scan line).count (.operator .pipe) = 1 := by decide +kernel
  have hmem : "echo 'a|b' \\> c>>d" ∈ stages line := by decide +kernel
  exact ⟨hpipe.mp hbar, by decide +kernel, by rw [hlength, hone], hmem, hstage _ hmem⟩

/-! ## Lines of words -/

theorem hasPipe_of_words {line : String} {ws : List String} (h : scan line = ws.map .word) :
    hasPipe line = false := by
  rw [← Bool.not_eq_true, hasPipe_iff, h]
  simp

theorem hasRedirect_of_words {line : String} {ws : List String} (h : scan line = ws.map .word) :
    hasRedirect line = false := by
  rw [← Bool.not_eq_true, hasRedirect_iff, h]
  simp

theorem tokenTexts_of_words {line : String} {ws : List String} (h : scan line = ws.map .word) :
    tokenTexts line = ws := by
  rw [tokenTexts, h, List.map_map]
  exact List.map_id ws

/-- Without a bar and a redirect sign all tokens are words. -/
theorem scan_eq_words {line : String} (hbar : hasPipe line = false)
    (hsign : hasRedirect line = false) : scan line = (tokenTexts line).map .word := by
  rw [← Bool.not_eq_true, hasPipe_iff] at hbar
  rw [← Bool.not_eq_true, hasRedirect_iff, not_or] at hsign
  have hword : ∀ t ∈ scan line, (Token.word ∘ Token.text) t = id t := by
    intro t ht
    cases t with
    | word w => rfl
    | operator op =>
        cases op with
        | pipe => exact absurd ht hbar
        | redirect => exact absurd ht hsign.1
        | append => exact absurd ht hsign.2
  rw [tokenTexts, List.map_map, List.map_congr_left hword, List.map_id]

/-! ## Texts with blanks between them -/

/-- Where nothing is pending at the end of a text, the tokens behind blanks do not depend on it. -/
theorem scan_append_gap {a gap : String} (h : endState a = .clean)
    (hgap : ∀ c ∈ gap.toList, isBlank c) (hne : gap ≠ "") (b : String) :
    scan (a ++ gap ++ b) = scan a ++ scan b := by
  obtain ⟨c, cs, hcs⟩ := List.exists_cons_of_ne_nil (by simpa using hne : gap.toList ≠ [])
  rw [hcs, List.forall_mem_cons] at hgap
  obtain ⟨hspace, hclean⟩ := clean_blank hgap.1
  have hlist : (a ++ gap ++ b).toList = a.toList ++ c :: (cs ++ b.toList) := by simp [hcs]
  have hskip : trimStart (cs ++ b.toList) = trimStart b.toList :=
    List.dropWhile_append_of_pos hgap.2
  rw [scan, labels, hlist, label_append, ← endState, h, label_cons, hspace, hclean,
    Token.gather_append_space, ← gather_trimStart (cs ++ b.toList), hskip, gather_trimStart]
  rfl

theorem scan_append_blank {a : String} (h : endState a = .clean) (b : String) :
    scan (a ++ " " ++ b) = scan a ++ scan b :=
  scan_append_gap h (by simp [isBlank]) (by simp) b

/-! ## Tokens through trimming -/

theorem intercalate_bar_inj {tss uss : List (List Token)} (ht : tss ≠ []) (hu : uss ≠ [])
    (htb : ∀ ts ∈ tss, Token.operator .pipe ∉ ts) (hub : ∀ us ∈ uss, Token.operator .pipe ∉ us)
    (h : [Token.operator .pipe].intercalate tss = [Token.operator .pipe].intercalate uss) :
    tss = uss := by
  rw [← List.splitOn_intercalate _ htb ht, h, List.splitOn_intercalate _ hub hu]

theorem gather_segment_iff {line : String}
    (hseg : seg ∈ (labels line).splitOnP (·.2 = .pipe)) :
    Token.gather none seg = scan (String.ofList (trimChars (seg.map (·.1)))) ↔
      ∀ x ∈ trimmedOff seg, x.2 = .space := by
  obtain ⟨hlabel, -⟩ := segment_label _ seg hseg
  have h := gather_trimChars_iff (seg.map (·.1))
  rwa [← hlabel, ← scan_ofList] at h

/-- The tokens of a line are those of its stages with bars between them just if trimming takes no
escaped or quoted blank off the end of a stage. -/
theorem scan_eq_stages_iff (line : String) :
    scan line = [Token.operator .pipe].intercalate ((stages line).map scan) ↔
      ∀ seg ∈ (labels line).splitOnP (·.2 = .pipe), ∀ x ∈ trimmedOff seg, x.2 = .space := by
  have hmap : ((labels line).splitOnP (·.2 = .pipe)).map (Token.gather none) =
      (stages line).map scan ↔
        ∀ seg ∈ (labels line).splitOnP (·.2 = .pipe), ∀ x ∈ trimmedOff seg, x.2 = .space := by
    rw [stages, List.map_map, List.map_inj_left]
    refine forall₂_congr fun seg hseg => ?_
    rw [Function.comp_apply]
    exact gather_segment_iff hseg
  rw [← hmap, scan, labels, gather_eq_intercalate, ← labels]
  constructor
  · refine intercalate_bar_inj (by simp) (by simp [stages]) ?_ ?_
    · intro ts hts
      obtain ⟨seg, hseg, rfl⟩ := List.mem_map.mp hts
      rw [Token.mem_pipe_gather]
      rintro ⟨x, hx, hk⟩
      exact (segment_label _ seg hseg).2 x hx hk
    · intro ts hts
      obtain ⟨stage, hstage, rfl⟩ := List.mem_map.mp hts
      rw [← hasPipe_iff, stages_no_pipe hstage]
      simp
  · intro h
    rw [h]

theorem scan_eq_stages_quoted_blank :
    let line := "  echo 'a | b ' \\  c |  rev "
    (∀ seg ∈ (labels line).splitOnP (·.2 = .pipe), ∀ x ∈ trimmedOff seg, x.2 = .space) ∧
    scan line = [Token.operator .pipe].intercalate ((stages line).map scan) := by
  intro line
  have htrim : ∀ seg ∈ (labels line).splitOnP (·.2 = .pipe), ∀ x ∈ trimmedOff seg, x.2 = .space := by
    decide +kernel
  exact ⟨htrim, (scan_eq_stages_iff line).mpr htrim⟩

theorem scan_ne_stages_escaped_blank :
    scan "echo a\\ |rev" ≠
      [Token.operator .pipe].intercalate ((stages "echo a\\ |rev").map scan) := by
  decide +kernel

end Shellbox.Line
