import Shellbox.Line.Quoting

/-!
# Where the labels of a line start afresh

A bar, a redirect sign or a blank counts as such only where nothing is pending, and leaves nothing
pending. So behind a bar a line is read as if it began there, and what holds of a text without bars
and is kept by one more stage in front holds of every line.
-/

namespace Shellbox.Line.QuoteState

open Text

variable {s : QuoteState} {c : Char} {cs : List Char}

/-! ## Labels outside quotes -/

/-- Only where nothing is pending does a character separate words. -/
theorem eq_clean_of_kind (h : s.kind c = .space ∨ s.kind c = .pipe ∨ s.kind c = .redirect) :
    s = clean := by
  obtain ⟨m, e⟩ := s
  cases e with
  | true => simp [kind] at h
  | false =>
      cases m with
      | none => rfl
      | some m => simp only [kind] at h; grind

theorem kind_eq_pipe_iff : s.kind c = .pipe ↔ s = clean ∧ c = '|' := by
  constructor
  · intro h
    obtain rfl := eq_clean_of_kind (.inr (.inl h))
    simp only [kind, clean] at h
    exact ⟨rfl, by grind⟩
  · rintro ⟨rfl, rfl⟩
    rfl

theorem not_mark_of_blank (h : isBlank c) :
    c ≠ '\\' ∧ c ≠ '\'' ∧ c ≠ '"' ∧ c ≠ '|' ∧ c ≠ '>' := by
  refine ⟨?_, ?_, ?_, ?_, ?_⟩ <;> rintro rfl <;> exact absurd h (by decide)

/-- A blank outside quotes is a space and leaves nothing pending. -/
theorem clean_blank (h : isBlank c) : clean.kind c = .space ∧ clean.next c = clean := by
  obtain ⟨hback, hsingle, hdouble, -, -⟩ := not_mark_of_blank h
  simp [kind, next, clean, hback, hsingle, hdouble, h]

/-- A blank is a space or, escaped or in quotes, a part of a word. -/
theorem kind_blank (s : QuoteState) (h : isBlank c) : s.kind c = .space ∨ s.kind c = .literal := by
  obtain ⟨hback, hsingle, hdouble, -, -⟩ := not_mark_of_blank h
  obtain ⟨m, e⟩ := s
  cases m with
  | none => cases e <;> simp [kind, hback, hsingle, hdouble, h]
  | some m => cases m <;> cases e <;> simp [kind, QuoteMark.char, hback, hsingle, hdouble]

/-! ## Stage by stage -/

theorem first_bar (s : QuoteState) (cs : List Char) :
    (∀ x ∈ s.label cs, x.2 ≠ .pipe) ∨
      ∃ as bs, cs = as ++ '|' :: bs ∧ (∀ x ∈ s.label as, x.2 ≠ .pipe) ∧ s.after as = clean := by
  induction cs generalizing s with
  | nil => simp
  | cons c cs ih =>
      by_cases hbar : s.kind c = .pipe
      · obtain ⟨rfl, rfl⟩ := kind_eq_pipe_iff.mp hbar
        exact .inr ⟨[], cs, rfl, by simp, rfl⟩
      · rcases ih (s.next c) with h | ⟨as, bs, rfl, has, hclean⟩
        · left
          simpa [hbar] using h
        · right
          exact ⟨c :: as, bs, rfl, by simpa [hbar] using has, hclean⟩

/-- What holds of every text without bars, and of every line with one more stage in front, holds of
every line. -/
theorem stage_induction {P : List Char → Prop}
    (last : ∀ cs, (∀ x ∈ clean.label cs, x.2 ≠ .pipe) → P cs)
    (bar : ∀ as bs, (∀ x ∈ clean.label as, x.2 ≠ .pipe) → clean.after as = clean → P bs →
      P (as ++ '|' :: bs)) (cs : List Char) : P cs := by
  rcases first_bar clean cs with h | ⟨as, bs, hcs, has, hclean⟩
  · exact last cs h
  · rw [hcs]
    exact bar as bs has hclean (stage_induction last bar bs)
termination_by cs.length
decreasing_by simp only [hcs, List.length_append, List.length_cons]; omega

theorem label_bar {as : List Char} (h : clean.after as = clean) (bs : List Char) :
    clean.label (as ++ '|' :: bs) = clean.label as ++ ('|', .pipe) :: clean.label bs := by
  rw [label_append, h, label_cons]
  rfl

theorem splitOnP_label_bar {as : List Char} (has : ∀ x ∈ clean.label as, x.2 ≠ .pipe)
    (h : clean.after as = clean) (bs : List Char) :
    (clean.label (as ++ '|' :: bs)).splitOnP (·.2 = .pipe) =
      clean.label as :: (clean.label bs).splitOnP (·.2 = .pipe) := by
  rw [label_bar h]
  exact List.splitOnP_append_cons_of_forall_mem (by simpa using has) _ rfl _

theorem splitOnP_label_last (h : ∀ x ∈ clean.label cs, x.2 ≠ .pipe) :
    (clean.label cs).splitOnP (·.2 = .pipe) = [clean.label cs] :=
  List.splitOnP_eq_singleton (by simpa using h)

@[simp] theorem map_fst_label (s : QuoteState) (cs : List Char) :
    (s.label cs).map (·.1) = cs := by
  induction cs generalizing s with
  | nil => simp
  | cons c cs ih => simp [ih]

end Shellbox.Line.QuoteState
