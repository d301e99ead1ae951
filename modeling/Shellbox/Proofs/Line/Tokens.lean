import Shellbox.Proofs.Line.Labels
import Shellbox.Line.Token

/-!
# Tokens of an append

A bar and a blank end the word under way, so tokens can be gathered on either side of them apart.
What stands in the tokens can be counted in the labels: the operators, and the characters of the
words.
-/

namespace Shellbox.Line.Token

variable {w : Option String} {c : Char} {k : CharKind} {xs ys : List (Char × CharKind)}

/-! ## Gathering apart -/

/-- A redirect sign stands alone if the next label is no redirect sign. -/
theorem gather_lone_redirect (w : Option String) (c : Char)
    (h : ∀ d r, xs ≠ (d, .redirect) :: r) :
    gather w ((c, .redirect) :: xs) = flush w ++ operator .redirect :: gather none xs := by
  rw [gather]
  exact fun d r hx => h d r hx

/-- Tokens before a blank, a bar or the first of some redirect signs do not depend on what
follows. -/
theorem gather_append (w : Option String) (xs : List (Char × CharKind))
    (hk : k = .space ∨ k = .pipe ∨ k = .redirect ∧ ∀ x ∈ xs.getLast?, x.2 ≠ .redirect) :
    gather w (xs ++ (c, k) :: ys) = gather w xs ++ gather none ((c, k) :: ys) := by
  have hcons {x : Char × CharKind} {xs : List (Char × CharKind)}
      (hk : k = .space ∨ k = .pipe ∨ k = .redirect ∧ ∀ y ∈ (x :: xs).getLast?, y.2 ≠ .redirect) :
      k = .space ∨ k = .pipe ∨ k = .redirect ∧ ∀ y ∈ xs.getLast?, y.2 ≠ .redirect :=
    hk.imp_right (.imp_right (.imp_right fun h y hy =>
      h y (by simp [List.getLast?_cons, Option.mem_def.mp hy])))
  fun_induction gather w xs with
  | case1 w =>
      rcases hk with rfl | rfl | ⟨rfl, -⟩
      · simp [gather, flush]
      · simp [gather, flush]
      · rcases ys with - | ⟨⟨d, k⟩, ys⟩
        · simp [gather, flush]
        · cases k <;> simp [gather, flush]
  | case2 w d r ih => simpa [gather] using ih (hcons hk)
  | case3 w d r ih => simpa [gather] using ih (hcons hk)
  | case4 w d r ih => simpa [gather] using ih (hcons hk)
  | case5 w d r ih => simpa [gather] using ih (hcons hk)
  | case6 w d r ih => simpa [gather] using ih (hcons hk)
  | case7 w d e r ih => simpa [gather] using ih (hcons (hcons hk))
  | case8 w d r hr ih =>
      have hnext : ∀ e t, r ++ (c, k) :: ys ≠ (e, .redirect) :: t := by
        intro e t h
        cases r with
        | nil =>
            rcases hk with rfl | rfl | ⟨rfl, hno⟩
            · simp at h
            · simp at h
            · exact hno (d, .redirect) (by simp) rfl
        | cons x r =>
            simp only [List.cons_append, List.cons.injEq] at h
            exact hr e r (by rw [h.1])
      rw [List.cons_append, gather_lone_redirect w d hnext, ih (hcons hk)]
      simp

theorem gather_append_pipe (w : Option String) (xs : List (Char × CharKind)) (c : Char)
    (ys : List (Char × CharKind)) :
    gather w (xs ++ (c, .pipe) :: ys) = gather w xs ++ operator .pipe :: gather none ys := by
  rw [gather_append w xs (.inr (.inl rfl))]
  rfl

theorem gather_append_space (w : Option String) (xs : List (Char × CharKind)) (c : Char)
    (ys : List (Char × CharKind)) :
    gather w (xs ++ (c, .space) :: ys) = gather w xs ++ gather none ys := by
  rw [gather_append w xs (.inl rfl)]
  rfl

theorem gather_silent (h : ∀ x ∈ xs, x.2 = .space ∨ x.2 = .escape) : gather none xs = [] := by
  induction xs with
  | nil => rfl
  | cons x xs ih =>
      obtain ⟨c, k⟩ := x
      obtain ⟨hk, hxs⟩ := List.forall_mem_cons.mp h
      rcases hk with rfl | rfl <;> simpa [gather, flush] using ih hxs

/-- Spaces behind a text change nothing. -/
theorem gather_append_spaces (w : Option String) (xs : List (Char × CharKind))
    (h : ∀ y ∈ ys, y.2 = .space) : gather w (xs ++ ys) = gather w xs := by
  cases ys with
  | nil => simp
  | cons y ys =>
      obtain ⟨c, k⟩ := y
      obtain rfl : k = .space := h (c, k) (by simp)
      rw [gather_append_space, gather_silent fun z hz => .inl (h z (by simp [hz])), List.append_nil]

/-! ## Counting -/

theorem flush_no_operator (w : Option String) (o : Operator) : operator o ∉ flush w := by
  cases w <;> simp [flush]

theorem count_pipe_gather (w : Option String) (xs : List (Char × CharKind)) :
    (gather w xs).count (operator .pipe) = xs.countP (·.2 = .pipe) := by
  have hflush (w : Option String) : (flush w).count (operator .pipe) = 0 :=
    List.count_eq_zero.mpr (flush_no_operator w .pipe)
  fun_induction gather w xs with
  | case1 w => simpa using hflush w
  | case2 w c r ih => simpa using ih
  | case3 w c r ih => simpa using ih
  | case4 w c r ih => simpa using ih
  | case5 w c r ih => simpa [hflush] using ih
  | case6 w c r ih => simpa [hflush] using ih
  | case7 w c d r ih => simpa [hflush] using ih
  | case8 w c r hr ih => simpa [hflush] using ih

theorem mem_pipe_gather : operator .pipe ∈ gather w xs ↔ ∃ x ∈ xs, x.2 = .pipe := by
  rw [← List.count_pos_iff, count_pipe_gather, List.countP_pos_iff]
  simp

theorem mem_redirect_gather :
    (operator .redirect ∈ gather w xs ∨ operator .append ∈ gather w xs) ↔
      ∃ x ∈ xs, x.2 = .redirect := by
  fun_induction gather w xs with
  | case1 w => simp [flush_no_operator]
  | case2 w c r ih => simpa using ih
  | case3 w c r ih => simpa using ih
  | case4 w c r ih => simpa using ih
  | case5 w c r ih => simpa [flush_no_operator] using ih
  | case6 w c r ih => simpa [flush_no_operator] using ih
  | case7 w c d r ih => simp
  | case8 w c r hr ih => simp

/-- The characters in the words among some tokens. -/
def wordLength : List Token → Nat
  | [] => 0
  | word t :: r => t.length + wordLength r
  | operator _ :: r => wordLength r

@[simp] theorem wordLength_append (ts us : List Token) :
    wordLength (ts ++ us) = wordLength ts + wordLength us := by
  induction ts with
  | nil => simp [wordLength]
  | cons t ts ih =>
      cases t <;> simp only [List.cons_append, wordLength, ih]
      omega

/-- A character is in a word just if it is labelled so. -/
theorem wordLength_gather (w : Option String) (xs : List (Char × CharKind)) :
    wordLength (gather w xs) = (w.getD "").length + xs.countP (·.2 = .literal) := by
  have hflush (w : Option String) : wordLength (flush w) = (w.getD "").length := by
    cases w <;> simp [flush, wordLength]
  fun_induction gather w xs with
  | case1 w => simp [hflush]
  | case2 w c r ih => simp [ih]; omega
  | case3 w c r ih => simp [ih]
  | case4 w c r ih => simp [ih]
  | case5 w c r ih => simp [hflush, ih]
  | case6 w c r ih => simp [hflush, wordLength, ih]
  | case7 w c d r ih => simp [hflush, wordLength, ih]
  | case8 w c r hr ih => simp [hflush, wordLength, ih]

end Shellbox.Line.Token
