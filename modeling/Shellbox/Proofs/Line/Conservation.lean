import Shellbox.Proofs.Line.Stages
import Shellbox.Proofs.Text.Words

/-!
# What becomes of the characters of a line

Every character of a line that is a part of a word or an operator is found again in its tokens, and
nothing else is. Redirect signs side by side make append operators two by two from the left. A line
can be cut between any two of its tokens, so that each is read off a piece of its own. The piece of
an empty word has quotes in it and no character of a word.
-/

namespace Shellbox.Line

open Text

variable {w : Option String} {k : CharKind} {xs ys as bs : List (Char × CharKind)} {t : Token}
  {ts us vs : List Token} {cs : List Char} {line : String} {n : Nat}

/-- The characters that are found in tokens. -/
def keptChars (xs : List (Char × CharKind)) : List Char :=
  (xs.filter fun x => x.2 ∈ [CharKind.literal, .pipe, .redirect]).map (·.1)

/-- The label of a character that ends the word before it. -/
def IsBoundary (k : CharKind) : Prop := k = .space ∨ k = .pipe ∨ k = .redirect

namespace QuoteState

variable {s : QuoteState}

theorem kind_eq_redirect_iff {c : Char} : s.kind c = .redirect ↔ s = clean ∧ c = '>' := by
  constructor
  · intro h
    obtain rfl := eq_clean_of_kind (.inr (.inr h))
    simp only [kind, clean] at h
    exact ⟨rfl, by grind⟩
  · rintro ⟨rfl, rfl⟩
    rfl

/-- Operators are spelled by the characters that carry their labels. -/
theorem char_of_mem_label (s : QuoteState) (cs : List Char) :
    ∀ x ∈ s.label cs, (x.2 = .pipe → x.1 = '|') ∧ (x.2 = .redirect → x.1 = '>') := by
  induction cs generalizing s with
  | nil => simp
  | cons c cs ih =>
      rw [label_cons, List.forall_mem_cons]
      exact ⟨⟨fun h => (kind_eq_pipe_iff.mp h).2, fun h => (kind_eq_redirect_iff.mp h).2⟩, ih _⟩

theorem next_of_boundary {c : Char} (h : IsBoundary (s.kind c)) : s.next c = clean := by
  obtain rfl := eq_clean_of_kind h
  rcases h with h | h | h
  · simp only [kind, clean] at h
    exact (clean_blank (by grind)).2
  · rw [(kind_eq_pipe_iff.mp h).2]
    rfl
  · rw [(kind_eq_redirect_iff.mp h).2]
    rfl

/-- Labels that are cut in two are those of two texts. -/
theorem label_eq_append (h : s.label cs = xs ++ ys) :
    ∃ as bs, cs = as ++ bs ∧ xs = s.label as ∧ ys = (s.after as).label bs := by
  induction xs generalizing s cs with
  | nil => exact ⟨[], cs, rfl, (label_nil s).symm, h.symm⟩
  | cons x xs ih =>
      cases cs with
      | nil => simp at h
      | cons c cs =>
          rw [label_cons, List.cons_append, List.cons.injEq] at h
          obtain ⟨rfl, h⟩ := h
          obtain ⟨as, bs, rfl, rfl, rfl⟩ := ih h
          exact ⟨c :: as, bs, rfl, (label_cons s c as).symm, rfl⟩

/-- Beside a character that ends words nothing is pending. -/
theorem after_eq_clean (as bs : List Char)
    (h : (∃ x ∈ (s.label as).getLast?, IsBoundary x.2) ∨
      ∃ x ∈ ((s.after as).label bs).head?, IsBoundary x.2) : s.after as = clean := by
  rcases h with ⟨x, hx, hk⟩ | ⟨x, hx, hk⟩
  · cases as using List.reverseRecOn with
    | nil => simp at hx
    | append_singleton as c =>
        rw [label_append, label_cons, label_nil, List.getLast?_concat] at hx
        cases hx
        rw [after_append]
        exact next_of_boundary hk
  · cases bs with
    | nil => simp at hx
    | cons c bs =>
        rw [label_cons] at hx
        cases hx
        exact eq_clean_of_kind hk

end QuoteState

open QuoteState

/-! ## Nothing is lost -/

/-- The characters of tokens, one token behind the other. -/
def spelling (ts : List Token) : List Char := ts.flatMap (·.text.toList)

@[simp] theorem spelling_cons (t : Token) (ts : List Token) :
    spelling (t :: ts) = t.text.toList ++ spelling ts := rfl

@[simp] theorem spelling_append (ts us : List Token) :
    spelling (ts ++ us) = spelling ts ++ spelling us := by
  simp [spelling]

@[simp] theorem spelling_flush (w : Option String) :
    spelling (Token.flush w) = (w.getD "").toList := by
  cases w <;> simp [Token.flush, spelling, Token.text]

theorem spelling_gather (w : Option String) (xs : List (Char × CharKind))
    (h : ∀ x ∈ xs, (x.2 = .pipe → x.1 = '|') ∧ (x.2 = .redirect → x.1 = '>')) :
    spelling (Token.gather w xs) = (w.getD "").toList ++ keptChars xs := by
  fun_induction Token.gather w xs with
  | case1 w => simp [keptChars]
  | case2 w c r ih => simp_all [keptChars]
  | case3 w c r ih => simp_all [keptChars]
  | case4 w c r ih => simp_all [keptChars]
  | case5 w c r ih => simp_all [keptChars]
  | case6 w c r ih => simp_all [keptChars, Token.text, Operator.text]
  | case7 w c d r ih => simp_all [keptChars, Token.text, Operator.text]
  | case8 w c r hr ih => simp_all [keptChars, Token.text, Operator.text]

theorem spelling_scan (line : String) : spelling (scan line) = keptChars (labels line) :=
  spelling_gather none (labels line) (char_of_mem_label clean line.toList)

/-! ## Redirect signs side by side -/

/-- The operators that redirect signs side by side make. -/
def redirectRun (n : Nat) : List Token :=
  List.replicate (n / 2) (.operator .append) ++ List.replicate (n % 2) (.operator .redirect)

theorem redirectRun_add_two (n : Nat) :
    redirectRun (n + 2) = .operator .append :: redirectRun n := by
  simp [redirectRun, List.replicate_succ]

theorem gather_redirects (hys : ∀ x ∈ ys.head?, x.2 ≠ .redirect) (n : Nat) :
    Token.gather none (List.replicate n ('>', .redirect) ++ ys) =
      redirectRun n ++ Token.gather none ys := by
  induction n using Nat.twoStepInduction with
  | zero => rfl
  | one =>
      have hlone : ∀ d r, ys ≠ (d, .redirect) :: r := by
        rintro d r rfl
        exact hys _ rfl rfl
      exact Token.gather_lone_redirect none '>' hlone
  | more n ih _ =>
      rw [redirectRun_add_two, List.cons_append, ← ih]
      rfl

/-- Wherever redirect signs stand side by side, the texts on both sides are read on their own. -/
theorem scan_redirects (hn : 0 < n)
    (h : labels line = xs ++ List.replicate n ('>', .redirect) ++ ys)
    (hxs : ∀ x ∈ xs.getLast?, x.2 ≠ .redirect) (hys : ∀ x ∈ ys.head?, x.2 ≠ .redirect) :
    ∃ a b, line = a ++ String.ofList (List.replicate n '>') ++ b ∧ xs = labels a ∧
      ys = labels b ∧ scan line = scan a ++ redirectRun n ++ scan b := by
  obtain ⟨m, rfl⟩ := Nat.exists_eq_add_one.mpr hn
  rw [List.append_assoc] at h
  obtain ⟨as, cs, hline, rfl, hcs⟩ := label_eq_append h
  obtain ⟨signs, bs, rfl, hsigns, rfl⟩ := label_eq_append hcs.symm
  have hclean : clean.after as = clean := by
    refine after_eq_clean as (signs ++ bs) (.inr ⟨('>', .redirect), ?_, .inr (.inr rfl)⟩)
    rw [← hcs]
    rfl
  have hchars : signs = List.replicate (m + 1) '>' := by
    rw [← map_fst_label (clean.after as) signs, ← hsigns, List.map_replicate]
  have hbehind : (clean.after as).after signs = clean := by
    refine after_eq_clean signs bs (.inl ⟨('>', .redirect), ?_, .inr (.inr rfl)⟩)
    rw [← hsigns, List.getLast?_replicate]
    rfl
  have hfront : Token.gather none (clean.label as ++
      (List.replicate (m + 1) ('>', .redirect) ++ (clean.label bs))) =
        Token.gather none (clean.label as) ++ (redirectRun (m + 1) ++
          Token.gather none (clean.label bs)) := by
    rw [hbehind] at hys
    rw [← gather_redirects hys, List.replicate_succ, List.cons_append,
      Token.gather_append none _ (.inr (.inr ⟨rfl, hxs⟩))]
  refine ⟨String.ofList as, String.ofList bs, ?_, by simp [labels], by simp [labels, hbehind], ?_⟩
  · simp [← String.toList_inj, hline, hchars]
  · rw [scan, h, hbehind, hfront, scan_ofList, scan_ofList, List.append_assoc]

/-! ## Cutting between tokens -/

theorem gather_boundary {x : Char × CharKind} (h : IsBoundary x.2) (w : Option String)
    (xs : List (Char × CharKind)) :
    Token.gather w (x :: xs) = Token.flush w ++ Token.gather none (x :: xs) := by
  obtain ⟨c, k⟩ := x
  have happend : Token.gather w ([] ++ (c, k) :: xs) =
      Token.gather w [] ++ Token.gather none ((c, k) :: xs) :=
    Token.gather_append w [] (h.imp_right (.imp_right (⟨·, nofun⟩)))
  exact happend

/-- Labels fall into two parts with tokens of their own, and between them nothing is pending. -/
def Cuttable (w : Option String) (us vs : List Token) (xs : List (Char × CharKind)) : Prop :=
  ∃ as bs, xs = as ++ bs ∧ Token.gather w as = us ∧ Token.gather none bs = vs ∧
    (bs = [] ∨ (as = [] ∧ us = []) ∨ (∃ x ∈ as.getLast?, IsBoundary x.2) ∨
      ∃ x ∈ bs.head?, IsBoundary x.2)

namespace Cuttable

theorem nil (h : Token.gather none xs = vs) : Cuttable none [] vs xs :=
  ⟨[], xs, rfl, rfl, h, .inr (.inl ⟨rfl, rfl⟩)⟩

/-- Labels in front begin the first token, or make tokens of their own. -/
theorem append {w' : Option String} (pre : List (Char × CharKind)) (ts : List Token)
    (hgather : ∀ as, as <+: xs → Token.gather w (pre ++ as) = ts ++ Token.gather w' as)
    (hpre : us ≠ [] ∨ ∃ x ∈ pre.getLast?, IsBoundary x.2) (h : Cuttable w' us vs xs) :
    Cuttable w (ts ++ us) vs (pre ++ xs) := by
  obtain ⟨as, bs, rfl, rfl, hbs, hseam⟩ := h
  refine ⟨pre ++ as, bs, by simp, hgather as (List.prefix_append as bs), hbs, ?_⟩
  rcases hseam with hnil | ⟨rfl, hus⟩ | ⟨x, hx, hk⟩ | hhead
  · exact .inl hnil
  · exact .inr (.inr (.inl (by simpa using hpre.resolve_left (not_not.mpr hus))))
  · exact .inr (.inr (.inl ⟨x, List.mem_getLast?_append_of_mem_getLast? hx, hk⟩))
  · exact .inr (.inr (.inr hhead))

/-- The word under way ends before what ends it. -/
theorem word {x : Char × CharKind} (hk : IsBoundary x.2) (u : String)
    (h : Cuttable none us vs (x :: xs)) : Cuttable (some u) (.word u :: us) vs (x :: xs) := by
  obtain ⟨as, bs, heq, has, hbs, hseam⟩ := h
  cases as with
  | nil =>
      obtain rfl : x :: xs = bs := heq
      exact ⟨[], x :: xs, rfl, by rw [← has]; rfl, hbs, .inr (.inr (.inr ⟨x, rfl, hk⟩))⟩
  | cons y as =>
      obtain ⟨rfl, rfl⟩ := List.cons.inj heq
      refine ⟨x :: as, bs, rfl, by rw [gather_boundary hk, has]; rfl, hbs, ?_⟩
      exact hseam.imp_right (.imp_left nofun)

theorem of_ne_nil (ih : ∀ us, us ≠ [] → Token.gather none xs = us ++ vs → Cuttable none us vs xs)
    (h : Token.gather none xs = us ++ vs) : Cuttable none us vs xs := by
  cases us with
  | nil => exact nil h
  | cons t us => exact ih (t :: us) (by simp) h

/-- Labels in front that make an operator leave the others to be cut. -/
theorem operator (op : Operator) (pre : List (Char × CharKind))
    (hgather : ∀ as, as <+: xs →
      Token.gather none (pre ++ as) = .operator op :: Token.gather none as)
    (hpre : ∃ x ∈ pre.getLast?, IsBoundary x.2)
    (ih : ∀ us, us ≠ [] → Token.gather none xs = us ++ vs → Cuttable none us vs xs)
    (hus : us ≠ []) (h : Token.gather none (pre ++ xs) = us ++ vs) :
    Cuttable none us vs (pre ++ xs) := by
  obtain ⟨t, us, rfl⟩ := List.exists_cons_of_ne_nil hus
  rw [hgather xs List.prefix_rfl] at h
  obtain ⟨rfl, htail⟩ := List.cons.inj h
  exact append pre [.operator op] hgather (.inr hpre) (of_ne_nil ih htail)

/-- It is enough to cut where no word is under way. -/
theorem of_boundary {x : Char × CharKind} (hk : IsBoundary x.2)
    (hnone : ∀ us, us ≠ [] → Token.gather none (x :: xs) = us ++ vs → Cuttable none us vs (x :: xs))
    (hus : us ≠ []) (h : Token.gather w (x :: xs) = us ++ vs) : Cuttable w us vs (x :: xs) := by
  cases w with
  | none => exact hnone us hus h
  | some u =>
      obtain ⟨t, us, rfl⟩ := List.exists_cons_of_ne_nil hus
      rw [gather_boundary hk] at h
      obtain ⟨rfl, htail⟩ : .word u = t ∧ Token.gather none (x :: xs) = us ++ vs := List.cons.inj h
      exact word hk u (of_ne_nil hnone htail)

end Cuttable

/-- Labels can be cut behind any of their tokens. -/
theorem gather_cuttable (hus : us ≠ []) (h : Token.gather w xs = us ++ vs) :
    Cuttable w us vs xs := by
  fun_induction Token.gather w xs generalizing us with
  | case1 w =>
      have hlength := congrArg List.length h
      have hpos := List.length_pos_iff.mpr hus
      cases w with
      | none =>
          simp only [Token.flush, List.length_nil, List.length_append] at hlength
          omega
      | some u =>
          simp only [Token.flush, List.length_singleton, List.length_append] at hlength
          obtain rfl : vs = [] := List.eq_nil_of_length_eq_zero (by omega)
          exact ⟨[], [], rfl, h.trans (List.append_nil us), rfl, .inl rfl⟩
  | case2 w c r ih => exact .append [_] [] (fun _ _ => rfl) (.inl hus) (ih hus h)
  | case3 w c r ih => exact .append [_] [] (fun _ _ => rfl) (.inl hus) (ih hus h)
  | case4 w c r ih => exact .append [_] [] (fun _ _ => rfl) (.inl hus) (ih hus h)
  | case5 w c r ih =>
      refine .of_boundary (.inl rfl) (fun us hus h => ?_) hus h
      exact .append [_] [] (fun _ _ => rfl) (.inl hus) (ih hus h)
  | case6 w c r ih =>
      exact .of_boundary (.inr (.inl rfl))
        (fun us => .operator .pipe [_] (fun _ _ => rfl) ⟨_, rfl, .inr (.inl rfl)⟩ @ih) hus h
  | case7 w c d r ih =>
      exact .of_boundary (.inr (.inr rfl))
        (fun us => .operator .append [_, _] (fun _ _ => rfl) ⟨_, rfl, .inr (.inr rfl)⟩ @ih) hus h
  | case8 w c r hr ih =>
      have hlone : ∀ as, as <+: r → ∀ d q, as ≠ (d, .redirect) :: q := by
        rintro as ⟨bs, rfl⟩ d q rfl
        exact hr d (q ++ bs) rfl
      refine .of_boundary (.inr (.inr rfl)) (fun us => .operator .redirect [_] (fun as has => ?_)
        ⟨_, rfl, .inr (.inr rfl)⟩ @ih) hus ((Token.gather_lone_redirect w c ?_).trans h)
      · exact Token.gather_lone_redirect none c (hlone as has)
      · exact hlone r List.prefix_rfl

/-- A line can be cut between any two of its tokens, and nothing is pending there. -/
theorem scan_eq_append (h : scan line = us ++ vs) :
    ∃ a b, line = a ++ b ∧ scan a = us ∧ scan b = vs ∧ (endState a = .clean ∨ b = "") := by
  by_cases hus : us = []
  · subst hus
    exact ⟨"", line, String.empty_append.symm, rfl, h, .inl rfl⟩
  · obtain ⟨xs, ys, hlabels, rfl, rfl, hseam⟩ := gather_cuttable hus h
    obtain ⟨as, bs, hline, rfl, rfl⟩ := label_eq_append hlabels
    have hsplit : line = String.ofList as ++ String.ofList bs := by
      simp [← String.toList_inj, hline]
    have hclean : bs ≠ [] → clean.after as = clean := by
      intro hbs
      obtain ⟨c, bs, rfl⟩ := List.exists_cons_of_ne_nil hbs
      rcases hseam with hnil | ⟨-, hnil⟩ | hboundary
      · simp at hnil
      · exact absurd hnil hus
      · exact after_eq_clean as (c :: bs) hboundary
    refine ⟨String.ofList as, String.ofList bs, hsplit, scan_ofList as, ?_, ?_⟩
    · cases bs with
      | nil => rw [scan_ofList, label_nil, label_nil]
      | cons c bs => rw [scan_ofList, hclean (by simp)]
    · cases bs with
      | nil => exact .inr rfl
      | cons c bs => exact .inl (by rw [endState, String.toList_ofList, hclean (by simp)])

/-! ## Empty words -/

/-- The piece of an empty word holds a quoted span and nothing of a word. -/
theorem scan_eq_empty_word (h : scan line = [.word ""]) :
    (∃ x ∈ labels line, x.2 = .quote) ∧
      ∀ x ∈ labels line, x.2 = .quote ∨ x.2 = .escape ∨ x.2 = .space := by
  have hlength := Token.wordLength_gather none (labels line)
  rw [← scan, h] at hlength
  have hliteral : (labels line).countP (·.2 = .literal) = 0 := by
    simpa [Token.wordLength] using hlength.symm
  have hpipe : ¬ ∃ x ∈ labels line, x.2 = .pipe := by
    rw [← Token.mem_pipe_gather (w := none), ← scan, h]
    simp
  have hredirect : ¬ ∃ x ∈ labels line, x.2 = .redirect := by
    rw [← Token.mem_redirect_gather (w := none), ← scan, h]
    simp
  have hkinds : ∀ x ∈ labels line, x.2 = .quote ∨ x.2 = .escape ∨ x.2 = .space := by
    intro x hx
    have hnot := List.countP_eq_zero.mp hliteral x hx
    cases hk : x.2 with
    | literal => simp [hk] at hnot
    | pipe => exact absurd ⟨x, hx, hk⟩ hpipe
    | redirect => exact absurd ⟨x, hx, hk⟩ hredirect
    | escape => exact .inr (.inl rfl)
    | quote => exact .inl rfl
    | space => exact .inr (.inr rfl)
  refine ⟨by_contra fun hnone => ?_, hkinds⟩
  have hsilent : scan line = [] := Token.gather_silent fun x hx =>
    ((hkinds x hx).resolve_left fun hk => hnone ⟨x, hx, hk⟩).symm
  rw [h] at hsilent
  cases hsilent

/-! ## Lines without marks -/

theorem gather_plain (cs : List Char) :
    let xs := cs.map fun c => (c, if isBlank c then CharKind.space else .literal)
    Token.gather none xs = (wordsChars cs).map (.word ∘ String.ofList) ∧
    ∀ u, Token.gather (some u) xs =
      .word (u ++ String.ofList (firstWord cs)) ::
        (wordsChars (behindFirstWord cs)).map (.word ∘ String.ofList) := by
  induction cs with
  | nil => simp [Token.gather, Token.flush, firstWord, behindFirstWord]
  | cons c cs ih =>
      obtain ⟨hnone, hsome⟩ := ih
      by_cases hc : isBlank c
      · simp [hc, Token.gather, Token.flush, hnone, firstWord, behindFirstWord,
          wordsChars_blank hc]
      · have hword : firstWord (c :: cs) = c :: firstWord cs := by simp [firstWord, hc]
        have hbehind : behindFirstWord (c :: cs) = behindFirstWord cs := by
          simp [behindFirstWord, hc]
        rw [wordsChars_eq_firstWord (by simp [hword]), hword, hbehind]
        have hpush (u : String) : u.push c ++ String.ofList (firstWord cs) =
            u ++ String.ofList (c :: firstWord cs) := by
          simp [← String.toList_inj]
        simp only [List.map_cons, hc, Bool.false_eq_true, ↓reduceIte, Token.gather, hsome,
          Option.getD_none, Option.getD_some, hpush, String.empty_append, Function.comp_apply,
          implies_true, and_self]

theorem label_plain (h : ∀ c ∈ cs, c ∉ ['\'', '"', '\\', '|', '>']) :
    clean.label cs = cs.map fun c => (c, if isBlank c then CharKind.space else .literal) := by
  induction cs with
  | nil => simp
  | cons c cs ih =>
      obtain ⟨hc, hcs⟩ := List.forall_mem_cons.mp h
      have hkind : clean.kind c = (if isBlank c then CharKind.space else .literal) ∧
          clean.next c = clean := by
        simp only [List.mem_cons, List.not_mem_nil, or_false, not_or] at hc
        simp [kind, next, clean, hc]
      rw [label_cons, hkind.1, hkind.2, ih hcs, List.map_cons]

theorem tokenTexts_plain (h : ∀ c ∈ line.toList, c ∉ ['\'', '"', '\\', '|', '>']) :
    tokenTexts line = words line := by
  rw [tokenTexts, scan, labels, label_plain h, (gather_plain line.toList).1, words, List.map_map]
  rfl

/-- A line falls apart into the labels of two texts where nothing is pending between them. -/
theorem labels_append {a b : String} (h : endState a = .clean ∨ b = "") :
    labels (a ++ b) = labels a ++ labels b := by
  rcases h with h | rfl
  · rw [labels, String.toList_append, label_append, ← endState, h]
    rfl
  · simp [labels]

theorem scan_eq_append_empty_word (h : scan line = us ++ .word "" :: vs) :
    ∃ a piece b, line = a ++ piece ++ b ∧ labels line = labels a ++ labels piece ++ labels b ∧
      scan a = us ∧ scan piece = [.word ""] ∧ scan b = vs := by
  obtain ⟨a, rest, rfl, ha, hrest, hfront⟩ := scan_eq_append h
  have hcut : scan rest = [.word ""] ++ vs := hrest
  obtain ⟨piece, b, rfl, hpiece, hb, hbehind⟩ := scan_eq_append hcut
  refine ⟨a, piece, b, (String.append_assoc ..).symm, ?_, ha, hpiece, hb⟩
  rw [labels_append hfront, labels_append hbehind, List.append_assoc]

/-- The characters of the tokens are those that the labels say, in their order. Redirect signs side
by side make append operators from the left, and the last of an odd number makes a redirect
operator. An empty word is read off a piece of the line with quotes and no character of a word. A
line without quotes, backslashes, bars and redirect signs is cut at its blanks. -/
theorem tokens_conserve_characters (line : String) :
    (tokenTexts line).flatMap String.toList =
      ((labels line).filter fun x => x.2 ∈ [CharKind.literal, .pipe, .redirect]).map (·.1) ∧
    (∀ op, Token.operator op ∈ scan line → (Token.operator op).text ∈ ["|", ">", ">>"]) ∧
    (∀ n xs ys, 0 < n → labels line = xs ++ List.replicate n ('>', .redirect) ++ ys →
      (∀ x ∈ xs.getLast?, x.2 ≠ .redirect) → (∀ x ∈ ys.head?, x.2 ≠ .redirect) →
      ∃ a b, line = a ++ String.ofList (List.replicate n '>') ++ b ∧ xs = labels a ∧
        ys = labels b ∧ scan line = scan a ++ (List.replicate (n / 2) (.operator .append) ++
          List.replicate (n % 2) (.operator .redirect)) ++ scan b) ∧
    (∀ us vs, scan line = us ++ .word "" :: vs →
      ∃ a piece b, line = a ++ piece ++ b ∧ labels line = labels a ++ labels piece ++ labels b ∧
        scan a = us ∧ scan piece = [.word ""] ∧ scan b = vs ∧
        (∃ x ∈ labels piece, x.2 = .quote) ∧
        ∀ x ∈ labels piece, x.2 = .quote ∨ x.2 = .escape ∨ x.2 = .space) ∧
    ((∀ c ∈ line.toList, c ∉ ['\'', '"', '\\', '|', '>']) → tokenTexts line = words line) := by
  refine ⟨?_, ?_, fun n xs ys hn h hxs hys => scan_redirects hn h hxs hys, fun us vs h => ?_,
    tokenTexts_plain⟩
  · rw [tokenTexts, List.flatMap_map]
    exact spelling_scan line
  · intro op _
    cases op <;> simp [Token.text, Operator.text]
  · obtain ⟨a, piece, b, hline, hlabels, ha, hpiece, hb⟩ := scan_eq_append_empty_word h
    exact ⟨a, piece, b, hline, hlabels, ha, hpiece, hb, scan_eq_empty_word hpiece⟩

theorem tokens_conserve_characters_run :
    let line := "a ''\\>>>>b"
    labels line = labels "a ''\\>" ++ List.replicate 3 ('>', .redirect) ++ labels "b" ∧
    (∃ a b, line = a ++ ">>>" ++ b ∧ labels "a ''\\>" = labels a ∧ labels "b" = labels b ∧
      scan line = scan a ++ [.operator .append, .operator .redirect] ++ scan b) ∧
    scan "a '' b" = [.word "a"] ++ .word "" :: [.word "b"] ∧
    (∃ a piece b, "a '' b" = a ++ piece ++ b ∧ scan a = [.word "a"] ∧ scan piece = [.word ""] ∧
      scan b = [.word "b"] ∧ ∃ x ∈ labels piece, x.2 = .quote) ∧
    tokenTexts " x  y\t" = ["x", "y"] := by
  intro line
  have hlabels : labels line = labels "a ''\\>" ++ List.replicate 3 ('>', .redirect) ++ labels "b" := by
    decide +kernel
  have hempty : scan "a '' b" = [.word "a"] ++ .word "" :: [.word "b"] := by decide +kernel
  obtain ⟨-, -, hrun, -, -⟩ := tokens_conserve_characters line
  obtain ⟨-, -, -, hpiece, -⟩ := tokens_conserve_characters "a '' b"
  obtain ⟨-, -, -, -, hwords⟩ := tokens_conserve_characters " x  y\t"
  obtain ⟨a, piece, b, hline, -, ha, hscan, hb, hquote, -⟩ := hpiece _ _ hempty
  refine ⟨hlabels, hrun 3 _ _ (by decide) hlabels (by decide +kernel) (by decide +kernel), hempty,
    ⟨a, piece, b, hline, ha, hscan, hb, hquote⟩, ?_⟩
  rw [hwords (by simp)]
  decide +kernel

end Shellbox.Line
