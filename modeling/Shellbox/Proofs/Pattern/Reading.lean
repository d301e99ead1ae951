import Mathlib.Data.List.Basic
import Shellbox.Pattern.Compile
import Shellbox.Proofs.Number.Numeral

/-!
# Reading item by item

What comes next in a source decides how a sequence goes on: a plain character that means nothing
else is one item, and a star or bounds in braces repeat the item before them.
-/

namespace Shellbox.Pattern

open Number

variable {cx : Flags} {s : Source} {items : List Item} {item : Item} {c : Char}
  {r digits : List Char} {fuel n : Nat} {first : Bool}

/-! ## Pieces -/

/-- With a dollar sign at the end no backslash is left open. -/
theorem append_dollar_ne (cs : List Char) : cs ++ ['$'] ≠ ['\\'] := by
  intro h
  have hlast := congrArg List.getLast? h
  rw [List.getLast?_concat] at hlast
  exact absurd hlast (by decide)

/-- The source some characters on. -/
def Source.drop (s : Source) (n : Nat) : Source :=
  { s with rest := s.rest.drop n, pos := s.pos + n }

theorem Source.drop_drop (s : Source) (m n : Nat) : (s.drop m).drop n = s.drop (m + n) := by
  simp [drop, Nat.add_assoc]

theorem Source.peek_plain (hs : s.rest = c :: r) (hc : c ≠ '\\') : s.peek = some (.plain c) := by
  unfold peek
  split
  · rename_i heq
    cases heq.symm.trans hs
  · rename_i heq
    exact absurd (List.cons.inj (heq.symm.trans hs)).1.symm hc
  · rename_i heq
    rw [(List.cons.inj (heq.symm.trans hs)).1]

theorem Source.peek_escaped (hs : s.rest = '\\' :: c :: r) : s.peek = some (.escaped c) := by
  rw [peek, hs]
  rfl

theorem Source.skip_eq (h : s.rest.drop n ≠ ['\\']) : s.skip n = .ok (s.drop n) := by
  rw [skip, if_neg h]
  rfl

theorem Source.takeIf_of_ne (hs : s.rest.head? ≠ some c) (hc : c ≠ '\\') :
    s.takeIf c = .ok (false, s) := by
  have hnext : s.isNext c = false := by
    rw [isNext, decide_eq_false_iff_not]
    intro hpeek
    cases hrest : s.rest with
    | nil => simp [peek, hrest] at hpeek
    | cons d r =>
        by_cases hd : d = '\\'
        · subst hd
          cases r with
          | nil =>
              rw [peek, hrest] at hpeek
              exact hc (Piece.plain.inj (Option.some_inj.mp hpeek)).symm
          | cons e r => simp [peek_escaped hrest] at hpeek
        · rw [peek_plain hrest hd] at hpeek
          refine hs ?_
          rw [hrest, List.head?_cons, Piece.plain.inj (Option.some_inj.mp hpeek)]
  rw [takeIf, hnext]
  rfl

theorem Source.takeIf_of_nil (hs : s.rest = []) (hc : c ≠ '\\') : s.takeIf c = .ok (false, s) :=
  takeIf_of_ne (by simp [hs]) hc

theorem Source.takeIf_of_eq (hs : s.rest = c :: r) (hc : c ≠ '\\') (hr : r ≠ ['\\']) :
    s.takeIf c = .ok (true, s.drop 1) := by
  have hnext : s.isNext c := by rw [isNext, peek_plain hs hc, decide_eq_true rfl]
  have hskip : s.skip 1 = .ok (s.drop 1) := skip_eq (by simpa [hs] using hr)
  rw [takeIf, if_pos hnext, hskip]
  rfl

theorem Source.takeWhile_eq {test : Char → Bool} {front : List Char} (hs : s.rest = front ++ r)
    (hfront : ∀ c ∈ front, test c) (hr : r.takeWhile test = []) (hend : r ≠ ['\\']) :
    s.takeWhile test s.rest.length = .ok (front, s.drop front.length) := by
  have htake : (s.rest.take s.rest.length).takeWhile test = front := by
    rw [List.take_length, hs, List.takeWhile_append_of_pos hfront, hr, List.append_nil]
  have hskip : s.skip front.length = .ok (s.drop front.length) :=
    skip_eq (by rw [hs, List.drop_left]; exact hend)
  rw [takeWhile]
  simp only [htake]
  split
  · rename_i hempty
    obtain rfl := List.isEmpty_iff.mp hempty
    rfl
  · rw [hskip]
    rfl

/-! ## Bounds -/

theorem isAsciiDigit_of_isDigit (h : c.isDigit) : isAsciiDigit c := by
  simpa [isAsciiDigit, Char.isDigit, Char.le_def] using h

theorem readBounds_atLeast (here : Nat) (hn : IsNumeral digits n) (hlt : n < unbounded) :
    readBounds here digits [] = .ok (n, none) := by
  have hbound : readBound digits = .ok n := by
    rw [readBound, hn.readNumeral_eq]
    exact if_neg (Nat.not_le.mpr hlt)
  have hempty : digits.isEmpty = false := List.isEmpty_eq_false_iff.mpr hn.ne_nil
  simp [readBounds, hempty, hbound, bind, Except.bind]

/-- A numeral and a comma in braces bound a repetition from below. -/
theorem readBraces_atLeast (hs : s.rest = digits ++ [',', '\x7d']) (hn : IsNumeral digits n)
    (hlt : n < unbounded) :
    readBraces s = .ok (some (n, none), s.drop (digits.length + 2)) := by
  have hdigits : ∀ c ∈ digits, isAsciiDigit c := fun c hc =>
    isAsciiDigit_of_isDigit (hn.isDigit c hc)
  have hopen : s.isNext '\x7d' = false := by
    obtain ⟨d, ds, rfl⟩ := List.exists_cons_of_ne_nil hn.ne_nil
    have hd : d.isDigit := hn.isDigit d (by simp)
    have hpeek : s.peek = some (.plain d) := by
      refine Source.peek_plain hs ?_
      rintro rfl
      cases hd
    rw [Source.isNext, hpeek, decide_eq_false_iff_not]
    rintro ⟨⟩
    cases hd
  -- The digits, the comma, no digits and the brace are taken one after the other.
  have hleast : s.takeWhile isAsciiDigit s.rest.length = .ok (digits, s.drop digits.length) :=
    Source.takeWhile_eq hs hdigits (by decide) (by decide)
  have hrest : (s.drop digits.length).rest = [',', '\x7d'] := by simp [Source.drop, hs]
  have hcomma : (s.drop digits.length).takeIf ',' = .ok (true, s.drop (digits.length + 1)) := by
    rw [Source.takeIf_of_eq hrest (by decide) (by decide), Source.drop_drop]
  have hrest' : (s.drop (digits.length + 1)).rest = [] ++ ['\x7d'] := by
    rw [← Source.drop_drop, Source.drop, hrest]
    rfl
  have hmost : (s.drop (digits.length + 1)).takeWhile isAsciiDigit
      (s.drop (digits.length + 1)).rest.length = .ok ([], s.drop (digits.length + 1)) :=
    Source.takeWhile_eq hrest' (by simp) (by decide) (by decide)
  have hclosed : (s.drop (digits.length + 1)).takeIf '\x7d' =
      .ok (true, s.drop (digits.length + 2)) := by
    rw [Source.takeIf_of_eq hrest' (by decide) (by decide), Source.drop_drop]
  simp [readBraces, hopen, hleast, hcomma, hmost, hclosed, readBounds_atLeast _ hn hlt, bind,
    Except.bind]

/-! ## Items -/

/-- A character that neither ends a sequence nor begins an escape, a set, a group or a
repetition. -/
def IsLone (c : Char) : Prop := c ∉ ['\\', '|', ')', '[', '('] ∧ beginsRepeat c = false

instance (c : Char) : Decidable (IsLone c) := inferInstanceAs (Decidable (_ ∧ _))

/-- A class without these characters holds lone ones only. -/
theorem isLone_of_excludes {P : Char → Prop} [DecidablePred P]
    (hP : ['\\', '|', ')', '[', '(', '*', '+', '?', '\x7b'].all fun a => ¬ P a) (hc : P c) :
    IsLone c := by
  have hmem : c ∉ ['\\', '|', ')', '[', '(', '*', '+', '?', '\x7b'] := fun hmem =>
    of_decide_eq_true (List.all_eq_true.mp hP c hmem) hc
  simp only [List.mem_cons, List.not_mem_nil, or_false, not_or] at hmem
  simp [IsLone, beginsRepeat, hmem]

theorem joinItems_cons (item : Item) (items : List Item) :
    joinItems (item :: items) = joinItems items ++ item.parts := by
  simp [joinItems]

theorem readSequence_lone (hv : cx.verbose = false) (hs : s.rest = c :: r) (hc : IsLone c)
    (hr : r ≠ ['\\']) :
    readSequence (fuel + 1) cx first items s =
      readSequence fuel cx first (.ofPart (plainPart cx c) :: items) (s.drop 1) := by
  obtain ⟨hspecial, hrepeat⟩ := hc
  simp only [List.mem_cons, List.not_mem_nil, or_false, not_or] at hspecial
  have hskip : s.skip 1 = .ok (s.drop 1) := Source.skip_eq (by simpa [hs] using hr)
  rw [readSequence, Source.peek_plain hs hspecial.1]
  simp [hspecial, hv, hrepeat, hskip, bind, Except.bind]

theorem readGreed_plain (h : s.rest.head? ≠ some '?') (h' : s.rest.head? ≠ some '+') :
    readGreed s = .ok (.greedy, s) := by
  rw [readGreed, Source.takeIf_of_ne h (by decide)]
  simp [bind, Except.bind, Source.takeIf_of_ne h' (by decide)]

theorem readSequence_star (hv : cx.verbose = false) (hs : s.rest = '*' :: r)
    (hitem : item.sort = .repeatable) (hr : r ≠ ['\\']) (hlazy : r.head? ≠ some '?')
    (hpossessive : r.head? ≠ some '+') :
    readSequence (fuel + 1) cx first (item :: items) s =
      readSequence fuel cx first
        (⟨[(seqOf item.parts).repeated 0 none .greedy], .repetition⟩ :: items) (s.drop 1) := by
  have hskip : s.skip 1 = .ok (s.drop 1) := Source.skip_eq (by simpa [hs] using hr)
  have hgreed : readGreed (s.drop 1) = .ok (.greedy, s.drop 1) :=
    readGreed_plain (by simpa [Source.drop, hs] using hlazy)
      (by simpa [Source.drop, hs] using hpossessive)
  rw [readSequence, Source.peek_plain hs (by decide)]
  simp [hv, beginsRepeat, hskip, bind, Except.bind, readRepeat, repeatLast, hitem, hgreed]

theorem readSequence_escaped {p : Pattern} (hs : s.rest = '\\' :: c :: r) (hr : r ≠ ['\\'])
    (hp : readEscape cx (s.drop 2) c = .ok (p, s.drop 2)) :
    readSequence (fuel + 1) cx first items s =
      readSequence fuel cx first (.ofPart p :: items) (s.drop 2) := by
  have hskip : s.skip 2 = .ok (s.drop 2) := Source.skip_eq (by simpa [hs] using hr)
  rw [readSequence, Source.peek_escaped hs]
  simp [hskip, bind, Except.bind, hp]

theorem readSequence_set {p : Pattern} {t : Source} (hv : cx.verbose = false)
    (hs : s.rest = '[' :: r) (hr : r ≠ ['\\']) (hset : readSet cx (s.drop 1) = .ok (p, t)) :
    readSequence (fuel + 1) cx first items s = readSequence fuel cx first (.plain p :: items) t := by
  have hskip : s.skip 1 = .ok (s.drop 1) := Source.skip_eq (by simpa [hs] using hr)
  rw [readSequence, Source.peek_plain hs (by decide)]
  simp [hv, hskip, bind, Except.bind, hset]

theorem readSequence_braces {least : Nat} {most : Option Nat} {t : Source}
    (hv : cx.verbose = false) (hs : s.rest = '\x7b' :: r) (hr : r ≠ ['\\'])
    (hitem : item.sort = .repeatable)
    (hbraces : readBraces (s.drop 1) = .ok (some (least, most), t))
    (hgreed : readGreed t = .ok (.greedy, t)) :
    readSequence (fuel + 1) cx first (item :: items) s =
      readSequence fuel cx first
        (⟨[(seqOf item.parts).repeated least most .greedy], .repetition⟩ :: items) t := by
  have hskip : s.skip 1 = .ok (s.drop 1) := Source.skip_eq (by simpa [hs] using hr)
  rw [readSequence, Source.peek_plain hs (by decide)]
  simp [hv, beginsRepeat, hskip, bind, Except.bind, readRepeat, hbraces, repeatLast, hitem, hgreed]

theorem readSequence_end (h : s.rest = []) :
    readSequence (fuel + 1) cx first items s = .ok (joinItems items, s) := by
  have hpeek : s.peek = none := by rw [Source.peek, h]
  rw [readSequence, hpeek]

/-! ## Whole texts -/

theorem Source.ofText_eq_ok {flags : Flags} {text : List Char} :
    Source.ofText flags text = .ok s ↔
      text ≠ ['\\'] ∧ s = ⟨text, 0, flags, [], [], none, []⟩ := by
  simp only [Source.ofText, skip, List.drop_zero, Nat.add_zero]
  split
  · simp [*]
  · simp [*, eq_comm]

/-- A text that is read up to its end is the pattern of its branches if this has no defect. -/
theorem ofText_of_branches {flags : Flags} {text : String} {t : Source} {bs : List (List Pattern)}
    (hs : Source.ofText flags text.toList = .ok s)
    (hbs : readBranches (4 * text.length + 8) flags true true s = .ok (bs, t))
    (hascii : flags.ascii = false) (htemplate : flags.template = false) (hflags : t.flags = flags)
    (hconditions : t.conditions = []) (hrest : t.rest = [])
    (hdefect : (seqOf (branches flags.fold bs)).defect? false t.groupWidth = none) :
    ofText flags text = .ok ⟨seqOf (branches flags.fold bs),
      ((seqOf (branches flags.fold bs)).width t.groupWidth).1⟩ := by
  have hfinish : t.finish (seqOf (branches flags.fold bs)) = .ok ⟨seqOf (branches flags.fold bs),
      ((seqOf (branches flags.fold bs)).width t.groupWidth).1⟩ := by
    rw [Source.finish, hflags, htemplate, hdefect]
    rfl
  simp only [ofText, hs, bind, Except.bind, hbs, hflags, hascii, hrest, missingCondition?,
    hconditions, hfinish, Bool.false_and, List.isEmpty_nil, Bool.not_true, Bool.false_eq_true,
    ↓reduceIte, List.find?_nil, Option.map_none]

/-- A text that is read as one sequence up to its end is the pattern of this sequence. -/
theorem ofText_of_sequence {flags : Flags} {text : String} {parts : List Pattern}
    (hs : Source.ofText flags text.toList = .ok s)
    (hseq : readSequence (4 * text.length + 7) flags true [] s = .ok (parts, s.drop n))
    (hend : (s.drop n).rest = []) (hascii : flags.ascii = false) (htemplate : flags.template = false)
    (hdefect : ∀ groups, (seqOf parts).defect? false groups = none) :
    ∃ groups, ofText flags text = .ok ⟨seqOf parts, ((seqOf parts).width groups).1⟩ := by
  have hbar : (s.drop n).takeIf '|' = .ok (false, s.drop n) :=
    Source.takeIf_of_nil hend (by decide)
  have hbranches : readBranches (4 * text.length + 8) flags true true s =
      .ok ([parts], s.drop n) := by
    rw [readBranches, Bool.true_and, hseq]
    simp [bind, Except.bind, hbar]
  obtain ⟨-, rfl⟩ := Source.ofText_eq_ok.mp hs
  exact ⟨_, ofText_of_branches hs hbranches hascii htemplate rfl rfl hend (hdefect _)⟩

end Shellbox.Pattern
