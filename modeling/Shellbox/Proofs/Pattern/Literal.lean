import Shellbox.Proofs.Pattern.Glob

/-!
# Patterns that stand for themselves

A pattern of letters, digits and blanks is read as one test for each of its characters. It occurs in
a line just if the line contains it, and without regard to letter case in a line of ASCII characters
just if the lower case of the line contains its lower case.
-/

namespace Shellbox.Pattern

variable {p : Pattern} {cx : Flags} {s : Source} {items : List Item} {ts : List CharTest}
  {a c : Char} {cs rest : List Char} {P : List Char → Prop}

/-! ## Somewhere in a text -/

/-- The places that are tried lie behind some of the characters that are left. -/
theorem matchesWithin_iff {size more : Nat} {at_ : Place}
    (hP : ∀ q, p.matchesAt size q ↔ P q.after) :
    p.matchesWithin size more at_ ↔
      ∃ front rest, at_.after = front ++ rest ∧ front.length ≤ more ∧ P rest := by
  induction more generalizing at_ with
  | zero =>
      rw [matchesWithin, hP]
      constructor
      · intro h
        exact ⟨[], at_.after, rfl, Nat.le_refl 0, h⟩
      · rintro ⟨front, rest, heq, hlen, h⟩
        obtain rfl := List.eq_nil_of_length_eq_zero (Nat.le_zero.mp hlen)
        rwa [heq]
  | succ more ih =>
      rw [matchesWithin, Bool.or_eq_true, hP]
      constructor
      · rintro (h | h)
        · exact ⟨[], at_.after, rfl, Nat.zero_le _, h⟩
        · cases hafter : at_.after with
          | nil => simp [Place.next?, hafter] at h
          | cons c r =>
              simp only [Place.next?, hafter] at h
              obtain ⟨front, rest, heq, hlen, h⟩ := ih.mp h
              exact ⟨c :: front, rest, congrArg (c :: ·) heq, Nat.succ_le_succ hlen, h⟩
      · rintro ⟨front, rest, heq, hlen, h⟩
        cases front with
        | nil => exact .inl (by rwa [heq])
        | cons c front =>
            refine .inr ?_
            simp only [Place.next?, heq, List.cons_append]
            exact ih.mpr ⟨front, rest, rfl, Nat.le_of_succ_le_succ hlen, h⟩

/-! ## One test after another -/

/-- The tests hold of the first characters in turn. -/
def PassesEach : List CharTest → List Char → Prop
  | [], _ => True
  | t :: ts, cs => ∃ c rest, cs = c :: rest ∧ t.passes c ∧ PassesEach ts rest

theorem PassesEach.length_le (h : PassesEach ts cs) : ts.length ≤ cs.length := by
  induction ts generalizing cs with
  | nil => exact Nat.zero_le _
  | cons t ts ih =>
      obtain ⟨c, rest, rfl, -, hrest⟩ := h
      exact Nat.succ_le_succ (ih hrest)

theorem attempt_tests_isHit (ts : List CharTest) (cx : Context) (s : State) :
    (attempt (seqOf (ts.map .one)) cx s done).IsHit ↔ PassesEach ts s.place.after := by
  induction ts generalizing s cx with
  | nil => simp [seqOf, attempt, done, PassesEach]
  | cons t ts ih =>
      rw [List.map_cons, attempt_seqOf_cons, PassesEach]
      exact attempt_one_isHit fun s => ih cx s

theorem width_tests_le (ts : List CharTest) (groups : Nat → Nat × Nat) :
    ((seqOf (ts.map .one)).width groups).1 ≤ ts.length := by
  induction ts with
  | nil => exact Nat.le_refl 0
  | cons t ts ih =>
      have hle := Glob.width_seqOf_cons_le (.one t) (ts.map .one) groups
      rw [show ((Pattern.one t).width groups).1 = 1 from rfl] at hle
      rw [List.map_cons, List.length_cons]
      omega

/-- Tests one after another occur in a text where they all hold; that places with too few characters
are not tried makes no difference. -/
theorem occursIn_tests {shortest : Nat} (hshortest : shortest ≤ ts.length) (text : String) :
    Regex.occursIn ⟨seqOf (ts.map .one), shortest⟩ text ↔
      ∃ front rest, text.toList = front ++ rest ∧ PassesEach ts rest := by
  have hmatches (q : Place) : (seqOf (ts.map .one)).matchesAt text.toList.length q ↔
      PassesEach ts q.after := by
    rw [matchesAt_iff, attempt_tests_isHit]
    rfl
  simp only [Regex.occursIn, Bool.and_eq_true, decide_eq_true_eq, matchesWithin_iff hmatches]
  constructor
  · rintro ⟨-, front, rest, heq, -, h⟩
    exact ⟨front, rest, heq, h⟩
  · rintro ⟨front, rest, heq, h⟩
    have hlen := h.length_le
    have hsize : text.toList.length = front.length + rest.length := by
      rw [heq, List.length_append]
    refine ⟨by omega, front, rest, heq, ?_, h⟩
    split <;> omega

/-! ## How a literal is read -/

/-- A letter, a digit or a blank. -/
def IsLiteralChar (c : Char) : Prop := isAsciiLetter c ∨ isAsciiDigit c ∨ c = ' '

instance (c : Char) : Decidable (IsLiteralChar c) := inferInstanceAs (Decidable (_ ∨ _))

def IsLiteral (pattern : String) : Prop := ∀ c ∈ pattern.toList, IsLiteralChar c

instance (pattern : String) : Decidable (IsLiteral pattern) := List.decidableBAll _ pattern.toList

theorem IsLiteralChar.isLone (h : IsLiteralChar c) : IsLone c :=
  isLone_of_excludes (by decide) h

theorem IsLiteralChar.plainPart_eq (h : IsLiteralChar c) (cx : Flags) :
    plainPart cx c = .one (.ofCode cx.fold false c.toNat) := by
  unfold plainPart
  split
  · exact absurd h (by decide)
  · exact absurd h (by decide)
  · exact absurd h (by decide)
  · rfl

theorem IsLiteralChar.toNat_lt (h : IsLiteralChar c) : c.toNat < 128 := by
  rcases h with h | h | rfl
  · exact Glob.IsLetter.toNat_lt (.inl h)
  · exact Glob.IsLetter.toNat_lt (.inr (.inl h))
  · decide

/-- The tests for the characters of a literal. -/
def literalTests (fold : Fold) (cs : List Char) : List CharTest :=
  cs.map fun c => .ofCode fold false c.toNat

theorem readSequence_literal (hv : cx.verbose = false) (hcs : ∀ c ∈ cs, IsLiteralChar c)
    (hs : s.rest = cs) {fuel : Nat} (hfuel : cs.length < fuel) (first : Bool) :
    readSequence fuel cx first items s =
      .ok (joinItems items ++ (literalTests cx.fold cs).map .one, s.drop cs.length) := by
  induction cs generalizing s items fuel with
  | nil =>
      obtain ⟨fuel, rfl⟩ := Nat.exists_eq_add_one.mpr hfuel
      rw [readSequence_end hs]
      simp [literalTests, Source.drop]
  | cons c cs ih =>
      obtain ⟨hc, hcs⟩ := List.forall_mem_cons.mp hcs
      obtain ⟨fuel, rfl⟩ := Nat.exists_eq_add_one.mpr (Nat.zero_lt_of_lt hfuel)
      have hescape : cs ≠ ['\\'] := by
        rintro rfl
        exact absurd (hcs '\\' (by simp)) (by decide)
      have hrest : (s.drop 1).rest = cs := by
        rw [Source.drop, hs]
        rfl
      rw [readSequence_lone hv hs hc.isLone hescape, hc.plainPart_eq,
        ih hcs hrest (Nat.lt_of_succ_lt_succ hfuel), joinItems_cons, Source.drop_drop,
        List.append_assoc, List.length_cons, Nat.add_comm 1]
      rfl

/-- How letter case counts in a pattern without switches of its own. -/
def foldOf (ignoreCase : Bool) : Fold := if ignoreCase then .unicode else .exact

/-- A literal compiles to the tests for its characters. -/
theorem compile_literal {pattern : String} (hpattern : IsLiteral pattern) (ignoreCase : Bool) :
    ∃ shortest ≤ pattern.toList.length, compile pattern ignoreCase =
      .ok ⟨seqOf ((literalTests (foldOf ignoreCase) pattern.toList).map .one), shortest⟩ := by
  let flags : Flags := { ignoreCase }
  let s : Source := ⟨pattern.toList, 0, flags, [], [], none, []⟩
  have hstart : Source.ofText flags pattern.toList = .ok s := by
    refine Source.ofText_eq_ok.mpr ⟨fun heq => ?_, rfl⟩
    exact absurd (hpattern '\\' (by simp [heq])) (by decide)
  have hread : readSequence (4 * pattern.length + 7) flags true [] s =
      .ok ((literalTests flags.fold pattern.toList).map .one, s.drop pattern.toList.length) :=
    readSequence_literal rfl hpattern rfl (by rw [String.length_toList]; omega) true
  have hfine : Fine (seqOf ((literalTests flags.fold pattern.toList).map .one)) := by
    refine .seqOf fun p hp => ?_
    obtain ⟨test, -, rfl⟩ := List.mem_map.mp hp
    exact .one test
  obtain ⟨groups, hcompile⟩ :=
    ofText_of_sequence hstart hread List.drop_length rfl rfl hfine.defect
  have hwidth := width_tests_le (literalTests flags.fold pattern.toList) groups
  rw [literalTests, List.length_map] at hwidth
  exact ⟨_, hwidth, hcompile⟩

/-! ## What a literal occurs in -/

/-- What letters are compared by: under `folded` their lower case. -/
def letterKey (folded : Bool) : Char → Char := if folded then Char.toLower else id

/-- The line contains the text, under `folded` without regard to the case of ASCII letters. -/
def Contains (folded : Bool) (part line : String) : Prop :=
  part.toList.map (letterKey folded) <:+: line.toList.map (letterKey folded)

instance (folded : Bool) (part line : String) : Decidable (Contains folded part line) :=
  inferInstanceAs (Decidable (_ <:+: _))

theorem passes_literal {folded : Bool} (ha : IsLiteralChar a) (hc : folded → c.toNat < 128) :
    (CharTest.ofCode (foldOf folded) false a.toNat).passes c ↔
      letterKey folded a = letterKey folded c := by
  cases folded with
  | false =>
      have hcased : Fold.isCased .exact a.toNat = false := rfl
      simp [foldOf, letterKey, CharTest.ofCode, hcased, CharTest.passes, Fold.same, Char.toNat_inj]
  | true => exact Glob.passes_ofCode_ascii ha.toNat_lt (hc rfl)

theorem passesEach_literal {folded : Bool} (hcs : ∀ c ∈ cs, IsLiteralChar c)
    (hrest : folded → ∀ c ∈ rest, c.toNat < 128) :
    PassesEach (literalTests (foldOf folded) cs) rest ↔
      cs.map (letterKey folded) <+: rest.map (letterKey folded) := by
  induction cs generalizing rest with
  | nil => simp [literalTests, PassesEach]
  | cons a cs ih =>
      obtain ⟨ha, hcs⟩ := List.forall_mem_cons.mp hcs
      rw [literalTests, List.map_cons, PassesEach, List.map_cons]
      cases rest with
      | nil => simp
      | cons c rest =>
          have hc : folded → c.toNat < 128 := fun h => hrest h c List.mem_cons_self
          have hrest : folded → ∀ c ∈ rest, c.toNat < 128 := fun h d hd =>
            hrest h d (List.mem_cons_of_mem c hd)
          have htail := ih hcs hrest
          rw [literalTests] at htail
          simp [List.cons_prefix_cons, passes_literal ha hc, htail]

/-- A literal compiles, and it occurs in the lines that contain it. -/
theorem exists_compile_contains {pattern : String} (hpattern : IsLiteral pattern) (folded : Bool) :
    ∃ r, compile pattern folded = .ok r ∧ ∀ line : String,
      (folded → ∀ c ∈ line.toList, c.toNat < 128) →
        (r.occursIn line ↔ Contains folded pattern line) := by
  obtain ⟨shortest, hshortest, hcompile⟩ := compile_literal hpattern folded
  refine ⟨_, hcompile, fun line hline => ?_⟩
  have hlength : shortest ≤ (literalTests (foldOf folded) pattern.toList).length := by
    rwa [literalTests, List.length_map]
  rw [occursIn_tests hlength, Contains, List.infix_iff_prefix_suffix]
  constructor
  · rintro ⟨front, rest, heq, h⟩
    have hrest : folded → ∀ c ∈ rest, c.toNat < 128 := fun hf c hc =>
      hline hf c (heq ▸ List.mem_append_right front hc)
    exact ⟨_, (passesEach_literal hpattern hrest).mp h,
      heq ▸ (List.suffix_append front rest).map (letterKey folded)⟩
  · rintro ⟨tail, hprefix, front, hsuffix⟩
    obtain ⟨front, rest, heq, -, rfl⟩ := List.map_eq_append_iff.mp hsuffix.symm
    have hrest : folded → ∀ c ∈ rest, c.toNat < 128 := fun hf c hc =>
      hline hf c (heq ▸ List.mem_append_right front hc)
    exact ⟨front, rest, heq, (passesEach_literal hpattern hrest).mpr hprefix⟩

end Shellbox.Pattern
