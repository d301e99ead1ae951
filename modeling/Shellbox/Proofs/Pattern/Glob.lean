import Mathlib.Data.List.Infix
import Shellbox.Pattern.Glob
import Shellbox.Proofs.Pattern.Attempts
import Shellbox.Proofs.Pattern.Parts
import Shellbox.Proofs.Pattern.Reading

/-!
# Globs of plain characters

A glob of letters, digits, underscores, full stops, stars and question marks is read as one item for
each of its characters, between the two anchors. It accepts a name of ASCII characters without line
breaks just if the name matches the glob in the usual sense.
-/

namespace Shellbox.Glob

open Pattern

variable {g cs : List Char} {c a : Char} {s : Source} {cx : Flags} {items : List Item}

/-! ## Matching in the usual sense -/

/-- The characters match the glob as a whole: a star stands for any number of characters, a question
mark for one, and everything else for itself in either case. -/
def fits : List Char → List Char → Bool
  | [], cs => cs.isEmpty
  | a :: g, cs =>
    if a = '*' then cs.tails.any (fits g)
    else
      match cs with
      | [] => false
      | c :: cs => (a = '?' || a.toLower = c.toLower) && fits g cs

/-- A character that stands for itself. -/
def IsLetter (c : Char) : Prop := isAsciiLetter c ∨ isAsciiDigit c ∨ c = '_' ∨ c = '.'

instance (c : Char) : Decidable (IsLetter c) := inferInstanceAs (Decidable (_ ∨ _))

/-- The glob is made of letters, digits, underscores, full stops, stars and question marks. -/
def IsPlain (g : List Char) : Prop := ∀ c ∈ g, IsLetter c ∨ c = '*' ∨ c = '?'

instance (g : List Char) : Decidable (IsPlain g) := List.decidableBAll _ g

/-- ASCII characters without a line break. -/
def IsPlainName (cs : List Char) : Prop := ∀ c ∈ cs, c.toNat < 128 ∧ c ≠ '\n'

instance (cs : List Char) : Decidable (IsPlainName cs) := List.decidableBAll _ cs

/-! ## How a plain glob is read -/

/-- The item of one character of a plain glob. -/
def part : Char → Pattern
  | '*' => .run (.any false) 0 none .greedy
  | '?' => .one (.any false)
  | c => .one (.ofCode .unicode false c.toNat)

/-- The items of a plain glob between its anchors. -/
def parts (g : List Char) : List Pattern := g.map part ++ [.anchor .lastLineEnd]

theorem IsLetter.isLone (h : IsLetter c) : IsLone c :=
  isLone_of_excludes (by decide) h

theorem IsLetter.charRegex_eq (h : IsLetter c) (hdot : c ≠ '.') : charRegex c = [c] := by
  unfold charRegex
  split
  · exact absurd rfl hdot
  · exact absurd h (by decide)
  · exact absurd h (by decide)
  · rfl

theorem IsLetter.part_eq (h : IsLetter c) : part c = .one (.ofCode .unicode false c.toNat) := by
  unfold part
  split
  · exact absurd h (by decide)
  · exact absurd h (by decide)
  · rfl

theorem IsLetter.plainPart_eq (h : IsLetter c) (hdot : c ≠ '.') (hfold : cx.fold = .unicode) :
    plainPart cx c = part c := by
  unfold plainPart
  split
  · exact absurd rfl hdot
  · exact absurd h (by decide)
  · exact absurd h (by decide)
  · rw [h.part_eq, codePattern, hfold]

theorem IsLetter.toNat_lt (h : IsLetter c) : c.toNat < 128 := by
  have hle (d : Char) (hd : c ≤ d) (hlt : d.toNat < 128) : c.toNat < 128 :=
    Nat.lt_of_le_of_lt hd hlt
  simp only [IsLetter, isAsciiLetter, isAsciiDigit, Bool.or_eq_true, Bool.and_eq_true,
    decide_eq_true_eq] at h
  rcases h with (h | h) | h | rfl | rfl
  · exact hle 'z' h.2 (by decide)
  · exact hle 'Z' h.2 (by decide)
  · exact hle '9' h.2 (by decide)
  · decide
  · decide

theorem head?_charRegex (c : Char) :
    ∃ d r, charRegex c = d :: r ∧ d ≠ '?' ∧ (d = '+' → c = '+') := by
  unfold charRegex
  split
  · exact ⟨_, _, rfl, by decide, by decide⟩
  · exact ⟨_, _, rfl, by decide, by decide⟩
  · exact ⟨_, _, rfl, by decide, by decide⟩
  · rename_i hquestion
    exact ⟨_, _, rfl, hquestion, id⟩

theorem head?_rest (h : IsPlain g) : (g.flatMap charRegex ++ ['$']).head? ≠ some '?' ∧
    (g.flatMap charRegex ++ ['$']).head? ≠ some '+' := by
  cases g with
  | nil => decide
  | cons c g =>
      obtain ⟨d, r, hd, hquestion, hplus⟩ := head?_charRegex c
      rw [List.flatMap_cons, hd]
      refine ⟨fun heq => hquestion (Option.some_inj.mp heq), fun heq => ?_⟩
      obtain rfl := hplus (Option.some_inj.mp heq)
      exact absurd (h '+' (by simp)) (by decide)

/-- The items of a plain glob are read one after another, up to the end of the text. -/
theorem readSequence_plain (hv : cx.verbose = false) (hd : cx.dotAll = false)
    (hm : cx.multiline = false) (hfold : cx.fold = .unicode) (hg : IsPlain g)
    (hs : s.rest = g.flatMap charRegex ++ ['$']) {fuel : Nat} (hfuel : 2 * g.length + 2 ≤ fuel)
    (first : Bool) :
    ∃ n, readSequence fuel cx first items s = .ok (joinItems items ++ parts g, s.drop n) ∧
      (s.drop n).rest = [] := by
  induction g generalizing s items fuel with
  | nil =>
      obtain ⟨fuel, rfl⟩ : ∃ m, fuel = m + 2 := ⟨fuel - 2, by simp at hfuel; omega⟩
      have hend : (s.drop 1).rest = [] := by
        rw [Source.drop, hs]
        rfl
      refine ⟨1, ?_, hend⟩
      rw [readSequence_lone hv hs (by decide) (by decide), readSequence_end hend, joinItems_cons]
      simp [parts, plainPart, hm, Item.ofPart]
  | cons c g ih =>
      rw [List.length_cons] at hfuel
      obtain ⟨fuel, rfl⟩ : ∃ m, fuel = m + 2 := ⟨fuel - 2, by omega⟩
      obtain ⟨hc, hrest⟩ : _ ∧ IsPlain g := List.forall_mem_cons.mp hg
      rw [List.flatMap_cons] at hs
      -- What the rest reads as, once the item of the first character has been read.
      have hread (item : Item) (k m : Nat) (hitem : item.parts = [part c])
          (hk : (s.drop k).rest = g.flatMap charRegex ++ ['$']) (hm : 2 * g.length + 2 ≤ m) :
          ∃ n, readSequence m cx first (item :: items) (s.drop k) =
            .ok (joinItems items ++ parts (c :: g), s.drop n) ∧ (s.drop n).rest = [] := by
        obtain ⟨n, hend, hnil⟩ := @ih (s.drop k) (item :: items) hrest hk m hm
        rw [Source.drop_drop] at hend hnil
        refine ⟨k + n, ?_, hnil⟩
        rw [hend, joinItems_cons, hitem]
        simp [parts]
      rcases hc with hc | rfl | rfl
      · by_cases hdot : c = '.'
        · subst hdot
          rw [readSequence_escaped hs (append_dollar_ne _) rfl]
          refine hread _ 2 _ ?_ (by rw [Source.drop, hs]; rfl) (by omega)
          rw [hc.part_eq, codePattern, hfold]
          rfl
        · rw [hc.charRegex_eq hdot] at hs
          rw [readSequence_lone hv hs hc.isLone (append_dollar_ne _), hc.plainPart_eq hdot hfold]
          refine hread _ 1 _ ?_ (by rw [Source.drop, hs]; rfl) (by omega)
          rw [hc.part_eq]
          rfl
      · have hstar : (s.drop 1).rest = '*' :: (g.flatMap charRegex ++ ['$']) := by
          rw [Source.drop, hs]
          rfl
        have hsort : (Item.ofPart (.one (.any false))).sort = .repeatable := rfl
        obtain ⟨hlazy, hpossessive⟩ := head?_rest hrest
        rw [readSequence_lone hv hs (by decide) (by simp), plainPart, hd,
          readSequence_star hv hstar hsort (append_dollar_ne _) hlazy hpossessive, Source.drop_drop]
        exact hread _ 2 _ rfl (by rw [Source.drop, hs]; rfl) (by omega)
      · rw [readSequence_lone hv hs (by decide) (append_dollar_ne _), plainPart, hd]
        exact hread _ 1 _ rfl (by rw [Source.drop, hs]; rfl) (by omega)

/-- The switches under which globs are compiled. -/
def flags : Flags := { ignoreCase := true }

theorem fine_part (c : Char) : Fine (part c) := by
  unfold part
  split
  · exact .run _ _ _ _
  · exact .one _
  · exact .one _

theorem fine_parts (g : List Char) : ∀ p ∈ parts g, Fine p := by
  simp [parts, or_imp, forall_and, fine_part, Fine.anchor]

theorem length_le_flatMap_charRegex (g : List Char) : g.length ≤ (g.flatMap charRegex).length := by
  induction g with
  | nil => exact Nat.le_refl 0
  | cons c g ih =>
      obtain ⟨d, r, hd, -⟩ := head?_charRegex c
      rw [List.flatMap_cons, hd, List.length_append, List.length_cons, List.length_cons]
      omega

/-- A plain glob compiles to the items of its characters between the two anchors. -/
theorem compile_plain {glob : String} (hg : IsPlain glob.toList) :
    ∃ groups, compile glob =
      .ok ⟨seqOf (.anchor .textStart :: parts glob.toList),
        ((seqOf (.anchor .textStart :: parts glob.toList)).width groups).1⟩ := by
  have htext : (toRegex glob).toList = '^' :: (glob.toList.flatMap charRegex ++ ['$']) := by
    simp [toRegex, body]
  have hlen : glob.toList.length ≤ (toRegex glob).length := by
    have hbody := length_le_flatMap_charRegex glob.toList
    rw [← String.length_toList, htext, List.length_cons, List.length_append]
    omega
  generalize hs : Source.mk (toRegex glob).toList 0 flags [] [] none [] = s
  have hrest : s.rest = '^' :: (glob.toList.flatMap charRegex ++ ['$']) := by rw [← hs, htext]
  have hstart : Source.ofText flags (toRegex glob).toList = .ok s :=
    Source.ofText_eq_ok.mpr ⟨by simp [htext], hs.symm⟩
  obtain ⟨n, hseq, hend⟩ := @readSequence_plain glob.toList (s.drop 1) flags
    [.ofPart (.anchor .textStart)] rfl rfl rfl rfl hg (by rw [Source.drop, hrest]; rfl)
    (4 * (toRegex glob).length + 6) (by omega) true
  rw [Source.drop_drop] at hseq hend
  have hread := (readSequence_lone rfl hrest (by decide) (append_dollar_ne _)).trans hseq
  have hfine : Fine (seqOf (.anchor .textStart :: parts glob.toList)) :=
    .seqOf (List.forall_mem_cons.mpr ⟨.anchor _, fine_parts _⟩)
  exact ofText_of_sequence hstart hread hend rfl rfl hfine.defect

/-! ## What a plain glob matches -/

/-- The test of a character that is no star. -/
def charTest (a : Char) : CharTest :=
  if a = '?' then .any false else .ofCode .unicode false a.toNat

theorem part_of_ne (h : a ≠ '*') : part a = .one (charTest a) := by
  unfold part
  split
  · exact absurd rfl h
  · rfl
  · rename_i hquestion
    rw [charTest, if_neg hquestion]

/-- The characters on which the items of a plain glob match up to the end. -/
def Takes : List Char → List Char → Prop
  | [], cs => cs = [] ∨ cs = ['\n']
  | a :: g, cs =>
    if a = '*' then PassesTo (.any false) (Takes g) cs
    else ∃ c rest, cs = c :: rest ∧ (charTest a).passes c ∧ Takes g rest

theorem attempt_parts_isHit {cx : Pattern.Context} (hcx : cx.next = .other) (g : List Char)
    (s : State) : (attempt (seqOf (parts g)) cx s done).IsHit ↔ Takes g s.place.after := by
  induction g generalizing s with
  | nil =>
      have hlast : Anchor.lastLineEnd.holds s.place ↔
          s.place.after = [] ∨ s.place.after = ['\n'] := by
        simp [Anchor.holds]
      rw [Takes, ← hlast]
      simp only [parts, List.map_nil, List.nil_append, seqOf, attempt]
      split <;> simp [done, *]
  | cons a g ih =>
      have hcons : parts (a :: g) = part a :: parts g := rfl
      rw [hcons, attempt_seqOf_cons, Takes]
      by_cases hstar : a = '*'
      · subst hstar
        rw [if_pos rfl]
        refine attempt_run_isHit ih fun s hrefuses => ?_
        rw [hcx] at hrefuses
        exact not_isHit_of_orElse_refuses hrefuses
      · rw [if_neg hstar, part_of_ne hstar]
        exact attempt_one_isHit ih

/-! ## Letters of either case -/

theorem isCased_of_isAsciiLetterCode : ∀ n < 128, isAsciiLetterCode n → Text.isCased n := by
  decide +kernel

/-- What is no letter is the lower case of itself alone. -/
theorem lowerCode_eq_iff {m n : Nat} (hm : m < 128) (hn : n < 128) (h : ¬ isAsciiLetterCode m) :
    Text.lowerCode m = Text.lowerCode n ↔ m = n := by
  simp only [isAsciiLetterCode, Bool.or_eq_true, Bool.and_eq_true, decide_eq_true_eq] at h
  simp only [Text.lowerCode, hm, hn, ↓reduceIte, Bool.and_eq_true, decide_eq_true_eq]
  split <;> split <;> omega

/-- What counts as the same letter as an ASCII character is that character, or not ASCII. -/
theorem mem_sameLetter_ascii : ∀ n < 128, n ∈ Text.sameLetter n ∧
    ∀ m ∈ Text.sameLetter n, m = n ∨ 128 ≤ m := by
  decide +kernel

theorem lowerCode_lt {n : Nat} (hn : n < 128) : Text.lowerCode n < 128 := by
  simp only [Text.lowerCode, hn, ↓reduceIte, Bool.and_eq_true, decide_eq_true_eq]
  split <;> omega

theorem sameCode_ascii {m n : Nat} (hm : m < 128) (hn : n < 128) :
    Text.sameCode m n ↔ Text.lowerCode m = Text.lowerCode n := by
  obtain ⟨hself, hothers⟩ := mem_sameLetter_ascii _ (lowerCode_lt hm)
  rw [Text.sameCode, List.contains_iff_mem]
  constructor
  · intro hmem
    have hlt := lowerCode_lt hn
    have hmn := hothers _ hmem
    omega
  · rintro heq
    rwa [← heq]

theorem toNat_toLower (hc : c.toNat < 128) : c.toLower.toNat = Text.lowerCode c.toNat := by
  have hall : ∀ n < 128, (Char.ofNat n).toLower.toNat = Text.lowerCode n := by decide +kernel
  rw [← hall c.toNat hc, Char.ofNat_toNat]

theorem toLower_eq_iff (ha : a.toNat < 128) (hc : c.toNat < 128) :
    a.toLower = c.toLower ↔ Text.lowerCode a.toNat = Text.lowerCode c.toNat := by
  rw [← toNat_toLower ha, ← toNat_toLower hc, Char.toNat_inj]

/-- A test for an ASCII character holds of that character and of its other case. -/
theorem passes_ofCode_ascii (ha : a.toNat < 128) (hc : c.toNat < 128) :
    (CharTest.ofCode .unicode false a.toNat).passes c ↔ a.toLower = c.toLower := by
  rw [toLower_eq_iff ha hc, CharTest.ofCode, Fold.isCased]
  split
  · rw [CharTest.passes, Fold.same, bne_iff_ne, ne_eq, Bool.not_eq_false, sameCode_ascii ha hc]
  · rename_i hcased
    have hletter : ¬ isAsciiLetterCode a.toNat :=
      fun h => hcased (isCased_of_isAsciiLetterCode _ ha h)
    rw [CharTest.passes, Fold.same, bne_iff_ne, ne_eq, Bool.not_eq_false, beq_iff_eq]
    exact (lowerCode_eq_iff ha hc hletter).symm

theorem takes_iff_fits (hg : IsPlain g) (hcs : IsPlainName cs) : Takes g cs ↔ fits g cs := by
  induction g generalizing cs with
  | nil =>
      have hbreak : cs ≠ ['\n'] := by
        rintro rfl
        exact (hcs '\n' (by simp)).2 rfl
      simp [Takes, fits, hbreak]
  | cons a g ih =>
      obtain ⟨ha, hg⟩ : _ ∧ IsPlain g := List.forall_mem_cons.mp hg
      rw [Takes]
      unfold fits
      by_cases hstar : a = '*'
      · rw [if_pos hstar, if_pos hstar, List.any_eq_true]
        constructor
        · rintro ⟨taken, rest, rfl, -, htakes⟩
          exact ⟨rest, (List.mem_tails _ _).mpr (List.suffix_append taken rest),
            (ih hg fun c hc => hcs c (by simp [hc])).mp htakes⟩
        · rintro ⟨rest, hrest, hfits⟩
          obtain ⟨taken, rfl⟩ := (List.mem_tails _ _).mp hrest
          have htakes := (ih hg fun c hc => hcs c (by simp [hc])).mpr hfits
          refine ⟨taken, rest, rfl, fun c hc => ?_, htakes⟩
          simpa [CharTest.passes] using (hcs c (by simp [hc])).2
      · rw [if_neg hstar, if_neg hstar]
        cases cs with
        | nil => simp
        | cons c cs =>
            obtain ⟨hc, hcs⟩ : _ ∧ IsPlainName cs := List.forall_mem_cons.mp hcs
            have hpasses : (charTest a).passes c ↔ a = '?' ∨ a.toLower = c.toLower := by
              rw [charTest]
              split
              · simp [CharTest.passes, hc.2, *]
              · rename_i hquestion
                have hletter := (ha.resolve_right (by tauto)).toNat_lt
                simp [passes_ofCode_ascii hletter hc.1, hquestion]
            simp [hpasses, ih hg hcs]

/-! ## Names that a plain glob accepts -/

theorem width_seqOf_cons_le (p : Pattern) (ps : List Pattern) (groups : Nat → Nat × Nat) :
    ((seqOf (p :: ps)).width groups).1 ≤ (p.width groups).1 + ((seqOf ps).width groups).1 := by
  cases ps with
  | nil => simp [seqOf]
  | cons q ps => exact Nat.min_le_left _ _

/-- What matches a glob is no shorter than its items. -/
theorem width_parts_le (groups : Nat → Nat × Nat) (h : Takes g cs) :
    ((seqOf (parts g)).width groups).1 ≤ cs.length := by
  induction g generalizing cs with
  | nil => exact Nat.zero_le _
  | cons a g ih =>
      refine Nat.le_trans (width_seqOf_cons_le (part a) (parts g) groups) ?_
      rw [Takes] at h
      by_cases hstar : a = '*'
      · rw [if_pos hstar] at h
        obtain ⟨taken, rest, rfl, -, htakes⟩ := h
        have hpart : ((part a).width groups).1 = 0 := by
          rw [hstar]
          exact Nat.zero_min _
        have hrest := ih htakes
        rw [hpart, List.length_append]
        omega
      · rw [if_neg hstar] at h
        obtain ⟨c, rest, rfl, -, htakes⟩ := h
        have hpart : ((part a).width groups).1 = 1 := by rw [part_of_ne hstar, width]
        have hrest := ih htakes
        rw [hpart, List.length_cons]
        omega

/-- A plain glob compiles, and it accepts the names on which its items match up to the end. -/
theorem exists_compile_takes {glob : String} (hg : IsPlain glob.toList) :
    ∃ r, compile glob = .ok r ∧ ∀ name, accepts r name ↔ Takes glob.toList name.toList := by
  obtain ⟨groups, hcompile⟩ := compile_plain hg
  refine ⟨_, hcompile, fun name => ?_⟩
  have hbegins : Begins (parts glob.toList) name.toList ↔ Takes glob.toList name.toList :=
    attempt_parts_isHit rfl _ _
  rw [accepts, matchesStart_seqOf, begins_caret, hbegins]
  refine and_iff_right_iff_imp.mpr fun (htakes : Takes glob.toList name.toList) => ?_
  have hfirst : ((Pattern.anchor .textStart).width groups).1 = 0 := rfl
  have hle := width_seqOf_cons_le (.anchor .textStart) (parts glob.toList) groups
  have hparts := width_parts_le groups htakes
  omega

/-- A plain glob compiles, and of the plain names it accepts those that match it in the usual
sense. -/
theorem exists_compile_fits {glob : String} (hg : IsPlain glob.toList) :
    ∃ r, compile glob = .ok r ∧ ∀ name : String, IsPlainName name.toList →
      (accepts r name ↔ fits glob.toList name.toList) := by
  obtain ⟨r, hcompile, haccepts⟩ := exists_compile_takes hg
  exact ⟨r, hcompile, fun name hname => (haccepts name).trans (takes_iff_fits hg hname)⟩

/-- A star alone matches a text with no line break in front of its last character. -/
theorem takes_star : Takes ['*'] cs ↔ '\n' ∉ cs.dropLast := by
  have hpasses (c : Char) : (CharTest.any false).passes c ↔ c ≠ '\n' := by
    simp [CharTest.passes]
  rw [Takes, if_pos rfl]
  constructor
  · rintro ⟨taken, rest, rfl, htaken, rfl | rfl⟩ hbreak
    · rw [List.append_nil] at hbreak
      exact (hpasses _).mp (htaken _ (List.mem_of_mem_dropLast hbreak)) rfl
    · rw [List.dropLast_concat] at hbreak
      exact (hpasses _).mp (htaken _ hbreak) rfl
  · intro hbreak
    rcases List.eq_nil_or_concat cs with rfl | ⟨front, c, rfl⟩
    · exact ⟨[], [], rfl, nofun, .inl rfl⟩
    · rw [List.concat_eq_append, List.dropLast_concat] at hbreak
      have hfront : ∀ d ∈ front, (CharTest.any false).passes d :=
        fun d hd => (hpasses d).mpr fun heq => hbreak (heq ▸ hd)
      by_cases hc : c = '\n'
      · exact ⟨front, ['\n'], by simp [hc], hfront, .inr rfl⟩
      · refine ⟨front ++ [c], [], by simp, fun d hd => ?_, .inl rfl⟩
        rcases List.mem_append.mp hd with hd | hd
        · exact hfront d hd
        · exact (hpasses d).mpr (List.mem_singleton.mp hd ▸ hc)

/-- The star of `find` accepts the names with no line break in front of their last character. -/
theorem exists_compile_star :
    ∃ r, compile "*" = .ok r ∧ ∀ name, accepts r name ↔ '\n' ∉ name.toList.dropLast := by
  have hplain : IsPlain "*".toList := by decide
  obtain ⟨r, hcompile, haccepts⟩ := exists_compile_takes hplain
  exact ⟨r, hcompile, fun name => (haccepts name).trans takes_star⟩

end Shellbox.Glob
