import Shellbox.Command.Change
import Shellbox.Proofs.Text.Words

/-!
# The guard of `rm`

Whether the arguments of `rm` look like a removal of everything depends only on two neighbouring
words of the arguments taken together: an option for recursion right in front of an operand that
means everything, or the root right in front of such an option.
-/

namespace Shellbox.Command

open Text

variable {w cs rest a : List Char}

theorem anySuffix_iff (p : List Char → Bool) (cs : List Char) :
    anySuffix p cs ↔ ∃ t, t <:+ cs ∧ p t := by
  induction cs with
  | nil => simp [anySuffix]
  | cons c cs ih =>
      rw [anySuffix, Bool.or_eq_true, ih]
      simp only [List.suffix_cons_iff, or_and_right, exists_or, exists_eq_left]

theorem dropFolded?_eq_some_iff :
    dropFolded? w cs = some rest ↔ ∃ a, cs = a ++ rest ∧ List.Forall₂ (sameFolded · ·) w a := by
  induction w generalizing cs with
  | nil =>
      rw [dropFolded?, Option.some_inj]
      constructor
      · rintro rfl
        exact ⟨[], rfl, .nil⟩
      · rintro ⟨_, rfl, ⟨⟩⟩
        rfl
  | cons x w ih =>
      cases cs with
      | nil =>
          simp only [dropFolded?, reduceCtorEq, false_iff]
          rintro ⟨a, hnil, ha⟩
          cases ha
          cases hnil
      | cons c cs =>
          simp only [dropFolded?, Option.ite_none_right_eq_some, ih]
          constructor
          · rintro ⟨hc, a, rfl, ha⟩
            exact ⟨c :: a, rfl, .cons hc ha⟩
          · rintro ⟨_, hcs, ha⟩
            cases ha with
            | @cons _ d _ a hd ha =>
                obtain ⟨rfl, rfl⟩ := List.cons.inj hcs
                exact ⟨hd, a, rfl, ha⟩

/-! ## Options for recursion -/

/-- The characters are an option for recursion that the guard knows, in either case. -/
def IsRecursion (a : List Char) : Prop :=
  ∃ w ∈ recursionWords, List.Forall₂ (sameFolded · ·) w a

/-- The code points of blanks. -/
def blankCodes : List Nat :=
  [9, 10, 11, 12, 13, 28, 29, 30, 31, 32, 0x85, 0xA0, 0x1680, 0x2000, 0x2001, 0x2002, 0x2003,
    0x2004, 0x2005, 0x2006, 0x2007, 0x2008, 0x2009, 0x200A, 0x2028, 0x2029, 0x202F, 0x205F, 0x3000]

theorem mem_blankCodes {c : Char} (h : isBlank c) : c.toNat ∈ blankCodes := by
  simp only [isBlank, Bool.or_eq_true, Bool.and_eq_true, decide_eq_true_eq, beq_iff_eq] at h
  simp only [blankCodes, List.mem_cons, List.not_mem_nil, or_false]
  omega

theorem lowerCode_blankCodes : ∀ n ∈ blankCodes, lowerCode n = n := by
  decide +kernel

theorem recursionWords_not_blank :
    ∀ w ∈ recursionWords, w ≠ [] ∧
      ∀ x ∈ w, ∀ n ∈ sameLetter (lowerCode x.toNat), n ∉ blankCodes := by
  -- For all characters at once this would be tried on every one of them, so it is decided on codes.
  have hcodes : ∀ w ∈ recursionWords, w ≠ [] ∧
      ∀ k ∈ w.map (·.toNat), ∀ n ∈ sameLetter (lowerCode k), n ∉ blankCodes := by
    decide +kernel
  simpa only [List.forall_mem_map] using hcodes

/-- A character that counts as the same letter as one of an option is no blank. -/
theorem not_blank_of_sameFolded {x c : Char}
    (hx : ∀ n ∈ sameLetter (lowerCode x.toNat), n ∉ blankCodes) (h : sameFolded x c) :
    isBlank c = false := by
  rw [← Bool.not_eq_true]
  intro hc
  have hmem := mem_blankCodes hc
  rw [sameFolded, sameCode, List.contains_iff_mem, lowerCode_blankCodes _ hmem] at h
  exact hx _ h hmem

theorem IsRecursion.isWord (h : IsRecursion a) : IsWord a := by
  obtain ⟨w, hw, ha⟩ := h
  obtain ⟨hne, hblank⟩ := recursionWords_not_blank w hw
  constructor
  · rintro rfl
    cases ha
    exact hne rfl
  · clear hw hne
    induction ha with
    | nil => simp
    | @cons x c w a hc ha ih =>
        obtain ⟨hx, hw⟩ := List.forall_mem_cons.mp hblank
        exact List.forall_mem_cons.mpr ⟨not_blank_of_sameFolded hx hc, ih hw⟩

/-! ## The two patterns -/

theorem beginsEverything_iff (cs : List Char) :
    beginsEverything cs ↔ BeginsBlank cs ∧ ∃ v ∈ everything, ∃ bs, wordsChars cs = v :: bs := by
  have hnil : [] ∉ everything := by decide
  rw [beginsEverything, Bool.and_eq_true, List.contains_iff_mem, ← firstWord]
  constructor
  · rintro ⟨hhead, hmem⟩
    refine ⟨?_, _, hmem, wordsChars (behindFirstWord (trimStart cs)), ?_⟩
    · intro c hc
      simpa [Option.mem_def.mp hc] using hhead
    · rw [← wordsChars_trimStart, ← wordsChars_eq_firstWord (ne_of_mem_of_not_mem hmem hnil)]
  · rintro ⟨hblank, v, hv, bs, hwords⟩
    obtain ⟨rest, htrim, hword, hrest, -⟩ := wordsChars_eq_cons hwords
    refine ⟨?_, by rwa [htrim, firstWord_append hword hrest]⟩
    cases cs with
    | nil => cases hwords
    | cons c cs => exact hblank c rfl

theorem recursionThenEverything_iff (cs : List Char) :
    recursionThenEverything cs ↔ ∃ a rest, cs = a ++ rest ∧ IsRecursion a ∧ BeginsBlank rest ∧
      ∃ v ∈ everything, ∃ bs, wordsChars rest = v :: bs := by
  simp only [recursionThenEverything, List.any_eq_true, Option.any_eq_true, dropFolded?_eq_some_iff,
    beginsEverything_iff]
  constructor
  · rintro ⟨w, hw, rest, ⟨a, rfl, ha⟩, h⟩
    exact ⟨a, rest, rfl, ⟨w, hw, ha⟩, h⟩
  · rintro ⟨a, rest, rfl, ⟨w, hw, ha⟩, h⟩
    exact ⟨w, hw, rest, ⟨a, rfl, ha⟩, h⟩

/-- The operands that mean the root. -/
def roots : List (List Char) := ["/", "//", "/*"].map (·.toList)

theorem rootThenRecursion_iff (cs : List Char) :
    rootThenRecursion cs ↔ firstWord cs ∈ roots ∧
      ∃ v bs, wordsChars (behindFirstWord cs) = v :: bs ∧ ∃ a, a <+: v ∧ IsRecursion a := by
  rw [rootThenRecursion, ← firstWord, ← behindFirstWord, ← roots]
  simp only [Bool.and_eq_true, List.contains_iff_mem, List.any_eq_true, Option.isSome_iff_exists,
    dropFolded?_eq_some_iff, and_assoc]
  refine and_congr_right fun _ => ?_
  generalize behindFirstWord cs = rest
  constructor
  · rintro ⟨-, w, hw, r, a, htrim, ha⟩
    have hrec : IsRecursion a := ⟨w, hw, ha⟩
    have hfirst : firstWord (trimStart rest) = a ++ firstWord r := by
      rw [htrim, firstWord, List.takeWhile_append_of_pos (by simpa using hrec.isWord.not_blank),
        ← firstWord]
    have hne : firstWord (trimStart rest) ≠ [] := by simp [hfirst, hrec.isWord.ne_nil]
    refine ⟨_, wordsChars (behindFirstWord (trimStart rest)), ?_, a, ⟨firstWord r, hfirst.symm⟩,
      hrec⟩
    rw [← wordsChars_trimStart, wordsChars_eq_firstWord hne]
  · rintro ⟨v, bs, hwords, a, ⟨v', rfl⟩, w, hw, ha⟩
    obtain ⟨rest', htrim, -⟩ := wordsChars_eq_cons hwords
    refine ⟨?_, w, hw, v' ++ rest', a, by rw [htrim, List.append_assoc], ha⟩
    cases rest with
    | nil => cases hwords
    | cons c rest => rfl

/-! ## Neighbouring words -/

theorem anySuffix_recursionThenEverything_iff (cs : List Char) :
    anySuffix recursionThenEverything cs ↔ ∃ u v, [u, v] <:+: wordsChars cs ∧
      (∃ a, a <:+ u ∧ IsRecursion a) ∧ v ∈ everything := by
  simp only [anySuffix_iff, recursionThenEverything_iff]
  constructor
  · rintro ⟨_, ⟨pre, rfl⟩, a, rest, rfl, ha, hrest, v, hv, bs, hbs⟩
    obtain ⟨as, u, hu, hsuffix⟩ := wordsChars_concat ha.isWord pre
    refine ⟨u, v, ⟨as, bs, ?_⟩, ⟨a, hsuffix, ha⟩, hv⟩
    rw [← List.append_assoc, wordsChars_append hrest, hu, hbs]
    simp
  · rintro ⟨u, v, ⟨as, bs, hwords⟩, ⟨a, ⟨x, rfl⟩, ha⟩, hv⟩
    rw [List.append_assoc] at hwords
    obtain ⟨pre, rest, rfl, -, -, hrest, -, hbs⟩ := wordsChars_eq_append hwords.symm
    exact ⟨a ++ rest, ⟨pre ++ x, by simp⟩, a, rest, rfl, ha, hrest, v, hv, bs, hbs⟩

theorem neighbours_of_rootThenRecursion {t : List Char} (h : rootThenRecursion t)
    {pre : List Char} (hpre : EndsBlank pre) :
    ∃ u v, [u, v] <:+: wordsChars (pre ++ t) ∧ u ∈ roots ∧ ∃ a, a <+: v ∧ IsRecursion a := by
  have hnil : [] ∉ roots := by decide
  obtain ⟨hu, v, bs, hbs, hv⟩ := (rootThenRecursion_iff t).mp h
  refine ⟨firstWord t, v, ⟨wordsChars pre, bs, ?_⟩, hu, hv⟩
  rw [wordsChars_append_of_endsBlank hpre,
    wordsChars_eq_firstWord (ne_of_mem_of_not_mem hu hnil), hbs]
  simp

theorem rootThenRecursion_of_neighbours {u v : List Char} {bs : List (List Char)} (hword : IsWord u)
    (hrest : BeginsBlank rest) (hbs : wordsChars rest = v :: bs) (hu : u ∈ roots)
    (hv : ∃ a, a <+: v ∧ IsRecursion a) : rootThenRecursion (u ++ rest) := by
  have hfirst : firstWord (u ++ rest) = u := firstWord_append hword hrest
  have hbehind : behindFirstWord (u ++ rest) = rest := by
    have hsplit := firstWord_append_behind (u ++ rest)
    rwa [hfirst, List.append_cancel_left_eq] at hsplit
  rw [rootThenRecursion_iff, hfirst, hbehind]
  exact ⟨hu, v, bs, hbs, hv⟩

/-- The root stands in front of an option at the start of the text or behind a blank. -/
theorem rootThenRecursion_words_iff (cs : List Char) :
    (rootThenRecursion cs ||
        anySuffix (fun t => t.head?.any isBlank && rootThenRecursion t.tail) cs) ↔
      ∃ u v, [u, v] <:+: wordsChars cs ∧ u ∈ roots ∧ ∃ a, a <+: v ∧ IsRecursion a := by
  simp only [Bool.or_eq_true, anySuffix_iff, Bool.and_eq_true]
  constructor
  · rintro (h | ⟨t, ⟨pre, rfl⟩, hhead, h⟩)
    · have hnil : EndsBlank [] := nofun
      exact neighbours_of_rootThenRecursion h hnil
    · cases t with
      | nil => simp at hhead
      | cons c t =>
          have hc : isBlank c := by simpa using hhead
          have hpre : EndsBlank (pre ++ [c]) := by
            intro d hd
            obtain rfl : c = d := by simpa using hd
            exact hc
          rw [List.append_cons]
          exact neighbours_of_rootThenRecursion h hpre
  · rintro ⟨u, v, ⟨as, bs, hwords⟩, hu, hv⟩
    rw [List.append_assoc] at hwords
    obtain ⟨pre, rest, rfl, hpre, hword, hrest, -, hbs⟩ := wordsChars_eq_append hwords.symm
    have hfound := rootThenRecursion_of_neighbours hword hrest hbs hu hv
    -- Without a blank in front the word is the first one of the text.
    rcases List.eq_nil_or_concat pre with rfl | ⟨front, c, rfl⟩
    · exact .inl hfound
    · have hc : isBlank c := hpre c (by simp)
      exact .inr ⟨c :: (u ++ rest), ⟨front, by simp⟩, by simpa using hc, hfound⟩

/-- The words of the arguments, taken together, hold an option for recursion right in front of an
operand that means everything, or the root right in front of such an option. -/
def Guarded (args : List String) : Prop :=
  ∃ u v, [u, v] <:+: wordsChars (" ".intercalate args).toList ∧
    ((∃ a, a <:+ u ∧ IsRecursion a) ∧ v ∈ everything ∨
      u ∈ roots ∧ ∃ a, a <+: v ∧ IsRecursion a)

theorem isDangerous_iff (args : List String) : isDangerous args ↔ Guarded args := by
  rw [isDangerous, Bool.or_assoc, Bool.or_eq_true, anySuffix_recursionThenEverything_iff,
    rootThenRecursion_words_iff]
  simp only [Guarded, and_or_left, exists_or]

end Shellbox.Command
