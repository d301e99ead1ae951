import Mathlib.Data.List.DropRight
import Shellbox.Text.Blank

/-!
# The words of a text

Words are what blanks divide a text into. A text put together at a blank has the words of its parts,
and where a word is found among the words of a text, the text holds it between blanks. Trimming
takes the blanks around a word away.
-/

namespace Shellbox.Text

variable {c : Char} {cs pre rest u a : List Char} {as bs : List (List Char)}

/-- Characters of a word: some, and none of them blank. -/
structure IsWord (u : List Char) : Prop where
  ne_nil : u ≠ []
  not_blank : ∀ c ∈ u, isBlank c = false

/-- The characters begin with a blank, if there are any. -/
def BeginsBlank (cs : List Char) : Prop := ∀ c ∈ cs.head?, isBlank c

/-- The characters end with a blank, if there are any. -/
def EndsBlank (cs : List Char) : Prop := ∀ c ∈ cs.getLast?, isBlank c

@[simp]
theorem wordsChars_nil : wordsChars [] = [] := rfl

theorem wordsChars_append_blank (hc : isBlank c) (cs rest : List Char) :
    wordsChars (cs ++ c :: rest) = wordsChars cs ++ wordsChars rest := by
  rw [wordsChars, List.splitOnP_append_cons _ _ hc, List.filter_append, ← wordsChars,
    ← wordsChars]

theorem wordsChars_blank (hc : isBlank c) (cs : List Char) :
    wordsChars (c :: cs) = wordsChars cs := by
  simpa using wordsChars_append_blank hc [] cs

theorem wordsChars_word (hu : IsWord u) : wordsChars u = [u] := by
  rw [wordsChars, List.splitOnP_eq_singleton (by simpa using hu.not_blank)]
  simp [hu.ne_nil]

theorem wordsChars_append (hrest : BeginsBlank rest) (cs : List Char) :
    wordsChars (cs ++ rest) = wordsChars cs ++ wordsChars rest := by
  cases rest with
  | nil => simp
  | cons c rest =>
      have hc : isBlank c := hrest c rfl
      rw [wordsChars_append_blank hc, wordsChars_blank hc]

theorem wordsChars_append_of_endsBlank (hpre : EndsBlank pre) (cs : List Char) :
    wordsChars (pre ++ cs) = wordsChars pre ++ wordsChars cs := by
  rcases List.eq_nil_or_concat pre with rfl | ⟨front, c, rfl⟩
  · simp
  · have hc : isBlank c := hpre c (by simp)
    rw [List.concat_eq_append, List.append_assoc, List.singleton_append,
      wordsChars_append_blank hc, wordsChars_append_blank hc, wordsChars_nil, List.append_nil]

theorem wordsChars_trimStart (cs : List Char) : wordsChars (trimStart cs) = wordsChars cs := by
  induction cs with
  | nil => rfl
  | cons c cs ih =>
      rw [trimStart_cons]
      split
      · rename_i hc
        rw [ih, wordsChars_blank hc]
      · rfl

/-- Characters up to the first blank. -/
def firstWord (cs : List Char) : List Char := cs.takeWhile (!isBlank ·)

/-- Characters from the first blank on. -/
def behindFirstWord (cs : List Char) : List Char := cs.dropWhile (!isBlank ·)

theorem firstWord_append_behind (cs : List Char) : firstWord cs ++ behindFirstWord cs = cs :=
  List.takeWhile_append_dropWhile

theorem beginsBlank_behindFirstWord (cs : List Char) : BeginsBlank (behindFirstWord cs) := by
  intro c hc
  have hhead := List.head?_dropWhile_not (!isBlank ·) cs
  rw [← behindFirstWord, Option.mem_def.mp hc] at hhead
  simpa using hhead

theorem isWord_firstWord (h : firstWord cs ≠ []) : IsWord (firstWord cs) :=
  ⟨h, fun c hc => by simpa using List.mem_takeWhile_imp hc⟩

theorem firstWord_append (hu : IsWord u) (hrest : BeginsBlank rest) :
    firstWord (u ++ rest) = u := by
  rw [firstWord, List.takeWhile_append_of_pos (by simpa using hu.not_blank)]
  cases rest with
  | nil => simp
  | cons c rest =>
      have hc : isBlank c := hrest c rfl
      simp [hc]

theorem wordsChars_eq_firstWord (h : firstWord cs ≠ []) :
    wordsChars cs = firstWord cs :: wordsChars (behindFirstWord cs) := by
  have hwords := wordsChars_append (beginsBlank_behindFirstWord cs) (firstWord cs)
  rwa [firstWord_append_behind, wordsChars_word (isWord_firstWord h)] at hwords

theorem firstWord_trimStart_eq_nil (h : firstWord (trimStart cs) = []) : trimStart cs = [] := by
  have hhead := List.head?_dropWhile_not isBlank cs
  rw [← trimStart] at hhead
  cases htrim : trimStart cs with
  | nil => rfl
  | cons c front =>
      rw [htrim] at hhead h
      simp [firstWord, show isBlank c = false by simpa using hhead] at h

/-- Behind its leading blanks a text begins with its first word. -/
theorem wordsChars_eq_cons (h : wordsChars cs = u :: bs) :
    ∃ rest, trimStart cs = u ++ rest ∧ IsWord u ∧ BeginsBlank rest ∧ wordsChars rest = bs := by
  have hne : firstWord (trimStart cs) ≠ [] := by
    intro hnil
    rw [← wordsChars_trimStart, firstWord_trimStart_eq_nil hnil] at h
    cases h
  rw [← wordsChars_trimStart, wordsChars_eq_firstWord hne, List.cons.injEq] at h
  obtain ⟨rfl, rfl⟩ := h
  exact ⟨_, (firstWord_append_behind _).symm, isWord_firstWord hne,
    beginsBlank_behindFirstWord _, rfl⟩

theorem wordsChars_eq_nil (h : ∀ c ∈ cs, isBlank c) : wordsChars cs = [] := by
  induction cs with
  | nil => rfl
  | cons c cs ih =>
      obtain ⟨hc, hcs⟩ := List.forall_mem_cons.mp h
      rw [wordsChars_blank hc, ih hcs]

theorem endsBlank_append (hrest : EndsBlank rest) (hne : rest ≠ []) (cs : List Char) :
    EndsBlank (cs ++ rest) := by
  intro c hc
  rw [List.getLast?_append_of_ne_nil _ hne] at hc
  exact hrest c hc

/-- A text up to its first word, that word, and the rest. -/
theorem exists_firstWord (h : wordsChars cs = u :: bs) :
    ∃ pre rest, cs = pre ++ u ++ rest ∧ EndsBlank pre ∧ IsWord u ∧ BeginsBlank rest ∧
      wordsChars pre = [] ∧ wordsChars rest = bs := by
  obtain ⟨rest, htrim, hu, hrest, hbs⟩ := wordsChars_eq_cons h
  have hblank : ∀ c ∈ cs.takeWhile isBlank, isBlank c := fun c hc => List.mem_takeWhile_imp hc
  refine ⟨cs.takeWhile isBlank, rest, ?_, fun c hc => hblank c (List.mem_of_getLast? hc), hu, hrest,
    wordsChars_eq_nil hblank, hbs⟩
  rw [List.append_assoc, ← htrim, trimStart, List.takeWhile_append_dropWhile]

/-- Where a word stands in its text. -/
theorem wordsChars_eq_append (h : wordsChars cs = as ++ u :: bs) :
    ∃ pre rest, cs = pre ++ u ++ rest ∧ EndsBlank pre ∧ IsWord u ∧ BeginsBlank rest ∧
      wordsChars pre = as ∧ wordsChars rest = bs := by
  induction as generalizing cs with
  | nil => exact exists_firstWord h
  | cons b as ih =>
      obtain ⟨front, behind, rfl, hfront, hb, hbehind, hnil, hwords⟩ := exists_firstWord h
      obtain ⟨pre, rest, rfl, hpre, hu, hrest, has, hbs⟩ := ih hwords
      -- Between two words there is a blank.
      have hne : pre ≠ [] := by
        rintro rfl
        obtain ⟨d, us, rfl⟩ := List.exists_cons_of_ne_nil hu.ne_nil
        have hd : isBlank d := hbehind d rfl
        simp [hu.not_blank d] at hd
      have hbegins : BeginsBlank pre := by
        obtain ⟨d, ps, rfl⟩ := List.exists_cons_of_ne_nil hne
        exact hbehind
      refine ⟨front ++ b ++ pre, rest, by simp, endsBlank_append hpre hne _, hu, hrest, ?_, hbs⟩
      rw [wordsChars_append hbegins, wordsChars_append_of_endsBlank hfront, wordsChars_word hb,
        hnil, has]
      rfl

/-- Characters that end a text end its last word. -/
theorem wordsChars_concat (ha : IsWord a) (pre : List Char) :
    ∃ as u, wordsChars (pre ++ a) = as ++ [u] ∧ a <:+ u := by
  have hfront : EndsBlank (pre.rdropWhile (!isBlank ·)) := by
    intro c hc
    obtain ⟨hne, rfl⟩ := List.mem_getLast?_eq_getLast hc
    simpa using List.rdropWhile_last_not _ _ hne
  have hword : IsWord (pre.rtakeWhile (!isBlank ·) ++ a) := by
    refine ⟨by simp [ha.ne_nil], fun c hc => ?_⟩
    rcases List.mem_append.mp hc with hc | hc
    · simpa using List.mem_rtakeWhile_imp hc
    · exact ha.not_blank c hc
  refine ⟨wordsChars (pre.rdropWhile (!isBlank ·)), pre.rtakeWhile (!isBlank ·) ++ a, ?_,
    List.suffix_append _ _⟩
  rw [← wordsChars_word hword, ← wordsChars_append_of_endsBlank hfront, ← List.append_assoc,
    List.rdropWhile_append_rtakeWhile]

/-! ## Blanks around a word -/

theorem trimChars_blank (hc : isBlank c) (cs : List Char) : trimChars (c :: cs) = trimChars cs := by
  rw [trimChars, trimStart_cons, if_pos hc, ← trimChars]

theorem trimChars_concat_blank (hc : isBlank c) (cs : List Char) :
    trimChars (cs ++ [c]) = trimChars cs := by
  rw [← trimStart_trimEnd, trimEnd_concat, if_pos hc, trimStart_trimEnd]

theorem trimChars_of_not_blank (h : ∀ c ∈ cs, isBlank c = false) : trimChars cs = cs := by
  have hkept : ∀ ds : List Char, (∀ c ∈ ds, isBlank c = false) → ds.dropWhile isBlank = ds := by
    intro ds hds
    cases ds with
    | nil => rfl
    | cons c ds => exact List.dropWhile_cons_of_neg (by simp [hds c List.mem_cons_self])
  have hend : trimEnd cs = cs := by
    rw [trimEnd, hkept cs.reverse (by simpa using h), List.reverse_reverse]
  rw [← trimStart_trimEnd, hend, trimStart, hkept cs h]

/-- A text is some characters with blanks around them. -/
def IsPadded (word text : List Char) : Prop :=
  ∃ front back, text = front ++ (word ++ back) ∧ (∀ c ∈ front, isBlank c) ∧ ∀ c ∈ back, isBlank c

/-- What no blank changes at either end, blanks around a text do not change. -/
theorem IsPadded.map_eq {α : Type} {f : List Char → α} {text : List Char} (h : IsPadded u text)
    (hstart : ∀ {c}, isBlank c → ∀ cs, f (c :: cs) = f cs)
    (hend : ∀ {c}, isBlank c → ∀ cs, f (cs ++ [c]) = f cs) : f text = f u := by
  obtain ⟨front, back, rfl, hfront, hback⟩ := h
  have hbehind : f (u ++ back) = f u := by
    induction back using List.reverseRecOn with
    | nil => rw [List.append_nil]
    | append_singleton back c ih =>
        rw [← List.append_assoc, hend (hback c (by simp)), ih fun d hd => hback d (by simp [hd])]
  induction front with
  | nil => exact hbehind
  | cons c front ih =>
      obtain ⟨hc, hfront⟩ := List.forall_mem_cons.mp hfront
      rw [List.cons_append, hstart hc, ih hfront]

theorem IsPadded.trimChars_congr {text : List Char} (h : IsPadded u text) :
    trimChars text = trimChars u :=
  h.map_eq trimChars_blank trimChars_concat_blank

theorem IsPadded.trim_congr {word text : String} (h : IsPadded word.toList text.toList) :
    trim text = trim word := by
  rw [trim, trim, h.trimChars_congr]

theorem isAllBlank_iff {text : String} : isAllBlank text ↔ IsPadded "".toList text.toList := by
  constructor
  · exact fun h => ⟨text.toList, [], by simp, List.all_eq_true.mp h, by simp⟩
  · rintro ⟨front, back, htext, hfront, hback⟩
    rw [isAllBlank, htext, List.all_eq_true]
    exact List.forall_mem_append.mpr ⟨hfront, hback⟩

theorem IsPadded.trimChars_eq {text : List Char} (h : IsPadded u text)
    (hu : ∀ c ∈ u, isBlank c = false) : trimChars text = u := by
  rw [h.trimChars_congr, trimChars_of_not_blank hu]

theorem isPadded_trimChars (cs : List Char) : IsPadded (trimChars cs) cs := by
  refine ⟨cs.takeWhile isBlank, ((trimStart cs).reverse.takeWhile isBlank).reverse, ?_,
    fun c => List.mem_takeWhile_imp, fun c hc => List.mem_takeWhile_imp (List.mem_reverse.mp hc)⟩
  rw [trimChars, trimEnd_append_takeWhile, trimStart, List.takeWhile_append_dropWhile]

end Shellbox.Text
