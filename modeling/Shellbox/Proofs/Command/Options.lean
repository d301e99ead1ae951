import Shellbox.Command.View

/-!
# Options in front of a file

The three ways to read arguments see one word more when a file stands behind the options. Flags and
counts are read before it and leave it alone. An option that still waits for its value takes it.
-/

namespace Shellbox.Command

open Text

variable {valued : String → String → Prop} {alone : String → Prop} {w f option : String}
  {ws opts : List String}

/-- Option words without an operand: each that takes a value has the next word for it, and the
others stand alone. -/
inductive OptionWords (valued : String → String → Prop) (alone : String → Prop) :
    List String → Prop
  | nil : OptionWords valued alone []
  | value {w v : String} {ws : List String} (h : valued w v) (hws : OptionWords valued alone ws) :
      OptionWords valued alone (w :: v :: ws)
  | alone {w : String} {ws : List String} (h : alone w) (hws : OptionWords valued alone ws) :
      OptionWords valued alone (w :: ws)

/-- The word does not begin with a dash. -/
def IsUndashed (word : String) : Prop := word.toList.head? ≠ some '-'

instance (word : String) : Decidable (IsUndashed word) := inferInstanceAs (Decidable (_ ≠ _))

theorem IsUndashed.toList_ne (h : IsUndashed f) (cs : List Char) : f.toList ≠ '-' :: cs := by
  intro heq
  exact h (by rw [heq]; rfl)

theorem OptionWords.mono {valued' : String → String → Prop} {alone' : String → Prop}
    (h : OptionWords valued alone opts) (hvalued : ∀ w v, valued w v → valued' w v)
    (halone : ∀ w, alone w → alone' w) : OptionWords valued' alone' opts := by
  induction h with
  | nil => exact .nil
  | value h _ ih => exact .value (hvalued _ _ h) ih
  | alone h _ ih => exact .alone (halone _ h) ih

/-! ## Flags -/

/-- The word gives flags, or is dropped for its two dashes. -/
def IsFlagWord (word : String) : Prop := (flagLetters? word).isSome

instance (word : String) : Decidable (IsFlagWord word) := inferInstanceAs (Decidable (_ = _))

theorem IsUndashed.flagLetters?_eq (h : IsUndashed f) : flagLetters? f = none := by
  unfold flagLetters?
  split
  · exact absurd ‹_› (h.toList_ne _)
  · exact absurd ‹_› (h.toList_ne _)
  · rfl

theorem Arguments.ofWords_append (ws vs : List String) :
    ofWords (ws ++ vs) =
      { flags := (ofWords ws).flags ++ (ofWords vs).flags
        operands := (ofWords ws).operands ++ (ofWords vs).operands } := by
  induction ws with
  | nil => rfl
  | cons w ws ih =>
      rw [List.cons_append, ofWords, ofWords, ih]
      cases flagLetters? w with
      | none => rfl
      | some ls => simp

theorem Arguments.ofWords_undashed (h : ∀ w ∈ ws, IsUndashed w) : ofWords ws = ⟨[], ws⟩ := by
  induction ws with
  | nil => rfl
  | cons w ws ih =>
      obtain ⟨hw, hws⟩ := List.forall_mem_cons.mp h
      rw [ofWords, hw.flagLetters?_eq, ih hws]

theorem OptionWords.operands_eq (h : OptionWords (fun _ _ => False) IsFlagWord opts) :
    (Arguments.ofWords opts).operands = [] := by
  induction h with
  | nil => rfl
  | value h _ _ => exact h.elim
  | alone h _ ih =>
      obtain ⟨ls, hls⟩ := Option.isSome_iff_exists.mp h
      rw [Arguments.ofWords, hls]
      exact ih

theorem OptionWords.ofWords_append (h : OptionWords (fun _ _ => False) IsFlagWord opts)
    (ws : List String) (hws : ∀ w ∈ ws, IsUndashed w) :
    Arguments.ofWords (opts ++ ws) = ⟨(Arguments.ofWords opts).flags, ws⟩ := by
  rw [Arguments.ofWords_append, h.operands_eq, Arguments.ofWords_undashed hws]
  simp

/-! ## Counts -/

/-- The word is a count in one word with its option. -/
def IsCountWord (word : String) : Prop :=
  (∃ v, v ≠ "" ∧ word = "-n" ++ v) ∨ ∃ v, isDigits v ∧ word = "-" ++ v

theorem CountWord.ofWord_letter {v : String} (hv : v ≠ "") : ofWord ("-n" ++ v) = .joined v := by
  have hlist : ("-n" ++ v).toList = '-' :: 'n' :: v.toList := by simp
  have hne : "-n" ++ v ≠ "-n" := by
    intro heq
    have hlength := congrArg (·.toList.length) heq
    simp only [hlist] at hlength
    exact hv (by simpa using hlength)
  rw [ofWord, if_neg hne, hlist]
  simp

theorem CountWord.ofWord_dash {v : String} (hv : isDigits v) : ofWord ("-" ++ v) = .joined v := by
  have hlist : ("-" ++ v).toList = '-' :: v.toList := by simp
  have hn : isDigit 'n' = false := by decide
  have hfirst (r : List Char) : v.toList ≠ 'n' :: r := by
    intro heq
    simp [isDigits, heq, hn] at hv
  have hne : "-" ++ v ≠ "-n" := by
    intro heq
    rw [heq] at hlist
    exact hfirst [] (List.cons.inj hlist).2.symm
  rw [ofWord, if_neg hne, hlist]
  split
  · rename_i r heq
    exact absurd (List.cons.inj heq).2 (hfirst r)
  · rename_i r hr heq
    rw [← (List.cons.inj heq).2, String.ofList_toList, if_pos hv]
  · rename_i hnone
    exact absurd rfl (hnone _)

theorem IsCountWord.ofWord_eq (h : IsCountWord w) : ∃ v, CountWord.ofWord w = .joined v := by
  rcases h with ⟨v, hv, rfl⟩ | ⟨v, hv, rfl⟩
  · exact ⟨v, CountWord.ofWord_letter hv⟩
  · exact ⟨v, CountWord.ofWord_dash hv⟩

theorem IsUndashed.countWord_eq (h : IsUndashed f) : CountWord.ofWord f = .operand := by
  have hne : f ≠ "-n" := by
    rintro rfl
    exact h rfl
  rw [CountWord.ofWord, if_neg hne]
  split
  · exact absurd ‹_› (h.toList_ne _)
  · exact absurd ‹_› (h.toList_ne _)
  · rfl

/-- Reads words with a count that was given, unless it is refused. -/
def withCount (read : Except Fault (Option Nat)) (words : List String) :
    Except Fault (Option (Nat × List String)) :=
  match read with
  | .error f => .error f
  | .ok none => .ok none
  | .ok (some n) => countAndFiles n words

theorem countAndFiles_option (n : Nat) (v : String) (ws : List String) :
    countAndFiles n ("-n" :: v :: ws) = withCount (readCount v) ws := by
  have hoption : CountWord.ofWord "-n" = .option := rfl
  rw [countAndFiles.eq_def]
  simp only [hoption]
  rfl

theorem countAndFiles_joined {v : String} (hw : CountWord.ofWord w = .joined v) (n : Nat)
    (ws : List String) : countAndFiles n (w :: ws) = withCount (readCount v) ws := by
  rw [countAndFiles.eq_def]
  simp only [hw]
  rfl

theorem countAndFiles_operand (hw : CountWord.ofWord w = .operand) (n : Nat) (ws : List String) :
    countAndFiles n (w :: ws) =
      (countAndFiles n ws).map fun x => x.map fun (n, files) => (n, w :: files) := by
  rw [countAndFiles.eq_def]
  simp only [hw]

theorem countAndFiles_undashed (h : IsUndashed f) (n : Nat) :
    countAndFiles n [f] = .ok (some (n, [f])) := by
  rw [countAndFiles_operand h.countWord_eq]
  rfl

/-- A value that is read takes the place of the count, whatever is read behind it. -/
theorem withCount_append (value : Except Fault (Option Nat))
    (h : ∀ n, ∃ read, ∀ rest, countAndFiles n (ws ++ rest) = withCount read rest) :
    ∃ read, ∀ rest, withCount value (ws ++ rest) = withCount read rest := by
  match value with
  | .error f => exact ⟨.error f, fun _ => rfl⟩
  | .ok none => exact ⟨.ok none, fun _ => rfl⟩
  | .ok (some n) => exact h n

/-- Options for a count come to a count, or are refused, whatever stands behind them. -/
theorem OptionWords.countAndFiles_eq (h : OptionWords (fun w _ => w = "-n") IsCountWord opts)
    (n : Nat) : ∃ read, ∀ rest, countAndFiles n (opts ++ rest) = withCount read rest := by
  induction h generalizing n with
  | nil => exact ⟨.ok (some n), fun _ => rfl⟩
  | @value w v ws hw _ ih =>
      subst hw
      simpa only [List.cons_append, countAndFiles_option] using withCount_append (readCount v) ih
  | @alone w ws hw _ ih =>
      obtain ⟨v, hv⟩ := hw.ofWord_eq
      simpa only [List.cons_append, countAndFiles_joined hv] using withCount_append (readCount v) ih

/-! ## Options with a value -/

/-- The option stands at the end, without a value. -/
def waits (option : String) : List String → Bool
  | [] => false
  | w :: r =>
    if w = option then
      match r with
      | [] => true
      | _ :: r => waits option r
    else waits option r

/-- A word behind the others is the value of an option that waits for one, and else is left over. -/
theorem takeOptionFrom_concat (hne : f ≠ option) (hjoined : joinedValue? option f = none)
    (found : Option String) (ws : List String) :
    takeOptionFrom option found (ws ++ [f]) =
      if waits option ws then (some f, (takeOptionFrom option found ws).2)
      else ((takeOptionFrom option found ws).1, (takeOptionFrom option found ws).2 ++ [f]) := by
  fun_induction takeOptionFrom option found ws with
  | case1 found => simp [takeOptionFrom, waits, hne, hjoined]
  | case2 found => simp [takeOptionFrom, waits]
  | case3 found v r ih => simp [takeOptionFrom, waits, ih]
  | case4 found w r hw v hv ih =>
      rw [List.cons_append, takeOptionFrom.eq_def, waits.eq_def]
      simp only [if_neg hw, hv, ih]
  | case5 found w r hw hv value rest heq ih =>
      rw [List.cons_append, takeOptionFrom.eq_def, waits.eq_def]
      simp only [if_neg hw, hv, ih, heq]
      split <;> rfl

theorem joinedValue?_of_undashed (h : IsUndashed f) {letter : String} :
    f ≠ "-" ++ letter ∧ joinedValue? ("-" ++ letter) f = none := by
  have hlist : ("-" ++ letter).toList = '-' :: letter.toList := by simp
  constructor
  · rintro rfl
    exact h.toList_ne _ hlist
  · have hfront : ("-" ++ letter).toList.isPrefixOf f.toList = false := by
      rw [hlist, Bool.eq_false_iff]
      intro hpre
      obtain ⟨r, hr⟩ := List.isPrefixOf_iff_prefix.mp hpre
      exact h.toList_ne _ hr.symm
    rw [joinedValue?, hfront]
    simp

theorem takeOption_concat (h : IsUndashed f) (letter : String) (ws : List String) :
    takeOption letter (ws ++ [f]) =
      if waits ("-" ++ letter) ws then (some f, (takeOption letter ws).2)
      else ((takeOption letter ws).1, (takeOption letter ws).2 ++ [f]) :=
  takeOptionFrom_concat (joinedValue?_of_undashed h).1 (joinedValue?_of_undashed h).2 none ws

/-- The option is in the word, alone or with a value in one word with it. -/
def IsTakenFor (option word : String) : Prop :=
  word = option ∨ (joinedValue? option word).isSome

instance (option word : String) : Decidable (IsTakenFor option word) :=
  inferInstanceAs (Decidable (_ ∨ _))

/-- Taking one option out of complete option words, none of whose other values is taken for it,
leaves them complete. -/
theorem OptionWords.takeOptionFrom_rest
    (h : OptionWords (fun w v => w = option ∨ valued w v) alone opts)
    (hvalued : ∀ w v, valued w v → ¬ IsTakenFor option w ∧ ¬ IsTakenFor option v)
    (halone : ∀ w, alone w → w ≠ option) :
    waits option opts = false ∧
      ∀ found, OptionWords valued alone (takeOptionFrom option found opts).2 := by
  induction h with
  | nil => exact ⟨rfl, fun _ => .nil⟩
  | @value w v ws h _ ih =>
      by_cases hw : w = option
      · subst hw
        refine ⟨?_, fun found => ?_⟩
        · rw [waits.eq_def]
          simpa using ih.1
        · rw [takeOptionFrom.eq_def]
          simpa using ih.2 (some v)
      · obtain ⟨hnot, hnot'⟩ := hvalued w v (h.resolve_left hw)
        obtain ⟨-, hjoined⟩ : w ≠ option ∧ joinedValue? option w = none := by
          simpa [IsTakenFor] using hnot
        obtain ⟨hv, hjoined'⟩ : v ≠ option ∧ joinedValue? option v = none := by
          simpa [IsTakenFor] using hnot'
        refine ⟨?_, fun found => ?_⟩
        · rw [waits.eq_def]
          simp only [if_neg hw]
          rw [waits.eq_def]
          simpa only [if_neg hv] using ih.1
        · rw [takeOptionFrom.eq_def]
          simp only [if_neg hw, hjoined]
          rw [takeOptionFrom.eq_def]
          simp only [if_neg hv, hjoined']
          exact .value (h.resolve_left hw) (ih.2 found)
  | @alone w ws h _ ih =>
      have hw := halone w h
      refine ⟨?_, fun found => ?_⟩
      · rw [waits.eq_def]
        simpa only [if_neg hw] using ih.1
      · rw [takeOptionFrom.eq_def]
        simp only [if_neg hw]
        cases joinedValue? option w with
        | none => exact .alone h (ih.2 found)
        | some v => exact ih.2 (some v)

end Shellbox.Command
