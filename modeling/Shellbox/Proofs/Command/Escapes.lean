import Mathlib.Data.List.Basic
import Shellbox.Command.Echo

/-!
# Escapes that are read back

A text written with an escape for each backslash, line break, tab and carriage return reads back as
it was. So `echo` prints every text, with escapes read or without, unless the word that spells it
counts as one more word of flags.
-/

namespace Shellbox.Command

open Text

variable {c : Char} {cs letters : List Char} {w text : String}

/-! ## Writing escapes -/

def escapeOf (c : Char) : List Char :=
  if c = '\\' then ['\\', '\\']
  else if c = '\n' then ['\\', 'n']
  else if c = '\t' then ['\\', 't']
  else if c = '\r' then ['\\', 'r']
  else [c]

/-- A text with an escape for each character that has one. -/
def writeEscapes (text : String) : String := String.ofList (text.toList.flatMap escapeOf)

theorem readEscapesFrom_escapeOf (read : String) (c : Char) (rest : List Char) :
    readEscapesFrom read (escapeOf c ++ rest) = readEscapesFrom (read.push c) rest := by
  unfold escapeOf
  split
  · subst c; simp [readEscapesFrom, escapedChar?]
  split
  · subst c; simp [readEscapesFrom, escapedChar?]
  split
  · subst c; simp [readEscapesFrom, escapedChar?]
  split
  · subst c; simp [readEscapesFrom, escapedChar?]
  · rename_i hback _ _ _
    rw [List.singleton_append, readEscapesFrom]
    exact fun _ _ h => absurd h hback

theorem readEscapesFrom_flatMap (read : String) (cs : List Char) :
    readEscapesFrom read (cs.flatMap escapeOf) = read ++ String.ofList cs := by
  induction cs generalizing read with
  | nil => simp [readEscapesFrom]
  | cons c cs ih =>
      rw [List.flatMap_cons, readEscapesFrom_escapeOf, ih]
      simp [← String.toList_inj]

/-- Each layer of escapes is undone once, from the left. -/
theorem readEscapes_writeEscapes (text : String) : readEscapes (writeEscapes text) = text := by
  simp [readEscapes, writeEscapes, readEscapesFrom_flatMap]

/-! ## Words of flags -/

/-- A dash and letters, each of them one of the two flags. -/
def IsEchoFlags (word : String) : Prop :=
  ∃ letters, letters ≠ [] ∧ (∀ c ∈ letters, c = 'n' ∨ c = 'e') ∧ word.toList = '-' :: letters

theorem IsEchoFlags.ne_empty (h : IsEchoFlags w) : w ≠ "" := by
  obtain ⟨letters, -, -, hw⟩ := h
  rintro rfl
  cases hw

theorem getLast?_ne_break (h : ∀ c ∈ letters, c = 'n' ∨ c = 'e') :
    letters.getLast? ≠ some '\n' := by
  intro hlast
  exact absurd (h '\n' (List.mem_of_getLast? hlast)) (by decide)

/-- What is taken for flags is a word of flags, or one with a line break behind it. -/
theorem isEchoFlag_iff :
    isEchoFlag w ↔ IsEchoFlags w ∨ ∃ v, IsEchoFlags v ∧ w = v ++ "\n" := by
  constructor
  · intro h
    unfold isEchoFlag at h
    split at h
    · rename_i r hw
      simp only [Bool.and_eq_true, Bool.not_eq_true', List.isEmpty_eq_false_iff, List.all_eq_true,
        Bool.or_eq_true, decide_eq_true_eq] at h
      split at h
      · rename_i hlast
        refine .inr ⟨String.ofList ('-' :: r.dropLast), ⟨r.dropLast, h.1, h.2, by simp⟩, ?_⟩
        obtain ⟨front, rfl⟩ := List.getLast?_eq_some_iff.mp hlast
        simp [← String.toList_inj, hw]
      · exact .inl ⟨r, h.1, h.2, hw⟩
    · cases h
  · rintro (⟨letters, hne, hletters, hw⟩ | ⟨v, ⟨letters, hne, hletters, hv⟩, rfl⟩)
    · simpa [isEchoFlag, hw, getLast?_ne_break hletters, hne] using hletters
    · simpa [isEchoFlag, hv, hne] using hletters

/-- Only what begins with a backslash is written otherwise than it is. -/
theorem escapeOf_eq_or (c : Char) : escapeOf c = [c] ∨ '\\' ∈ escapeOf c ∧ '\n' ∉ escapeOf c := by
  unfold escapeOf
  split_ifs <;> simp

theorem flatMap_escapeOf (h : ∀ c ∈ cs, escapeOf c = [c]) : cs.flatMap escapeOf = cs := by
  induction cs with
  | nil => rfl
  | cons c cs ih =>
      obtain ⟨hc, hcs⟩ := List.forall_mem_cons.mp h
      rw [List.flatMap_cons, hc, ih hcs, List.singleton_append]

theorem break_not_mem_flatMap (cs : List Char) : '\n' ∉ cs.flatMap escapeOf := by
  intro h
  obtain ⟨c, -, hc⟩ := List.mem_flatMap.mp h
  rcases escapeOf_eq_or c with heq | ⟨-, hbreak⟩
  · obtain rfl : '\n' = c := by simpa [heq] using hc
    exact absurd heq (by decide)
  · exact hbreak hc

theorem IsEchoFlags.writeEscapes_eq (h : IsEchoFlags text) : writeEscapes text = text := by
  obtain ⟨letters, -, hletters, htext⟩ := h
  have hplain : ∀ c ∈ text.toList, escapeOf c = [c] := by
    rw [htext, List.forall_mem_cons]
    refine ⟨rfl, fun c hc => ?_⟩
    rcases hletters c hc with rfl | rfl <;> rfl
  rw [writeEscapes, flatMap_escapeOf hplain, String.ofList_toList]

theorem IsEchoFlags.of_writeEscapes (h : IsEchoFlags (writeEscapes text)) : IsEchoFlags text := by
  have hback : '\\' ∉ (writeEscapes text).toList := by
    obtain ⟨letters, -, hletters, hword⟩ := h
    rw [hword, List.mem_cons, not_or]
    exact ⟨by decide, fun hmem => absurd (hletters _ hmem) (by decide)⟩
  have hplain : ∀ c ∈ text.toList, escapeOf c = [c] := fun c hc =>
    (escapeOf_eq_or c).resolve_right fun hescape => hback <| by
      rw [writeEscapes, String.toList_ofList]
      exact List.mem_flatMap.mpr ⟨c, hc, hescape.1⟩
  rwa [writeEscapes, flatMap_escapeOf hplain, String.ofList_toList] at h

/-- Written with escapes, a text is taken for flags just if it is a word of flags. -/
theorem isEchoFlag_writeEscapes : isEchoFlag (writeEscapes text) ↔ IsEchoFlags text := by
  rw [isEchoFlag_iff]
  constructor
  · rintro (h | ⟨v, -, hv⟩)
    · exact h.of_writeEscapes
    · refine absurd ?_ (break_not_mem_flatMap text.toList)
      rw [← String.toList_ofList (l := text.toList.flatMap escapeOf), ← writeEscapes, hv]
      simp
  · intro h
    rw [h.writeEscapes_eq]
    exact .inl h

/-! ## What is printed -/

/-- Behind flags that ask for no line break, a word is printed alone unless it is one of them. -/
theorem echoText_bare {flags : String} (hflags : isEchoFlag flags) (hbare : 'n' ∈ flags.toList)
    (w : String) :
    echoText [flags, w] =
      if isEchoFlag w then "" else if 'e' ∈ flags.toList then readEscapes w else w := by
  have hempty : readEscapes "" = "" := by simp [readEscapes, readEscapesFrom]
  by_cases hw : isEchoFlag w
  · simp [echoText, hflags, hw, hbare, EchoFlags.ofWords, hempty]
  · simp [echoText, hflags, hw, hbare, EchoFlags.ofWords]

theorem ne_empty_of_isEchoFlag (h : isEchoFlag w) : "" ≠ w := by
  rintro rfl
  cases h

/-- With escapes read, every text is printed that is no word of flags. -/
theorem echoText_escaped_iff :
    echoText ["-ne", writeEscapes text] = text ↔ ¬ IsEchoFlags text := by
  have hflags : isEchoFlag "-ne" := by decide
  rw [echoText_bare hflags (by decide), ← isEchoFlag_writeEscapes]
  split
  · rename_i h
    have hempty : "" ≠ text := by
      rintro rfl
      exact ne_empty_of_isEchoFlag h rfl
    simpa [h] using hempty
  · rename_i h
    simpa [readEscapes_writeEscapes] using h

/-- With escapes left alone, every text is printed that is no word of flags, with a line break
behind it or without. -/
theorem echoText_plain_iff :
    echoText ["-n", text] = text ↔
      ¬ IsEchoFlags text ∧ ∀ v, IsEchoFlags v → text ≠ v ++ "\n" := by
  have hflags : isEchoFlag "-n" := by decide
  have hnot : ¬ isEchoFlag text ↔ ¬ IsEchoFlags text ∧ ∀ v, IsEchoFlags v → text ≠ v ++ "\n" := by
    rw [isEchoFlag_iff, not_or]
    simp
  rw [echoText_bare hflags (by decide), ← hnot]
  split
  · rename_i h
    simpa [h] using ne_empty_of_isEchoFlag h
  · rename_i h
    simpa using h

end Shellbox.Command
