import Mathlib.Data.List.Basic
import Shellbox.Text.Lines

/-!
# Pieces and lines of a text

No piece of a text holds the character that it was cut at. Lines that were joined come apart again,
but for a last line that is empty: of it nothing is left behind the break before it.
-/

namespace Shellbox.Text

variable {l s : String} {ls : List String}

/-! ## Pieces -/

theorem not_mem_of_mem_splitOn {c : Char} {cs l : List Char} (h : l ∈ cs.splitOn c) : c ∉ l := by
  induction cs generalizing l with
  | nil => simp at h; simp [h]
  | cons d cs ih =>
      rw [List.splitOn_cons_eq_if_modifyHead] at h
      obtain ⟨first, rest, hs⟩ := List.exists_cons_of_ne_nil (List.splitOn_ne_nil c cs)
      split at h
      · rcases List.mem_cons.mp h with rfl | h
        · simp
        · exact ih h
      · rename_i hd
        rw [hs, List.modifyHead_cons] at h
        rcases List.mem_cons.mp h with rfl | h
        · have hf : c ∉ first := ih (by simp [hs])
          have hne : c ≠ d := fun e => hd (by simp [e])
          simp [hf, hne]
        · exact ih (by simp [hs, h])

theorem not_mem_of_mem_pieces {c : Char} {s p : String} (h : p ∈ pieces c s) : c ∉ p.toList := by
  simp only [pieces, List.mem_map] at h
  obtain ⟨l, hl, rfl⟩ := h
  simpa using not_mem_of_mem_splitOn hl

theorem mem_of_mem_splitOn {c d : Char} {cs l : List Char} (h : l ∈ cs.splitOn c) (hd : d ∈ l) :
    d ∈ cs := by
  induction cs generalizing l with
  | nil =>
      simp only [List.splitOn_nil, List.mem_singleton] at h
      rwa [h] at hd
  | cons e cs ih =>
      rw [List.splitOn_cons_eq_if_modifyHead] at h
      obtain ⟨first, rest, hs⟩ := List.exists_cons_of_ne_nil (List.splitOn_ne_nil c cs)
      split at h
      · rcases List.mem_cons.mp h with rfl | h
        · cases hd
        · exact List.mem_cons_of_mem e (ih h hd)
      · rw [hs, List.modifyHead_cons] at h
        rcases List.mem_cons.mp h with rfl | h
        · rcases List.mem_cons.mp hd with rfl | hd
          · exact List.mem_cons_self
          · exact List.mem_cons_of_mem e (ih (by simp [hs]) hd)
        · exact List.mem_cons_of_mem e (ih (by simp [hs, h]) hd)

/-! ## Lines -/

theorem mem_of_mem_dropLastEmpty (h : l ∈ dropLastEmpty ls) : l ∈ ls := by
  unfold dropLastEmpty at h
  split at h
  · exact List.dropLast_subset _ h
  · exact h

theorem not_mem_of_mem_lines (h : l ∈ lines s) : '\n' ∉ l.toList :=
  not_mem_of_mem_pieces (mem_of_mem_dropLastEmpty h)

theorem mem_of_mem_lines {c : Char} (h : l ∈ lines s) (hc : c ∈ l.toList) : c ∈ s.toList := by
  obtain ⟨cs, hcs, rfl⟩ := List.mem_map.mp (mem_of_mem_dropLastEmpty h)
  rw [String.toList_ofList] at hc
  exact mem_of_mem_splitOn hcs hc

theorem pieces_joinLines (h : ∀ l ∈ ls, '\n' ∉ l.toList) (hne : ls ≠ []) :
    pieces '\n' (joinLines ls) = ls := by
  have hsep : ∀ cs ∈ ls.map String.toList, '\n' ∉ cs := by
    intro cs hcs
    obtain ⟨l, hl, rfl⟩ := List.mem_map.mp hcs
    exact h l hl
  have htext : (joinLines ls).toList = ['\n'].intercalate (ls.map String.toList) := by
    simp [joinLines]
  rw [pieces, htext, List.splitOn_intercalate '\n' hsep (by simpa using hne)]
  simp [Function.comp_def]

/-- Lines that are joined and cut again are the same but for a last one that is empty. -/
theorem lines_joinLines (h : ∀ l ∈ ls, '\n' ∉ l.toList) :
    lines (joinLines ls) = dropLastEmpty ls := by
  by_cases hne : ls = []
  · subst hne
    decide
  · rw [lines, pieces_joinLines h hne]

theorem joinLines_concat (hne : ls ≠ []) (l : String) :
    joinLines (ls ++ [l]) = joinLines ls ++ "\n" ++ l := by
  induction ls with
  | nil => exact absurd rfl hne
  | cons first rest ih =>
      cases rest with
      | nil => simp [joinLines]
      | cons next rest =>
          have hrest := ih (by simp)
          simp only [joinLines, List.cons_append, String.intercalate_cons_cons] at hrest ⊢
          rw [hrest]
          simp only [String.append_assoc]

theorem length_dropLastEmpty_eq_iff (ls : List String) :
    (dropLastEmpty ls).length = ls.length ↔ ls.getLast? ≠ some "" := by
  unfold dropLastEmpty
  split
  · rename_i h
    have hpos : 0 < ls.length := by
      cases ls with
      | nil => cases h
      | cons l ls => simp
    simp only [List.length_dropLast, ne_eq, h, not_true_eq_false, iff_false]
    omega
  · rename_i h
    simp [h]

end Shellbox.Text
