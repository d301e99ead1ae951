import Shellbox.Filesystem.Basic
import Shellbox.Proofs.Text.Lines

/-!
# Normal paths

Resolving gives a normal path whenever the working directory is one, and a normal path is read back
into the names it was written with. So the names an operation works on are proper names, whatever
text it was given.
-/

namespace Shellbox.Filesystem.Path

open Text

/-! ## Normal parts -/

instance (part : String) : Decidable (IsName part) :=
  inferInstanceAs (Decidable (_ ∧ _ ∧ _ ∧ _))

theorem push_isName {stack : List String} {part : String} (hs : ∀ p ∈ stack, IsName p)
    (hp : '/' ∉ part.toList) : ∀ p ∈ push stack part, IsName p := by
  unfold push
  split
  · exact hs
  · rename_i hskip
    split
    · exact fun p h => hs p (List.mem_of_mem_tail h)
    · rename_i hup
      intro p h
      rcases List.mem_cons.mp h with rfl | h
      · exact ⟨fun e => hskip (.inl e), fun e => hskip (.inr e), hup, hp⟩
      · exact hs p h

theorem normalize_isName {parts : List String} (h : ∀ p ∈ parts, '/' ∉ p.toList) :
    ∀ p ∈ normalize parts, IsName p := by
  -- The parts taken so far are proper names, whatever comes behind them.
  have hfold : ∀ stack, (∀ p ∈ stack, IsName p) → ∀ p ∈ parts.foldl push stack, IsName p := by
    induction parts with
    | nil => exact fun _ hs => hs
    | cons part parts ih =>
        intro stack hs
        exact ih (fun p hp => h p (by simp [hp])) _ (push_isName hs (h part (by simp)))
  intro p hp
  exact hfold [] (by simp) p (by simpa [normalize] using hp)

theorem resolve_isNormal (home : String) {cwd : String} (hc : IsNormal cwd) (path : Option String) :
    IsNormal (resolve home cwd path) := by
  cases path with
  | none => exact hc
  | some path =>
      simp only [resolve]
      split
      · exact hc
      · exact ⟨_, normalize_isName fun p hp => not_mem_of_mem_pieces hp, rfl⟩

/-! ## Reading a normal path back -/

theorem isNormal_root : IsNormal "/" := ⟨[], by simp, rfl⟩

theorem pieces_render (parts : List String) (h : ∀ p ∈ parts, IsName p) (hne : parts ≠ []) :
    pieces '/' (render parts) = "" :: parts := by
  have hsep : ∀ l ∈ [] :: parts.map String.toList, '/' ∉ l := by
    intro l hl
    rcases List.mem_cons.mp hl with rfl | hl
    · simp
    · obtain ⟨p, hp, rfl⟩ := List.mem_map.mp hl
      exact (h p hp).2.2.2
  have htext : (render parts).toList = ['/'].intercalate ([] :: parts.map String.toList) := by
    rw [List.intercalate_cons_of_ne_nil (by simpa using hne)]
    simp [render]
  rw [pieces, htext, List.splitOn_intercalate '/' hsep (by simp)]
  simp [Function.comp_def]

theorem segments_render {parts : List String} (h : ∀ p ∈ parts, IsName p) :
    segments (render parts) = parts := by
  by_cases hne : parts = []
  · subst hne; rfl
  · rw [segments, pieces_render parts h hne, List.filter_cons_of_neg (by simp)]
    exact List.filter_eq_self.mpr fun p hp => by simpa using (h p hp).1

theorem segments_isName {path : String} (h : IsNormal path) : ∀ p ∈ segments path, IsName p := by
  obtain ⟨parts, hp, rfl⟩ := h
  rwa [segments_render hp]

theorem render_segments {path : String} (h : IsNormal path) : render (segments path) = path := by
  obtain ⟨parts, hp, rfl⟩ := h
  rw [segments_render hp]

theorem segments_inj {p q : String} (hp : IsNormal p) (hq : IsNormal q) :
    segments p = segments q ↔ p = q := by
  constructor
  · intro h
    rw [← render_segments hp, h, render_segments hq]
  · intro h
    rw [h]

theorem segments_eq_nil_iff {path : String} (h : IsNormal path) : segments path = [] ↔ path = "/" :=
  segments_inj h isNormal_root

theorem render_concat (hms : ∀ s ∈ ms, IsName s) (name : String) :
    render (ms ++ [name]) = join (render ms) name := by
  by_cases hnil : ms = []
  · subst hnil
    rfl
  · have hne : render ms ≠ "/" := by
      intro hroot
      rw [← segments_eq_nil_iff ⟨ms, hms, rfl⟩, segments_render hms] at hroot
      exact hnil hroot
    rw [join, if_neg hne, render, render,
      String.intercalate_append_of_ne_nil hnil (by simp), String.intercalate_singleton]
    simp only [String.append_assoc]

theorem join_inj {directory a b : String} : join directory a = join directory b ↔ a = b := by
  unfold join
  split <;> exact String.append_right_inj _

instance (path : String) : Decidable (IsNormal path) :=
  decidable_of_iff ((∀ p ∈ segments path, IsName p) ∧ render (segments path) = path)
    ⟨fun h => ⟨_, h.1, h.2.symm⟩, fun h => ⟨segments_isName h, render_segments h⟩⟩

/-! ## Resolving a normal path -/

theorem push_of_isName {part : String} (h : IsName part) (stack : List String) :
    push stack part = part :: stack := by
  obtain ⟨hempty, hdot, hup, -⟩ := h
  simp [push, hempty, hdot, hup]

theorem normalize_of_isName {parts : List String} (h : ∀ p ∈ parts, IsName p) :
    normalize parts = parts := by
  -- Every proper name goes on the stack, which holds the last one first.
  have hfold : ∀ stack, parts.foldl push stack = parts.reverse ++ stack := by
    induction parts with
    | nil => exact fun _ => rfl
    | cons part parts ih =>
        intro stack
        rw [List.foldl_cons, push_of_isName (h part (by simp)), ih fun p hp => h p (by simp [hp])]
        simp
  simp [normalize, hfold]

theorem normalize_pieces_render {parts : List String} (h : ∀ p ∈ parts, IsName p) :
    normalize (pieces '/' (render parts)) = parts := by
  by_cases hne : parts = []
  · subst hne; rfl
  · rw [pieces_render parts h hne]
    exact normalize_of_isName h

/-- The path begins at the root. -/
def IsAbsolute (path : String) : Prop := path.toList.head? = some '/'

/-- An absolute path leads to the same place wherever one is. -/
theorem resolve_of_isAbsolute (home cwd : String) {path : String} (h : IsAbsolute path) :
    resolve home cwd (some path) = render (normalize (pieces '/' path)) := by
  obtain ⟨cs, htext⟩ := List.head?_eq_some_iff.mp h
  have hblank : isAllBlank path = false := by
    have hslash : isBlank '/' = false := rfl
    simp [isAllBlank, htext, hslash]
  have hhome : expandHome home path = path := by simp [expandHome, htext]
  have hanchor : anchor cwd path = path := by simp [anchor, htext]
  simp only [resolve, hblank, hhome, hanchor, Bool.false_eq_true, ↓reduceIte]

theorem IsNormal.isAbsolute {path : String} (h : IsNormal path) : IsAbsolute path := by
  obtain ⟨parts, -, rfl⟩ := h
  simp [IsAbsolute, render]

/-- A normal path names itself, wherever one is. -/
theorem resolve_of_isNormal (home cwd : String) {path : String} (h : IsNormal path) :
    resolve home cwd (some path) = path := by
  have habsolute : IsAbsolute path := h.isAbsolute
  obtain ⟨parts, hp, rfl⟩ := h
  rw [resolve_of_isAbsolute home cwd habsolute, normalize_pieces_render hp]

theorem isNormal_of_isAbsolute (home cwd : String) {path : String} (h : IsAbsolute path) :
    IsNormal (resolve home cwd (some path)) := by
  rw [resolve_of_isAbsolute home cwd h]
  exact ⟨_, normalize_isName fun p hp => not_mem_of_mem_pieces hp, rfl⟩

end Shellbox.Filesystem.Path
