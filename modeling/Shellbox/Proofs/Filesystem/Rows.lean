import Mathlib.Data.List.Sort
import Shellbox.Filesystem.Basic

/-!
# The order of rows

Rows of a listing come sorted. Where no two have the same name the order is strict, and a strictly
ordered list of rows is settled by its members.
-/

namespace Shellbox.Filesystem.Entry

variable {a b c : Entry} {rows rows' : List Entry}

/-- Directories come before files, and among two of one kind the smaller name comes first. -/
def Before (a b : Entry) : Prop :=
  a.kind = .directory ∧ b.kind = .file ∨ a.kind = b.kind ∧ a.name < b.name

theorem le_iff :
    a.le b ↔ a.kind = .directory ∧ b.kind = .file ∨ a.kind = b.kind ∧ a.name ≤ b.name := by
  unfold le
  cases a.kind <;> cases b.kind <;> simp

theorem le_chain (a b c : Entry) (hab : a.le b) (hbc : b.le c) : a.le c := by
  rw [le_iff] at hab hbc ⊢
  rcases hab with ⟨ha, hb⟩ | ⟨hkind, hname⟩
  · rcases hbc with ⟨hdir, -⟩ | ⟨hkind, -⟩
    · rw [hb] at hdir
      cases hdir
    · exact .inl ⟨ha, hkind ▸ hb⟩
  · rcases hbc with ⟨hb, hc⟩ | ⟨hkind', hname'⟩
    · exact .inl ⟨hkind.trans hb, hc⟩
    · exact .inr ⟨hkind.trans hkind', String.le_trans hname hname'⟩

theorem le_or_le (a b : Entry) : (a.le b || b.le a) = true := by
  rw [Bool.or_eq_true, le_iff, le_iff]
  cases ha : a.kind <;> cases hb : b.kind <;> simp [String.le_total]

/-- Rows in order that differ in their names are in strict order. -/
theorem before_of_le (hle : a.le b) (hne : a.name ≠ b.name) : a.Before b := by
  rcases le_iff.mp hle with hkinds | ⟨hkind, hname⟩
  · exact .inl hkinds
  · exact .inr ⟨hkind, Std.lt_of_le_of_ne hname hne⟩

theorem Before.asymm (hab : a.Before b) : ¬ b.Before a := by
  rintro (⟨hb, ha⟩ | ⟨hkind, hname⟩)
  · rcases hab with ⟨ha', -⟩ | ⟨hkind', -⟩
    · rw [ha] at ha'
      cases ha'
    · rw [ha, hb] at hkind'
      cases hkind'
  · rcases hab with ⟨ha, hb⟩ | ⟨-, hname'⟩
    · rw [ha, hb] at hkind
      cases hkind
    · exact String.lt_asymm hname hname'

instance : Std.Irrefl Before := ⟨fun _ h => h.asymm h⟩

instance : Std.Antisymm Before := ⟨fun _ _ hab hba => absurd hba hab.asymm⟩

/-- Rows in strict order are directories, followed by files. -/
theorem exists_eq_append_of_before (h : rows.Pairwise Before) :
    ∃ directories files, rows = directories ++ files ∧
      (∀ e ∈ directories, e.kind = .directory) ∧ ∀ e ∈ files, e.kind = .file := by
  induction rows with
  | nil => exact ⟨[], [], rfl, by simp, by simp⟩
  | cons e rest ih =>
      obtain ⟨hfirst, hrest⟩ := List.pairwise_cons.mp h
      cases he : e.kind with
      | directory =>
          obtain ⟨directories, files, rfl, hdirectories, hfiles⟩ := ih hrest
          exact ⟨e :: directories, files, rfl,
            List.forall_mem_cons.mpr ⟨he, hdirectories⟩, hfiles⟩
      | file =>
          -- Behind a file there is no directory.
          have hfiles : ∀ e' ∈ rest, e'.kind = .file := by
            intro e' he'
            rcases hfirst e' he' with ⟨hdir, -⟩ | ⟨hkind, -⟩
            · rw [he] at hdir
              cases hdir
            · exact hkind ▸ he
          exact ⟨[], e :: rest, rfl, by simp, List.forall_mem_cons.mpr ⟨he, hfiles⟩⟩

/-- Among rows of one kind the names strictly increase. -/
theorem names_increase {kind : Kind} (h : rows.Pairwise Before)
    (hkind : ∀ e ∈ rows, e.kind = kind) : (rows.map (·.name)).Pairwise (· < ·) := by
  rw [List.pairwise_map]
  refine h.imp_of_mem fun {a b} ha hb hab => ?_
  rcases hab with ⟨hdir, hfile⟩ | ⟨-, hname⟩
  · rw [hkind a ha] at hdir
    rw [hkind b hb, hdir] at hfile
    cases hfile
  · exact hname

/-- Sorted rows are in strict order if they differ in their names. -/
theorem sorted_before (h : (rows.map (·.name)).Nodup) :
    (rows.mergeSort Entry.le).Pairwise Before := by
  have hdiffer := (List.mergeSort_perm _ Entry.le).symm.pairwise (List.pairwise_map.mp h) Ne.symm
  have hsorted := List.pairwise_mergeSort le_chain le_or_le rows
  exact hsorted.imp₂ (fun _ _ => before_of_le) hdiffer

/-- Sorted rows that differ in their names are settled by the rows that there are. -/
theorem sorted_eq (h : (rows.map (·.name)).Nodup) (h' : (rows'.map (·.name)).Nodup)
    (hrows : ∀ e, e ∈ rows ↔ e ∈ rows') : rows.mergeSort Entry.le = rows'.mergeSort Entry.le := by
  refine (sorted_before h).eq_of_mem_iff (sorted_before h') fun e => ?_
  rw [List.mem_mergeSort, List.mem_mergeSort]
  exact hrows e

end Shellbox.Filesystem.Entry
