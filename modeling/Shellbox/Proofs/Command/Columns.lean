import Mathlib.Data.List.Infix
import Shellbox.Command.Columns
import Shellbox.Proofs.Command.Fields

/-!
# Columns between delimiters

A line is cut at the occurrences of a delimiter from the left. Just one list of columns comes from
that, and with the delimiter between them they are the line again. The columns at some positions
keep their order.
-/

namespace Shellbox.Command

open Text

variable {d cs rest : List Char} {columns : List (List Char)} {c : Char}

/-! ## Cutting -/

/-- Characters cut at a delimiter, each time at its first occurrence in what is left of them. -/
inductive Cuts (d : List Char) : List Char → List (List Char) → Prop
  | last {cs : List Char} (h : ¬ d <:+: cs) : Cuts d cs [cs]
  | more {column rest : List Char} {columns : List (List Char)}
      (hfirst : ∀ before behind, column ++ d = before ++ d ++ behind → behind = [])
      (hrest : Cuts d rest columns) : Cuts d (column ++ d ++ rest) (column :: columns)

/-- Characters are gone through from the left, past a whole delimiter where one begins. -/
theorem delimited_induction {motive : List Char → Prop} (hd : d ≠ []) (nil : motive [])
    (past : ∀ rest, motive rest → motive (d ++ rest))
    (cons : ∀ c cs, ¬ d <+: c :: cs → motive cs → motive (c :: cs)) (cs : List Char) :
    motive cs := by
  induction h : cs.length using Nat.strongRecOn generalizing cs with
  | _ n ih =>
      cases cs with
      | nil => exact nil
      | cons c cs =>
          by_cases hpre : d <+: c :: cs
          · obtain ⟨rest, hrest⟩ := hpre
            have hlength : rest.length < n := by
              have hpos := List.length_pos_of_ne_nil hd
              rw [← h, ← hrest, List.length_append]
              omega
            rw [← hrest]
            exact past rest (ih _ hlength rest rfl)
          · exact cons c cs hpre (ih _ (by simp [← h]) cs rfl)

/-- The columns of characters. -/
def cutAt (d cs : List Char) : List (List Char) := cutFrom d [] [] 0 cs

theorem cutFrom_skip (piece : List Char) (done : List (List Char)) (skip : Nat) (cs : List Char) :
    cutFrom d piece done skip cs = cutFrom d piece done 0 (cs.drop skip) := by
  induction skip generalizing cs with
  | zero => rfl
  | succ skip ih =>
      cases cs with
      | nil => rfl
      | cons c cs => exact ih cs

theorem cutFrom_append (hd : d ≠ []) (piece : List Char) (done : List (List Char))
    (rest : List Char) :
    cutFrom d piece done 0 (d ++ rest) = cutFrom d [] (piece.reverse :: done) 0 rest := by
  obtain ⟨c, d, rfl⟩ := List.exists_cons_of_ne_nil hd
  have hpre : (c :: d).isPrefixOf (c :: (d ++ rest)) = true :=
    List.isPrefixOf_iff_prefix.mpr (List.prefix_append (c :: d) rest)
  rw [List.cons_append, cutFrom, if_pos hpre, cutFrom_skip]
  simp

theorem cutFrom_cons (h : ¬ d <+: c :: cs) (piece : List Char) (done : List (List Char)) :
    cutFrom d piece done 0 (c :: cs) = cutFrom d (c :: piece) done 0 cs := by
  rw [cutFrom, if_neg (List.isPrefixOf_iff_prefix.not.mpr h)]

/-- The piece under way is the front of the next column, behind those that are done. -/
theorem cutFrom_eq (hd : d ≠ []) (piece : List Char) (done : List (List Char)) (cs : List Char) :
    cutFrom d piece done 0 cs = done.reverse ++ (cutAt d cs).modifyHead (piece.reverse ++ ·) := by
  induction cs using delimited_induction (d := d) generalizing piece done with
  | hd => exact hd
  | nil => simp [cutAt, cutFrom]
  | past rest ih =>
      rw [cutAt, cutFrom_append hd, cutFrom_append hd, ih [] (piece.reverse :: done), ih [] _]
      simp
  | cons c cs hpre ih =>
      rw [cutAt, cutFrom_cons hpre, cutFrom_cons hpre, ih (c :: piece) done, ih [c] []]
      cases cutAt d cs <;> simp

theorem cutAt_append (hd : d ≠ []) (rest : List Char) :
    cutAt d (d ++ rest) = [] :: cutAt d rest := by
  rw [cutAt, cutFrom_append hd, cutFrom_eq hd]
  cases cutAt d rest <;> simp

theorem cutAt_cons (hd : d ≠ []) (h : ¬ d <+: c :: cs) :
    cutAt d (c :: cs) = (cutAt d cs).modifyHead (c :: ·) := by
  rw [cutAt, cutFrom_cons h, cutFrom_eq hd]
  simp

/-- A character where no delimiter begins goes to the first column. -/
theorem Cuts.cons (h : Cuts d cs columns) (hpre : ¬ d <+: c :: cs) :
    Cuts d (c :: cs) (columns.modifyHead (c :: ·)) := by
  cases h with
  | last h => exact .last (by rw [List.infix_cons_iff, not_or]; exact ⟨hpre, h⟩)
  | @more column rest columns hfirst hrest =>
      show Cuts d ((c :: column) ++ d ++ rest) ((c :: column) :: columns)
      refine .more (fun before behind heq => ?_) hrest
      cases before with
      | nil =>
          refine absurd ?_ hpre
          have hfront : d <+: c :: (column ++ d) := ⟨behind, heq.symm⟩
          exact hfront.trans ⟨rest, by simp⟩
      | cons b before =>
          exact hfirst before behind (List.cons.inj heq).2

theorem cuts_cutAt (hd : d ≠ []) (cs : List Char) : Cuts d cs (cutAt d cs) := by
  induction cs using delimited_induction (d := d) with
  | hd => exact hd
  | nil => exact .last (by simpa using hd)
  | past rest ih =>
      rw [cutAt_append hd]
      show Cuts d ([] ++ d ++ rest) ([] :: cutAt d rest)
      refine .more (fun before behind heq => ?_) ih
      have hlength := congrArg List.length heq
      simp only [List.length_append, List.length_nil] at hlength
      exact List.eq_nil_of_length_eq_zero (by omega)
  | cons c cs hpre ih =>
      rw [cutAt_cons hd hpre]
      exact ih.cons hpre

theorem cutAt_of_absent (hd : d ≠ []) (h : ¬ d <:+: cs) : cutAt d cs = [cs] := by
  induction cs with
  | nil => rfl
  | cons c cs ih =>
      obtain ⟨hpre, hrest⟩ := not_or.mp (List.infix_cons_iff.not.mp h)
      rw [cutAt_cons hd hpre, ih hrest, List.modifyHead_cons]

theorem cutAt_column {column : List Char} (hd : d ≠ [])
    (hfirst : ∀ before behind, column ++ d = before ++ d ++ behind → behind = [])
    (rest : List Char) : cutAt d (column ++ d ++ rest) = column :: cutAt d rest := by
  induction column with
  | nil => exact cutAt_append hd rest
  | cons c column ih =>
      -- A delimiter at the front would come before the one behind the column.
      have hpre : ¬ d <+: c :: (column ++ d ++ rest) := by
        intro hpre
        have hwhole : c :: (column ++ d) <+: c :: (column ++ d ++ rest) := ⟨rest, rfl⟩
        obtain ⟨behind, hbehind⟩ := List.prefix_of_prefix_length_le hpre hwhole (by simp; omega)
        have hnil := hfirst [] behind hbehind.symm
        have hlength := congrArg List.length hbehind
        simp only [hnil, List.append_nil, List.length_cons, List.length_append] at hlength
        omega
      rw [List.cons_append, List.cons_append, cutAt_cons hd hpre,
        ih fun before behind heq => hfirst (c :: before) behind (by simp [heq]),
        List.modifyHead_cons]

/-- Characters come apart in one way only. -/
theorem Cuts.eq_cutAt (h : Cuts d cs columns) (hd : d ≠ []) : columns = cutAt d cs := by
  induction h with
  | last h => exact (cutAt_of_absent hd h).symm
  | more hfirst _ ih => rw [cutAt_column hd hfirst, ← ih]

theorem Cuts.ne_nil (h : Cuts d cs columns) : columns ≠ [] := by
  cases h with
  | last h => exact List.cons_ne_nil _ _
  | more hfirst hrest => exact List.cons_ne_nil _ _

theorem Cuts.intercalate_eq (h : Cuts d cs columns) : d.intercalate columns = cs := by
  induction h with
  | last h => exact List.intercalate_singleton
  | more hfirst hrest ih => rw [List.intercalate_cons_of_ne_nil hrest.ne_nil, ih]

/-! ## Columns of a line -/

/-- The columns of a line between the occurrences of a delimiter. -/
def IsColumns (delimiter line : String) (columns : List String) : Prop :=
  Cuts delimiter.toList line.toList (columns.map String.toList)

variable {delimiter line : String} {columns : List String}

theorem isColumns_iff (hd : delimiter ≠ "") :
    IsColumns delimiter line columns ↔ columns = columnsOf delimiter line := by
  have hd' : delimiter.toList ≠ [] := by simpa using hd
  constructor
  · intro h
    rw [columnsOf, ← cutAt, ← h.eq_cutAt hd']
    simp [Function.comp_def]
  · rintro rfl
    rw [IsColumns, columnsOf, ← cutAt]
    simpa [Function.comp_def] using cuts_cutAt hd' line.toList

theorem IsColumns.intercalate_eq (h : IsColumns delimiter line columns) :
    delimiter.intercalate columns = line := by
  rw [← String.toList_inj, String.toList_intercalate, Cuts.intercalate_eq h]

/-! ## Chosen columns -/

section Chosen

variable {α : Type} {fields : List Nat}

/-- The columns at some positions, counted from one, in their order. -/
def chosen (fields : List Nat) (columns : List α) : List α :=
  ((columns.zipIdx 1).filter (·.2 ∈ fields)).map (·.1)

/-- Positions in increasing order pick columns in their order; `k` columns have gone by. -/
theorem filterMap_getElem? (k : Nat) (columns : List α) (hfields : fields.Pairwise (· < ·))
    (hlater : ∀ f ∈ fields, k < f) :
    fields.filterMap (fun f => columns[f - 1 - k]?) =
      ((columns.zipIdx (k + 1)).filter (·.2 ∈ fields)).map (·.1) := by
  induction columns generalizing k fields with
  | nil => simp
  | cons x columns ih =>
      -- Seen from the next column every position is one less.
      have hshift : ∀ fs : List Nat, (∀ f ∈ fs, k + 1 < f) →
          fs.filterMap (fun f => (x :: columns)[f - 1 - k]?) =
            fs.filterMap (fun f => columns[f - 1 - (k + 1)]?) := by
        intro fs hfs
        refine List.filterMap_congr fun f hf => ?_
        have hplace : f - 1 - k = (f - 1 - (k + 1)) + 1 := by
          have := hfs f hf
          omega
        rw [hplace, List.getElem?_cons_succ]
      cases fields with
      | nil => simp
      | cons f fs =>
          obtain ⟨hfirst, hstrict⟩ := List.pairwise_cons.mp hfields
          have hkf : k < f := hlater f List.mem_cons_self
          rw [List.zipIdx_cons]
          -- The least position is the first column's, or no position is.
          by_cases hf : f = k + 1
          · subst hf
            have hsame : (columns.zipIdx (k + 1 + 1)).filter (fun y => y.2 ∈ (k + 1) :: fs) =
                (columns.zipIdx (k + 1 + 1)).filter (fun y => y.2 ∈ fs) := by
              refine List.filter_congr fun y hy => ?_
              have hy := List.le_snd_of_mem_zipIdx hy
              simp only [List.mem_cons, decide_eq_decide, or_iff_right_iff_imp]
              omega
            have hx : (x :: columns)[k + 1 - 1 - k]? = some x := by simp
            rw [List.filterMap_cons, hx, hshift fs hfirst, ih (k + 1) hstrict hfirst,
              List.filter_cons_of_pos (by simp), hsame, List.map_cons]
          · have hlate : ∀ g ∈ f :: fs, k + 1 < g := by
              intro g hg
              rcases List.mem_cons.mp hg with rfl | hg
              · omega
              · have := hfirst g hg
                omega
            have hskip : k + 1 ∉ f :: fs := fun hmem => Nat.lt_irrefl _ (hlate _ hmem)
            rw [hshift _ hlate, ih (k + 1) hfields hlate,
              List.filter_cons_of_neg (by simpa using hskip)]

theorem chosen_of_covered {columns : List α} (h : ∀ n, 0 < n → n ≤ columns.length → n ∈ fields) :
    chosen fields columns = columns := by
  have hall : ∀ y ∈ columns.zipIdx 1, decide (y.2 ∈ fields) = true := by
    intro y hy
    have hlow := List.le_snd_of_mem_zipIdx hy
    have hhigh := List.snd_lt_of_mem_zipIdx hy
    exact decide_eq_true (h y.2 (by omega) (by omega))
  rw [chosen, List.filter_eq_self.mpr hall, List.zipIdx_map_fst]

end Chosen

/-- The columns of a line at the positions of a list of fields, with the delimiter between them. -/
theorem pickColumns_eq {spec : String} {fields : List Nat} (hd : delimiter ≠ "")
    (hfields : readFields spec = .ok fields) (h : IsColumns delimiter line columns) :
    pickColumns delimiter fields line = delimiter.intercalate (chosen fields columns) := by
  obtain ⟨nss, -, rfl⟩ := readFields_eq_ok_iff.mp hfields
  have hpick := filterMap_getElem? 0 columns (pairwise_increasing nss.flatten)
    fun f hf => (mem_increasing.mp hf).1
  rw [pickColumns, ← (isColumns_iff hd).mp h, chosen, ← hpick]
  simp

end Shellbox.Command
