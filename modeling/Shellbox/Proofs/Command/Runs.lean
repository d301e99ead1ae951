import Mathlib.Data.List.Chain
import Shellbox.Proofs.Command.Lines

/-!
# Runs of equal lines

The runs of a list give it back when each line is written as often as its run is long, and
neighbouring runs differ. In a sorted list equal lines stand together, so each line has one run, and
the length of the run tells how often the line occurs.
-/

namespace Shellbox.Command

open Text

variable {rs : List (Nat × String)} {ls : List String} {l : String} {n : Nat}

/-- The lines that runs stand for. -/
def expand (rs : List (Nat × String)) : List String := rs.flatMap fun x => List.replicate x.1 x.2

theorem expand_cons (x : Nat × String) (rs : List (Nat × String)) :
    expand (x :: rs) = List.replicate x.1 x.2 ++ expand rs := List.flatMap_cons

theorem mem_expand : l ∈ expand rs ↔ ∃ x ∈ rs, 0 < x.1 ∧ x.2 = l := by
  simp only [expand, List.mem_flatMap, List.mem_replicate, Nat.pos_iff_ne_zero, eq_comm]

/-! ## Any list -/

theorem expand_addToRuns (l : String) (rs : List (Nat × String)) :
    expand (addToRuns l rs) = l :: expand rs := by
  rcases rs with - | ⟨⟨n, m⟩, rest⟩
  · rfl
  · rw [addToRuns]
    split
    · rename_i h
      rw [expand_cons, expand_cons, h, List.replicate_succ, List.cons_append]
    · rw [expand_cons]
      rfl

theorem expand_runs (ls : List String) : expand (runs ls) = ls := by
  induction ls with
  | nil => rfl
  | cons l ls ih => exact (expand_addToRuns l (runs ls)).trans (by rw [ih])

/-- No run is empty, and neighbouring runs are of different lines. -/
structure AreRuns (rs : List (Nat × String)) : Prop where
  pos : ∀ x ∈ rs, 0 < x.1
  apart : rs.IsChain fun x y => x.2 ≠ y.2

theorem AreRuns.addToRuns (h : AreRuns rs) (l : String) : AreRuns (addToRuns l rs) := by
  rcases rs with - | ⟨⟨n, m⟩, rest⟩
  · exact ⟨by simp [Command.addToRuns], .singleton _⟩
  · rw [Command.addToRuns]
    have hrest : ∀ x ∈ rest, 0 < x.1 := fun x hx => h.pos x (by simp [hx])
    split
    · refine ⟨?_, ?_⟩
      · simpa using hrest
      · cases h.apart with
        | singleton => exact .singleton _
        | cons_cons hne hchain => exact .cons_cons hne hchain
    · rename_i hne
      exact ⟨List.forall_mem_cons.mpr ⟨Nat.one_pos, h.pos⟩, .cons_cons hne h.apart⟩

theorem runs_areRuns (ls : List String) : AreRuns (runs ls) := by
  induction ls with
  | nil => exact ⟨by simp [runs], .nil⟩
  | cons l ls ih => exact ih.addToRuns l

theorem runs_replicate_append (h : ∀ x ∈ (runs ls).head?, x.2 ≠ l) :
    runs (List.replicate (n + 1) l ++ ls) = (n + 1, l) :: runs ls := by
  induction n with
  | zero =>
      have hcons : runs (l :: ls) = addToRuns l (runs ls) := rfl
      rw [List.replicate_one, List.singleton_append, hcons]
      cases hruns : runs ls with
      | nil => rfl
      | cons x rest =>
          have hne : l ≠ x.2 := (h x (by simp [hruns])).symm
          rw [addToRuns, if_neg hne]
  | succ n ih =>
      have hcons : runs (List.replicate (n + 2) l ++ ls) =
          addToRuns l (runs (List.replicate (n + 1) l ++ ls)) := rfl
      rw [hcons, ih, addToRuns, if_pos rfl]

/-- No other runs stand for the same lines. -/
theorem AreRuns.runs_expand (h : AreRuns rs) : runs (expand rs) = rs := by
  induction rs with
  | nil => rfl
  | cons x rest ih =>
      obtain ⟨n, l⟩ := x
      obtain ⟨m, rfl⟩ : ∃ m, n = m + 1 := Nat.exists_eq_add_one.mpr (h.pos (n, l) (by simp))
      have hrest : AreRuns rest :=
        ⟨fun x hx => h.pos x (by simp [hx]), h.apart.of_cons⟩
      have hnext : ∀ x ∈ (runs (expand rest)).head?, x.2 ≠ l := by
        intro x hx
        rw [ih hrest] at hx
        exact (h.apart.rel_head? hx).symm
      rw [expand_cons, runs_replicate_append hnext, ih hrest]

/-! ## Sorted lists -/

/-- One line comes before another, in the order of texts or in its converse. -/
def Precedes (reversed : Bool) (a b : String) : Prop := if reversed then b < a else a < b

theorem precedes_trans {reversed : Bool} {a b c : String} (hab : Precedes reversed a b)
    (hbc : Precedes reversed b c) : Precedes reversed a c := by
  cases reversed with
  | false => exact String.lt_trans hab hbc
  | true => exact String.lt_trans hbc hab

theorem precedes_ne {reversed : Bool} {a b : String} (h : Precedes reversed a b) : a ≠ b := by
  rintro rfl
  cases reversed with
  | false => exact String.lt_irrefl a h
  | true => exact String.lt_irrefl a h

theorem precedes_of_ne {reversed : Bool} {a b : String} (hle : if reversed then b ≤ a else a ≤ b)
    (hne : a ≠ b) : Precedes reversed a b := by
  cases reversed with
  | false => exact Std.lt_of_le_of_ne hle hne
  | true => exact Std.lt_of_le_of_ne hle hne.symm

theorem pairwise_precedes {reversed : Bool} (hapart : rs.IsChain fun x y => x.2 ≠ y.2)
    (hle : rs.Pairwise fun x y => if reversed then y.2 ≤ x.2 else x.2 ≤ y.2) :
    rs.Pairwise fun x y => Precedes reversed x.2 y.2 := by
  induction hapart with
  | nil => exact .nil
  | singleton x => exact List.pairwise_singleton _ x
  | @cons_cons x y rest hne _ ih =>
      obtain ⟨hfirst, hrest⟩ := List.pairwise_cons.mp hle
      have hxy : Precedes reversed x.2 y.2 := precedes_of_ne (hfirst y (by simp)) hne
      have hstrict := ih hrest
      refine List.pairwise_cons.mpr ⟨fun z hz => ?_, hstrict⟩
      rcases List.mem_cons.mp hz with rfl | hz
      · exact hxy
      · exact precedes_trans hxy ((List.pairwise_cons.mp hstrict).1 z hz)

theorem AreRuns.pairwise {reversed : Bool} (h : AreRuns rs)
    (hsorted : (expand rs).Pairwise fun a b => if reversed then b ≤ a else a ≤ b) :
    rs.Pairwise fun x y => Precedes reversed x.2 y.2 := by
  refine pairwise_precedes h.apart ?_
  refine (List.pairwise_flatMap.mp hsorted).2.imp_of_mem fun {x y} hx hy hxy => ?_
  have hposx := h.pos x hx
  have hposy := h.pos y hy
  exact hxy x.2 (by simp; omega) y.2 (by simp; omega)

theorem count_expand (h : rs.Pairwise fun x y => x.2 ≠ y.2) (hx : (n, l) ∈ rs) :
    (expand rs).count l = n := by
  induction rs with
  | nil => cases hx
  | cons y rs ih =>
      obtain ⟨hfirst, hrest⟩ := List.pairwise_cons.mp h
      rw [expand_cons, List.count_append, List.count_replicate]
      rcases List.mem_cons.mp hx with rfl | hx
      · have hnone : l ∉ expand rs := by
          rw [mem_expand]
          rintro ⟨x, hmem, -, rfl⟩
          exact hfirst x hmem rfl
        simp [List.count_eq_zero.mpr hnone]
      · have hne : y.2 ≠ l := hfirst (n, l) hx
        simp [hne, ih hrest hx]

/-- Of a sorted list, each line has one run, as long as the line is frequent. -/
theorem mem_runs_sortByText (reversed : Bool) (ls : List String) :
    (n, l) ∈ runs (sortByText reversed ls) ↔ 0 < n ∧ ls.count l = n := by
  have hruns := runs_areRuns (sortByText reversed ls)
  have hexpand := expand_runs (sortByText reversed ls)
  have hcount : ls.count l = (expand (runs (sortByText reversed ls))).count l := by
    rw [hexpand, (sortByText_perm reversed ls).count_eq]
  have hstrict := hruns.pairwise (by rw [hexpand]; exact pairwise_sortByText reversed ls)
  have hdistinct := hstrict.imp fun hxy => precedes_ne hxy
  constructor
  · intro hx
    exact ⟨hruns.pos _ hx, by rw [hcount, count_expand hdistinct hx]⟩
  · rintro ⟨hpos, hn⟩
    have hl : l ∈ expand (runs (sortByText reversed ls)) := by
      rw [← List.count_pos_iff, ← hcount, hn]
      exact hpos
    obtain ⟨⟨m, k⟩, hx, -, rfl⟩ := mem_expand.mp hl
    obtain rfl : m = n := by rw [← hn, hcount, count_expand hdistinct hx]
    exact hx

/-! ## Collapsed sorted lists -/

theorem collapse_uncounted (repeatedOnly : Bool) (ls : List String) :
    collapse false repeatedOnly ls =
      ((runs ls).filter fun x => !repeatedOnly || 2 ≤ x.1).map (·.2) := rfl

theorem pairwise_collapse_sortByText (reversed repeatedOnly : Bool) (ls : List String) :
    (collapse false repeatedOnly (sortByText reversed ls)).Pairwise (Precedes reversed) := by
  have hstrict := (runs_areRuns (sortByText reversed ls)).pairwise
    (by rw [expand_runs]; exact pairwise_sortByText reversed ls)
  rw [collapse_uncounted, List.pairwise_map]
  exact hstrict.filter _

/-- A sorted list is collapsed to the lines that occur, or to those that occur twice and more. -/
theorem mem_collapse_sortByText (reversed repeatedOnly : Bool) (ls : List String) :
    l ∈ collapse false repeatedOnly (sortByText reversed ls) ↔
      (if repeatedOnly then 2 else 1) ≤ ls.count l := by
  simp only [collapse_uncounted, List.mem_map, List.mem_filter, Prod.exists, exists_eq_right]
  constructor
  · rintro ⟨n, hx, hn⟩
    obtain ⟨hpos, rfl⟩ := (mem_runs_sortByText reversed ls).mp hx
    cases repeatedOnly with
    | false => exact hpos
    | true => simpa using hn
  · intro hn
    have hpos : 0 < ls.count l := by
      split at hn <;> omega
    refine ⟨ls.count l, (mem_runs_sortByText reversed ls).mpr ⟨hpos, rfl⟩, ?_⟩
    cases repeatedOnly with
    | false => rfl
    | true => simpa using hn

/-! ## Empty lines -/

theorem joinLines_collapse_replicate (repeatedOnly : Bool) (n : Nat) :
    joinLines (collapse false repeatedOnly (List.replicate n "")) = "" := by
  cases n with
  | zero => rfl
  | succ n =>
      have hruns : runs (List.replicate (n + 1) "") = [(n + 1, "")] := by
        simpa [runs] using @runs_replicate_append [] "" n
      rw [collapse_uncounted, hruns, List.filter_singleton]
      cases !repeatedOnly || decide (2 ≤ n + 1) <;> rfl

/-- A last line that is empty is not missed: either there is another line like it, or nothing is to
be seen of it. -/
theorem joinLines_collapse_dropLastEmpty {reversed : Bool} (repeatedOnly : Bool)
    (h : reversed → "" ∉ ls) :
    joinLines (collapse false repeatedOnly (dropLastEmpty (sortByText reversed ls))) =
      joinLines (collapse false repeatedOnly (sortByText reversed ls)) := by
  unfold dropLastEmpty
  split
  · rename_i hlast
    rw [getLast?_sortByText] at hlast
    cases reversed with
    | false =>
        have hall : ∀ l ∈ sortByText false ls, l = "" := fun l hl =>
          hlast.2 l ((sortByText_perm false ls).mem_iff.mp hl)
        obtain ⟨n, hn⟩ : ∃ n, sortByText false ls = List.replicate n "" :=
          ⟨_, List.eq_replicate_iff.mpr ⟨rfl, hall⟩⟩
        rw [hn, List.dropLast_replicate, joinLines_collapse_replicate,
          joinLines_collapse_replicate]
    | true => exact absurd hlast (h rfl)
  · rfl

end Shellbox.Command
