import Shellbox.Command.Grep
import Shellbox.Command.Lines
import Shellbox.Proofs.Text.Lines

/-!
# Sorting, choosing and counting lines

The text that is treated comes from the pipe or from the first file. Sorting keeps every line, and
equal ones in their order, so an empty one comes last just if no line is greater, or, in reverse, if
there is an empty one. Counts in columns tell the numbers.
-/

namespace Shellbox.Command

open Text

/-! ## The text that is treated -/

/-- The text comes from the pipe, or else from the first file. -/
def IsInput (fs : Filesystem) (paths : List String) (piped : Option String) (text : String) :
    Prop :=
  piped = some text ∨ piped = none ∧ ∃ f, paths.head? = some f ∧ fs.read (some f) = .ok text

theorem inputText_eq_ok_iff {name : String} {fs : Filesystem} {paths : List String}
    {piped : Option String} {text : String} :
    inputText name fs paths piped = .ok text ↔ IsInput fs paths piped text := by
  cases piped with
  | some t => simp [inputText, IsInput]
  | none =>
      cases paths with
      | nil => simp [inputText, IsInput]
      | cons f rest =>
          cases hread : fs.read (some f) with
          | error e => simp [inputText, IsInput, hread, Except.mapError]
          | ok t => simp [inputText, IsInput, hread, Except.mapError]

/-! ## Sorting by an order -/

section SortBy

variable {α β κ : Type} {le : α → α → Bool}

theorem sortBy_perm (le : α → α → Bool) (reversed : Bool) (xs : List α) :
    (sortBy le reversed xs).Perm xs := by
  cases reversed with
  | false => exact List.mergeSort_perm xs _
  | true => exact List.mergeSort_perm xs _

theorem pairwise_sortBy (htrans : ∀ a b c, le a b → le b c → le a c)
    (htotal : ∀ a b, le a b || le b a) (reversed : Bool) (xs : List α) :
    (sortBy le reversed xs).Pairwise fun a b => if reversed then le b a else le a b := by
  cases reversed with
  | false => exact List.pairwise_mergeSort htrans htotal xs
  | true =>
      exact List.pairwise_mergeSort (fun a b c hab hbc => htrans c b a hbc hab)
        (fun a b => htotal b a) xs

/-- Elements that are equal in the order stay in their order, also in reverse. -/
theorem filter_sortBy (htrans : ∀ a b c, le a b → le b c → le a c)
    (htotal : ∀ a b, le a b || le b a) (reversed : Bool) (xs : List α) {p : α → Bool}
    (hequal : ∀ a b, p a → p b → le a b) : (sortBy le reversed xs).filter p = xs.filter p := by
  have hpairs : ∀ a ∈ xs.filter p, ∀ b ∈ xs.filter p, le a b := fun a ha b hb =>
    hequal a b (List.of_mem_filter ha) (List.of_mem_filter hb)
  have hsub : (xs.filter p).Sublist (sortBy le reversed xs) := by
    cases reversed with
    | false =>
        exact List.sublist_mergeSort htrans htotal (List.pairwise_of_forall_mem_list hpairs)
          List.filter_sublist
    | true =>
        refine List.sublist_mergeSort (fun a b c hab hbc => htrans c b a hbc hab)
          (fun a b => htotal b a) ?_ List.filter_sublist
        exact List.pairwise_of_forall_mem_list fun a ha b hb => hpairs b hb a ha
  have hkept := hsub.filter p
  simp only [List.filter_filter, Bool.and_self] at hkept
  exact (hkept.eq_of_length ((sortBy_perm le reversed xs).filter p).length_eq.symm).symm

theorem map_sortBy {le' : β → β → Bool} (f : α → β) (h : ∀ a b, le a b = le' (f a) (f b))
    (reversed : Bool) (xs : List α) :
    (sortBy le reversed xs).map f = sortBy le' reversed (xs.map f) := by
  cases reversed with
  | false => exact List.map_mergeSort fun a _ b _ => h a b
  | true => exact List.map_mergeSort fun a _ b _ => h b a

/-- The lines in the order of a key, or of its converse; lines of one key are in their old order. -/
structure IsStableSort [LE κ] [DecidableEq κ] (key : String → κ) (reversed : Bool)
    (ls sorted : List String) : Prop where
  perm : sorted.Perm ls
  ordered : sorted.Pairwise fun l m => if reversed then key m ≤ key l else key l ≤ key m
  stable : ∀ k, sorted.filter (key · = k) = ls.filter (key · = k)

theorem isStableSort_sortBy [LE κ] [DecidableEq κ] [DecidableLE κ]
    (htrans : ∀ {a b c : κ}, a ≤ b → b ≤ c → a ≤ c) (htotal : ∀ a b : κ, a ≤ b ∨ b ≤ a)
    (key : String → κ) (reversed : Bool) (ls : List String) :
    IsStableSort key reversed ls (sortBy (fun l m => key l ≤ key m) reversed ls) := by
  have htrans' : ∀ l m n, decide (key l ≤ key m) → decide (key m ≤ key n) →
      decide (key l ≤ key n) := by
    intro l m n hlm hmn
    rw [decide_eq_true_eq] at hlm hmn ⊢
    exact htrans hlm hmn
  have htotal' : ∀ l m, (decide (key l ≤ key m) || decide (key m ≤ key l)) = true := by
    intro l m
    simpa using htotal (key l) (key m)
  refine ⟨sortBy_perm _ reversed ls, ?_, fun k => ?_⟩
  · refine (pairwise_sortBy htrans' htotal' reversed ls).imp fun h => ?_
    cases reversed with
    | false => exact of_decide_eq_true h
    | true => exact of_decide_eq_true h
  · refine filter_sortBy htrans' htotal' reversed ls fun l m hl hm => ?_
    rw [decide_eq_true_eq] at hl hm ⊢
    rw [hl, hm]
    exact (htotal k k).elim id id

end SortBy

/-! ## Sorted lines -/

theorem empty_le (l : String) : "" ≤ l := by
  intro h
  exact List.not_lt_nil l.toList h

theorem eq_empty_of_le {l : String} (h : l ≤ "") : l = "" :=
  String.le_antisymm h (empty_le l)

theorem sortByText_perm (reversed : Bool) (ls : List String) :
    (sortByText reversed ls).Perm ls :=
  sortBy_perm _ reversed ls

theorem pairwise_sortByText (reversed : Bool) (ls : List String) :
    (sortByText reversed ls).Pairwise fun a b => if reversed then b ≤ a else a ≤ b :=
  (isStableSort_sortBy String.le_trans String.le_total id reversed ls).ordered

/-- When the last of the sorted lines is empty. -/
theorem getLast?_sortByText (reversed : Bool) (ls : List String) :
    (sortByText reversed ls).getLast? = some "" ↔
      if reversed then "" ∈ ls else ls ≠ [] ∧ ∀ l ∈ ls, l = "" := by
  have hperm := sortByText_perm reversed ls
  have hsorted := pairwise_sortByText reversed ls
  generalize sortByText reversed ls = sorted at hperm hsorted
  rcases sorted.eq_nil_or_concat with rfl | ⟨front, last, rfl⟩
  · obtain rfl := hperm.nil_eq
    cases reversed <;> simp
  · rw [List.concat_eq_append] at hperm hsorted ⊢
    have hlast : last ∈ ls := hperm.mem_iff.mp (by simp)
    have hbefore := (List.pairwise_append.mp hsorted).2.2
    simp only [List.mem_singleton, forall_eq] at hbefore
    rw [List.getLast?_concat, Option.some_inj]
    cases reversed with
    | false =>
        simp only [Bool.false_eq_true, ↓reduceIte] at hbefore ⊢
        constructor
        · rintro rfl
          refine ⟨List.ne_nil_of_mem hlast, fun l hl => ?_⟩
          rcases List.mem_append.mp (hperm.mem_iff.mpr hl) with hl | hl
          · exact eq_empty_of_le (hbefore l hl)
          · exact List.mem_singleton.mp hl
        · rintro ⟨-, hall⟩
          exact hall last hlast
    | true =>
        simp only [↓reduceIte] at hbefore ⊢
        constructor
        · rintro rfl
          exact hlast
        · intro hempty
          rcases List.mem_append.mp (hperm.mem_iff.mpr hempty) with hl | hl
          · exact eq_empty_of_le (hbefore "" hl)
          · exact (List.mem_singleton.mp hl).symm

/-! ## Chosen lines -/

theorem select_plain (p : Regex) (inverted : Bool) (text : String) :
    LineChoice.select ⟨p, inverted, false⟩ "" text =
      (lines text).filter (p.occursIn · != inverted) := by
  have hshown : ∀ x : String × Nat, LineChoice.shown ⟨p, inverted, false⟩ "" x.1 x.2 = x.1 := by
    simp [LineChoice.shown]
  simp only [LineChoice.select, LineChoice.chooses, hshown]
  conv_rhs => rw [← List.zipIdx_map_fst 1 (lines text), List.filter_map]
  rfl

/-! ## Counts -/

theorem toList_padLeft (w : Nat) (s : String) :
    (padLeft w s).toList = List.replicate (w - s.length) ' ' ++ s.toList := by
  have hpush : ∀ k, ("".pushn ' ' k).toList = List.replicate k ' ' := by
    intro k
    induction k with
    | zero => rfl
    | succ k ih => rw [List.replicate_succ', ← ih, String.pushn, Nat.repeat, String.toList_push,
        String.pushn]
  rw [padLeft, String.toList_append, hpush]

/-- The blanks in front of a number can be told from its digits. -/
theorem trimStart_padLeft (w n : Nat) :
    trimStart (padLeft w (toString n)).toList = Nat.toDigits 10 n := by
  have hdigits : (toString n).toList = Nat.toDigits 10 n := by
    rw [Nat.toString_eq_ofList_toDigits, String.toList_ofList]
  have hblank : ∀ c ∈ Nat.toDigits 10 n, isBlank c = false := by
    intro c hc
    have hdigit := Nat.isDigit_of_mem_toDigits (by decide) (by decide) hc
    obtain ⟨hlow, hhigh⟩ : 48 ≤ c.toNat ∧ c.toNat ≤ 57 := Char.isDigit_iff_toNat.mp hdigit
    grind [isBlank]
  have hfront : ∀ c ∈ List.replicate (w - (toString n).length) ' ', isBlank c := by
    intro c hc
    rw [List.eq_of_mem_replicate hc]
    rfl
  rw [toList_padLeft, hdigits, trimStart, List.dropWhile_append_of_pos hfront]
  cases hd : Nat.toDigits 10 n with
  | nil => rfl
  | cons c ds => simp [hblank c (by simp [hd])]

theorem padLeft_toString_inj {w m n : Nat} :
    padLeft w (toString m) = padLeft w (toString n) ↔ m = n := by
  constructor
  · intro h
    have htrim := trimStart_padLeft w m
    rw [h, trimStart_padLeft] at htrim
    rw [← Nat.ofDigitChars_ten_toDigits (n := m), ← htrim, Nat.ofDigitChars_ten_toDigits]
  · rintro rfl
    rfl

end Shellbox.Command
