import Mathlib.Data.List.Infix
import Mathlib.Data.List.TakeWhile
import Shellbox.Proofs.Pattern.Attempts

/-!
# Searching for runs

A search for a run of characters that pass a test, at least so many of them, finds the blocks of
such characters that can be prolonged on neither side: each match takes a block to its end, and none
begins inside of a block, since the search would have succeeded at the beginning of the block.
-/

namespace Shellbox.Pattern

variable {t : CharTest} {least size more fuel : Nat} {at_ q e : Place}
  {text before front block back skipped taken rest : List Char}

/-! ## One match -/

/-- The last place reached lies behind all the characters that pass, and there is one place for each
of them. -/
theorem exists_runPlaces_eq (acc : List Place) (p : Place) (cs : List Char) (hp : p.after = cs) :
    ∃ q places, runPlaces t none acc p cs = q :: places ∧
      q.after = cs.dropWhile t.passes ∧ q.index = p.index + (cs.takeWhile t.passes).length ∧
      places.length = acc.length + (cs.takeWhile t.passes).length := by
  induction cs generalizing acc p with
  | nil => exact ⟨p, acc, by rw [runPlaces], by simpa using hp, rfl, rfl⟩
  | cons c cs ih =>
      rw [runPlaces_cons]
      by_cases hc : t.passes c
      · obtain ⟨q, places, hplaces, hafter, hindex, hlength⟩ :=
          ih (p :: acc) ⟨c :: p.before, cs, p.index + 1⟩ rfl
        refine ⟨q, places, by rw [if_pos hc, hplaces], ?_, ?_, ?_⟩
        · rw [hafter, List.dropWhile_cons_of_pos hc]
        · rw [hindex, List.takeWhile_cons_of_pos hc, List.length_cons, Nat.add_assoc,
            Nat.add_comm 1]
        · rw [hlength, List.takeWhile_cons_of_pos hc, List.length_cons, List.length_cons,
            Nat.add_right_comm, Nat.add_assoc]
      · refine ⟨p, acc, by rw [if_neg hc], ?_, ?_, ?_⟩
        · rw [hp, List.dropWhile_cons_of_neg hc]
        · rw [List.takeWhile_cons_of_neg hc]
          rfl
        · rw [List.takeWhile_cons_of_neg hc]
          rfl

theorem hasLeft_of_le (h : least ≤ at_.after.length) : at_.hasLeft least := by
  cases least with
  | zero => rfl
  | succ n =>
      have hdrop : at_.after.drop n ≠ [] := by
        rw [ne_eq, List.drop_eq_nil_iff]
        omega
      simpa [Place.hasLeft] using hdrop

/-- The pattern of a run of characters that pass a test, at least so many of them. -/
def runRegex (t : CharTest) (least : Nat) : Regex := ⟨.run t least none .greedy, least⟩

/-- A match takes all the characters that pass. -/
theorem matchEnd?_run_of_le (size : Nat) (h : least ≤ (at_.after.takeWhile t.passes).length) :
    ∃ e, (runRegex t least).pattern.matchEnd? size at_ = some e ∧
      e.after = at_.after.dropWhile t.passes ∧
      e.index = at_.index + (at_.after.takeWhile t.passes).length := by
  obtain ⟨q, places, hplaces, hafter, hindex, hlength⟩ :=
    exists_runPlaces_eq (t := t) [] at_ at_.after rfl
  have hleft : at_.hasLeft least :=
    hasLeft_of_le (h.trans (List.takeWhile_prefix _).length_le)
  obtain ⟨k, hk⟩ : ∃ k, (q :: places).length - least = k + 1 :=
    ⟨(q :: places).length - least - 1, by rw [List.length_cons, hlength, List.length_nil]; omega⟩
  rw [List.length_cons] at hk
  refine ⟨q, ?_, hafter, hindex⟩
  simp [runRegex, matchEnd?, attempt, runSteps, State.start, State.setOut, hleft, hplaces, hk,
    tryPlaces, done, State.moveTo, Lead.code?]

theorem matchEnd?_run_of_lt (size : Nat) (h : (at_.after.takeWhile t.passes).length < least) :
    (runRegex t least).pattern.matchEnd? size at_ = none := by
  obtain ⟨q, places, hplaces, -, -, hlength⟩ :=
    exists_runPlaces_eq (t := t) [] at_ at_.after rfl
  have hfew : places.length + 1 - least = 0 := by
    rw [hlength, List.length_nil]
    omega
  by_cases hleft : at_.hasLeft least
  · simp [runRegex, matchEnd?, attempt, runSteps, State.start, State.setOut, hleft, hplaces, hfew,
      tryPlaces, Lead.code?]
  · simp [runRegex, matchEnd?, attempt, runSteps, State.start, hleft]

/-! ## The first match -/

/-- What a search in a text finds first: no run that is long enough begins before it, and it is as
long as it can be. -/
structure IsFirstRun (t : CharTest) (least : Nat) (text skipped taken rest : List Char) :
    Prop where
  split : text = skipped ++ (taken ++ rest)
  least_le : least ≤ taken.length
  passes : ∀ c ∈ taken, t.passes c
  rest_head : ∀ c ∈ rest.head?, ¬ t.passes c
  skipped_short : ∀ s, s <:+ skipped → s ≠ [] →
    ((s ++ (taken ++ rest)).takeWhile t.passes).length < least

/-- No run that is long enough begins anywhere in the text. -/
def LacksRun (t : CharTest) (least : Nat) (text : List Char) : Prop :=
  ∀ s, s <:+ text → (s.takeWhile t.passes).length < least

theorem head_dropWhile (text : List Char) :
    ∀ c ∈ (text.dropWhile t.passes).head?, ¬ t.passes c := by
  intro c hc hpass
  have := List.head?_dropWhile_not t.passes text
  rw [Option.mem_def.mp hc] at this
  simp [hpass] at this

theorem isFirstRun_of_le (h : least ≤ (text.takeWhile t.passes).length) :
    IsFirstRun t least text [] (text.takeWhile t.passes) (text.dropWhile t.passes) where
  split := List.takeWhile_append_dropWhile.symm
  least_le := h
  passes _ := List.mem_takeWhile_imp
  rest_head := head_dropWhile text
  skipped_short _ hs hne := absurd (List.suffix_nil.mp hs) hne

theorem IsFirstRun.cons {c : Char} (h : IsFirstRun t least text skipped taken rest)
    (hc : ((c :: text).takeWhile t.passes).length < least) :
    IsFirstRun t least (c :: text) (c :: skipped) taken rest where
  split := by rw [h.split, List.cons_append]
  least_le := h.least_le
  passes := h.passes
  rest_head := h.rest_head
  skipped_short s hs hne := by
    rcases List.suffix_cons_iff.mp hs with rfl | hs
    · rwa [List.cons_append, ← h.split]
    · exact h.skipped_short s hs hne

theorem lacksRun_of_length_lt (h : text.length < least) : LacksRun t least text := fun _ hs =>
  ((List.takeWhile_prefix _).length_le.trans hs.length_le).trans_lt h

theorem LacksRun.cons {c : Char} (h : LacksRun t least text)
    (hc : ((c :: text).takeWhile t.passes).length < least) : LacksRun t least (c :: text) := by
  intro s hs
  rcases List.suffix_cons_iff.mp hs with rfl | hs
  · exact hc
  · exact h s hs

/-- The place where the first run of a text begins and the one where it ends, or none of both. -/
def IsSearched (t : CharTest) (least : Nat) (text : List Char) : Option (Place × Place) → Prop
  | some (q, e) => ∃ skipped taken, IsFirstRun t least text skipped taken e.after ∧
      q.after = taken ++ e.after ∧ e.index = q.index + taken.length
  | none => LacksRun t least text

theorem searchWithin?_run_here (size more : Nat)
    (h : least ≤ (at_.after.takeWhile t.passes).length) :
    IsSearched t least at_.after ((runRegex t least).pattern.searchWithin? size more at_) := by
  obtain ⟨e, he, hafter, hindex⟩ := matchEnd?_run_of_le size h
  have hsearch : (runRegex t least).pattern.searchWithin? size more at_ = some (at_, e) := by
    cases more with
    | zero => rw [searchWithin?, he, Option.map_some]
    | succ more => rw [searchWithin?, he]
  rw [hsearch]
  refine ⟨[], at_.after.takeWhile t.passes, ?_, ?_, hindex⟩
  · rw [hafter]
    exact isFirstRun_of_le h
  · rw [hafter, List.takeWhile_append_dropWhile]

/-- A search finds the first run if it is tried at every place where a run could have room. -/
theorem searchWithin?_run (hleast : 0 < least) (size : Nat)
    (hmore : at_.after.length < more + least) :
    IsSearched t least at_.after ((runRegex t least).pattern.searchWithin? size more at_) := by
  induction more generalizing at_ with
  | zero =>
      by_cases h : least ≤ (at_.after.takeWhile t.passes).length
      · exact searchWithin?_run_here size 0 h
      · rw [searchWithin?, matchEnd?_run_of_lt size (Nat.not_le.mp h), Option.map_none]
        exact lacksRun_of_length_lt (by omega)
  | succ more ih =>
      by_cases h : least ≤ (at_.after.takeWhile t.passes).length
      · exact searchWithin?_run_here size (more + 1) h
      · rw [Nat.not_le] at h
        rw [searchWithin?, matchEnd?_run_of_lt size h]
        cases hafter : at_.after with
        | nil =>
            simp only [Place.next?, hafter]
            exact lacksRun_of_length_lt hleast
        | cons c r =>
            rw [hafter] at h hmore
            simp only [Place.next?, hafter]
            have hnext := @ih ⟨c :: at_.before, r, at_.index + 1⟩ (by simp at hmore ⊢; omega)
            -- The first run behind the character is the first one with it in front, too.
            cases hfound : (runRegex t least).pattern.searchWithin? size more
                ⟨c :: at_.before, r, at_.index + 1⟩ with
            | none =>
                rw [hfound] at hnext
                exact hnext.cons h
            | some x =>
                rw [hfound] at hnext
                obtain ⟨skipped, taken, hfirst, hplaces⟩ := hnext
                exact ⟨c :: skipped, taken, hfirst.cons h, hplaces⟩

theorem searchFrom?_run (hleast : 0 < least) (size : Nat) (at_ : Place) :
    IsSearched t least at_.after ((runRegex t least).searchFrom? size at_) := by
  have hlead : (runRegex t least).pattern.beginsExactly = false := rfl
  have hshortest : (runRegex t least).shortest = least := rfl
  simp only [Regex.searchFrom?, hlead, hshortest, Bool.false_eq_true, ↓reduceIte]
  split
  · exact searchWithin?_run hleast size (by omega)
  · exact lacksRun_of_length_lt (by omega)

/-! ## Blocks -/

/-- Characters that pass a test, between two texts that cannot prolong them. -/
structure IsBlock (test : Char → Bool) (front block back : List Char) : Prop where
  ne_nil : block ≠ []
  passes : ∀ c ∈ block, test c
  front_last : ∀ c ∈ front.getLast?, ¬ test c
  back_head : ∀ c ∈ back.head?, ¬ test c

theorem takeWhile_append_eq {test : Char → Bool} (h : ∀ c ∈ block, test c)
    (hback : ∀ c ∈ back.head?, ¬ test c) : (block ++ back).takeWhile test = block := by
  have hnone : back.takeWhile test = [] := by
    cases back with
    | nil => rfl
    | cons c back => exact List.takeWhile_cons_of_neg (hback c rfl)
  rw [List.takeWhile_append_of_pos h, hnone, List.append_nil]

theorem IsFirstRun.takeWhile_eq (h : IsFirstRun t least text skipped taken rest) :
    (taken ++ rest).takeWhile t.passes = taken := takeWhile_append_eq h.passes h.rest_head

theorem IsFirstRun.ne_nil (h : IsFirstRun t least text skipped taken rest) (hleast : 0 < least) :
    taken ≠ [] :=
  List.ne_nil_of_length_pos (hleast.trans_le h.least_le)

/-- What does not pass stands right before the first run, if it is not the first of the text. -/
theorem IsFirstRun.skipped_last (h : IsFirstRun t least text skipped taken rest) :
    ∀ c ∈ skipped.getLast?, ¬ t.passes c := by
  intro c hc hpass
  obtain ⟨front, rfl⟩ := List.getLast?_eq_some_iff.mp (Option.mem_def.mp hc)
  have hshort := h.skipped_short [c] (List.suffix_append front [c]) (by simp)
  have hleast := h.least_le
  rw [List.singleton_append, List.takeWhile_cons_of_pos hpass, h.takeWhile_eq,
    List.length_cons] at hshort
  omega

/-- A match from a place that is not inside of a block is a block. -/
theorem IsFirstRun.isBlock (h : IsFirstRun t least text skipped taken rest) (hleast : 0 < least)
    (hbefore : ∀ c ∈ before.getLast?, t.passes c → ∀ d ∈ text.head?, ¬ t.passes d) :
    IsBlock t.passes (before ++ skipped) taken rest where
  ne_nil := h.ne_nil hleast
  passes := h.passes
  back_head := h.rest_head
  front_last c hc hpass := by
    by_cases hskipped : skipped = []
    · obtain ⟨d, taken', rfl⟩ := List.exists_cons_of_ne_nil (h.ne_nil hleast)
      rw [hskipped, List.append_nil] at hc
      refine hbefore c hc hpass d ?_ (h.passes d (by simp))
      rw [h.split, hskipped]
      rfl
    · rw [List.getLast?_append_of_ne_nil _ hskipped] at hc
      exact h.skipped_last c hc hpass

/-- A block that is long enough is the first one that is found, or lies behind it. -/
theorem IsFirstRun.block_cases (h : IsFirstRun t least text skipped taken rest)
    (hblock : IsBlock t.passes (before ++ front) block back) (hlength : least ≤ block.length)
    (hsplit : text = front ++ (block ++ back)) :
    front = skipped ∧ block = taken ∨ skipped ++ taken <+: front := by
  have hend : (block ++ back).takeWhile t.passes = block :=
    takeWhile_append_eq hblock.passes hblock.back_head
  have hsame (heq : block ++ back = taken ++ rest) : block = taken := by
    rw [← hend, heq, h.takeWhile_eq]
  rcases List.append_eq_append_iff.mp (h.split.symm.trans hsplit) with
    ⟨gap, rfl, hgap⟩ | ⟨gap, hskipped, hgap⟩
  · by_cases hne : gap = []
    · subst hne
      exact .inl ⟨by rw [List.append_nil], hsame hgap.symm⟩
    · rcases List.append_eq_append_iff.mp hgap with ⟨more, rfl, -⟩ | ⟨more, htaken, -⟩
      · exact .inr ⟨more, List.append_assoc ..⟩
      · -- A block does not begin inside of the run: what stands before it passes.
        obtain ⟨c, hc⟩ := List.getLast?_isSome.mpr hne |> Option.isSome_iff_exists.mp
        refine absurd (h.passes c ?_) (hblock.front_last c ?_)
        · rw [htaken]
          exact List.mem_append_left _ (List.mem_of_getLast? hc)
        · rw [← List.append_assoc, List.getLast?_append_of_ne_nil _ hne]
          exact hc
  · by_cases hne : gap = []
    · subst hne
      rw [List.append_nil] at hskipped
      exact .inl ⟨hskipped.symm, hsame hgap⟩
    · -- A block does not begin in front of the run: the run would have begun there.
      have hshort := h.skipped_short gap ⟨front, hskipped.symm⟩ hne
      rw [← hgap, hend] at hshort
      exact absurd hshort (Nat.not_lt.mpr hlength)

/-! ## All matches -/

/-- The blocks that are long enough in what is left of a text behind a part of it, each with what
stands before it. -/
def IsBlockOf (t : CharTest) (least : Nat) (before text : List Char) (x : List Char × List Char) :
    Prop :=
  ∃ front back, x.1 = before ++ front ∧ text = front ++ (x.2 ++ back) ∧
    IsBlock t.passes x.1 x.2 back ∧ least ≤ x.2.length

theorem LacksRun.not_isBlockOf (h : LacksRun t least text) (x : List Char × List Char) :
    ¬ IsBlockOf t least before text x := by
  rintro ⟨front, back, -, hsplit, hblock, hlength⟩
  have hshort := h (x.2 ++ back) ⟨front, hsplit.symm⟩
  rw [takeWhile_append_eq hblock.passes hblock.back_head] at hshort
  omega

/-- The blocks in a text are the first run and those behind it. -/
theorem IsFirstRun.isBlockOf_iff (h : IsFirstRun t least text skipped taken rest)
    (hleast : 0 < least)
    (hbefore : ∀ c ∈ before.getLast?, t.passes c → ∀ d ∈ text.head?, ¬ t.passes d)
    (x : List Char × List Char) :
    IsBlockOf t least before text x ↔
      x = (before ++ skipped, taken) ∨
        IsBlockOf t least (before ++ (skipped ++ taken)) rest x := by
  constructor
  · rintro ⟨front, back, hx, hsplit, hblock, hlength⟩
    rw [hx] at hblock
    rcases h.block_cases hblock hlength hsplit with ⟨hfront, htaken⟩ | ⟨gap, hgap⟩
    · exact .inl (Prod.ext (by rw [hx, hfront]) htaken)
    · refine .inr ⟨gap, back, ?_, ?_, by rwa [hx], hlength⟩
      · simp only [hx, ← hgap, List.append_assoc]
      · have heq := h.split.symm.trans hsplit
        rw [← hgap, ← List.append_assoc, List.append_assoc (skipped ++ taken)] at heq
        exact List.append_cancel_left heq
  · rintro (rfl | ⟨front, back, hx, hsplit, hblock, hlength⟩)
    · exact ⟨skipped, rest, rfl, h.split, h.isBlock hleast hbefore, h.least_le⟩
    · refine ⟨skipped ++ taken ++ front, back, ?_, ?_, hblock, hlength⟩
      · rw [hx, List.append_assoc]
      · rw [h.split, hsplit, List.append_assoc, List.append_assoc]

/-- Blocks behind the first run stand apart from it. -/
theorem IsFirstRun.length_lt (h : IsFirstRun t least text skipped taken rest)
    {x : List Char × List Char} (hx : IsBlockOf t least (before ++ (skipped ++ taken)) rest x) :
    (before ++ skipped).length + taken.length < x.1.length := by
  obtain ⟨front, back, hfront, hsplit, hblock, -⟩ := hx
  have hne : front ≠ [] := by
    rintro rfl
    obtain ⟨c, cs, hcs⟩ := List.exists_cons_of_ne_nil hblock.ne_nil
    refine h.rest_head c ?_ (hblock.passes c (by simp [hcs]))
    rw [hsplit, hcs]
    rfl
  have hpos := List.length_pos_iff.mpr hne
  simp only [hfront, List.length_append]
  omega

/-- The search goes on behind a match, where no block has begun. So it finds all the blocks, from
the left. -/
theorem findAllFrom_run (hleast : 0 < least) (size : Nat) (at_ : Place) (before : List Char)
    (hfuel : at_.after.length < fuel)
    (hbefore : ∀ c ∈ before.getLast?, t.passes c → ∀ d ∈ at_.after.head?, ¬ t.passes d) :
    ∃ blocks : List (List Char × List Char),
      (runRegex t least).findAllFrom size fuel at_ = blocks.map Prod.snd ∧
      blocks.Pairwise (fun x y => x.1.length + x.2.length < y.1.length) ∧
      ∀ x, x ∈ blocks ↔ IsBlockOf t least before at_.after x := by
  induction fuel generalizing at_ before with
  | zero => exact absurd hfuel (Nat.not_lt_zero _)
  | succ fuel ih =>
      have hsearch := searchFrom?_run (t := t) hleast size at_
      rw [Regex.findAllFrom]
      cases hfound : (runRegex t least).searchFrom? size at_ with
      | none =>
          rw [hfound] at hsearch
          exact ⟨[], rfl, .nil, fun x => by simpa using hsearch.not_isBlockOf x⟩
      | some found =>
          obtain ⟨q, e⟩ := found
          rw [hfound] at hsearch
          obtain ⟨skipped, taken, hfirst, hafter, hindex⟩ := hsearch
          have htaken : q.after.take (e.index - q.index) = taken := by
            rw [hafter, hindex, Nat.add_sub_cancel_left, List.take_left]
          have hpos := List.length_pos_iff.mpr (hfirst.ne_nil hleast)
          have hlength := congrArg List.length hfirst.split
          simp only [List.length_append] at hlength
          obtain ⟨blocks, hblocks, hpairwise, hmem⟩ :=
            ih e (before ++ (skipped ++ taken)) (by omega) fun _ _ _ => hfirst.rest_head
          refine ⟨(before ++ skipped, taken) :: blocks, ?_, ?_, fun x => ?_⟩
          · simp only [htaken, hblocks, List.map_cons]
          · exact .cons (fun x hx => hfirst.length_lt ((hmem x).mp hx)) hpairwise
          · rw [List.mem_cons, hmem, hfirst.isBlockOf_iff hleast hbefore]

/-- The blocks of a text that are long enough, from the left and apart, are what is found. -/
theorem findAll_run (hleast : 0 < least) (text : String) :
    ∃ blocks : List (List Char × List Char),
      (runRegex t least).findAll text = blocks.map (fun x => String.ofList x.2) ∧
      blocks.Pairwise (fun x y => x.1.length + x.2.length < y.1.length) ∧
      ∀ front block, (front, block) ∈ blocks ↔
        least ≤ block.length ∧
          ∃ back, text.toList = front ++ block ++ back ∧ IsBlock t.passes front block back := by
  obtain ⟨blocks, hblocks, hpairwise, hmem⟩ :=
    findAllFrom_run (t := t) hleast text.toList.length (.start text.toList) []
      (Nat.lt_add_one text.toList.length) (by simp)
  refine ⟨blocks, ?_, hpairwise, fun front block => ?_⟩
  · rw [Regex.findAll, hblocks, List.map_map]
    rfl
  · rw [hmem]
    constructor
    · rintro ⟨front', back, hfront, hsplit, hblock, hlength⟩
      obtain rfl : front = front' := hfront
      exact ⟨hlength, back, by rw [List.append_assoc]; exact hsplit, hblock⟩
    · rintro ⟨hlength, back, hsplit, hblock⟩
      exact ⟨front, back, rfl, by rw [← List.append_assoc]; exact hsplit, hblock, hlength⟩

end Shellbox.Pattern
