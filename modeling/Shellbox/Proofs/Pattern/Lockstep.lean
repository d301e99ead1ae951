import Shellbox.Pattern.Matcher

/-!
# Attempts in lockstep

An attempt looks at its place and at the marks, and never at the cursor before it has set it. So two
attempts from states that differ in the cursor alone, each followed by something that does not tell
such states apart, end alike, and all places that they come by lie in the text.
-/

namespace Shellbox.Pattern

variable {whole : List Char} {s t m n : State} {p q : Place} {c : Char} {o o' : Outcome} {b : Step}
  {k k' : State → Outcome}

/-! ## States that differ in the cursor -/

/-- The text that a place lies in. -/
def Place.text (p : Place) : List Char := p.before.reverse ++ p.after

/-- The states stand at one place of a text with the same marks, and their cursors lie in the text
too. -/
structure State.Alike (whole : List Char) (s t : State) : Prop where
  place : s.place = t.place
  marks : s.marks = t.marks
  place_text : s.place.text = whole
  cursor_text : s.cursor.text = whole
  cursor_text' : t.cursor.text = whole

/-- Both attempts succeed or both fail, and they leave states that differ in the cursor. -/
def Outcome.Alike (whole : List Char) : Outcome → Outcome → Prop
  | .hit s, .hit t => s.Alike whole t
  | .miss s, .miss t => s.Alike whole t
  | _, _ => False

/-- What comes after takes states that differ in the cursor to outcomes that do. -/
def Follow (whole : List Char) (k k' : State → Outcome) : Prop :=
  ∀ s t, s.Alike whole t → (k s).Alike whole (k' t)

/-- The step takes states that differ in the cursor, with what comes after them, to outcomes that
do. -/
def Step.Keeps (whole : List Char) (b : Step) : Prop :=
  ∀ k k' s t, Follow whole k k' → s.Alike whole t → (b s k).Alike whole (b t k')

namespace State.Alike

theorem left (h : s.Alike whole t) : s.Alike whole s :=
  ⟨rfl, rfl, h.place_text, h.cursor_text, h.cursor_text⟩

theorem place_text' (h : s.Alike whole t) : t.place.text = whole := h.place ▸ h.place_text

theorem moveTo (h : s.Alike whole t) (hp : p.text = whole) :
    (s.moveTo p).Alike whole (t.moveTo p) :=
  ⟨rfl, h.marks, hp, h.cursor_text, h.cursor_text'⟩

theorem setOut_eq (h : s.Alike whole t) : s.setOut = t.setOut := by
  obtain ⟨place, cursor, marks⟩ := s
  obtain ⟨rfl, rfl, -, -, -⟩ := h
  rfl

theorem setOut (h : s.Alike whole t) : s.setOut.Alike whole t.setOut :=
  ⟨h.place, h.marks, h.place_text, h.place_text, h.place_text'⟩

theorem mark (h : s.Alike whole t) (n : Nat) : (s.mark n).Alike whole (t.mark n) := by
  refine ⟨h.place, ?_, h.place_text, h.cursor_text, h.cursor_text'⟩
  simp only [State.mark, h.marks, h.place]

theorem backFrom (h : s.Alike whole t) (hm : m.Alike whole n) (contents : Bool) :
    (s.backFrom m contents).Alike whole (t.backFrom n contents) := by
  refine ⟨h.place, ?_, h.place_text, hm.cursor_text, hm.cursor_text'⟩
  simp only [State.backFrom, h.marks, hm.marks]

end State.Alike

/-- Whether two outcomes are alike is settled by what they are. -/
theorem Outcome.Alike.cases (h : o.Alike whole o') :
    (∃ r r', o = .hit r ∧ o' = .hit r' ∧ r.Alike whole r') ∨
      ∃ m m', o = .miss m ∧ o' = .miss m' ∧ m.Alike whole m' := by
  match o, o', h with
  | .hit r, .hit r', h => exact .inl ⟨r, r', rfl, rfl, h⟩
  | .miss m, .miss m', h => exact .inr ⟨m, m', rfl, rfl, h⟩

theorem Outcome.Alike.returning (h : o.Alike whole o') (hs : s.Alike whole t) :
    (returning s o).Alike whole (returning t o') := by
  rcases h.cases with ⟨r, r', rfl, rfl, hr⟩ | ⟨m, m', rfl, rfl, hm⟩
  · exact hr
  · exact ⟨hm.place, hm.marks, hm.place_text, hs.place_text, hs.place_text'⟩

theorem follow_done (whole : List Char) : Follow whole done done := fun _ _ h => h.setOut

/-- What has no continuation but success takes states that differ in the cursor to one outcome. -/
theorem Step.Keeps.setOut_eq (hb : b.Keeps whole) (h : s.Alike whole t) :
    b s.setOut done = b t.setOut done ∧ (b s.setOut done).Alike whole (b s.setOut done) := by
  refine ⟨by rw [h.setOut_eq], ?_⟩
  exact hb done done _ _ (follow_done whole) h.setOut.left

/-! ## Places in the text -/

theorem Place.text_next (h : p.next? = some (c, q)) : q.text = p.text := by
  unfold Place.next? at h
  split at h
  · cases h
  · rename_i d r hafter
    cases h
    simp [Place.text, hafter]

theorem step?_text {u : CharTest} (h : step? u p = some q) : q.text = p.text := by
  unfold step? at h
  split at h
  · cases h
  · rename_i c r hnext
    split at h
    · cases h
      exact Place.text_next hnext
    · cases h

theorem stepOver?_text {fold : Fold} {cs : List Char} (h : stepOver? fold cs p = some q) :
    q.text = p.text := by
  induction cs generalizing p with
  | nil => cases h; rfl
  | cons c cs ih =>
      unfold stepOver? at h
      split at h
      · cases h
      · rename_i d r hnext
        split at h
        · rw [ih h, Place.text_next hnext]
        · cases h

theorem Place.back?_text {n : Nat} (h : Place.back? n p = some q) : q.text = p.text := by
  induction n generalizing p with
  | zero => cases h; rfl
  | succ n ih =>
      unfold Place.back? at h
      split at h
      · cases h
      · rename_i c r hbefore
        rw [ih h]
        simp [Place.text, hbefore]

theorem runPlaces_text {u : CharTest} {most : Option Nat} {acc : List Place} {cs : List Char}
    (hacc : ∀ x ∈ acc, x.text = whole) (hp : p.text = whole) (hcs : p.after = cs) :
    ∀ x ∈ runPlaces u most acc p cs, x.text = whole := by
  induction cs generalizing most acc p with
  | nil => simpa [runPlaces, hp] using hacc
  | cons c cs ih =>
      have hcons : ∀ x ∈ p :: acc, x.text = whole := by simpa [hp] using hacc
      have hnext : (Place.mk (c :: p.before) cs (p.index + 1)).text = whole := by
        simpa [Place.text, hcs] using hp
      unfold runPlaces
      split
      · exact hcons
      · exact hcons
      · rename_i heq
        obtain ⟨rfl, rfl⟩ := List.cons.inj heq
        split
        · exact ih hcons hnext rfl
        · exact hcons

/-! ## Places in turn -/

theorem tryPlaces_alike {contents : Bool} (hk : Follow whole k k') {places : List Place}
    (hplaces : ∀ x ∈ places, x.text = whole) (h : s.Alike whole t) :
    (tryPlaces contents k s places).Alike whole (tryPlaces contents k' t places) := by
  induction places generalizing s t with
  | nil => exact h
  | cons p places ih =>
      obtain ⟨hp, hplaces⟩ := List.forall_mem_cons.mp hplaces
      unfold tryPlaces
      rcases (hk _ _ (h.moveTo hp).setOut).cases with ⟨r, r', hr, hr', hrr⟩ | ⟨m, m', hm, hm', hmm⟩
      · rw [hr, hr']
        exact hrr
      · rw [hm, hm']
        exact ih hplaces (h.backFrom hmm contents)

theorem tryPlacesReturning_alike {contents : Bool} (hk : Follow whole k k') {places : List Place}
    (hplaces : ∀ x ∈ places, x.text = whole) (h : s.Alike whole t) :
    (tryPlacesReturning contents k s places).Alike whole
      (tryPlacesReturning contents k' t places) := by
  induction places generalizing s t with
  | nil => exact h
  | cons p places ih =>
      obtain ⟨hp, hplaces⟩ := List.forall_mem_cons.mp hplaces
      have hout := (hk _ _ (h.moveTo hp).setOut).returning (h.moveTo hp)
      unfold tryPlacesReturning
      rcases hout.cases with ⟨r, r', hr, hr', hrr⟩ | ⟨m, m', hm, hm', hmm⟩
      · rw [hr, hr']
        exact hrr
      · rw [hm, hm']
        exact ih hplaces (h.backFrom hmm contents)

theorem keeps_runSteps (cx : Context) (u : CharTest) (least : Nat) (most : Option Nat)
    (greed : Greed) : (runSteps cx u least most greed).Keeps whole := by
  intro k k' s t hk h
  unfold runSteps
  rw [h.place, h.setOut_eq]
  have hset := h.setOut_eq ▸ h.setOut
  split
  · exact h
  · dsimp only
    have hreached : ∀ x ∈ (runPlaces u most [] t.setOut.place t.setOut.place.after).take
        ((runPlaces u most [] t.setOut.place t.setOut.place.after).length - least),
          x.text = whole :=
      fun x hx => runPlaces_text (by simp) h.place_text' rfl x (List.mem_of_mem_take hx)
    generalize (runPlaces u most [] t.setOut.place t.setOut.place.after).take
      ((runPlaces u most [] t.setOut.place t.setOut.place.after).length - least) = enough
      at hreached
    cases greed with
    | greedy =>
        refine tryPlaces_alike hk ?_ hset
        split
        · exact fun x hx => hreached x (List.mem_filter.mp hx).1
        · exact hreached
    | «lazy» => exact tryPlacesReturning_alike hk (by simpa using hreached) hset
    | possessive =>
        cases enough with
        | nil => exact hset
        | cons p places => exact hk _ _ (hset.moveTo (hreached p (by simp)))

/-! ## Rounds -/

theorem greedyRounds_alike (hb : b.Keeps whole) (hk : Follow whole k k') {least : Nat}
    {most : Option Nat} (fuel count : Nat) (last : Option Nat) :
    Follow whole (greedyRounds b least most k fuel count last)
      (greedyRounds b least most k' fuel count last) := by
  induction fuel generalizing count last with
  | zero => exact fun s t h => h
  | succ fuel ih =>
      intro s t h
      unfold greedyRounds
      rw [h.setOut_eq]
      have hset := h.setOut_eq ▸ h.setOut
      dsimp only
      split
      · exact (hb _ _ _ _ (ih _ _) hset).returning hset
      · split
        · rcases (hb _ _ _ _ (ih _ _) hset).cases with
            ⟨r, r', hr, hr', hrr⟩ | ⟨m, m', hm, hm', hmm⟩
          · rw [hr, hr']
            exact hrr
          · rw [hm, hm']
            exact (hk _ _ (hset.backFrom hmm true).setOut).returning hset
        · exact (hk _ _ hset).returning hset

theorem lazyRounds_alike (hb : b.Keeps whole) (hk : Follow whole k k') {least : Nat}
    {most : Option Nat} {inLoop : Bool} (fuel count : Nat) (last : Option Nat) :
    Follow whole (lazyRounds b least most inLoop k fuel count last)
      (lazyRounds b least most inLoop k' fuel count last) := by
  induction fuel generalizing count last with
  | zero => exact fun s t h => h
  | succ fuel ih =>
      intro s t h
      unfold lazyRounds
      rw [h.setOut_eq]
      have hset := h.setOut_eq ▸ h.setOut
      dsimp only
      split
      · exact (hb _ _ _ _ (ih _ _) hset).returning hset
      · rcases (hk _ _ hset).cases with ⟨r, r', hr, hr', hrr⟩ | ⟨m, m', hm, hm', hmm⟩
        · rw [hr, hr']
          exact hrr
        · rw [hm, hm']
          have hback := (hset.backFrom hmm inLoop).setOut
          dsimp only
          rw [(hset.backFrom hmm inLoop).setOut_eq] at hback ⊢
          split
          · exact (hb _ _ _ _ (ih _ _) hback).returning hback
          · exact hback

/-- Possessive rounds begin at one state and end within the text. -/
theorem possessiveRounds_alike (hb : b.Keeps whole) (least : Nat) (most : Option Nat) (fuel : Nat) :
    ∀ count last s, s.Alike whole s →
      (possessiveRounds b least most fuel count last s).Alike whole
        (possessiveRounds b least most fuel count last s) := by
  induction fuel with
  | zero => exact fun _ _ _ h => h
  | succ fuel ih =>
      intro count last s h
      have hround := hb done done s s (follow_done whole) h
      unfold possessiveRounds
      split
      · rcases hround.cases with ⟨r, r', hr, -, hrr⟩ | ⟨m, m', hm, -, hmm⟩
        · rw [hr]
          exact ih _ _ r hrr.left
        · rw [hm]
          exact hmm.left
      · split
        · rcases hround.cases with ⟨r, r', hr, -, hrr⟩ | ⟨m, m', hm, -, hmm⟩
          · rw [hr]
            exact ih _ _ r hrr.left
          · rw [hm]
            -- Matching goes on at the cursor that the failed round left in the text.
            exact ⟨rfl, rfl, hmm.cursor_text, hmm.cursor_text, hmm.cursor_text⟩
        · exact h

theorem keeps_rounds (cx : Context) (hb : b.Keeps whole) (least : Nat) (most : Option Nat)
    (greed : Greed) : (rounds cx b least most greed).Keeps whole := by
  intro k k' s t hk h
  unfold rounds
  rw [h.setOut_eq]
  have hset := h.setOut_eq ▸ h.setOut
  cases greed with
  | greedy => exact greedyRounds_alike hb hk _ _ _ _ _ hset
  | «lazy» => exact lazyRounds_alike hb hk _ _ _ _ _ hset
  | possessive =>
      have hout := (possessiveRounds_alike hb least most (least + (cx.size + 2) * (cx.size + 2)) 0
        none _ hset).returning hset
      dsimp only
      rcases hout.cases with ⟨r, r', hr, -, hrr⟩ | ⟨m, m', hm, -, hmm⟩
      · rw [hr]
        exact hk _ _ hrr.left
      · rw [hm]
        exact hmm.left

/-! ## Patterns -/

theorem keeps_look (cx : Context) (hb : b.Keeps whole) (back : Nat) (negated : Bool) :
    (look cx b back negated).Keeps whole := by
  intro k k' s t hk h
  unfold look
  rw [h.place]
  cases hback : Place.back? back t.place with
  | none =>
      cases negated with
      | false => exact h
      | true => exact hk _ _ h
  | some p =>
      have hp : p.text = whole := (Place.back?_text hback).trans h.place_text'
      obtain ⟨heq, hout⟩ := hb.setOut_eq (h.moveTo hp)
      cases negated with
      | false =>
          dsimp only
          rw [← heq]
          rcases hout.cases with ⟨r, r', hr, -, hrr⟩ | ⟨m, m', hm, -, hmm⟩
          · rw [hr]
            exact hk _ _ (hrr.left.moveTo h.place_text')
          · rw [hm]
            exact hmm.left
      | true =>
          dsimp only
          rw [← heq]
          rcases hout.cases with ⟨r, r', hr, -, hrr⟩ | ⟨m, m', hm, -, hmm⟩
          · rw [hr]
            exact hrr.left
          · rw [hm]
            exact hk _ _ (h.backFrom hmm.left _)

/-- Every attempt takes states that differ in the cursor, with what comes after them, to outcomes
that do. -/
theorem keeps_attempt (whole : List Char) (pat : Pattern) :
    ∀ cx, (attempt pat cx).Keeps whole := by
  induction pat with
  | empty => exact fun cx k k' s t hk h => hk _ _ h
  | one u =>
      intro cx k k' s t hk h
      unfold attempt
      rw [h.place]
      cases hstep : step? u t.place with
      | none => exact h
      | some p => exact hk _ _ (h.moveTo ((step?_text hstep).trans h.place_text'))
  | anchor a =>
      intro cx k k' s t hk h
      unfold attempt
      rw [h.place]
      split
      · exact hk _ _ h
      · exact h
  | seq p q ihp ihq =>
      intro cx k k' s t hk h
      exact ihp _ _ _ _ _ (fun u v huv => ihq _ _ _ _ _ hk huv) h
  | alt p q ihp ihq =>
      intro cx k k' s t hk h
      unfold attempt
      rw [h.place]
      split
      · exact ihq _ _ _ _ _ hk h
      · rcases (ihp _ _ _ _ _ hk h.setOut).cases with
          ⟨r, r', hr, hr', hrr⟩ | ⟨m, m', hm, hm', hmm⟩
        · rw [hr, hr']
          exact hrr
        · rw [hm, hm']
          exact ihq _ _ _ _ _ hk (h.backFrom hmm _)
  | never => exact fun cx k k' s t hk h => h
  | run u least most greed => exact fun cx => keeps_runSteps cx u least most greed
  | loop p least most greed ih => exact fun cx => keeps_rounds cx (ih _) least most greed
  | capture g p ih =>
      exact fun cx k k' s t hk h => ih _ _ _ _ _ (fun u v huv => hk _ _ (huv.mark _)) (h.mark _)
  | switched p ih => exact ih
  | backref g fold =>
      intro cx k k' s t hk h
      have hgroup : s.group? g = t.group? g := by
        simp only [State.group?, State.ends?, h.place, h.marks]
      unfold attempt
      rw [hgroup, h.place]
      cases hover : (t.group? g).bind fun cs => stepOver? fold cs t.place with
      | none => exact h
      | some p =>
          obtain ⟨cs, -, hover⟩ := Option.bind_eq_some_iff.mp hover
          exact hk _ _ (h.moveTo ((stepOver?_text hover).trans h.place_text'))
  | atomic p ih =>
      intro cx k k' s t hk h
      obtain ⟨heq, hout⟩ := (ih cx.apart).setOut_eq h
      unfold attempt
      rw [← heq]
      rcases (hout.returning h).cases with ⟨r, r', hr, hr', hrr⟩ | ⟨m, m', hm, hm', hmm⟩
      · rw [hr, hr']
        exact hk _ _ hrr
      · rw [hm, hm']
        exact hmm
  | ahead negated p ih => exact fun cx => keeps_look cx (ih _) 0 negated
  | behind width negated p ih => exact fun cx => keeps_look cx (ih _) width negated
  | ifGroup g p q ihp ihq =>
      intro cx k k' s t hk h
      have hends : s.ends? g = t.ends? g := by simp only [State.ends?, h.marks]
      unfold attempt
      rw [hends]
      split
      · exact ihp _ _ _ _ _ hk h
      · exact ihq _ _ _ _ _ hk h

end Shellbox.Pattern
