import Shellbox.Proofs.Pattern.Anchored
import Shellbox.Proofs.Pattern.Lockstep

/-!
# What the anchors of a glob hold fast

The anchors of a translated glob stand at its ends and bind no more than the branches there: the
caret the first one, the dollar sign the last. A glob of one branch is thus anchored at both ends,
and it accepts a name without line breaks just if the translation without the anchors matches the
whole of it. Of several branches all but the last have only to match a beginning of the name.
-/

namespace Shellbox.Pattern

variable {p q : Pattern} {ps : List Pattern} {bs : List (List Pattern)} {cx : Context} {s t : State}
  {k k' : State → Outcome} {whole : List Char}

/-! ## Matching a text as a whole -/

/-- Success, but only at the end of the text. -/
def atEnd (s : State) : Outcome := if s.place.after.isEmpty then done s else .miss s

/-- The items in turn match the whole of a text. -/
def Fills (ps : List Pattern) (text : List Char) : Prop :=
  (attempt (seqOf ps) { size := text.length } (.start (.start text)) atEnd).IsHit

theorem Outcome.Alike.isHit_iff {o o' : Outcome} (h : o.Alike whole o') : o.IsHit ↔ o'.IsHit := by
  rcases h.cases with ⟨r, r', rfl, rfl, -⟩ | ⟨m, m', rfl, rfl, -⟩ <;> simp

/-- Where attempts succeed does not depend on the cursor. -/
theorem attempt_isHit_congr (hk : Follow whole k k') (h : s.Alike whole t) :
    (attempt p cx s k).IsHit ↔ (attempt p cx t k').IsHit :=
  (keeps_attempt whole p cx k k' s t hk h).isHit_iff

theorem alike_start (text : List Char) :
    (State.start (.start text)).Alike text (State.start (.start text)) :=
  ⟨rfl, rfl, rfl, rfl, rfl⟩

/-- In a text without line breaks the dollar sign stands for the end. -/
theorem follow_dollar (hbreak : '\n' ∉ whole) (cx : Context) :
    Follow whole (fun s => attempt (seqOf [.anchor .lastLineEnd]) cx s done) atEnd := by
  intro s t h
  have hlast : s.place.after ≠ ['\n'] := by
    intro heq
    have htext := h.place_text
    rw [Place.text, heq] at htext
    exact hbreak (htext ▸ by simp)
  have hholds : Anchor.lastLineEnd.holds s.place = t.place.after.isEmpty := by
    rw [h.place] at hlast ⊢
    simp [Anchor.holds, hlast]
  simp only [seqOf, attempt, hholds, atEnd]
  split
  · exact h.setOut
  · exact h

theorem begins_dollar {text : List Char} (hbreak : '\n' ∉ text) (ps : List Pattern) :
    Begins (ps ++ [.anchor .lastLineEnd]) text ↔ Fills ps text := by
  rw [Begins, attempt_seqOf_append]
  exact attempt_isHit_congr (follow_dollar hbreak _) (alike_start text)

/-! ## Branches -/

/-- A test, an anchor or a reference back goes on at one place at most, whatever comes after. -/
theorem attempt_item (hp : p.IsItem) (h : s.Alike whole s) :
    (∀ cx k, attempt p cx s k = .miss s) ∨
      ∃ q : Place, q.text = whole ∧ ∀ cx k, attempt p cx s k = k (s.moveTo q) := by
  cases p with
  | one u =>
      simp only [attempt]
      cases hstep : step? u s.place with
      | none => exact .inl fun _ _ => rfl
      | some q => exact .inr ⟨q, (step?_text hstep).trans h.place_text, fun _ _ => rfl⟩
  | anchor a =>
      simp only [attempt]
      by_cases ha : a.holds s.place
      · exact .inr ⟨s.place, h.place_text, fun _ _ => if_pos ha⟩
      · exact .inl fun _ _ => if_neg ha
  | backref g fold =>
      simp only [attempt]
      cases hover : (s.group? g).bind fun cs => stepOver? fold cs s.place with
      | none => exact .inl fun _ _ => rfl
      | some q =>
          obtain ⟨cs, -, hcs⟩ := Option.bind_eq_some_iff.mp hover
          exact .inr ⟨q, (stepOver?_text hcs).trans h.place_text, fun _ _ => rfl⟩
  | _ => exact hp.elim

theorem attempt_items (hitems : ∀ p ∈ ps, p.IsItem) (h : s.Alike whole s) :
    (∀ cx k, ¬ (attempt (seqOf ps) cx s k).IsHit) ∨
      ∃ t : State, t.marks = s.marks ∧ t.Alike whole t ∧
        ∀ cx k, attempt (seqOf ps) cx s k = k t := by
  induction ps generalizing s with
  | nil => exact .inr ⟨s, rfl, h, fun _ _ => rfl⟩
  | cons p ps ih =>
      obtain ⟨hp, hps⟩ := List.forall_mem_cons.mp hitems
      rcases attempt_item hp h with hmiss | ⟨q, hq, hgo⟩
      · left
        intro cx k
        rw [attempt_seqOf_cons, hmiss]
        exact Outcome.not_isHit_miss s
      · rcases ih hps (h.moveTo hq) with hfail | ⟨t, hmarks, ht, htail⟩
        · left
          intro cx k
          rw [attempt_seqOf_cons, hgo]
          exact hfail cx k
        · right
          refine ⟨t, hmarks, ht, fun cx k => ?_⟩
          rw [attempt_seqOf_cons, hgo]
          exact htail cx k

/-- Where no group is noted, branches succeed if one of them does. -/
theorem attempt_altOf_isHit (hcx : cx.next = .other) (hloop : cx.inLoop = false)
    (hk : Follow whole k k) (hs : s.marks = []) (h : s.Alike whole s) :
    (attempt (altOf ps) cx s k).IsHit ↔ ∃ p ∈ ps, (attempt p cx s k).IsHit := by
  have hapart : cx.apart = cx := by
    obtain ⟨size, inLoop, next⟩ := cx
    obtain rfl : next = .other := hcx
    rfl
  induction ps generalizing s with
  | nil => simp [altOf, attempt]
  | cons p ps ih =>
      have hcons : altOf (p :: ps) = .alt p (altOf ps) := rfl
      rw [hcons, attempt, List.exists_mem_cons_iff]
      split
      · rename_i hrefuses
        exact (ih hs h).trans (or_iff_right (not_isHit_of_refuses hrefuses)).symm
      · -- A branch is tried from a state that differs from the given one in the cursor alone.
        have hset : s.setOut.Alike whole s :=
          ⟨rfl, rfl, h.place_text, h.place_text, h.cursor_text⟩
        have hp : (attempt p cx s.setOut k).IsHit ↔ (attempt p cx s k).IsHit :=
          attempt_isHit_congr hk hset
        have hkept := keeps_attempt whole p cx k k s.setOut s.setOut hk h.setOut
        rw [hapart]
        cases hout : attempt p cx s.setOut k with
        | hit r =>
            rw [hout] at hp
            simp [hp.mp (Outcome.isHit_hit r)]
        | miss m =>
            rw [hout] at hp hkept
            have hnot : ¬ (attempt p cx s k).IsHit := fun hhit =>
              Outcome.not_isHit_miss m (hp.mpr hhit)
            have hback : (s.backFrom m cx.inLoop).marks = [] := by
              simp [State.backFrom, hloop, hs]
            have halike : (s.backFrom m cx.inLoop).Alike whole (s.backFrom m cx.inLoop) :=
              h.backFrom hkept _
            have hsame : (s.backFrom m cx.inLoop).Alike whole s :=
              ⟨rfl, hback.trans hs.symm, h.place_text, halike.cursor_text, h.cursor_text⟩
            rw [or_iff_right hnot]
            refine (ih hback halike).trans ?_
            exact exists_congr fun q => and_congr_right fun _ => attempt_isHit_congr hk hsame

/-! ## Branches between anchors -/

theorem endLast_concat (front : List (List Pattern)) (last : List Pattern) :
    endLast (front ++ [last]) = front ++ [last ++ [.anchor .lastLineEnd]] := by
  induction front with
  | nil => rfl
  | cons b front ih =>
      obtain ⟨c, rest, hrest⟩ := List.exists_cons_of_ne_nil
        (List.append_ne_nil_of_right_ne_nil front (List.cons_ne_nil last []))
      rw [List.cons_append, hrest, endLast, ← hrest, ih, List.cons_append]
      exact List.cons_ne_nil c rest

theorem setItems?_ne_none {left : List (List Pattern)} {sets : List (List SetItem)}
    (h : left.mapM setItems? = some sets) : ∀ l ∈ left, setItems? l ≠ none := by
  induction left generalizing sets with
  | nil => simp
  | cons l left ih =>
      rw [List.mapM_cons] at h
      obtain ⟨items, hitems, h⟩ := Option.bind_eq_some_iff.mp h
      obtain ⟨rest, hrest, -⟩ := Option.bind_eq_some_iff.mp h
      exact List.forall_mem_cons.mpr ⟨by simp [hitems], ih hrest⟩

/-- What ends with an anchor, or is nothing, is no set. -/
theorem setItems?_eq_none {shared l : List Pattern} {a : Anchor}
    (h : (shared ++ l).getLast? = some (.anchor a)) : setItems? l = none := by
  unfold setItems?
  split
  · rename_i t
    rw [List.getLast?_append] at h
    cases h
  · rfl

/-- Branches the last of which ends with an anchor succeed if one of them does. -/
theorem begins_branches {front : List (List Pattern)} {last : List Pattern} {a : Anchor}
    (hne : front ≠ []) (hlast : last.getLast? = some (.anchor a))
    (hfine : ∀ b ∈ front ++ [last], ∀ p ∈ b, Fine p) (text : List Char) :
    Begins (branches .unicode (front ++ [last])) text ↔ ∃ b ∈ front ++ [last], Begins b text := by
  obtain ⟨first, front, rfl⟩ := List.exists_cons_of_ne_nil hne
  have hothers : front ++ [last] ≠ [] := by simp
  obtain ⟨hfirst, hrest⟩ := List.forall_mem_cons.mp hfine
  obtain ⟨hitems, heq⟩ := commonPrefix_spec hothers hfirst hrest
  obtain ⟨⟨shared, left⟩, hcommon⟩ : ∃ x, commonPrefix first (front ++ [last]) = x := ⟨_, rfl⟩
  rw [hcommon] at hitems heq
  -- The last branch makes no set, so the branches do not become one test.
  have hnone : left.mapM setItems? = none := by
    cases hsets : left.mapM setItems? with
    | none => rfl
    | some sets =>
        have hmem : last ∈ first :: (front ++ [last]) := by simp
        rw [heq] at hmem
        obtain ⟨l, hl, rfl⟩ := List.mem_map.mp hmem
        exact absurd (setItems?_eq_none hlast) (setItems?_ne_none hsets l hl)
  have hbranches : branches .unicode (first :: front ++ [last]) =
      shared ++ [altOf (left.map seqOf)] := by
    rw [List.cons_append, branches]
    · rw [hcommon]
      simp only [hnone]
    · exact hothers
  rw [hbranches, List.cons_append, heq]
  have hpart (l : List Pattern) : Begins (shared ++ l) text ↔
      (attempt (seqOf shared) { size := text.length, next := (seqOf l).lead.orElse .other }
        (.start (.start text)) fun s =>
          attempt (seqOf l) { size := text.length } s done).IsHit := by
    rw [Begins, attempt_seqOf_append]
  simp only [List.mem_map, exists_exists_and_eq_and, hpart]
  rcases attempt_items hitems (alike_start text) with hfail | ⟨t, hmarks, ht, hgo⟩
  · simp only [hfail, and_false, exists_false]
  · simp only [hgo]
    have halt := @attempt_altOf_isHit (left.map seqOf) { size := text.length } t done text rfl rfl
      (follow_done text) hmarks ht
    simp only [List.mem_map, exists_exists_and_eq_and] at halt
    exact halt

/-- Between anchors the first branch begins at the start as all do, and the last one ends at the
end, which the others need not. -/
theorem begins_anchored {front : List (List Pattern)} {last : List Pattern} {text : List Char}
    (hbreak : '\n' ∉ text) (hfine : ∀ b ∈ front ++ [last], ∀ p ∈ b, Fine p) :
    Begins (branches .unicode (anchored (front ++ [last]))) text ↔
      (∃ b ∈ front, Begins b text) ∨ Fills last text := by
  cases front with
  | nil =>
      have hone : branches .unicode (anchored [last]) =
          .anchor .textStart :: (last ++ [.anchor .lastLineEnd]) := rfl
      rw [List.nil_append, hone, begins_caret, begins_dollar hbreak]
      simp
  | cons b front =>
      have hall : anchored (b :: front ++ [last]) =
          (.anchor .textStart :: b) :: front ++ [last ++ [.anchor .lastLineEnd]] :=
        endLast_concat ((.anchor .textStart :: b) :: front) last
      have hends : (last ++ [Pattern.anchor .lastLineEnd]).getLast? =
          some (Pattern.anchor .lastLineEnd) := List.getLast?_concat
      rw [hall, begins_branches (List.cons_ne_nil _ _) hends (hall ▸ fine_anchored hfine)]
      simp only [List.cons_append, List.mem_cons, List.mem_append, List.not_mem_nil, or_false,
        or_assoc, exists_eq_or_imp, begins_caret]
      simp only [or_and_right, exists_or, exists_eq_left, begins_dollar hbreak]

/-! ## Width -/

theorem width_seqOf_cons {groups : Nat → Nat × Nat} (hgroups : ∀ g, (groups g).1 < unbounded)
    (hp : Fine p) :
    ((seqOf (p :: ps)).width groups).1 =
      min ((p.width groups).1 + ((seqOf ps).width groups).1) (unbounded - 1) := by
  cases ps with
  | nil =>
      have hlt := hp.width groups hgroups
      have hnil : ((seqOf []).width groups).1 = 0 := rfl
      rw [hnil, Nat.add_zero, Nat.min_eq_left (by omega)]
      rfl
  | cons q ps => rfl

/-- Anchors take no characters. -/
theorem width_anchors {groups : Nat → Nat × Nat} (hgroups : ∀ g, (groups g).1 < unbounded)
    (hfine : ∀ p ∈ ps, Fine p) (a b : Anchor) :
    ((seqOf (.anchor a :: (ps ++ [.anchor b]))).width groups).1 = ((seqOf ps).width groups).1 := by
  have hend : ((seqOf (ps ++ [.anchor b])).width groups).1 = ((seqOf ps).width groups).1 := by
    induction ps with
    | nil => rfl
    | cons p ps ih =>
        obtain ⟨hp, hps⟩ := List.forall_mem_cons.mp hfine
        rw [List.cons_append, width_seqOf_cons hgroups hp, width_seqOf_cons hgroups hp, ih hps]
  have hlt := (Fine.seqOf hfine).width groups hgroups
  have hzero : ((Pattern.anchor a).width groups).1 = 0 := rfl
  rw [width_seqOf_cons hgroups (Fine.anchor a), hend, hzero, Nat.zero_add,
    Nat.min_eq_left (by omega)]

end Shellbox.Pattern

namespace Shellbox.Regex

open Pattern

/-- The pattern matches the whole of a text; a text that is too short is not tried. -/
def matchesWhole (r : Regex) (text : String) : Bool :=
  let cs := text.toList
  r.shortest ≤ cs.length &&
    match attempt r.pattern { size := cs.length } (.start (.start cs)) atEnd with
    | .hit _ => true
    | .miss _ => false

theorem matchesWhole_seqOf (ps : List Pattern) (shortest : Nat) (text : String) :
    matchesWhole ⟨seqOf ps, shortest⟩ text ↔
      shortest ≤ text.toList.length ∧ Fills ps text.toList := by
  unfold matchesWhole Fills
  rw [Bool.and_eq_true, decide_eq_true_eq]
  refine and_congr_right fun _ => ?_
  split <;> simp [*]

end Shellbox.Regex

namespace Shellbox.Glob

open Pattern

theorem question_not_mem_body (glob : String) : '?' ∉ (body glob).toList := by
  intro hmem
  rw [body, String.toList_ofList] at hmem
  obtain ⟨c, -, hc⟩ := List.mem_flatMap.mp hmem
  unfold charRegex at hc
  split at hc
  · simp at hc
  · simp at hc
  · simp at hc
  · rename_i hquestion
    exact hquestion (List.mem_singleton.mp hc).symm

/-- A glob whose translation is a pattern of its own accepts a name without line breaks just if a
branch of it but the last matches a beginning of the name, or the last one matches the whole. So if
there is no other branch, the translation matches the whole of every such name that is accepted. -/
theorem accepts_anchored_iff {glob : String} {whole : Regex}
    (hwhole : Pattern.compile (body glob) true = .ok whole) :
    ∃ r front last, compile glob = .ok r ∧ branchesOf (body glob) = .ok (front ++ [last]) ∧
      ∀ name : String, '\n' ∉ name.toList →
        (accepts r name ↔ r.shortest ≤ name.toList.length ∧
          ((∃ b ∈ front, Begins b name.toList) ∨ Fills last name.toList)) ∧
        (front = [] → (accepts r name ↔ whole.matchesWhole name)) := by
  obtain ⟨bs, groups, hbs, hne, hfine, hgroups, rfl, hcompile⟩ :=
    compile_anchored (question_not_mem_body glob) hwhole
  obtain ⟨front, last, rfl⟩ : ∃ front last, bs = front ++ [last] := by
    obtain ⟨front, last, heq⟩ := (List.eq_nil_or_concat bs).resolve_left hne
    exact ⟨front, last, heq.trans List.concat_eq_append⟩
  refine ⟨_, front, last, hcompile, hbs, fun name hbreak => ?_⟩
  have haccepts : accepts ⟨seqOf (branches .unicode (anchored (front ++ [last]))),
      ((seqOf (branches .unicode (anchored (front ++ [last])))).width groups).1⟩ name ↔
        ((seqOf (branches .unicode (anchored (front ++ [last])))).width groups).1 ≤
          name.toList.length ∧ ((∃ b ∈ front, Begins b name.toList) ∨ Fills last name.toList) := by
    rw [accepts, matchesStart_seqOf, begins_anchored hbreak hfine]
  refine ⟨haccepts, ?_⟩
  rintro rfl
  have hlast : ∀ p ∈ last, Fine p := hfine last (by simp)
  have hwidth := width_anchors hgroups hlast .textStart .lastLineEnd
  have hone : branches .unicode (anchored ([] ++ [last])) =
      .anchor .textStart :: (last ++ [.anchor .lastLineEnd]) := rfl
  rw [haccepts, Regex.matchesWhole_seqOf, hone, hwidth]
  simp [branches]

theorem accepts_anchored_group :
    ∃ r whole, compile "(a|b)*" = .ok r ∧ Pattern.compile (body "(a|b)*") true = .ok whole ∧
      ∀ name : String, '\n' ∉ name.toList → (accepts r name ↔ whole.matchesWhole name) := by
  obtain ⟨whole, hwhole⟩ : ∃ whole, Pattern.compile (body "(a|b)*") true = .ok whole := ⟨_, rfl⟩
  obtain ⟨b, hb⟩ : ∃ b, branchesOf (body "(a|b)*") = .ok [b] := ⟨_, rfl⟩
  obtain ⟨r, front, last, hcompile, hbranches, hiff⟩ := accepts_anchored_iff hwhole
  -- The bar stands in a group, so there is no other branch than the last.
  have hfront : front = [] := by
    have heq : front ++ [last] = [] ++ [b] := Except.ok.inj (hbranches.symm.trans hb)
    exact (List.append_inj' heq rfl).1
  exact ⟨r, whole, hcompile, hwhole, fun name hbreak => (hiff name hbreak).2 hfront⟩

/-- The first of two branches is not held at the end of the name. -/
theorem accepts_beginning_of_branch :
    ∃ r whole, compile "a|b" = .ok r ∧ Pattern.compile (body "a|b") true = .ok whole ∧
      accepts r "ax" ∧ ¬ whole.matchesWhole "ax" :=
  ⟨_, _, rfl, rfl, rfl, Bool.false_ne_true⟩

end Shellbox.Glob
