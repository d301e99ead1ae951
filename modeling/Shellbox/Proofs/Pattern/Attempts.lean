import Mathlib.Data.List.Basic
import Shellbox.Pattern.Matcher

/-!
# Where attempts succeed

A sequence is tried item by item, each with the rest as what comes after it. What a pattern is known
to begin with is told rightly: where the next character refuses it, the pattern fails. So a greedy
repetition of a test, which passes over such places, succeeds just where some number of characters
that pass leaves a text on which what comes after succeeds.
-/

namespace Shellbox.Pattern

variable {p : Pattern} {ps qs : List Pattern} {t : CharTest} {cx : Context} {s : State}
  {k : State → Outcome} {l next : Lead} {c : Option Char} {P : List Char → Prop}

def Outcome.IsHit (o : Outcome) : Prop := ∃ r, o = .hit r

@[simp] theorem Outcome.isHit_hit (r : State) : (Outcome.hit r).IsHit := ⟨r, rfl⟩

@[simp] theorem Outcome.not_isHit_miss (m : State) : ¬ (Outcome.miss m).IsHit := nofun

theorem matchesAt_iff {size : Nat} {at_ : Place} :
    p.matchesAt size at_ ↔ (attempt p { size } (.start at_) done).IsHit := by
  unfold matchesAt
  split <;> simp [*]

/-! ## Sequences -/

theorem attempt_seqOf_cons (p : Pattern) (ps : List Pattern) (cx : Context) (s : State)
    (k : State → Outcome) :
    attempt (seqOf (p :: ps)) cx s k =
      attempt p { cx with next := (seqOf ps).lead.orElse cx.next } s fun s' =>
        attempt (seqOf ps) cx s' k := by
  cases ps <;> rfl

theorem Lead.orElse_assoc (l l' next : Lead) :
    (l.orElse l').orElse next = l.orElse (l'.orElse next) := by
  cases l <;> rfl

theorem lead_seqOf_cons (p : Pattern) (ps : List Pattern) :
    (seqOf (p :: ps)).lead = p.lead.orElse (seqOf ps).lead := by
  cases ps with
  | nil => cases hp : p.lead <;> simp [seqOf, lead, Lead.orElse, hp]
  | cons q ps => cases hp : p.lead <;> simp [seqOf, lead, Lead.orElse, hp]

theorem lead_seqOf_append (ps qs : List Pattern) :
    (seqOf (ps ++ qs)).lead = (seqOf ps).lead.orElse (seqOf qs).lead := by
  induction ps with
  | nil => rfl
  | cons p ps ih =>
      rw [List.cons_append, lead_seqOf_cons, lead_seqOf_cons, ih, Lead.orElse_assoc]

/-- The items behind others are what comes after these. -/
theorem attempt_seqOf_append (ps qs : List Pattern) (cx : Context) (s : State)
    (k : State → Outcome) :
    attempt (seqOf (ps ++ qs)) cx s k =
      attempt (seqOf ps) { cx with next := (seqOf qs).lead.orElse cx.next } s fun s' =>
        attempt (seqOf qs) cx s' k := by
  induction ps generalizing s with
  | nil => rfl
  | cons p ps ih =>
      rw [List.cons_append, attempt_seqOf_cons, attempt_seqOf_cons, lead_seqOf_append,
        Lead.orElse_assoc]
      exact congrArg _ (funext ih)

/-! ## Matching a text from its start -/

/-- The items in turn match a beginning of a text. -/
def Begins (ps : List Pattern) (text : List Char) : Prop :=
  (attempt (seqOf ps) { size := text.length } (.start (.start text)) done).IsHit

theorem begins_caret (ps : List Pattern) (text : List Char) :
    Begins (.anchor .textStart :: ps) text ↔ Begins ps text := by
  rw [Begins, attempt_seqOf_cons]
  exact Iff.rfl

theorem matchesStart_seqOf (ps : List Pattern) (shortest : Nat) (text : String) :
    Regex.matchesStart ⟨seqOf ps, shortest⟩ text ↔
      shortest ≤ text.toList.length ∧ Begins ps text.toList := by
  unfold Regex.matchesStart Begins
  rw [Bool.and_eq_true, decide_eq_true_eq, matchesAt_iff]

/-! ## Beginnings -/

theorem attempt_of_lead_nothing (h : p.lead = .nothing) : attempt p cx s k = k s := by
  induction p generalizing cx s k with
  | empty => rfl
  | one t =>
      simp only [lead] at h
      split at h <;> cases h
  | seq p q ihp ihq =>
      simp only [lead] at h
      split at h
      · rename_i hp
        rw [attempt, ihp hp, ihq h]
      · rename_i hp
        exact absurd h hp
  | switched p ih => exact ih h
  | _ => cases h

theorem step?_eq_none (h : c = s.place.after.head?) (hc : (!c.any t.passes) = true) :
    step? t s.place = none := by
  cases hafter : s.place.after with
  | nil => simp [step?, Place.next?, hafter]
  | cons d r => simp_all [step?, Place.next?]

/-- A pattern fails where the next character is not what it begins with. -/
theorem not_isHit_of_refuses (h : p.lead.refuses s.place.after.head? = true) :
    ¬ (attempt p cx s k).IsHit := by
  induction p generalizing cx s k with
  | one t =>
      simp only [lead] at h
      split at h
      · rw [attempt, step?_eq_none rfl h]
        simp
      · cases h
  | seq p q ihp ihq =>
      simp only [lead] at h
      split at h
      · rename_i hp
        rw [attempt, attempt_of_lead_nothing hp]
        exact ihq h
      · exact ihp h
  | switched p ih => exact ih h
  | _ => cases h

theorem not_isHit_of_orElse_refuses
    (h : (p.lead.orElse .other).refuses s.place.after.head? = true) :
    ¬ (attempt p cx s k).IsHit := by
  cases hp : p.lead with
  | nothing =>
      rw [hp] at h
      cases h
  | test t =>
      refine not_isHit_of_refuses ?_
      rwa [hp] at h ⊢
  | other =>
      rw [hp] at h
      cases h

/-! ## Tests and repetitions of tests -/

theorem attempt_one_isHit (hk : ∀ s, (k s).IsHit ↔ P s.place.after) :
    (attempt (.one t) cx s k).IsHit ↔
      ∃ c rest, s.place.after = c :: rest ∧ t.passes c ∧ P rest := by
  cases hafter : s.place.after with
  | nil => simp [attempt, step?, Place.next?, hafter]
  | cons c rest =>
      by_cases hc : t.passes c
      · simp [attempt, step?, Place.next?, hafter, hc, hk, State.moveTo]
      · simp [attempt, step?, Place.next?, hafter, hc]

theorem tryPlaces_isHit {contents : Bool} (hk : ∀ s, (k s).IsHit ↔ P s.place.after)
    (places : List Place) (s : State) :
    (tryPlaces contents k s places).IsHit ↔ ∃ q ∈ places, P q.after := by
  induction places generalizing s with
  | nil => simp [tryPlaces]
  | cons q places ih =>
      have hq : (k (s.moveTo q).setOut).IsHit ↔ P q.after := hk _
      rw [tryPlaces]
      cases hout : k (s.moveTo q).setOut with
      | hit r => simp_all
      | miss m => simp_all

/-- Behind some characters that all pass a test, the rest of the text has a property. -/
def PassesTo (t : CharTest) (P : List Char → Prop) (cs : List Char) : Prop :=
  ∃ taken rest, cs = taken ++ rest ∧ (∀ c ∈ taken, t.passes c) ∧ P rest

@[simp] theorem passesTo_nil : PassesTo t P [] ↔ P [] := by
  simp [PassesTo]

@[simp] theorem passesTo_cons {c : Char} {cs : List Char} :
    PassesTo t P (c :: cs) ↔ P (c :: cs) ∨ t.passes c ∧ PassesTo t P cs := by
  constructor
  · rintro ⟨taken, rest, heq, htaken, hP⟩
    cases taken with
    | nil => exact .inl (heq ▸ hP)
    | cons d taken =>
        obtain ⟨rfl, rfl⟩ := List.cons.inj heq
        exact .inr ⟨htaken c (by simp), taken, rest, rfl, fun e he => htaken e (by simp [he]), hP⟩
  · rintro (hP | ⟨hc, taken, rest, rfl, htaken, hP⟩)
    · exact ⟨[], c :: cs, rfl, by simp, hP⟩
    · exact ⟨c :: taken, rest, rfl, by simpa [hc] using htaken, hP⟩

theorem runPlaces_cons (t : CharTest) (acc : List Place) (q : Place) (c : Char) (cs : List Char) :
    runPlaces t none acc q (c :: cs) =
      if t.passes c then runPlaces t none (q :: acc) ⟨c :: q.before, cs, q.index + 1⟩ cs
      else q :: acc := by
  rw [runPlaces]
  · rfl
  · nofun

/-- The places that a repetition reaches lie behind characters that pass its test. -/
theorem exists_runPlaces {acc : List Place} {q : Place} {cs : List Char} (hq : q.after = cs) :
    (∃ x ∈ runPlaces t none acc q cs, P x.after) ↔ (∃ x ∈ acc, P x.after) ∨ PassesTo t P cs := by
  induction cs generalizing acc q with
  | nil =>
      rw [runPlaces, passesTo_nil, List.exists_mem_cons_iff, hq, or_comm]
  | cons c cs ih =>
      rw [runPlaces_cons]
      by_cases hc : t.passes c
      · rw [if_pos hc, ih rfl, List.exists_mem_cons_iff, hq, passesTo_cons, or_assoc, or_left_comm]
        simp only [hc, true_and]
      · rw [if_neg hc, List.exists_mem_cons_iff, hq, passesTo_cons, or_comm]
        simp only [hc, Bool.false_eq_true, false_and, or_false]

/-- Any number of characters that pass a test, where it is known at which of them what comes after
may begin. -/
theorem attempt_run_isHit (hk : ∀ s, (k s).IsHit ↔ P s.place.after)
    (hnext : ∀ s : State, cx.next.refuses s.place.after.head? = true → ¬ (k s).IsHit) :
    (attempt (.run t 0 none .greedy) cx s k).IsHit ↔ PassesTo t P s.place.after := by
  have hreached := @exists_runPlaces t P [] s.place s.place.after rfl
  have hleft : s.place.hasLeft 0 := rfl
  simp only [List.not_mem_nil, false_and, exists_false, false_or] at hreached
  simp only [attempt, runSteps, hleft, Nat.sub_zero, List.take_length, Bool.not_true,
    Bool.false_eq_true, ↓reduceIte, tryPlaces_isHit hk]
  refine Iff.trans ?_ hreached
  split
  · -- A place that is left out is one where what comes after fails.
    constructor
    · rintro ⟨q, hq, hP⟩
      exact ⟨q, (List.mem_filter.mp hq).1, hP⟩
    · rintro ⟨q, hq, hP⟩
      refine ⟨q, List.mem_filter.mpr ⟨hq, ?_⟩, hP⟩
      rw [Bool.not_eq_true', Bool.eq_false_iff]
      exact fun hrefuses => hnext (s.moveTo q) hrefuses ((hk _).mpr hP)
  · exact Iff.rfl

end Shellbox.Pattern
