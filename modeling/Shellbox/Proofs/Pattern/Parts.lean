import Mathlib.Data.List.Basic
import Shellbox.Pattern.Compile

/-!
# What a text without question marks is made of

Parts that are read where letter case does not count and no group is more than a group have no
defect, refer back without regard to case, and take a number of characters that is told apart. What
sequences and branches of such parts have in common at their beginning is the very same.
-/

namespace Shellbox.Pattern

variable {p q : Pattern} {ps : List Pattern} {bs : List (List Pattern)}

/-- A part without defects and of bounded width; as a reference back it disregards letter case. -/
structure Fine (p : Pattern) : Prop where
  defect : ∀ groups, p.defect? false groups = none
  fold : ∀ g fold, p = .backref g fold → fold = .unicode
  width : ∀ groups, (∀ g, (groups g).1 < unbounded) → (p.width groups).1 < unbounded

theorem clampWidth_lt (a b : Nat) : (clampWidth a b).1 < unbounded :=
  Nat.lt_of_le_of_lt (Nat.min_le_right _ _) (by decide)

namespace Fine

theorem one (t : CharTest) : Fine (.one t) :=
  ⟨fun _ => rfl, nofun, fun _ _ => (by decide : 1 < unbounded)⟩

theorem anchor (a : Anchor) : Fine (.anchor a) :=
  ⟨fun _ => rfl, nofun, fun _ _ => (by decide : 0 < unbounded)⟩

theorem backref (g : Nat) : Fine (.backref g .unicode) :=
  ⟨fun _ => rfl, fun _ _ heq => by cases heq; rfl, fun _ h => h g⟩

theorem seq (hp : Fine p) (hq : Fine q) : Fine (.seq p q) := by
  refine ⟨fun groups => ?_, nofun, fun groups _ => clampWidth_lt _ _⟩
  rw [defect?, hp.defect, hq.defect]
  rfl

theorem alt (hp : Fine p) (hq : Fine q) : Fine (.alt p q) := by
  refine ⟨fun groups => ?_, nofun, fun groups _ => clampWidth_lt _ _⟩
  rw [defect?, hp.defect, hq.defect]
  rfl

theorem run (t : CharTest) (least : Nat) (most : Option Nat) (greed : Greed) :
    Fine (.run t least most greed) :=
  ⟨fun _ => rfl, nofun, fun _ _ => clampWidth_lt _ _⟩

theorem never : Fine .never :=
  ⟨fun _ => rfl, nofun, fun _ _ => (by decide : unbounded - 1 < unbounded)⟩

theorem seqOf (h : ∀ p ∈ ps, Fine p) : Fine (seqOf ps) := by
  induction ps with
  | nil => exact ⟨fun _ => rfl, nofun, fun _ _ => (by decide : 0 < unbounded)⟩
  | cons p ps ih =>
      obtain ⟨hp, hps⟩ := List.forall_mem_cons.mp h
      cases ps with
      | nil => exact hp
      | cons q ps => exact hp.seq (ih hps)

theorem altOf (h : ∀ p ∈ ps, Fine p) : Fine (altOf ps) := by
  induction ps with
  | nil => exact never
  | cons p ps ih =>
      obtain ⟨hp, hps⟩ := List.forall_mem_cons.mp h
      exact hp.alt (ih hps)

theorem capture (h : Fine p) (g : Nat) : Fine (.capture g p) :=
  ⟨h.defect, nofun, h.width⟩

theorem repeated (h : Fine p) (least : Nat) (most : Option Nat) (greed : Greed) :
    Fine (p.repeated least most greed) := by
  unfold Pattern.repeated
  split
  · exact .run _ _ _ _
  · exact ⟨h.defect, nofun, fun _ _ => clampWidth_lt _ _⟩

end Fine

/-! ## Same beginnings -/

/-- A test, an anchor or a reference back. -/
def IsItem : Pattern → Prop
  | .one _ => True
  | .anchor _ => True
  | .backref .. => True
  | _ => False

theorem eq_of_sameItem (hp : Fine p) (hq : Fine q) (h : p.sameItem q) : p = q ∧ p.IsItem := by
  cases p with
  | one t => cases q <;> simp_all [sameItem, IsItem]
  | anchor a => cases q <;> simp_all [sameItem, IsItem]
  | backref g fold =>
      cases q with
      | backref g' fold' =>
          rw [hp.fold g fold rfl, hq.fold g' fold' rfl]
          simp_all [sameItem, IsItem]
      | _ => simp [sameItem] at h
  | _ => simp [sameItem] at h

/-- What fine branches have in common stands in front of what is left of each. -/
theorem commonPrefix_spec {first : List Pattern} {others : List (List Pattern)} (hne : others ≠ [])
    (hfirst : ∀ p ∈ first, Fine p) (hothers : ∀ b ∈ others, ∀ p ∈ b, Fine p) :
    (∀ p ∈ (commonPrefix first others).1, p.IsItem) ∧
      first :: others = (commonPrefix first others).2.map ((commonPrefix first others).1 ++ ·) := by
  induction first generalizing others with
  | nil => simp [commonPrefix]
  | cons p r ih =>
      obtain ⟨hp, hr⟩ := List.forall_mem_cons.mp hfirst
      unfold commonPrefix
      split
      · rename_i hall
        have hbegin : ∀ b ∈ others, b = p :: b.drop 1 ∧ p.IsItem := by
          intro b hb
          have hbegins := List.all_eq_true.mp hall b hb
          cases b with
          | nil => cases hbegins
          | cons q b =>
              obtain ⟨rfl, hitem⟩ := eq_of_sameItem hp (hothers _ hb q (by simp)) hbegins
              exact ⟨rfl, hitem⟩
        have htails : ∀ b ∈ others.map (·.drop 1), ∀ q ∈ b, Fine q := by
          intro b hb q hq
          obtain ⟨b', hb', rfl⟩ := List.mem_map.mp hb
          exact hothers b' hb' q (List.mem_of_mem_drop hq)
        obtain ⟨hitems, heq⟩ := ih (by simpa using hne) hr htails
        obtain ⟨b, hb⟩ := List.exists_mem_of_ne_nil others hne
        refine ⟨List.forall_mem_cons.mpr ⟨(hbegin b hb).2, hitems⟩, ?_⟩
        have hothers' : others = (others.map (·.drop 1)).map (p :: ·) := by
          rw [List.map_map]
          exact (List.map_id'' (fun _ => rfl) others).symm.trans
            (List.map_congr_left fun b hb => (hbegin b hb).1)
        calc (p :: r) :: others = (r :: others.map (·.drop 1)).map (p :: ·) := by
              rw [List.map_cons, ← hothers']
          _ = _ := by rw [heq, List.map_map]; rfl
      · simp

/-- What is left of a branch is the end of it. -/
theorem mem_commonPrefix {first l : List Pattern} {others : List (List Pattern)} (hne : others ≠ [])
    (hfirst : ∀ p ∈ first, Fine p) (hothers : ∀ b ∈ others, ∀ p ∈ b, Fine p)
    (hl : l ∈ (commonPrefix first others).2) :
    (commonPrefix first others).1 ++ l ∈ first :: others := by
  rw [(commonPrefix_spec hne hfirst hothers).2]
  exact List.mem_map_of_mem hl

/-- Branches of fine parts make fine parts. -/
theorem fine_branches (fold : Fold) (h : ∀ b ∈ bs, ∀ p ∈ b, Fine p) :
    ∀ p ∈ branches fold bs, Fine p := by
  unfold branches
  split
  · simp
  · rename_i items
    exact h items (by simp)
  · rename_i first others hne
    obtain ⟨hfirst, hothers⟩ := List.forall_mem_cons.mp h
    have hne : others ≠ [] := by
      rintro rfl
      exact hne rfl
    have hleft : ∀ l ∈ (commonPrefix first others).2, ∀ p ∈ l, Fine p := by
      intro l hl p hp
      exact h _ (mem_commonPrefix hne hfirst hothers hl) p (List.mem_append_right _ hp)
    have hshared : ∀ p ∈ (commonPrefix first others).1, Fine p := by
      have hmem : first ∈ first :: others := List.mem_cons_self
      rw [(commonPrefix_spec hne hfirst hothers).2] at hmem
      obtain ⟨l, -, heq⟩ := List.mem_map.mp hmem
      exact fun p hp => hfirst p (heq ▸ List.mem_append_left l hp)
    intro p hp
    rcases List.mem_append.mp hp with hp | hp
    · exact hshared p hp
    · split at hp
      · rw [List.mem_singleton.mp hp]
        exact .one _
      · rw [List.mem_singleton.mp hp]
        refine .altOf fun q hq => ?_
        obtain ⟨l, hl, rfl⟩ := List.mem_map.mp hq
        exact .seqOf (hleft l hl)

end Shellbox.Pattern
