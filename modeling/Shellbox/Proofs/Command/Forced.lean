import Shellbox.Proofs.Command.InTurn
import Shellbox.Proofs.Filesystem.Without

/-!
# Removing by force

Where `rm` succeeds, the tree is left without the set of its operands: every operand that was not
passed over was removed, and one that was passed over lies where nothing is. So with `-rf` neither
the order of the operands nor their repetition counts, and a second run passes over all of them.
-/

namespace Shellbox.Command

open Filesystem

variable {fs fs' : Filesystem} {now : Instant} {o : RemoveOptions} {p : String}
  {operands : List String} {s s' : Session} {left : Outcome}

/-! ## One operand -/

theorem removeOne_eq_ok (h : removeOne now o fs p = .ok fs') :
    fs.remove now (some p) o.recursive = .ok fs' ∨ fs.Missing (some p) ∧ fs' = fs := by
  have hremoved := remove_removed fs now (some p) o.recursive
  unfold removeOne at h
  generalize fs.remove now (some p) o.recursive = result at hremoved h ⊢
  cases hremoved with
  | done =>
      cases h
      exact .inl rfl
  | missing hmissing =>
      dsimp only at h
      split at h
      · cases h
        exact .inr ⟨hmissing, rfl⟩
      · cases h
  | root => simp at h
  | misplaced => simp at h
  | holding => simp at h

theorem removeOne_wellFormed (hfs : fs.WellFormed) (h : removeOne now o fs p = .ok fs') :
    fs'.WellFormed := by
  rcases removeOne_eq_ok h with hdone | ⟨-, rfl⟩
  · exact hfs.remove hdone
  · exact hfs

/-- An operand that is done with is gone from the tree, and missing from then on. -/
theorem removeOne_without (hfs : fs.WellFormed) (h : removeOne now o fs p = .ok fs') :
    fs' = fs.without now [fs.names (some p)] ∧ fs'.Missing (some p) := by
  rcases removeOne_eq_ok h with hdone | ⟨hmissing, rfl⟩
  · exact ⟨hfs.remove_eq_without hdone, missing_of_remove hdone⟩
  · exact ⟨(hfs.without_absent hmissing.1 now).symm, hmissing⟩

/-! ## All operands -/

/-- The places that operands name. -/
def placesOf (fs : Filesystem) (operands : List String) : List (List String) :=
  operands.map fun p => fs.names (some p)

/-- After all operands are done with, the set of their places is gone, and each of them missing. -/
theorem eachOperand_without (hfs : fs.WellFormed)
    (h : (eachOperand (removeOne now o) fs operands).2.success) :
    eachOperand (removeOne now o) fs operands = (fs.without now (placesOf fs operands), .nothing) ∧
      ∀ p ∈ operands, (fs.without now (placesOf fs operands)).Missing (some p) := by
  induction operands generalizing fs with
  | nil =>
      rw [placesOf, List.map_nil, hfs.without_nil]
      exact ⟨rfl, nofun⟩
  | cons p operands ih =>
      cases hp : removeOne now o fs p with
      | error m =>
          rw [eachOperand, hp] at h
          cases h
      | ok fs' =>
          rw [eachOperand, hp] at h ⊢
          obtain ⟨hrest, hothers⟩ := ih (removeOne_wellFormed hfs hp) h
          obtain ⟨rfl, hmissing⟩ := removeOne_without hfs hp
          have hboth : (fs.without now [fs.names (some p)]).without now
              (placesOf (fs.without now [fs.names (some p)]) operands) =
                fs.without now (placesOf fs (p :: operands)) := without_cons fs now _ _
          rw [hboth] at hrest hothers
          refine ⟨hrest, List.forall_mem_cons.mpr ⟨?_, hothers⟩⟩
          rw [← hboth]
          exact hmissing.without now _

theorem eachOperand_missing (hforce : o.force) (h : ∀ p ∈ operands, fs.Missing (some p)) :
    eachOperand (removeOne now o) fs operands = (fs, .nothing) := by
  induction operands with
  | nil => rfl
  | cons p operands ih =>
      obtain ⟨hp, hothers⟩ := List.forall_mem_cons.mp h
      rw [eachOperand, removeOne_missing hp hforce]
      exact ih hothers

/-! ## The command -/

theorem asked_forced (hplain : ∀ p ∈ operands, isDashed p = false)
    (hguard : isDangerous ("-rf" :: operands) = false) :
    (Task.rm ⟨true, true⟩).Asked "rm" ("-rf" :: operands) operands := by
  have hoptions : RemoveOptions.ofWords ("-rf" :: operands) = ⟨true, true⟩ := by
    have hshort : isShort "-rf" = true := by decide
    simp [RemoveOptions.ofWords, hshort]
  have hoperands : ("-rf" :: operands).filter (!isDashed ·) = operands := by
    rw [List.filter_cons_of_neg (by decide)]
    exact List.filter_eq_self.mpr fun p hp => by rw [hplain p hp]; rfl
  have hasked := Task.Asked.rm ("-rf" :: operands) hguard
  rwa [hoptions, hoperands] at hasked

theorem runWords_forced (now : Instant) (s : Session) (piped : Option String)
    (hplain : ∀ p ∈ operands, isDashed p = false)
    (hguard : isDangerous ("-rf" :: operands) = false) :
    runWords ⟨Catalog.standard, now⟩ s ("rm" :: "-rf" :: operands) piped =
      if operands.isEmpty then (s, .error "rm: missing operand")
      else withFs s (eachOperand (removeOne now ⟨true, true⟩) s.fs operands) :=
  (asked_forced hplain hguard).runWords_eq now s piped

section Forced

variable {piped : Option String} (hplain : ∀ p ∈ operands, isDashed p = false)
  (hguard : isDangerous ("-rf" :: operands) = false)

include hplain hguard

/-- What a success leaves: the tree without the places of the operands, each of them missing. -/
theorem forced_success (hfs : s.fs.WellFormed)
    (hrun : runWords ⟨Catalog.standard, now⟩ s ("rm" :: "-rf" :: operands) piped = (s', left))
    (ho : left.success) :
    s' = { s with fs := s.fs.without now (placesOf s.fs operands) } ∧ operands ≠ [] ∧
      ∀ p ∈ operands, s'.fs.Missing (some p) := by
  rw [runWords_forced now s piped hplain hguard] at hrun
  split at hrun
  · cases hrun
    cases ho
  · rename_i hne
    have hdone : (eachOperand (removeOne now ⟨true, true⟩) s.fs operands).2.success := by
      rw [withFs] at hrun
      rwa [(Prod.mk.inj hrun).2]
    obtain ⟨hleft, hmissing⟩ := eachOperand_without hfs hdone
    rw [withFs, hleft] at hrun
    cases hrun
    exact ⟨rfl, by simpa using hne, hmissing⟩

/-- A run whose operands are all missing changes nothing. -/
theorem forced_missing (hne : operands ≠ []) (hmissing : ∀ p ∈ operands, s.fs.Missing (some p)) :
    runWords ⟨Catalog.standard, now⟩ s ("rm" :: "-rf" :: operands) piped = (s, .nothing) := by
  rw [runWords_forced now s piped hplain hguard, if_neg (by simpa using hne),
    eachOperand_missing rfl hmissing]
  rfl

/-- If `rm -rf` succeeds, then nothing is at the paths of its operands and below them nor where
nothing was before, and every other path is as it was, but for times. The same command once more
succeeds and changes nothing at all. Other operands with the same members, in any order and number,
leave the same session if they succeed at the same time, and at another time the same tree but for
the times. -/
theorem forced_removal_of_set (h : s.fs.Reachable)
    (hrun : runWords ⟨Catalog.standard, now⟩ s ("rm" :: "-rf" :: operands) piped = (s', left))
    (ho : left.success) :
    (∃ root, s' = { s with fs := { s.fs with root } }) ∧
    (∀ q, s'.fs.node? q = none ↔ s.fs.node? q = none ∨
      ∃ p ∈ operands, Path.OnWay (s.fs.resolve (some p)) (s.fs.resolve q)) ∧
    (∀ q, (∀ p ∈ operands, ¬ Path.OnWay (s.fs.resolve (some p)) (s.fs.resolve q)) →
      SameAt s.fs s'.fs q) ∧
    (∀ later piped', runWords ⟨Catalog.standard, later⟩ s' ("rm" :: "-rf" :: operands) piped' =
      (s', .nothing)) ∧
    ∀ others : List String, (∀ p, p ∈ others ↔ p ∈ operands) →
      isDangerous ("-rf" :: others) = false → ∀ later piped' t left',
      runWords ⟨Catalog.standard, later⟩ s ("rm" :: "-rf" :: others) piped' = (t, left') →
      left'.success → (later = now → t = s') ∧ ∀ q, SameButTimes s'.fs t.fs q := by
  have hwf := h.wellFormed
  obtain ⟨rfl, hne, hmissing⟩ := forced_success hplain hguard hwf hrun ho
  have hroot : [] ∉ placesOf s.fs operands := by
    intro hnil
    obtain ⟨p, hp, hnames⟩ := List.mem_map.mp hnil
    have hafter : (s.fs.without now (placesOf s.fs operands)).names (some p) = [] := hnames
    exact not_missing_of_root hafter (hmissing p hp)
  refine ⟨⟨_, rfl⟩, fun q => ?_, fun q hkept => sameAt_kept ?_ now, fun later piped' => ?_,
    fun others hmem hguard' later piped' t left' hrun' ho' => ?_⟩
  · rw [node?_without_iff hroot now]
    simp only [placesOf, List.mem_map, exists_exists_and_eq_and, hwf.onWay_iff]
  · intro ns hns
    obtain ⟨p, hp, rfl⟩ := List.mem_map.mp hns
    rw [← hwf.onWay_iff]
    exact hkept p hp
  · exact forced_missing hplain hguard hne hmissing
  · have hplain' : ∀ p ∈ others, isDashed p = false := fun p hp => hplain p ((hmem p).mp hp)
    obtain ⟨rfl, -, -⟩ := forced_success hplain' hguard' hwf hrun' ho'
    have hplaces : ∀ ns, ns ∈ placesOf s.fs others ↔ ns ∈ placesOf s.fs operands := fun ns => by
      simp only [placesOf, List.mem_map, hmem]
    rw [without_congr hplaces]
    refine ⟨fun hlater => by rw [hlater], without_sameButTimes s.fs now later _⟩

end Forced

theorem forced_removal_of_set_overlapping :
    let fs := (((empty 0 "/h").startAt "/h").apply
      (.populate 1 [("~/a", some "y"), ("~/d/x", some "z"), ("~/d/e", none)])).apply
      (.changeDirectory none)
    let s : Session := ⟨{}, fs, .empty 10, [], []⟩
    let operands := ["d/x", "~/a/../d", "gone", "d/x"]
    let left := runWords ⟨Catalog.standard, 5⟩ s ("rm" :: "-rf" :: operands) none
    let back := runWords ⟨Catalog.standard, 5⟩ s ("rm" :: "-rf" :: operands.reverse) none
    s.fs.Reachable ∧ isDangerous ("-rf" :: operands) = false ∧ left.2.success ∧
    left.1.fs.node? (some "/h/d/e") = none ∧ SameAt s.fs left.1.fs (some "/h/a") ∧
    runWords ⟨Catalog.standard, 9⟩ left.1 ("rm" :: "-rf" :: operands) none = (left.1, .nothing) ∧
    back.1 = left.1 := by
  intro fs s operands left back
  have hnew : Reachable ((empty 0 "/h").startAt "/h") := @Reachable.create 0 "/h" [] none _ rfl
  have hs : s.fs.Reachable := by
    dsimp only [s]
    exact (hnew.change _).change _
  have hguard : isDangerous ("-rf" :: operands) = false := by decide +kernel
  have ho : left.2.success := by decide +kernel
  have hplain : ∀ p ∈ operands, isDashed p = false := by decide +kernel
  have hrun : runWords ⟨Catalog.standard, 5⟩ s ("rm" :: "-rf" :: operands) none =
      (left.1, left.2) := (Prod.eta left).symm
  obtain ⟨-, hgone, hkept, hagain, hothers⟩ := forced_removal_of_set hplain hguard hs hrun ho
  have hway : ∃ p ∈ operands,
      Path.OnWay (s.fs.resolve (some p)) (s.fs.resolve (some "/h/d/e")) := by decide +kernel
  have hbeside : ∀ p ∈ operands,
      ¬ Path.OnWay (s.fs.resolve (some p)) (s.fs.resolve (some "/h/a")) := by decide +kernel
  have hrun' : runWords ⟨Catalog.standard, 5⟩ s ("rm" :: "-rf" :: operands.reverse) none =
      (back.1, back.2) := (Prod.eta back).symm
  obtain ⟨hsame, -⟩ := hothers operands.reverse (fun p => List.mem_reverse) (by decide +kernel)
    5 none back.1 back.2 hrun' (by decide +kernel)
  exact ⟨hs, hguard, ho, (hgone (some "/h/d/e")).mpr (.inr hway), hkept _ hbeside, hagain 9 none,
    hsame rfl⟩

end Shellbox.Command
