import Mathlib.Data.List.Forall2
import Shellbox.Command.Columns
import Shellbox.Proofs.Shell.Calls

/-!
# Substituting characters

`tr` replaces every character of a text by itself, at once and on its own: where the character
stands last among those of one set, there stands what it is replaced by in the other. If no
character stands twice there, the two sets in the other order take the text back.
-/

namespace Shellbox.Command

open Filesystem Text

variable {source target cs ds : List Char} {c c' c'' : Char}

/-! ## One character -/

/-- What a character is replaced by: the character of the one set at the last place where it stands
in the other, or itself if there is no such place. Places beyond the shorter set do not count. -/
inductive Replaces (source target : List Char) (c : Char) : Char → Prop
  | last {j : Nat} {c' : Char} (hsource : source[j]? = some c) (htarget : target[j]? = some c')
      (hlast : ∀ k, j < k → k < target.length → source[k]? ≠ some c) : Replaces source target c c'
  | absent (h : ∀ k < target.length, source[k]? ≠ some c) : Replaces source target c c

theorem replaces_substituteChar (source target : List Char) (c : Char) :
    Replaces source target c (substituteChar source target c) := by
  have hpair {k : Nat} (hk : k < target.length) (hsource : source[k]? = some c) :
      (source.zip target)[k]? = some (c, target[k]) :=
    List.getElem?_zip_eq_some.mpr ⟨hsource, List.getElem?_eq_getElem hk⟩
  cases hfound : (source.zip target).reverse.lookup c with
  | none =>
      rw [substituteChar, hfound]
      refine .absent fun k hk hsource => ?_
      have hmem := List.mem_of_getElem? (hpair hk hsource)
      have hne := List.lookup_eq_none_iff.mp hfound _ (List.mem_reverse.mpr hmem)
      simp at hne
  | some c' =>
      rw [substituteChar, hfound]
      -- The pairs are looked up from the last one on.
      obtain ⟨behind, before, hzip, hbehind⟩ := List.lookup_eq_some_iff.mp hfound
      have hzip : source.zip target = before.reverse ++ (c, c') :: behind.reverse := by
        rw [← List.reverse_reverse (source.zip target), hzip]
        simp
      have hj : (source.zip target)[before.length]? = some (c, c') := by
        rw [hzip]
        simp
      obtain ⟨hsource, htarget⟩ := List.getElem?_zip_eq_some.mp hj
      refine .last hsource htarget fun k hjk hk hsource' => ?_
      have hlater := hpair hk hsource'
      rw [hzip, List.getElem?_append_right (by simp; omega), List.getElem?_cons,
        if_neg (by simp; omega)] at hlater
      have hmem := List.mem_reverse.mp (List.mem_of_getElem? hlater)
      have hne := hbehind _ hmem
      simp at hne

theorem replaces_rightUnique (source target : List Char) :
    Relator.RightUnique (Replaces source target) := by
  have hinside {j : Nat} {c' : Char} (h : target[j]? = some c') : j < target.length :=
    (List.getElem?_eq_some_iff.mp h).1
  intro c c' c'' h h'
  cases h with
  | @last j c' hsource htarget hlast =>
      cases h' with
      | @last k c'' hsource' htarget' hlast' =>
          rcases Nat.lt_trichotomy j k with hjk | rfl | hkj
          · exact absurd hsource' (hlast k hjk (hinside htarget'))
          · exact Option.some.inj (htarget.symm.trans htarget')
          · exact absurd hsource (hlast' j hkj (hinside htarget))
      | absent h => exact absurd hsource (h j (hinside htarget))
  | absent h =>
      cases h' with
      | last hsource htarget _ => exact absurd hsource (h _ (hinside htarget))
      | absent _ => rfl

/-- Between sets of one length a character is replaced back, if the set that it went to has no
repetition. -/
theorem Replaces.symm (h : Replaces source target c c') (hlength : source.length = target.length)
    (htarget : target.Nodup) (hc : c ∈ target → c ∈ source) : Replaces target source c' c := by
  cases h with
  | @last j c' hsource hplace _ =>
      refine .last hplace hsource fun k hjk _ hagain => ?_
      have hj : j < target.length := (List.getElem?_eq_some_iff.mp hplace).1
      exact Nat.ne_of_lt hjk ((List.getElem?_inj hj htarget).mp (hplace.trans hagain.symm))
  | absent h =>
      have hsource : c ∉ source := by
        intro hmem
        obtain ⟨k, hk⟩ := List.mem_iff_getElem?.mp hmem
        exact h k (hlength ▸ (List.getElem?_eq_some_iff.mp hk).1) hk
      exact .absent fun k _ hk => hsource (hc (List.mem_of_getElem? hk))

/-! ## Texts -/

theorem forall₂_substitute (source target text : String) :
    List.Forall₂ (Replaces source.toList target.toList) text.toList
      (substitute source target text).toList := by
  rw [substitute, String.toList_ofList, List.forall₂_map_right_iff]
  exact List.forall₂_same.mpr fun c _ => replaces_substituteChar _ _ c

theorem substitute_substitute {source target text : String}
    (hlength : source.length = target.length) (htarget : target.toList.Nodup)
    (htext : ∀ c ∈ text.toList, c ∈ target.toList → c ∈ source.toList) :
    substitute target source (substitute source target text) = text := by
  have hlength' : source.toList.length = target.toList.length := by
    rw [String.length_toList, String.length_toList, hlength]
  have hback : List.Forall₂ (Replaces target.toList source.toList)
      (substitute source target text).toList text.toList := by
    rw [substitute, String.toList_ofList, List.forall₂_map_left_iff, List.forall₂_same]
    exact fun c hc => (replaces_substituteChar _ _ c).symm hlength' htarget (htext c hc)
  have hthere := forall₂_substitute target source (substitute source target text)
  exact String.toList_inj.mp (List.right_unique_forall₂' (replaces_rightUnique _ _) hthere hback)

/-! ## The command -/

theorem runWords_tr_substitute (now : Instant) (s : Session) {source : String} (h : source ≠ "-d")
    (target text : String) :
    runWords ⟨Catalog.standard, now⟩ s ["tr", source, target] (some text) =
      (s, .ok (substitute source target text)) := by
  rw [runWords_standard "tr" tr rfl]
  simp only [tr, Handler.looking]
  rfl

theorem runWords_tr_delete (now : Instant) (s : Session) (set text : String) :
    runWords ⟨Catalog.standard, now⟩ s ["tr", "-d", set] (some text) =
      (s, .ok (delete set text)) := by
  rw [runWords_standard "tr" tr rfl]
  rfl

/-- `tr` replaces the characters of a text one by one, each by the character at its last place in
the sets or by itself, and under `-d` leaves out those of the set. Between sets of one length, the
second without repetition, a text is taken back if it held nothing of the second set alone. -/
theorem tr_substitutes (now : Instant) (s : Session) (source target text : String) :
    let run args text := runWords ⟨Catalog.standard, now⟩ s ("tr" :: args) (some text)
    let kept := String.ofList (text.toList.filter (· ∉ source.toList))
    run ["-d", source] text = (s, ⟨kept, true, 0, []⟩) ∧
    (source ≠ "-d" → ∃ shown, run [source, target] text = (s, ⟨shown, true, 0, []⟩) ∧
      shown.length = text.length ∧
      List.Forall₂ (Replaces source.toList target.toList) text.toList shown.toList ∧
      (target ≠ "-d" → source.length = target.length → target.toList.Nodup →
        (∀ c ∈ text.toList, c ∈ target.toList → c ∈ source.toList) →
          run [target, source] shown = (s, ⟨text, true, 0, []⟩))) := by
  intro run kept
  constructor
  · refine (runWords_tr_delete now s source text).trans ?_
    have hkept : delete source text = kept := by
      refine congrArg String.ofList (List.filter_congr fun c _ => ?_)
      simp
    rw [hkept]
    rfl
  · intro hsource
    have hshown := forall₂_substitute source target text
    refine ⟨substitute source target text, runWords_tr_substitute now s hsource target text,
      ?_, hshown, ?_⟩
    · rw [← String.length_toList, ← hshown.length_eq, String.length_toList]
    · intro htarget hlength hnodup htext
      refine (runWords_tr_substitute now s htarget source _).trans ?_
      rw [substitute_substitute hlength hnodup htext]
      rfl

theorem tr_substitutes_overlapping :
    let s : Session := ⟨{}, empty 0 "/", .empty 10, [], []⟩
    let run args text := runWords ⟨Catalog.standard, 0⟩ s ("tr" :: args) (some text)
    run ["-d", "abc"] "cab-b" = (s, ⟨"-", true, 0, []⟩) ∧
      ∃ shown, run ["abc", "bcd"] "cab-b" = (s, ⟨shown, true, 0, []⟩) ∧ shown.length = 5 ∧
        List.Forall₂ (Replaces ['a', 'b', 'c'] ['b', 'c', 'd']) ['c', 'a', 'b', '-', 'b']
          shown.toList ∧
        run ["bcd", "abc"] shown = (s, ⟨"cab-b", true, 0, []⟩) := by
  intro s run
  obtain ⟨hkept, hshown⟩ := tr_substitutes 0 s "abc" "bcd" "cab-b"
  obtain ⟨shown, hrun, hlength, hreplaced, hback⟩ := hshown (by decide)
  have htext : ("cab-b".toList.filter "bcd".toList.contains).all "abc".toList.contains := by decide
  refine ⟨hkept, shown, hrun, hlength, hreplaced,
    hback (by decide) (by decide) (by decide) fun c hc hd => ?_⟩
  have hboth := List.mem_filter.mpr ⟨hc, List.contains_iff_mem.mpr hd⟩
  exact List.contains_iff_mem.mp (List.all_eq_true.mp htext c hboth)

end Shellbox.Command
