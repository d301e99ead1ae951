import Shellbox.Proofs.Filesystem.Path

/-!
# Resolving paths

A path that is not blank resolves to a normal path, and a normal path to itself. A relative path
behind another and a slash leads where it leads from the place of the other, even where the tilde
stands for a home directory that is itself written in a roundabout way.
-/

namespace Shellbox.Filesystem.Path

open Text

variable {home cwd path a b : String} {as as' : List String}

/-- A path that goes on from the working directory: it begins neither at the root nor at home. -/
structure IsRelative (path : String) : Prop where
  not_blank : isAllBlank path = false
  not_absolute : ¬ IsAbsolute path
  not_tilde : path ≠ "~"
  not_home : ¬ "~/".toList <+: path.toList

/-! ## Paths that are not blank -/

theorem resolve_of_not_blank (home cwd : String) (h : isAllBlank path = false) :
    resolve home cwd (some path) =
      render (normalize (pieces '/' (anchor cwd (expandHome home path)))) := by
  simp only [resolve, h, Bool.false_eq_true, ↓reduceIte]

theorem isNormal_of_not_blank (home cwd : String) (h : isAllBlank path = false) :
    IsNormal (resolve home cwd (some path)) := by
  rw [resolve_of_not_blank home cwd h]
  exact ⟨_, normalize_isName fun p hp => not_mem_of_mem_pieces hp, rfl⟩

theorem ne_empty_of_not_blank (h : isAllBlank path = false) : path ≠ "" := by
  rintro rfl
  cases h

theorem not_blank_append (h : isAllBlank a = false) (b : String) : isAllBlank (a ++ b) = false := by
  rw [isAllBlank, String.toList_append, List.all_append, ← isAllBlank, h, Bool.false_and]

/-! ## Parts behind other parts -/

theorem pieces_append (a b : String) : pieces '/' (a ++ "/" ++ b) = pieces '/' a ++ pieces '/' b := by
  have htext : (a ++ "/" ++ b).toList = a.toList ++ '/' :: b.toList := by simp
  rw [pieces, htext, List.splitOn_append_cons_self, List.map_append, ← pieces, ← pieces]

theorem normalize_append (as bs : List String) :
    normalize (as ++ bs) = (bs.foldl push (normalize as).reverse).reverse := by
  rw [normalize, List.foldl_append, normalize, List.reverse_reverse]

/-- Of the parts in front it matters only where they lead. -/
theorem normalize_append_congr (h : normalize as = normalize as') (bs : List String) :
    normalize (as ++ bs) = normalize (as' ++ bs) := by
  rw [normalize_append, h, ← normalize_append]

/-- The parts of a place lead to that place. -/
theorem normalize_pieces_normalize (path : String) :
    normalize (pieces '/' (render (normalize (pieces '/' path)))) = normalize (pieces '/' path) :=
  normalize_pieces_render (normalize_isName fun _ hp => not_mem_of_mem_pieces hp)

/-! ## The start of a path -/

theorem expandHome_of_elsewhere (home : String) (htilde : path ≠ "~")
    (hhome : ¬ "~/".toList <+: path.toList) : expandHome home path = path := by
  unfold expandHome
  split
  · rename_i htext
    exact absurd (String.toList_inj.mp htext) htilde
  · rename_i r htext
    exact absurd ⟨r, by rw [htext]; rfl⟩ hhome
  · rfl

theorem expandHome_append (home : String) (ha : a ≠ "") (b : String) :
    expandHome home (a ++ "/" ++ b) = expandHome home a ++ "/" ++ b := by
  have htext : (a ++ "/" ++ b).toList = a.toList ++ '/' :: b.toList := by simp
  by_cases htilde : a = "~"
  · subst htilde
    rw [← String.toList_inj]
    simp [expandHome]
  · by_cases hhome : "~/".toList <+: a.toList
    · obtain ⟨r, hr⟩ := hhome
      rw [← String.toList_inj]
      simp [expandHome, ← hr]
    · rw [expandHome_of_elsewhere home htilde hhome]
      -- The slash behind the first path makes no tilde of it that was none before.
      rcases hcs : a.toList with - | ⟨c, - | ⟨d, cs⟩⟩
      · exact absurd (String.toList_eq_nil_iff.mp hcs) ha
      · have hc : c ≠ '~' := fun hc => htilde (String.toList_inj.mp (by rw [hcs, hc]; rfl))
        refine expandHome_of_elsewhere home ?_ ?_
        · simp [← String.toList_inj, hcs]
        · simpa [htext, hcs] using Ne.symm hc
      · refine expandHome_of_elsewhere home ?_ ?_
        · simp [← String.toList_inj, hcs]
        · simpa [htext, hcs] using hhome

theorem anchor_append (cwd : String) (ha : a ≠ "") (b : String) :
    anchor cwd (a ++ "/" ++ b) = anchor cwd a ++ "/" ++ b := by
  have htext : (a ++ "/" ++ b).toList = a.toList ++ '/' :: b.toList := by simp
  rcases hcs : a.toList with - | ⟨c, cs⟩
  · exact absurd (String.toList_eq_nil_iff.mp hcs) ha
  · by_cases hc : c = '/'
    · simp [anchor, htext, hcs, hc]
    · simp [anchor, hcs, hc, String.append_assoc]

theorem expandHome_ne_empty (hhome : home ≠ "") (ha : a ≠ "") : expandHome home a ≠ "" := by
  unfold expandHome
  split
  · exact hhome
  · simp [hhome]
  · exact ha

theorem IsRelative.expandHome (h : IsRelative b) (home : String) :
    Path.expandHome home b = b :=
  expandHome_of_elsewhere home h.not_tilde h.not_home

theorem IsRelative.anchor (h : IsRelative b) (cwd : String) :
    Path.anchor cwd b = cwd ++ "/" ++ b := by
  unfold Path.anchor
  split
  · rename_i r htext
    exact absurd (by rw [IsAbsolute, htext]; rfl) h.not_absolute
  · rfl

/-! ## A path behind another -/

theorem resolve_append (hhome : home ≠ "") (cwd : String) (ha : isAllBlank a = false)
    (hb : IsRelative b) :
    resolve home cwd (some (a ++ "/" ++ b)) = resolve home (resolve home cwd (some a)) (some b) := by
  have hne : a ≠ "" := ne_empty_of_not_blank ha
  have hjoined : isAllBlank (a ++ "/" ++ b) = false := not_blank_append (not_blank_append ha "/") b
  have hfull : anchor cwd (expandHome home (a ++ "/" ++ b)) =
      anchor cwd (expandHome home a) ++ "/" ++ b := by
    rw [expandHome_append home hne, anchor_append cwd (expandHome_ne_empty hhome hne)]
  rw [resolve_of_not_blank home cwd hjoined, resolve_of_not_blank home _ hb.not_blank,
    resolve_of_not_blank home cwd ha, hfull, hb.expandHome, hb.anchor, pieces_append,
    pieces_append]
  exact congrArg render (normalize_append_congr (normalize_pieces_normalize _).symm _)

/-- For every home directory: a path that is not blank resolves to a normal path wherever one is, and
so does every path in a normal working directory; a normal path resolves to itself, and so resolving
twice is resolving once; and behind another path that is not blank a relative one resolves as it does
at the place of the other, unless the home directory is the empty text. -/
theorem resolution_laws (home : String) :
    (∀ cwd path, isAllBlank path = false → IsNormal (resolve home cwd (some path))) ∧
    (∀ cwd path, IsNormal cwd → IsNormal (resolve home cwd (some path))) ∧
    (∀ cwd path, IsNormal path → resolve home cwd (some path) = path) ∧
    (∀ cwd cwd' path, IsNormal cwd → resolve home cwd' (some (resolve home cwd (some path))) =
      resolve home cwd (some path)) ∧
    (home ≠ "" → ∀ cwd a b, isAllBlank a = false → IsRelative b →
      resolve home cwd (some (a ++ "/" ++ b)) =
        resolve home (resolve home cwd (some a)) (some b)) := by
  refine ⟨fun cwd path h => isNormal_of_not_blank home cwd h,
    fun cwd path h => resolve_isNormal home h (some path),
    fun cwd path h => resolve_of_isNormal home cwd h, fun cwd cwd' path h => ?_,
    fun hhome cwd a b ha hb => resolve_append hhome cwd ha hb⟩
  exact resolve_of_isNormal home cwd' (resolve_isNormal home h (some path))

theorem resolution_laws_roundabout :
    let home := "h/./../x//"
    IsNormal "/w" ∧ ¬ IsNormal "w/.." ∧
    resolve home "w/.." (some "~/..") = "/" ∧
    IsNormal (resolve home "w/.." (some "~/..")) ∧
    IsNormal (resolve home "/w" (some " \t")) ∧
    resolve home "/w" (some "~") = "/w/x" ∧
    resolve home "w/.." (some (resolve home "/w" (some "~"))) = resolve home "/w" (some "~") ∧
    resolve home "/w" (some ("~" ++ "/" ++ ".././~//b")) =
      resolve home (resolve home "/w" (some "~")) (some ".././~//b") ∧
    resolve home "/w/x" (some ".././~//b") = "/w/~/b" := by
  intro home
  obtain ⟨hnormal, hcwd, -, htwice, happend⟩ := resolution_laws home
  refine ⟨by decide +kernel, by decide +kernel, by decide +kernel, hnormal _ _ (by decide +kernel),
    hcwd _ _ (by decide +kernel), by decide +kernel, htwice _ _ _ (by decide +kernel), ?_,
    by decide +kernel⟩
  have hb : IsRelative ".././~//b" := ⟨by decide, by simp [IsAbsolute], by decide, by decide⟩
  exact happend (by decide) "/w" "~" ".././~//b" (by decide) hb

end Shellbox.Filesystem.Path
