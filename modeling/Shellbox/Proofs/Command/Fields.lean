import Mathlib.Data.List.Sort
import Shellbox.Command.FieldList
import Shellbox.Proofs.Number.Numeral
import Shellbox.Proofs.Success
import Shellbox.Proofs.Text.Lines
import Shellbox.Proofs.Text.Words

/-!
# A list of fields denotes a set

A list of fields is written as numbers and ranges with commas between them and blanks around them.
It is read as the positive numbers that its items name, in increasing order, so that neither the
order of the items nor their repetition counts. In ASCII nothing else is read.
-/

namespace Shellbox.Command

open Text Number

variable {n : Nat} {ns : List Nat} {cs front word back text : List Char}

/-! ## Numbers in increasing order -/

theorem dropRepeats_cons (n : Nat) (ns : List Nat) :
    dropRepeats (n :: ns) =
      if (dropRepeats ns).head? = some n then dropRepeats ns else n :: dropRepeats ns := rfl

theorem mem_dropRepeats : n ∈ dropRepeats ns ↔ n ∈ ns := by
  induction ns with
  | nil => rfl
  | cons m ns ih =>
      rw [dropRepeats_cons, List.mem_cons, ← ih]
      split
      · rename_i hhead
        have hm : m ∈ dropRepeats ns := List.mem_of_mem_head? hhead
        exact ⟨.inr, fun h => h.elim (fun heq => heq ▸ hm) id⟩
      · rw [List.mem_cons]

theorem pairwise_dropRepeats (h : ns.Pairwise (· ≤ ·)) : (dropRepeats ns).Pairwise (· < ·) := by
  induction ns with
  | nil => exact .nil
  | cons n ns ih =>
      obtain ⟨hfirst, hrest⟩ := List.pairwise_cons.mp h
      have hstrict := ih hrest
      rw [dropRepeats_cons]
      split
      · exact hstrict
      · rename_i hhead
        refine List.pairwise_cons.mpr ⟨fun m hm => ?_, hstrict⟩
        have hle : ∀ k ∈ dropRepeats ns, n ≤ k := fun k hk => hfirst k (mem_dropRepeats.mp hk)
        -- What is kept increases, so the least of it alone could be `n` again.
        cases hkept : dropRepeats ns with
        | nil => simp [hkept] at hm
        | cons k rest =>
            rw [hkept] at hm hle hstrict hhead
            have hk : n < k := lt_of_le_of_ne (hle k List.mem_cons_self) (by
              rintro rfl
              exact hhead rfl)
            rcases List.mem_cons.mp hm with rfl | hm
            · exact hk
            · exact hk.trans ((List.pairwise_cons.mp hstrict).1 m hm)

theorem mem_increasing : n ∈ increasing ns ↔ 0 < n ∧ n ∈ ns := by
  rw [increasing, mem_dropRepeats, List.mem_mergeSort, List.mem_filter, decide_eq_true_eq, and_comm]

theorem pairwise_increasing (ns : List Nat) : (increasing ns).Pairwise (· < ·) :=
  pairwise_dropRepeats (List.pairwise_mergeSort' (· ≤ ·) _)

theorem mem_numbersBetween {first last : Nat} :
    n ∈ numbersBetween first last ↔ first ≤ n ∧ n ≤ last := by
  rw [numbersBetween, List.mem_range'_1]
  omega

/-! ## Items -/

/-- An item of a list of fields: a number alone, or the numbers from one to another. -/
inductive FieldItem where
  | single (n : Nat)
  | range (first last : Nat)
deriving DecidableEq, Inhabited

namespace FieldItem

/-- The numbers that an item names; there are none from a number to a smaller one. -/
def Names : FieldItem → Nat → Prop
  | single m, n => n = m
  | range first last, n => first ≤ n ∧ n ≤ last

/-- The ways to write an item. -/
inductive IsWritten : FieldItem → List Char → Prop
  | single {n : Nat} {digits : List Char} (h : IsNumeral digits n) : IsWritten (.single n) digits
  | range {first last : Nat} {as bs : List Char} (hfirst : IsNumeral as first)
      (hlast : IsNumeral bs last) : IsWritten (.range first last) (as ++ '-' :: bs)

/-- The numbers of an item in their order. -/
def numbers : FieldItem → List Nat
  | single n => [n]
  | range first last => numbersBetween first last

theorem mem_numbers {item : FieldItem} : n ∈ item.numbers ↔ item.Names n := by
  cases item with
  | single m => exact List.mem_singleton
  | range first last => exact mem_numbersBetween

namespace IsWritten

variable {item : FieldItem}

theorem not_mem {c : Char} (h : item.IsWritten cs) (hdigit : c.isDigit = false) (hdash : c ≠ '-') :
    c ∉ cs := by
  cases h with
  | single h => exact h.not_mem hdigit
  | range hfirst hlast => simp [hfirst.not_mem hdigit, hlast.not_mem hdigit, hdash]

theorem not_blank (h : item.IsWritten cs) : ∀ c ∈ cs, isBlank c = false := by
  have hdash : isBlank '-' = false := rfl
  cases h with
  | single h => exact h.not_blank
  | range hfirst hlast =>
      simp only [List.mem_append, List.mem_cons]
      rintro c (hc | rfl | hc)
      · exact hfirst.not_blank c hc
      · exact hdash
      · exact hlast.not_blank c hc

end IsWritten

end FieldItem

theorem readField_eq {digits : List Char} (h : IsNumeral digits n) :
    readField (String.ofList digits) = .ok n :=
  mapError_eq_ok.mpr h.readNumeral_eq

theorem isNumeral_of_readField (hascii : ∀ c ∈ cs, c.toNat < 128)
    (h : readField (String.ofList cs) = .ok n) : IsNumeral cs n :=
  isNumeral_of_readNumeral hascii (mapError_eq_ok.mp h)

/-- Where a text is cut at its first dash. -/
theorem cut_at_dash {as : List Char} (h : '-' ∉ as) (bs : List Char) :
    (as ++ '-' :: bs).takeWhile (· != '-') = as ∧
      ((as ++ '-' :: bs).dropWhile (· != '-')).drop 1 = bs := by
  have hfront : ∀ c ∈ as, (c != '-') = true := fun c hc =>
    bne_iff_ne.mpr fun heq => h (heq ▸ hc)
  simp [List.takeWhile_append_of_pos hfront, List.dropWhile_append_of_pos hfront]

theorem FieldItem.IsWritten.readItem_eq {item : FieldItem} (h : item.IsWritten cs) :
    readItem (String.ofList cs) = .ok item.numbers := by
  have hdash : '-'.isDigit = false := rfl
  cases h with
  | single h =>
      have hnone : cs.contains '-' = false := by simpa using h.not_mem hdash
      simp only [readItem, String.toList_ofList, hnone, h.isDigits, readField_eq h,
        Bool.false_eq_true, ↓reduceIte, Except.map, numbers]
  | @range first last as bs hfirst hlast =>
      have hsome : (as ++ '-' :: bs).contains '-' = true := by simp
      obtain ⟨hbefore, hbehind⟩ := cut_at_dash (hfirst.not_mem hdash) bs
      simp only [readItem, String.toList_ofList, hsome, hbefore, hbehind, hfirst.isDigits,
        hlast.isDigits, readField_eq hfirst, readField_eq hlast, Bool.and_self, ↓reduceIte, numbers]
      rfl

/-- In ASCII, what is read as an item is written as one. -/
theorem exists_isWritten_of_readItem (hascii : ∀ c ∈ cs, c.toNat < 128)
    (h : readItem (String.ofList cs) = .ok ns) : ∃ item : FieldItem, item.IsWritten cs := by
  by_cases hdash : '-' ∈ cs
  · obtain ⟨as, bs, rfl, hfront⟩ := List.eq_append_cons_of_mem hdash
    obtain ⟨hbefore, hbehind⟩ := cut_at_dash hfront bs
    have hsome : (as ++ '-' :: bs).contains '-' = true := by simp
    simp only [readItem, String.toList_ofList, hsome, hbefore, hbehind, ↓reduceIte] at h
    split at h
    · obtain ⟨first, hfirst, h⟩ := bind_eq_ok.mp h
      obtain ⟨last, hlast, -⟩ := bind_eq_ok.mp h
      exact ⟨.range first last,
        .range (isNumeral_of_readField (fun c hc => hascii c (by simp [hc])) hfirst)
          (isNumeral_of_readField (fun c hc => hascii c (by simp [hc])) hlast)⟩
    · cases h
  · have hnone : cs.contains '-' = false := by simpa using hdash
    simp only [readItem, String.toList_ofList, hnone, Bool.false_eq_true, ↓reduceIte] at h
    split at h
    · obtain ⟨n, hread, -⟩ := map_eq_ok.mp h
      exact ⟨.single n, .single (isNumeral_of_readField hascii hread)⟩
    · cases h

/-! ## Lists -/

/-- The text is an item with blanks around it. -/
def FieldItem.IsListed (item : FieldItem) (text : List Char) : Prop :=
  ∃ word, item.IsWritten word ∧ IsPadded word text

namespace FieldItem.IsListed

variable {item : FieldItem}

theorem no_comma (h : item.IsListed text) : ',' ∉ text := by
  have hcomma : isBlank ',' = false := rfl
  obtain ⟨word, hword, front, back, rfl, hfront, hback⟩ := h
  have hnot : ∀ cs : List Char, (∀ c ∈ cs, isBlank c) → ',' ∉ cs := fun cs hcs hmem =>
    absurd (hcs ',' hmem) (by simp [hcomma])
  simp [hword.not_mem (c := ',') rfl (by decide), hnot front hfront, hnot back hback]

theorem readItem_trim (h : item.IsListed text) :
    readItem (trim (String.ofList text)) = .ok item.numbers := by
  obtain ⟨word, hword, hpadded⟩ := h
  rw [trim, String.toList_ofList, hpadded.trimChars_eq hword.not_blank, hword.readItem_eq]

end FieldItem.IsListed

theorem exists_isListed_of_readItem (hascii : ∀ c ∈ text, c.toNat < 128)
    (h : readItem (trim (String.ofList text)) = .ok ns) :
    ∃ item : FieldItem, item.IsListed text := by
  have hpadded := isPadded_trimChars text
  obtain ⟨front, back, heq, -⟩ := id hpadded
  have hascii' : ∀ c ∈ trimChars text, c.toNat < 128 := fun c hc =>
    hascii c (by rw [heq]; simp [hc])
  rw [trim, String.toList_ofList] at h
  obtain ⟨item, hitem⟩ := exists_isWritten_of_readItem hascii' h
  exact ⟨item, _, hitem, hpadded⟩

/-- The text is items, at least one, with commas between them. -/
def ListsItems (spec : String) (items : List FieldItem) : Prop :=
  items ≠ [] ∧ ∃ texts : List (List Char), spec = String.ofList ([','].intercalate texts) ∧
    List.Forall₂ (fun text item => item.IsListed text) texts items

/-- A list of fields is read piece by piece. -/
theorem readFields_eq_ok_iff {spec : String} {fields : List Nat} :
    readFields spec = .ok fields ↔
      ∃ nss, List.Forall₂ (fun text ns => readItem (trim (String.ofList text)) = .ok ns)
        (spec.toList.splitOn ',') nss ∧ fields = increasing nss.flatten := by
  rw [readFields, map_eq_ok]
  simp only [mapM_eq_ok, pieces, List.forall₂_map_left_iff, @eq_comm _ fields]

theorem ListsItems.readFields_eq {spec : String} {items : List FieldItem}
    (h : ListsItems spec items) :
    readFields spec = .ok (increasing (items.flatMap FieldItem.numbers)) := by
  obtain ⟨hne, texts, rfl, htexts⟩ := h
  have hcommas : ∀ text ∈ texts, ',' ∉ text :=
    ((List.forall₂_and_left _ _).mp (htexts.imp fun _ _ h => ⟨h.no_comma, h⟩)).1
  have hnil : texts ≠ [] := by
    rintro rfl
    cases htexts
    exact hne rfl
  refine readFields_eq_ok_iff.mpr ⟨items.map FieldItem.numbers, ?_, by rw [List.flatMap_def]⟩
  rw [String.toList_ofList, List.splitOn_intercalate ',' hcommas hnil, List.forall₂_map_right_iff]
  exact htexts.imp fun _ _ h => h.readItem_trim

/-- In ASCII, what is read as a list of fields lists items. -/
theorem exists_listsItems_of_readFields {spec : String} {fields : List Nat}
    (hascii : ∀ c ∈ spec.toList, c.toNat < 128) (h : readFields spec = .ok fields) :
    ∃ items, ListsItems spec items := by
  obtain ⟨nss, hread, -⟩ := readFields_eq_ok_iff.mp h
  have hpieces : ∀ text ∈ spec.toList.splitOn ',',
      ∃ ns, readItem (trim (String.ofList text)) = .ok ns :=
    ((List.forall₂_and_left _ _).mp (hread.imp fun _ ns h => ⟨⟨ns, h⟩, h⟩)).1
  have hlisted : ∀ text ∈ spec.toList.splitOn ',', ∃ item : FieldItem, item.IsListed text := by
    intro text htext
    obtain ⟨ns, hns⟩ := hpieces text htext
    exact exists_isListed_of_readItem (fun c hc => hascii c (mem_of_mem_splitOn htext hc)) hns
  choose! item hitem using hlisted
  refine ⟨(spec.toList.splitOn ',').map item, by simp, spec.toList.splitOn ',', ?_, ?_⟩
  · rw [List.intercalate_splitOn, String.ofList_toList]
  · exact List.forall₂_map_right_iff.mpr (List.forall₂_same.mpr hitem)

/-- A list of fields is read as the increasing list of the positive numbers that its items name.
Lists with the same items are read alike, whatever their order and repetition. In ASCII, a text that
does not list items is refused. -/
theorem readFields_denotes (spec : String) :
    (∀ items, ListsItems spec items → ∃ fields, readFields spec = .ok fields ∧
      fields.Pairwise (· < ·) ∧ ∀ n, n ∈ fields ↔ 0 < n ∧ ∃ item ∈ items, item.Names n) ∧
    (∀ items items' spec', ListsItems spec items → ListsItems spec' items' →
      (∀ item, item ∈ items ↔ item ∈ items') → readFields spec' = readFields spec) ∧
    ((∀ c ∈ spec.toList, c.toNat < 128) → (¬ ∃ items, ListsItems spec items) →
      ∃ f, readFields spec = .error f) := by
  have hmem (items : List FieldItem) (n : Nat) :
      n ∈ increasing (items.flatMap FieldItem.numbers) ↔ 0 < n ∧ ∃ item ∈ items, item.Names n := by
    simp only [mem_increasing, List.mem_flatMap, FieldItem.mem_numbers]
  refine ⟨fun items h => ⟨_, h.readFields_eq, pairwise_increasing _, hmem items⟩, ?_, ?_⟩
  · intro items items' spec' h h' hsame
    rw [h.readFields_eq, h'.readFields_eq]
    refine congrArg Except.ok ((pairwise_increasing _).eq_of_mem_iff (pairwise_increasing _) ?_)
    intro n
    simp only [hmem, hsame]
  · intro hascii hnone
    cases hread : readFields spec with
    | error f => exact ⟨f, rfl⟩
    | ok fields => exact absurd (exists_listsItems_of_readFields hascii hread) hnone

theorem readFields_denotes_overlapping :
    let items := [.single 3, .range 1 2, .single 2, .range 7 5]
    let items' := [.range 7 5, .single 2, .single 2, .range 1 2, .single 3]
    ListsItems " 3,1-2 ,\t02,7-5" items ∧ ListsItems "7-5,2,2,1-2,3" items' ∧
      readFields " 3,1-2 ,\t02,7-5" = .ok [1, 2, 3] ∧ readFields "7-5,2,2,1-2,3" = .ok [1, 2, 3] ∧
      (¬ ∃ items, ListsItems "1-2-3" items) ∧ ∃ f, readFields "1-2-3" = .error f := by
  intro items items'
  have hthree : IsNumeral ['3'] 3 := by decide
  have htwo : IsNumeral ['2'] 2 := by decide
  have hzero : IsNumeral ['0', '2'] 2 := by decide
  have hone : IsNumeral ['1'] 1 := by decide
  have hseven : IsNumeral ['7'] 7 := by decide
  have hfive : IsNumeral ['5'] 5 := by decide
  have hrange : (FieldItem.range 1 2).IsWritten ['1', '-', '2'] := .range hone htwo
  have hnone : (FieldItem.range 7 5).IsWritten ['7', '-', '5'] := .range hseven hfive
  have hlone {item : FieldItem} {cs : List Char} (h : item.IsWritten cs) : item.IsListed cs :=
    ⟨cs, h, [], [], by simp⟩
  have hitems : ListsItems " 3,1-2 ,\t02,7-5" items := by
    refine ⟨by simp [items], [[' ', '3'], ['1', '-', '2', ' '], ['\t', '0', '2'], ['7', '-', '5']],
      by decide, .cons ⟨_, .single hthree, [' '], [], ?_⟩ (.cons ⟨_, hrange, [], [' '], ?_⟩
        (.cons ⟨_, .single hzero, ['\t'], [], ?_⟩ (.cons (hlone hnone) .nil)))⟩
    all_goals simp [isBlank]
  have hitems' : ListsItems "7-5,2,2,1-2,3" items' :=
    ⟨by simp [items'], [['7', '-', '5'], ['2'], ['2'], ['1', '-', '2'], ['3']], by decide,
      .cons (hlone hnone) (.cons (hlone (.single htwo)) (.cons (hlone (.single htwo))
        (.cons (hlone hrange) (.cons (hlone (.single hthree)) .nil))))⟩
  have hread : readFields " 3,1-2 ,\t02,7-5" = .ok [1, 2, 3] := by
    obtain ⟨fields, hfields, hsorted, hmem⟩ := (readFields_denotes _).1 items hitems
    have hstrict : [1, 2, 3].Pairwise (· < ·) := by decide
    rw [hfields]
    refine congrArg Except.ok (hsorted.eq_of_mem_iff hstrict fun n => ?_)
    rw [hmem]
    simp [items, FieldItem.Names]
    omega
  have hsame : ∀ item, item ∈ items ↔ item ∈ items' := by
    simp only [items, items', List.mem_cons, List.not_mem_nil, or_false]
    grind
  have hread' := (readFields_denotes _).2.1 items items' _ hitems hitems' hsame
  have hrefused : readFields "1-2-3" = .error (.badRange "1-2-3") := by decide
  have hother : ¬ ∃ items, ListsItems "1-2-3" items := by
    rintro ⟨items, h⟩
    obtain ⟨fields, hfields, -⟩ := (readFields_denotes _).1 items h
    rw [hrefused] at hfields
    cases hfields
  have hascii : "1-2-3".toList.all (·.toNat < 128) := by decide
  refine ⟨hitems, hitems', hread, hread'.trans hread, hother,
    (readFields_denotes "1-2-3").2.2 (fun c hc => ?_) hother⟩
  simpa using List.all_eq_true.mp hascii c hc

end Shellbox.Command
