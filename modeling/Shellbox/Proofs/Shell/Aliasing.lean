import Shellbox.Proofs.Shell.Expansion
import Shellbox.Proofs.Shell.Piped

/-!
# Aliases defined by a line

A definition takes the place of an older one of its name and leaves all others. Before its text is
stored, a quote is taken off its beginning and one off its end, whether or not the two belong
together; so a text is stored as it was written just if no quote stands at either end.
-/

namespace Shellbox

open Text Line

/-! ## Looking aliases up -/

namespace Aliases

variable {as : Aliases} {name other : String}

theorem lookup_map_define (as : Aliases) (name text other : String) :
    (as.map fun a => if a.1 = name then (name, text) else a).lookup other =
      if other = name then (as.lookup name).map fun _ => text else as.lookup other := by
  induction as with
  | nil => simp
  | cons a as ih =>
      obtain ⟨key, value⟩ := a
      by_cases hkey : key = name
      · subst hkey
        by_cases hother : other = key
        · simp [hother]
        · rw [if_neg hother] at ih
          simpa [hother, List.lookup_cons, beq_false_of_ne hother] using ih
      · by_cases hother : other = key
        · have hne : other ≠ name := fun h => hkey (hother ▸ h)
          simp [hkey, hother]
        · simpa [hkey, List.lookup_cons, beq_false_of_ne hother, beq_false_of_ne (Ne.symm hkey)]
            using ih

theorem lookup_define (as : Aliases) (name text other : String) :
    (as.define name text).lookup other = if other = name then some text else as.lookup other := by
  unfold define
  split
  · rename_i h
    rw [lookup_map_define]
    obtain ⟨old, hold⟩ := Option.isSome_iff_exists.mp h
    simp [hold]
  · rename_i h
    rw [Option.not_isSome_iff_eq_none] at h
    rw [List.lookup_append]
    by_cases hother : other = name
    · simp [hother, h]
    · simp [hother, List.lookup_cons, beq_false_of_ne hother]

end Aliases

/-! ## Quotes at the ends -/

namespace Command

variable {cs front : List Char} {c d : Char} {name text : String}

/-- No quote stands at the beginning or at the end, nor before a line break at the end. -/
structure OpenEnded (cs : List Char) : Prop where
  first : ∀ c ∈ cs.head?, isQuote c = false
  last : ∀ c ∈ cs.getLast?, isQuote c = false
  before_break : ∀ front c, cs = front ++ [c, '\n'] → isQuote c = false

/-- The text stands between two quotes of one kind. -/
def IsEnclosed (text : String) : Prop :=
  ∃ q inner, isQuote q ∧ text.toList = q :: (inner ++ [q])

theorem length_dropFirstQuote_lt (h : dropFirstQuote cs ≠ cs) :
    (dropFirstQuote cs).length < cs.length := by
  cases cs with
  | nil => exact absurd rfl h
  | cons c r => by_cases hc : isQuote c <;> simp_all [dropFirstQuote]

theorem dropFirstQuote_eq_self_iff :
    dropFirstQuote cs = cs ↔ ∀ c ∈ cs.head?, isQuote c = false := by
  cases cs with
  | nil => simp [dropFirstQuote]
  | cons c r => by_cases hc : isQuote c <;> simp [dropFirstQuote, hc]

theorem dropLastQuote_single (c : Char) : dropLastQuote [c] = if isQuote c then [] else [c] := by
  by_cases hc : c = '\n'
  · subst hc
    rfl
  · simp [dropLastQuote]

theorem dropLastQuote_concat (front : List Char) (c d : Char) :
    dropLastQuote (front ++ [c, d]) =
      if d = '\n' ∧ isQuote c then front ++ ['\n']
      else if isQuote d then front ++ [c] else front ++ [c, d] := by
  by_cases hd : d = '\n'
  · subst hd
    have hbreak : isQuote '\n' = false := rfl
    simp [dropLastQuote, hbreak]
  · simp [dropLastQuote, hd]

theorem nil_or_single_or_concat (cs : List Char) :
    cs = [] ∨ (∃ c, cs = [c]) ∨ ∃ front c d, cs = front ++ [c, d] := by
  obtain rfl | ⟨init, d, rfl⟩ := List.eq_nil_or_concat cs
  · exact .inl rfl
  · obtain rfl | ⟨front, c, rfl⟩ := List.eq_nil_or_concat init
    · exact .inr (.inl ⟨d, rfl⟩)
    · exact .inr (.inr ⟨front, c, d, by simp⟩)

theorem length_dropLastQuote_le (cs : List Char) : (dropLastQuote cs).length ≤ cs.length := by
  obtain rfl | ⟨c, rfl⟩ | ⟨front, c, d, rfl⟩ := nil_or_single_or_concat cs
  · rfl
  · rw [dropLastQuote_single]
    split <;> simp
  · rw [dropLastQuote_concat]
    split
    · simp
    · split <;> simp

theorem dropLastQuote_eq_self_iff :
    dropLastQuote cs = cs ↔ (∀ c ∈ cs.getLast?, isQuote c = false) ∧
      ∀ front c, cs = front ++ [c, '\n'] → isQuote c = false := by
  obtain rfl | ⟨c, rfl⟩ | ⟨front, c, d, rfl⟩ := nil_or_single_or_concat cs
  · simp [dropLastQuote]
  · rw [dropLastQuote_single]
    by_cases hc : isQuote c
    · simp [hc]
    · have hshort (front : List Char) (e : Char) : [c] ≠ front ++ [e, '\n'] := fun h => by
        simpa using congrArg List.length h
      simp [hc, hshort]
  · have hbreak (front' : List Char) (e : Char) :
        front ++ [c, d] = front' ++ [e, '\n'] ↔ front = front' ∧ c = e ∧ d = '\n' := by
      constructor
      · intro h
        obtain ⟨hfront, htwo⟩ := List.append_inj' h rfl
        simpa [hfront] using htwo
      · rintro ⟨rfl, rfl, rfl⟩
        rfl
    rw [dropLastQuote_concat]
    by_cases hd : d = '\n'
    · subst hd
      by_cases hc : isQuote c <;> simp [hc, hbreak]
    · by_cases hq : isQuote d <;> simp [hd, hq, hbreak]

theorem unquoteAlias_eq_self_iff : unquoteAlias cs = cs ↔ OpenEnded cs := by
  by_cases hfirst : dropFirstQuote cs = cs
  · rw [unquoteAlias, hfirst, dropLastQuote_eq_self_iff]
    exact ⟨fun h => ⟨dropFirstQuote_eq_self_iff.mp hfirst, h.1, h.2⟩,
      fun h => ⟨h.last, h.before_break⟩⟩
  · have hshorter := (length_dropLastQuote_le _).trans_lt (length_dropFirstQuote_lt hfirst)
    constructor
    · intro h
      exact absurd (congrArg List.length h) hshorter.ne
    · intro h
      exact absurd (dropFirstQuote_eq_self_iff.mpr h.first) hfirst

/-! ## Definitions -/

theorem readAlias?_definition (hname : name ≠ "") (hword : ∀ c ∈ name.toList, isWordChar c)
    (htext : text ≠ "") :
    readAlias? (name ++ "=" ++ text) = some (name, String.ofList (unquoteAlias text.toList)) := by
  have hequals : isWordChar '=' = false := by decide +kernel
  obtain ⟨c, r, hcr⟩ := List.exists_cons_of_ne_nil (mt String.toList_eq_nil_iff.mp htext)
  have hlist : (name ++ "=" ++ text).toList = name.toList ++ '=' :: text.toList := by simp
  have htake : (name ++ "=" ++ text).toList.takeWhile isWordChar = name.toList := by
    rw [hlist, List.takeWhile_append_of_pos hword]
    simp [hequals]
  have hdrop : (name ++ "=" ++ text).toList.dropWhile isWordChar = '=' :: text.toList := by
    rw [hlist, List.dropWhile_append_of_pos hword]
    simp [hequals]
  have hne : name.toList.isEmpty = false := by simpa using hname
  simp only [readAlias?, htake, hdrop, hcr, hne, Bool.false_eq_true, ↓reduceIte,
    String.ofList_toList]

end Command

open Command

variable {now : Filesystem.Instant} {s : Session} {piped : Option String} {name text : String}

theorem runWords_alias (s : Session) (piped : Option String) (hname : name ≠ "")
    (hword : ∀ c ∈ name.toList, isWordChar c) (htext : text ≠ "") :
    runWords ⟨Catalog.standard, now⟩ s ["alias", name ++ "=" ++ text] piped =
      ({ s with aliases := s.aliases.define name (String.ofList (unquoteAlias text.toList)) },
        .nothing) := by
  have hread : readAlias? (" ".intercalate [name ++ "=" ++ text]) =
      some (name, String.ofList (unquoteAlias text.toList)) := by
    simpa using readAlias?_definition hname hword htext
  rw [runWords_standard "alias" aliasing rfl]
  simp only [aliasing, Handler.acting, hread, List.isEmpty_cons, Bool.false_eq_true, ↓reduceIte,
    settle, Reply.resolve]

def aliasLine (name text : String) : String := "alias" ++ " " ++ quote (name ++ "=" ++ text)

theorem splitFirstWord_aliasLine (name text : String) :
    (splitFirstWord (aliasLine name text)).1 = "alias" := by
  rw [aliasLine, splitFirstWord_append (by simp [isBlank]) (by simp [isBlank]) (by simp)]

theorem execute_aliasLine (halias : s.aliases.lookup "alias" = none) (hname : name ≠ "")
    (hword : ∀ c ∈ name.toList, isWordChar c) (htext : text ≠ "") :
    execute ⟨Catalog.standard, now⟩ s (aliasLine name text) =
      ({ s.recording (aliasLine name text) with
        aliases := s.aliases.define name (String.ofList (unquoteAlias text.toList)) },
        .nothing) := by
  have hcommand : Spells "alias" ["alias"] := by decide +kernel
  have hspells : Spells (aliasLine name text) ["alias", name ++ "=" ++ text] :=
    hcommand.append (quote_spells _) (by simp) (by simp)
  have hfirst : s.aliases.lookup (splitFirstWord (aliasLine name text)).1 = none := by
    rw [splitFirstWord_aliasLine, halias]
  rw [execute_stage hspells (by simp) hfirst, runWords_alias _ _ hname hword htext,
    Session.recording]

/-- A definition is stored as it was written just if its text has no quote at its ends. -/
theorem alias_stored_iff (now : Filesystem.Instant) (s : Session) (name text : String)
    (halias : s.aliases.lookup "alias" = none) (hname : name ≠ "")
    (hword : ∀ c ∈ name.toList, isWordChar c) (htext : text ≠ "") :
    let done := execute ⟨Catalog.standard, now⟩ s (aliasLine name text)
    done.2 = .nothing ∧ done.1.fs = s.fs ∧
    (∀ other, other ≠ name → done.1.aliases.lookup other = s.aliases.lookup other) ∧
    ∃ stored, done.1.aliases.lookup name = some stored ∧
      (stored = text ↔ OpenEnded text.toList) := by
  intro done
  have hdone : done = _ := execute_aliasLine halias hname hword htext
  refine ⟨by rw [hdone], by rw [hdone, recording_fs], fun other hother => ?_,
    String.ofList (unquoteAlias text.toList), ?_, ?_⟩
  · simp only [hdone, Aliases.lookup_define, if_neg hother]
  · simp only [hdone, Aliases.lookup_define, if_pos]
  · rw [← unquoteAlias_eq_self_iff, ← String.toList_inj, String.toList_ofList]

theorem alias_stored_plain :
    let s : Session := ⟨{}, .empty 0 "/home/user", .empty 10, [("say", "ls")], []⟩
    let done := execute ⟨Catalog.standard, 0⟩ s (aliasLine "say" "echo 'hi' | rev")
    done.2 = .nothing ∧ done.1.aliases.lookup "say" = some "echo 'hi' | rev" := by
  intro s done
  have hword : ∀ c ∈ "say".toList, isWordChar c := List.all_eq_true.mp (by decide +kernel)
  have hopen : OpenEnded "echo 'hi' | rev".toList :=
    unquoteAlias_eq_self_iff.mp (by decide +kernel)
  obtain ⟨hdone, -, -, stored, hstored, hiff⟩ :=
    alias_stored_iff 0 s "say" "echo 'hi' | rev" rfl (by decide) hword (by decide)
  exact ⟨hdone, hiff.mpr hopen ▸ hstored⟩

/-- A quote at the end is lost, though no quote stands at the beginning. -/
theorem alias_loses_quote :
    let s : Session := ⟨{}, .empty 0 "/home/user", .empty 10, [], []⟩
    s.aliases.lookup "alias" = none ∧ (∀ c ∈ "say".toList, isWordChar c) ∧
    ¬ IsEnclosed "echo 'hi'" ∧
    ¬ (execute ⟨Catalog.standard, 0⟩ s "alias \"say=echo 'hi'\"").1.aliases.lookup "say" =
      some "echo 'hi'" := by
  intro s
  refine ⟨rfl, List.all_eq_true.mp (by decide +kernel), ?_, by decide +kernel⟩
  rintro ⟨q, inner, hq, htext⟩
  have hfirst : q = 'e' := by
    simpa using (congrArg List.head? htext).symm
  subst hfirst
  exact absurd hq (by decide)

end Shellbox
