import Shellbox.Command.Standard

/-!
# The catalog of the shipped commands

A command put into a catalog is found by its name, and what is found by other names stays. The
shipped commands have no name in common, so each is found by all of its names.
-/

namespace Shellbox

open Command (Shipped shipped)

/-- The names that a shipped command is called by. -/
def Command.Shipped.names (c : Shipped) : List String := c.name :: c.others

namespace Catalog

/-! ## What a catalog holds -/

theorem of_find? {cat : Catalog} {name : String} {b : Builtin} (h : cat.find? name = some b) :
    b ∈ cat ∧ b.page.name = name :=
  ⟨List.mem_of_find?_eq_some h, by simpa using List.find?_some h⟩

theorem mem_put {cat : Catalog} {b x : Builtin} (h : x ∈ cat.put b) : x ∈ cat ∨ x = b := by
  unfold put at h
  split at h
  · obtain ⟨y, hy, rfl⟩ := List.mem_map.mp h
    by_cases hname : y.page.name = b.page.name
    · exact .inr (by simp [hname])
    · exact .inl (by simpa [hname] using hy)
  · simpa using h

/-- What registering adds has the new handler, and one of the new names. -/
theorem mem_register {cat : Catalog} {name : String} {category : Category} {others : List String}
    {manual : Manual} {handler : Handler} {x : Builtin}
    (h : x ∈ cat.register name category others manual handler) :
    x ∈ cat ∨ x.handler = handler ∧ x.page.name ∈ name :: others := by
  have hothers : ∀ (cat : Catalog), x ∈ others.foldl
      (fun cat other => cat.put ⟨⟨other, category, true, manual⟩, handler⟩) cat →
      x ∈ cat ∨ x.handler = handler ∧ x.page.name ∈ others := by
    clear h
    induction others with
    | nil => exact fun _ h => .inl h
    | cons other others ih =>
        intro cat h
        rcases ih _ h with h | ⟨hh, hn⟩
        · rcases mem_put h with h | rfl
          · exact .inl h
          · exact .inr ⟨rfl, List.mem_cons_self⟩
        · exact .inr ⟨hh, List.mem_cons_of_mem _ hn⟩
  rcases hothers _ h with h | ⟨hh, hn⟩
  · rcases mem_put h with h | rfl
    · exact .inl h
    · exact .inr ⟨rfl, List.mem_cons_self⟩
  · exact .inr ⟨hh, List.mem_cons_of_mem _ hn⟩

/-- A catalog with more commands, each under all of its names. -/
def registerAll (cat : Catalog) (more : List Shipped) : Catalog :=
  more.foldl (fun cat c => cat.register c.name c.category c.others c.manual c.handler) cat

theorem mem_registerAll {cat : Catalog} {more : List Shipped} {x : Builtin}
    (h : x ∈ cat.registerAll more) :
    x ∈ cat ∨ ∃ c ∈ more, x.handler = c.handler ∧ x.page.name ∈ c.names := by
  induction more generalizing cat with
  | nil => exact .inl h
  | cons c more ih =>
      rcases ih h with h | ⟨d, hd, hx⟩
      · rcases mem_register h with h | hx
        · exact .inl h
        · exact .inr ⟨c, List.mem_cons_self, hx⟩
      · exact .inr ⟨d, List.mem_cons_of_mem _ hd, hx⟩

/-- Every command of the catalog is a shipped one, under one of its names. -/
theorem mem_standard {x : Builtin} (h : x ∈ standard) :
    ∃ c ∈ Command.shipped, x.handler = c.handler ∧ x.page.name ∈ c.name :: c.others := by
  have hall : x ∈ registerAll [] Command.shipped := h
  rcases mem_registerAll hall with h | h
  · exact absurd h List.not_mem_nil
  · exact h

/-! ## What is found by a name -/

theorem find?_put (cat : Catalog) (b : Builtin) (name : String) :
    (cat.put b).find? name = if b.page.name = name then some b else cat.find? name := by
  unfold put
  split
  · rename_i hsome
    obtain ⟨old, hold⟩ := Option.isSome_iff_exists.mp hsome
    -- The command that gives its place has the same name, so the search stops at the same place.
    have hmap : Catalog.find? (cat.map fun x => if x.page.name = b.page.name then b else x) name =
        (cat.find? name).map fun x => if x.page.name = b.page.name then b else x := by
      unfold find?
      rw [List.find?_map]
      congr 2
      funext x
      by_cases hx : x.page.name = b.page.name <;> simp [hx]
    rw [hmap]
    by_cases hname : b.page.name = name
    · rw [if_pos hname, ← hname, hold]
      simp [(of_find? hold).2]
    · rw [if_neg hname]
      cases hx : cat.find? name with
      | none => rfl
      | some x => simp [(of_find? hx).2, Ne.symm hname]
  · rename_i hnone
    rw [Option.not_isSome_iff_eq_none] at hnone
    unfold find? at hnone ⊢
    rw [List.find?_append]
    by_cases hname : b.page.name = name
    · rw [if_pos hname, ← hname, hnone]
      simp
    · simp [hname]

theorem find?_register (cat : Catalog) (name : String) (category : Category) (others : List String)
    (manual : Manual) (handler : Handler) (n : String) :
    ((cat.register name category others manual handler).find? n).map (·.handler) =
      if n ∈ name :: others then some handler else (cat.find? n).map (·.handler) := by
  have hothers : ∀ cat : Catalog,
      ((others.foldl (fun cat other => cat.put ⟨⟨other, category, true, manual⟩, handler⟩)
        cat).find? n).map (·.handler) =
        if n ∈ others then some handler else (cat.find? n).map (·.handler) := by
    induction others with
    | nil => exact fun cat => by simp
    | cons other others ih =>
        intro cat
        rw [List.foldl_cons, ih, find?_put]
        by_cases hn : other = n
        · simp [hn]
        · simp [hn, Ne.symm hn]
  rw [register, hothers, find?_put]
  by_cases hn : name = n
  · simp [hn]
  · simp [hn, Ne.symm hn]

theorem shipped_apart : shipped.Pairwise fun c d => ∀ n ∈ c.names, n ∉ d.names := by
  decide +kernel

/-- What is found by a name is the shipped command that has it. -/
theorem find?_standard (name : String) :
    (standard.find? name).map (·.handler) = (shipped.find? (name ∈ ·.names)).map (·.handler) := by
  have hfold : ∀ (cs : List Shipped) (cat : Catalog),
      (cs.Pairwise fun c d => ∀ n ∈ c.names, n ∉ d.names) →
      (∀ c ∈ cs, name ∈ c.names → cat.find? name = none) →
      ((cs.foldl (fun cat c => cat.register c.name c.category c.others c.manual c.handler)
        cat).find? name).map (·.handler) =
        ((cat.find? name).map (·.handler)).or ((cs.find? (name ∈ ·.names)).map (·.handler)) := by
    intro cs
    induction cs with
    | nil => exact fun cat _ _ => by simp
    | cons c cs ih =>
        intro cat hapart hfree
        obtain ⟨hc, hcs⟩ := List.pairwise_cons.mp hapart
        have hfound := find?_register cat c.name c.category c.others c.manual c.handler name
        rw [← Shipped.names] at hfound
        rw [List.foldl_cons, ih _ hcs, hfound]
        · by_cases hn : name ∈ c.names
          · simp [hn, hfree c (by simp) hn]
          · simp [hn]
        · intro d hd hn
          rw [if_neg fun h => hc d hd name h hn, hfree d (by simp [hd]) hn] at hfound
          simpa using hfound
  simpa [standard, find?] using hfold shipped [] shipped_apart (by simp [find?])

end Catalog

end Shellbox
