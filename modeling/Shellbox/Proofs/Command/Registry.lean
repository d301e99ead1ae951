import Mathlib.Data.List.Induction
import Mathlib.Data.List.Nodup
import Shellbox.Proofs.Command.Catalog

/-!
# Registered commands

Registering assigns commands to names, one name after the other, as in a dictionary: a name stands
where it first came, with what it last got. So after any registrations every name has one command,
each visible command is listed once, under its category, and the overview has a row for it there.
-/

namespace Shellbox

open Command (Shipped shipped overviewRow overviewSection overviewLines)

variable {α : Type} {log table : List (String × α)} {key : String} {cat : Catalog}
  {pages : List Page} {p : Page} {c : Category}

/-! ## Dictionaries -/

/-- Assigns a value to a key: a key that is there keeps its place, and a new one comes last. -/
def assign (table : List (String × α)) (entry : String × α) : List (String × α) :=
  if (table.lookup entry.1).isSome then table.map fun x => if x.1 = entry.1 then entry else x
  else table ++ [entry]

/-- The dictionary that assignments make. -/
def dictionary (log : List (String × α)) : List (String × α) := log.foldl assign []

theorem lookup_isSome_iff_mem_keys :
    (table.lookup key).isSome ↔ key ∈ table.map (·.1) := by
  rw [List.lookup_isSome_iff, List.mem_map]
  exact exists_congr fun x => and_congr_right fun _ => beq_iff_eq.trans eq_comm

theorem keys_assign (table : List (String × α)) (entry : String × α) :
    (assign table entry).map (·.1) =
      if entry.1 ∈ table.map (·.1) then table.map (·.1) else table.map (·.1) ++ [entry.1] := by
  simp only [assign, lookup_isSome_iff_mem_keys]
  split
  · rw [List.map_map]
    refine List.map_congr_left fun x _ => ?_
    by_cases hx : x.1 = entry.1 <;> simp [hx]
  · rw [List.map_append, List.map_singleton]

theorem eraseDups_concat (ks : List String) (k : String) :
    (ks ++ [k]).eraseDups = if k ∈ ks then ks.eraseDups else ks.eraseDups ++ [k] := by
  have hone : [k].eraseDups = [k] := by rw [List.eraseDups_cons]; rfl
  rw [List.eraseDups_append]
  by_cases hk : k ∈ ks <;> simp [List.removeAll, hk, hone]

/-- The keys stand in the order in which they first came. -/
theorem keys_dictionary (log : List (String × α)) :
    (dictionary log).map (·.1) = (log.map (·.1)).eraseDups := by
  induction log using List.reverseRecOn with
  | nil => rfl
  | append_singleton log entry ih =>
      rw [dictionary, List.foldl_concat, ← dictionary, keys_assign, ih, List.map_append,
        List.map_singleton, eraseDups_concat]
      simp only [List.mem_eraseDups]

theorem nodup_keys_dictionary (log : List (String × α)) :
    ((dictionary log).map (·.1)).Nodup := by
  induction log using List.reverseRecOn with
  | nil => exact List.nodup_nil
  | append_singleton log entry ih =>
      rw [dictionary, List.foldl_concat, ← dictionary, keys_assign]
      split
      · exact ih
      · rename_i hnew
        exact List.nodup_append.mpr ⟨ih, by simp, fun k hk k' hk' hkk => hnew <| by
          rwa [← List.mem_singleton.mp hk', ← hkk]⟩

/-! ## Registrations -/

/-- A request to add a command, its category given by name. -/
structure Registration where
  name : String
  category : String
  others : List String
  manual : Manual
  handler : Handler

namespace Registration

/-- The names that are assigned, each with its command; none if there is no such category. -/
def assignments (r : Registration) : List (String × Builtin) :=
  match Category.ofName? r.category with
  | none => []
  | some c => (r.name, ⟨⟨r.name, c, false, r.manual⟩, r.handler⟩) ::
      r.others.map fun other => (other, ⟨⟨other, c, true, r.manual⟩, r.handler⟩)

def ofShipped (c : Shipped) : Registration :=
  ⟨c.name, c.category.name, c.others, c.manual, c.handler⟩

end Registration

theorem Category.ofName?_name (c : Category) : Category.ofName? c.name = some c := by
  cases c <;> decide

theorem Category.ofName?_eq_none_iff {name : String} :
    Category.ofName? name = none ↔ name ∉ Category.all.map Category.name := by
  simp [Category.ofName?]

namespace Catalog

def register? (cat : Catalog) (r : Registration) : Option Catalog :=
  cat.registerIn? r.name r.category r.others r.manual r.handler

/-- The catalog after a registration; one that is refused changes nothing. -/
def accept (cat : Catalog) (r : Registration) : Catalog := (cat.register? r).getD cat

def acceptAll (cat : Catalog) (rs : List Registration) : Catalog := rs.foldl accept cat

/-- The commands under their names. -/
def filed (cat : Catalog) : List (String × Builtin) := cat.map fun b => (b.page.name, b)

theorem find?_eq_lookup (cat : Catalog) (name : String) :
    cat.find? name = cat.filed.lookup name := by
  induction cat with
  | nil => rfl
  | cons b cat ih =>
      rw [find?, List.find?_cons, ← find?, filed, List.map_cons, List.lookup_cons, ← filed, ih]
      by_cases hname : b.page.name = name
      · simp [hname]
      · have hkey : (name == b.page.name) = false := by simpa using Ne.symm hname
        simp [hname, hkey]

theorem filed_put (cat : Catalog) (b : Builtin) :
    (cat.put b).filed = assign cat.filed (b.page.name, b) := by
  rw [assign, put, find?_eq_lookup]
  split
  · simp only [filed, List.map_map]
    refine List.map_congr_left fun x _ => ?_
    by_cases hx : x.page.name = b.page.name <;> simp [hx]
  · simp [filed]

theorem filed_accept (cat : Catalog) (r : Registration) :
    (cat.accept r).filed = r.assignments.foldl assign cat.filed := by
  have hothers : ∀ (c : Category) (others : List String) (cat : Catalog),
      (others.foldl (fun cat other => cat.put ⟨⟨other, c, true, r.manual⟩, r.handler⟩) cat).filed =
        (others.map fun other => (other, (⟨⟨other, c, true, r.manual⟩, r.handler⟩ : Builtin))).foldl
          assign cat.filed := by
    intro c others
    induction others with
    | nil => exact fun _ => rfl
    | cons other others ih => exact fun cat => by rw [List.foldl_cons, ih, filed_put]; rfl
  rw [accept, register?, registerIn?, Registration.assignments]
  cases Category.ofName? r.category with
  | none => rfl
  | some c => rw [Option.map_some, Option.getD_some, register, hothers, filed_put]; rfl

theorem filed_acceptAll (cat : Catalog) (rs : List Registration) :
    (cat.acceptAll rs).filed = (rs.flatMap Registration.assignments).foldl assign cat.filed := by
  induction rs generalizing cat with
  | nil => rfl
  | cons r rs ih =>
      rw [acceptAll, List.foldl_cons, ← acceptAll, ih, filed_accept, List.flatMap_cons,
        List.foldl_append]

theorem standard_eq_acceptAll :
    standard = acceptAll [] (shipped.map Registration.ofShipped) := by
  rw [standard, acceptAll, List.foldl_map]
  congr 1
  funext cat c
  rw [accept, register?, registerIn?, Registration.ofShipped, Category.ofName?_name]
  rfl

/-- The names that shipped and later registrations assign. -/
def assigned (rs : List Registration) : List (String × Builtin) :=
  (shipped.map Registration.ofShipped ++ rs).flatMap Registration.assignments

theorem filed_standard_acceptAll (rs : List Registration) :
    (standard.acceptAll rs).filed = dictionary (assigned rs) := by
  rw [filed_acceptAll, standard_eq_acceptAll, filed_acceptAll, dictionary, assigned,
    List.flatMap_append, List.foldl_append]
  rfl

end Catalog

/-! ## Lists of visible commands -/

theorem Category.mem_all (c : Category) : c ∈ Category.all := by
  cases c <;> decide

theorem mem_visiblePages :
    p ∈ visiblePages pages c ↔ p ∈ pages ∧ p.category = c ∧ p.hidden = false := by
  simp [visiblePages]

/-- The visible commands of all categories, one category after the other. -/
def listedPages (pages : List Page) : List Page := Category.all.flatMap (visiblePages pages)

theorem mem_listedPages : p ∈ listedPages pages ↔ p ∈ pages ∧ p.hidden = false := by
  simp only [listedPages, List.mem_flatMap, mem_visiblePages]
  constructor
  · rintro ⟨c, -, hp, -, hshown⟩
    exact ⟨hp, hshown⟩
  · rintro ⟨hp, hshown⟩
    exact ⟨p.category, p.category.mem_all, hp, rfl, hshown⟩

theorem nodup_listedPages (h : pages.Nodup) : (listedPages pages).Nodup := by
  have hall : Category.all.Nodup := by decide
  refine List.nodup_flatMap.mpr ⟨fun c _ => h.filter _, hall.imp fun {c d} hne p hc hd => ?_⟩
  exact hne ((mem_visiblePages.mp hc).2.1.symm.trans (mem_visiblePages.mp hd).2.1)

/-! ## The overview -/

/-- The categories that have visible commands, with these. -/
def overviewBlocks (pages : List Page) : List (Category × List Page) :=
  (Category.all.map fun c => (c, visiblePages pages c)).filter (!·.2.isEmpty)

/-- Each category with visible commands has its title, for each of these a row with the name filled
up to twelve characters and the summary, and an empty line. -/
theorem overviewLines_eq (pages : List Page) :
    overviewLines pages = ["Available commands:", ""] ++
      (overviewBlocks pages).flatMap (fun x => x.1.title :: x.2.map (fun p =>
        "  " ++ p.name.pushn ' ' (12 - p.name.length) ++ p.manual.summary) ++ [""]) ++
      ["Type 'help <command>' for detailed information about a specific command.",
        "Type 'man <command>' for full manual pages."] := by
  have hblocks : ∀ cs : List Category, cs.flatMap (overviewSection pages) =
      ((cs.map fun c => (c, visiblePages pages c)).filter (!·.2.isEmpty)).flatMap fun x =>
        x.1.title :: x.2.map overviewRow ++ [""] := by
    intro cs
    induction cs with
    | nil => rfl
    | cons c cs ih =>
        rw [List.flatMap_cons, ih, List.map_cons, List.filter_cons]
        by_cases hnone : visiblePages pages c = []
        · simp [overviewSection, hnone]
        · simp [overviewSection, hnone]
  rw [overviewLines, hblocks, overviewBlocks]
  rfl

theorem flatMap_overviewBlocks (pages : List Page) :
    (overviewBlocks pages).flatMap (·.2) = listedPages pages := by
  rw [overviewBlocks, listedPages]
  induction Category.all with
  | nil => rfl
  | cons c cs ih =>
      rw [List.map_cons, List.filter_cons, List.flatMap_cons, ← ih]
      by_cases hnone : visiblePages pages c = []
      · simp [hnone]
      · simp [hnone]

theorem of_mem_overviewBlocks {x : Category × List Page} (h : x ∈ overviewBlocks pages) :
    x.2 ≠ [] ∧ ∀ p ∈ x.2, p.category = x.1 := by
  obtain ⟨hx, hne⟩ := List.mem_filter.mp h
  obtain ⟨c, -, rfl⟩ := List.mem_map.mp hx
  exact ⟨by simpa using hne, fun p hp => (mem_visiblePages.mp hp).2.1⟩

theorem overviewBlocks_sublist (pages : List Page) :
    ((overviewBlocks pages).map (·.1)).Sublist Category.all := by
  have hmap : (Category.all.map fun c => (c, visiblePages pages c)).map (·.1) = Category.all := by
    rw [List.map_map]
    exact List.map_id _
  rw [← hmap]
  exact List.filter_sublist.map _

/-! ## Any registrations -/

/-- The catalog holds what was assigned to names, each under its name; the visible commands are
listed once, under their categories and in the order in which their names first came, and so they
are in the overview. -/
structure Catalog.Consistent (cat : Catalog) (log : List (String × Builtin)) : Prop where
  filed_eq : cat.filed = dictionary log
  found : ∀ name b, cat.find? name = some b →
    b.page.name = name ∧ b.page.category.name ∈ Category.all.map Category.name
  listed : ∀ b ∈ cat, b.page.hidden = false → ∃! c, b.page ∈ visiblePages cat.pages c
  unlisted : ∀ b ∈ cat, b.page.hidden → ∀ c, b.page ∉ visiblePages cat.pages c
  listed_once : (listedPages cat.pages).Nodup ∧
    ∀ p, p ∈ listedPages cat.pages ↔ p ∈ cat.pages ∧ p.hidden = false
  in_order : ∀ c, ((visiblePages cat.pages c).map (·.name)).Sublist (log.map (·.1)).eraseDups
  overview : ∃ blocks : List (Category × List Page),
    (∀ now s piped, Command.help ⟨now, cat.pages⟩ s [] piped =
      (s, .ok (.ready (.ok (Text.joinLines (["Available commands:", ""] ++
        blocks.flatMap (fun x => x.1.title :: x.2.map (fun p =>
          "  " ++ p.name.pushn ' ' (12 - p.name.length) ++ p.manual.summary) ++ [""]) ++
        ["Type 'help <command>' for detailed information about a specific command.",
          "Type 'man <command>' for full manual pages."])))))) ∧
    (blocks.map (·.1)).Sublist Category.all ∧
    (∀ x ∈ blocks, x.2 ≠ [] ∧ ∀ p ∈ x.2, p.category = x.1) ∧
    (blocks.flatMap (·.2)).Nodup ∧
    ∀ p, p ∈ blocks.flatMap (·.2) ↔ p ∈ cat.pages ∧ p.hidden = false

namespace Catalog

theorem pages_names (cat : Catalog) : cat.pages.map (·.name) = cat.filed.map (·.1) := by
  simp [pages, filed]

theorem consistent_of_filed {log : List (String × Builtin)} (h : cat.filed = dictionary log) :
    cat.Consistent log := by
  have hnames : cat.pages.map (·.name) = (log.map (·.1)).eraseDups := by
    rw [pages_names, h, keys_dictionary]
  have hnodup : cat.pages.Nodup := by
    refine .of_map (·.name) ?_
    rw [pages_names, h]
    exact nodup_keys_dictionary log
  refine ⟨h, fun name b hb => ?_, fun b hb hshown => ?_, fun b _ hhidden c hlisted => ?_,
    ⟨nodup_listedPages hnodup, fun _ => mem_listedPages⟩, fun c => ?_,
    overviewBlocks cat.pages, fun now s piped => ?_, overviewBlocks_sublist _,
    fun _ => of_mem_overviewBlocks, ?_, fun p => ?_⟩
  · exact ⟨(of_find? hb).2, List.mem_map_of_mem b.page.category.mem_all⟩
  · have hpage : b.page ∈ cat.pages := List.mem_map_of_mem hb
    exact ⟨b.page.category, mem_visiblePages.mpr ⟨hpage, rfl, hshown⟩,
      fun c hc => (mem_visiblePages.mp hc).2.1.symm⟩
  · rw [(mem_visiblePages.mp hlisted).2.2] at hhidden
    cases hhidden
  · rw [← hnames]
    exact List.filter_sublist.map _
  · rw [← overviewLines_eq]
    rfl
  · rw [flatMap_overviewBlocks]
    exact nodup_listedPages hnodup
  · rw [flatMap_overviewBlocks, mem_listedPages]

end Catalog

/-- After any registrations the catalog is consistent; one in an unknown category is refused and
changes nothing. -/
theorem registrations_consistent :
    Category.all.map (fun c => (c.name, c.title)) =
      [("navigation", "NAVIGATION"), ("files", "FILES"), ("text", "TEXT PROCESSING"),
        ("encoding", "ENCODING"), ("utility", "UTILITY"), ("fun", "FUN")] ∧
    (∀ rs : List Registration,
      (Catalog.standard.acceptAll rs).Consistent (Catalog.assigned rs)) ∧
    ∀ (cat : Catalog) (r : Registration),
      (cat.register? r = none ↔
        r.category ∉ ["navigation", "files", "text", "encoding", "utility", "fun"]) ∧
      (cat.register? r = none → cat.accept r = cat) := by
  refine ⟨rfl, fun rs => Catalog.consistent_of_filed (Catalog.filed_standard_acceptAll rs),
    fun cat r => ⟨?_, fun h => ?_⟩⟩
  · rw [Catalog.register?, Catalog.registerIn?, Option.map_eq_none_iff,
      Category.ofName?_eq_none_iff]
    rfl
  · rw [Catalog.accept, h, Option.getD_none]

theorem registrations_consistent_shown_again :
    let greet : Registration := ⟨"greet", "fun", ["ls", "hail"], {}, Command.whoami⟩
    let lost : Registration := ⟨"lost", "games", ["cat"], {}, Command.whoami⟩
    let list : Registration := ⟨"ls", "utility", [], {}, Command.whoami⟩
    let before := Catalog.standard.acceptAll [greet, lost]
    let after := Catalog.standard.acceptAll [greet, lost, list]
    before.Consistent (Catalog.assigned [greet, lost]) ∧
    after.Consistent (Catalog.assigned [greet, lost, list]) ∧
    (∃ b ∈ before, b.page.name = "ls" ∧ ∀ c, b.page ∉ visiblePages before.pages c) ∧
    (∃ b ∈ after, b.page.name = "ls" ∧ b.page ∈ visiblePages after.pages .utility ∧
      ∃! c, b.page ∈ visiblePages after.pages c) ∧
    before.register? lost = none ∧ before.accept lost = before := by
  intro greet lost list before after
  obtain ⟨-, hrun, hrefused⟩ := registrations_consistent
  have hhidden : ∃ b ∈ before, b.page.name = "ls" ∧ b.page.hidden := by decide +kernel
  have hshown : ∃ b ∈ after,
      b.page.name = "ls" ∧ b.page ∈ visiblePages after.pages .utility := by
    decide +kernel
  obtain ⟨b, hb, hname, hhide⟩ := hhidden
  obtain ⟨d, hd, hname', hlisted⟩ := hshown
  have hnone := (hrefused before lost).1.mpr (by decide)
  exact ⟨hrun _, hrun _, ⟨b, hb, hname, (hrun [greet, lost]).unlisted b hb hhide⟩,
    ⟨d, hd, hname', hlisted,
      (hrun [greet, lost, list]).listed d hd (mem_visiblePages.mp hlisted).2.2⟩,
    hnone, (hrefused before lost).2 hnone⟩

end Shellbox
