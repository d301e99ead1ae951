import Shellbox.Proofs.Command.Registry
import Shellbox.Proofs.Line.Conservation
import Shellbox.Proofs.Shell.Aliasing
import Shellbox.Proofs.Shell.Expansion

/-!
# What a name means and what it runs

A line of words takes one of three courses: a text takes the place of its first word, a command is
called, or the first word is refused. What `type` says of a name is the course that a line of this
name alone takes, however the aliases and the commands came to be what they are.
-/

namespace Shellbox

open Text Line

/-! ## The courses of a line -/

/-- What becomes of the first word of a line. -/
inductive Course where
  /-- It is an alias, and the text takes its place. -/
  | expands (text : String)
  /-- It is no alias, and a command of this name is called. -/
  | calls (b : Builtin)
  /-- It is no alias, and no command has this name. -/
  | refuses

/-- A typed line of words takes a course, leaves a session and gives an outcome. What takes the
place of an alias is run as it is, be it made of words or not. -/
inductive Takes (env : Environment) (s : Session) (typed : String) :
    Course → Session → Outcome → Prop
  | expands {first rest text s' o} (hne : trim typed ≠ "")
      (hfirst : splitFirstWord (trim typed) = (first, rest))
      (halias : s.aliases.lookup first = some text)
      (hrun : Runs env (s.recording typed) (if rest.isEmpty then text else text ++ " " ++ rest)
        s' o) : Takes env s typed (.expands text) s' o
  | calls {name args b s' reply} (hwords : scan (trim typed) = (name :: args).map .word)
      (halias : s.aliases.lookup (splitFirstWord (trim typed)).1 = none)
      (hb : env.catalog.find? name = some b)
      (hcall : b.handler env.context (s.recording typed) args none = (s', reply)) :
      Takes env s typed (.calls b) s' (settle name reply)
  | refuses {name args} (hwords : scan (trim typed) = (name :: args).map .word)
      (halias : s.aliases.lookup (splitFirstWord (trim typed)).1 = none)
      (hb : env.catalog.find? name = none) :
      Takes env s typed .refuses (s.recording typed)
        (.errorCode ("Command not found: " ++ name ++ ". Type 'help' for available commands.") 127)

variable {env : Environment} {s s' s'' : Session} {o o' : Outcome} {name typed text : String}
  {args : List String}

theorem execute_eq_runExpanded (h : trim typed ≠ "") :
    execute env s typed =
      runExpanded env (s.recording typed) (expandAlias s.aliases (trim typed)) := by
  have hexpanded : expanded? s.aliases typed = some (expandAlias s.aliases (trim typed)) := by
    rw [expanded?, if_neg (by rwa [String.isEmpty_iff])]
  rw [execute_eq_runStages hexpanded, ← runExpanded_eq_runStages]

/-- A line of words whose first word is no alias calls it with the others. -/
theorem execute_words (hwords : scan (trim typed) = (name :: args).map .word)
    (halias : s.aliases.lookup (splitFirstWord (trim typed)).1 = none) :
    execute env s typed = runWords env (s.recording typed) (name :: args) none := by
  have hne : trim typed ≠ "" := by
    intro hempty
    rw [hempty] at hwords
    cases hwords
  have hsame : expandAlias s.aliases (trim typed) = trim typed := by
    simp only [expandAlias, halias]
  rw [execute_eq_runExpanded hne, hsame]
  simp only [runExpanded, hasPipe_of_words hwords, hasRedirect_of_words hwords,
    tokenTexts_of_words hwords, Bool.false_eq_true, ↓reduceIte]

namespace Takes

variable {c c' : Course}

/-- Executing a line leaves what its course leaves. -/
theorem execute_eq (h : Takes env s typed c s' o) : execute env s typed = (s', o) := by
  cases h with
  | expands hne hfirst halias hrun =>
      rw [execute_eq_runExpanded hne, runExpanded_eq_iff]
      simpa only [expandAlias, hfirst, halias] using hrun
  | calls hwords halias hb hcall =>
      rw [execute_words hwords halias]
      simp only [runWords, hb, Environment.call, hcall]
  | refuses hwords halias hb =>
      rw [execute_words hwords halias]
      simp only [runWords, hb, notFoundOutcome]

/-- A line takes one course only. -/
theorem course_unique (h : Takes env s typed c s' o) (h' : Takes env s typed c' s'' o') :
    c = c' := by
  have hsame {name name' : String} {args args' : List String}
      (hwords : scan (trim typed) = (name :: args).map .word)
      (hwords' : scan (trim typed) = (name' :: args').map .word) : name = name' := by
    have hsame := (tokenTexts_of_words hwords).symm.trans (tokenTexts_of_words hwords')
    exact (List.cons.inj hsame).1
  cases h with
  | expands _ hfirst halias =>
      cases h' with
      | expands _ hfirst' halias' =>
          cases hfirst.symm.trans hfirst'
          rw [Option.some_inj.mp (halias.symm.trans halias')]
      | calls _ hnone | refuses _ hnone =>
          rw [hfirst, halias] at hnone
          cases hnone
  | calls hwords hnone hb =>
      cases h' with
      | expands _ hfirst halias =>
          rw [hfirst, halias] at hnone
          cases hnone
      | calls hwords' _ hb' =>
          cases hsame hwords hwords'
          rw [Option.some_inj.mp (hb.symm.trans hb')]
      | refuses hwords' _ hb' =>
          cases hsame hwords hwords'
          cases hb.symm.trans hb'
  | refuses hwords hnone hb =>
      cases h' with
      | expands _ hfirst halias =>
          rw [hfirst, halias] at hnone
          cases hnone
      | calls hwords' _ hb' =>
          cases hsame hwords hwords'
          cases hb.symm.trans hb'
      | refuses => rfl

end Takes

/-- Every line of words takes a course. -/
theorem exists_takes (hwords : scan (trim typed) = (name :: args).map .word) :
    ∃ c, Takes env s typed c (execute env s typed).1 (execute env s typed).2 := by
  obtain ⟨c, s', o, h⟩ : ∃ c s' o, Takes env s typed c s' o := by
    cases halias : s.aliases.lookup (splitFirstWord (trim typed)).1 with
    | some text =>
        refine ⟨_, _, _, .expands ?_ rfl halias (runExpanded_runs _ _ _)⟩
        intro hempty
        rw [hempty] at hwords
        cases hwords
    | none =>
        cases hb : env.catalog.find? name with
        | some b => exact ⟨_, _, _, .calls hwords halias hb rfl⟩
        | none => exact ⟨_, _, _, .refuses hwords halias hb⟩
  rw [h.execute_eq]
  exact ⟨c, h⟩

/-! ## Lines of one plain name -/

/-- A name that reads as one word wherever it stands. -/
structure IsPlainName (name : String) : Prop where
  ne_empty : name ≠ ""
  plain : ∀ c ∈ name.toList, isBlank c = false ∧ c ∉ ['\'', '"', '\\', '|', '>']

namespace IsPlainName

theorem trim_eq (h : IsPlainName name) : trim name = name := by
  rw [trim, trimChars_of_not_blank fun c hc => (h.plain c hc).1, String.ofList_toList]

theorem splitFirstWord_eq (h : IsPlainName name) : splitFirstWord name = (name, "") := by
  have hsplit : splitFirstWord (name ++ "" ++ "") = (name, trim "") :=
    splitFirstWord_append (fun c hc => (h.plain c hc).1) (by simp) fun _ => rfl
  have hempty : trim "" = "" := rfl
  simpa [hempty] using hsplit

theorem scan_trim (h : IsPlainName name) : scan (trim name) = [name].map .word := by
  have hword : IsWord name.toList :=
    ⟨by simpa using h.ne_empty, fun c hc => (h.plain c hc).1⟩
  rw [h.trim_eq, scan, labels, label_plain fun c hc => (h.plain c hc).2,
    (gather_plain name.toList).1, wordsChars_word hword]
  simp

theorem eq_of_words {first : String} (h : IsPlainName name)
    (hwords : scan (trim name) = (first :: args).map .word) : name = first ∧ [] = args :=
  List.cons.inj ((tokenTexts_of_words h.scan_trim).symm.trans (tokenTexts_of_words hwords))

theorem lookup_firstWord (h : IsPlainName name) (aliases : Aliases) :
    aliases.lookup (splitFirstWord (trim name)).1 = aliases.lookup name := by
  rw [h.trim_eq, h.splitFirstWord_eq]

theorem takes_expands_iff (h : IsPlainName name) :
    (∃ s' o, Takes env s name (.expands text) s' o) ↔ s.aliases.lookup name = some text := by
  constructor
  · rintro ⟨s', o, ⟨-, hfirst, halias, -⟩⟩
    rw [h.trim_eq, h.splitFirstWord_eq] at hfirst
    cases hfirst
    exact halias
  · intro halias
    have hne : trim name ≠ "" := by
      rw [h.trim_eq]
      exact h.ne_empty
    have hfirst : splitFirstWord (trim name) = (name, "") := by
      rw [h.trim_eq, h.splitFirstWord_eq]
    exact ⟨_, _, .expands hne hfirst halias (runExpanded_runs _ _ _)⟩

theorem takes_calls_iff (h : IsPlainName name) :
    (∃ b s' o, Takes env s name (.calls b) s' o) ↔
      s.aliases.lookup name = none ∧ (env.catalog.find? name).isSome := by
  rw [← h.lookup_firstWord]
  constructor
  · rintro ⟨b, s', o, hcourse⟩
    cases hcourse with
    | calls hwords halias hb =>
        obtain ⟨rfl, -⟩ := h.eq_of_words hwords
        exact ⟨halias, by rw [hb]; rfl⟩
  · rintro ⟨halias, hfound⟩
    obtain ⟨b, hb⟩ := Option.isSome_iff_exists.mp hfound
    exact ⟨b, _, _, .calls h.scan_trim halias hb rfl⟩

theorem takes_refuses_iff (h : IsPlainName name) :
    Takes env s name .refuses (s.recording name)
        (.errorCode ("Command not found: " ++ name ++ ". Type 'help' for available commands.")
          127) ↔
      s.aliases.lookup name = none ∧ env.catalog.find? name = none := by
  rw [← h.lookup_firstWord s.aliases]
  constructor
  · intro hcourse
    generalize s.recording name = left, Outcome.errorCode _ 127 = o at hcourse
    cases hcourse with
    | refuses hwords halias hb =>
        obtain ⟨rfl, -⟩ := h.eq_of_words hwords
        exact ⟨halias, hb⟩
  · rintro ⟨halias, hb⟩
    exact .refuses h.scan_trim halias hb

end IsPlainName

/-! ## What is said of a name -/

/-- Asked for a name, `type` answers with a row. -/
def Reports (env : Environment) (s : Session) (name row : String) : Prop :=
  ∀ piped, Command.type env.context s [name] piped = (s, .ok (.ready (.ok row)))

namespace Command

theorem row_inj (name : String) {m m' : Meaning} : m.row name = m'.row name ↔ m = m' := by
  cases m <;> cases m' <;> simp [Meaning.row, ← String.toList_inj]

theorem pageOf?_pages (cat : Catalog) (name : String) :
    pageOf? cat.pages name = (cat.find? name).map (·.page) := by
  rw [pageOf?, Catalog.pages, List.find?_map, Catalog.find?]
  rfl

end Command

open Command (Meaning meaningOf)

theorem reports_iff (m : Meaning) :
    Reports env s name (m.row name) ↔ meaningOf s.aliases env.catalog.pages name = m := by
  have hsaid (piped : Option String) : Command.type env.context s [name] piped =
      (s, .ok (.ready (.ok ((meaningOf s.aliases env.catalog.pages name).row name)))) := by
    simp [Command.type, Handler.looking, joinLines, Environment.context]
  simp only [Reports, hsaid, ← Command.row_inj name]
  simp [Outcome.ok]

theorem reports_aliased_iff :
    Reports env s name (name ++ " is aliased to `" ++ text ++ "`") ↔
      s.aliases.lookup name = some text := by
  refine (reports_iff (.aliased text)).trans ?_
  unfold meaningOf
  cases s.aliases.lookup name with
  | some t => simp
  | none => cases h : Command.pageOf? env.catalog.pages name <;> simp

theorem reports_builtin_iff :
    Reports env s name (name ++ " is a shell builtin") ↔
      s.aliases.lookup name = none ∧ (env.catalog.find? name).isSome := by
  refine (reports_iff .builtin).trans ?_
  rw [meaningOf, Command.pageOf?_pages, Option.isSome_map]
  cases s.aliases.lookup name with
  | some t => simp
  | none => cases env.catalog.find? name <;> simp

theorem reports_unknown_iff :
    Reports env s name (name ++ ": not found") ↔
      s.aliases.lookup name = none ∧ env.catalog.find? name = none := by
  refine (reports_iff .unknown).trans ?_
  rw [meaningOf, Command.pageOf?_pages, Option.isSome_map]
  cases s.aliases.lookup name with
  | some t => simp
  | none => cases env.catalog.find? name <;> simp

/-- What `type` says of a name is the course of the line of this name alone. -/
structure TellsWhatRuns (env : Environment) (s : Session) (name : String) : Prop where
  one_course : ∃! c, ∃ s' o, Takes env s name c s' o
  executed : ∀ s' o, execute env s name = (s', o) ↔ ∃ c, Takes env s name c s' o
  aliased : ∀ text, Reports env s name (name ++ " is aliased to `" ++ text ++ "`") ↔
    ∃ s' o, Takes env s name (.expands text) s' o
  builtin : Reports env s name (name ++ " is a shell builtin") ↔
    ∃ b s' o, Takes env s name (.calls b) s' o
  unknown : Reports env s name (name ++ ": not found") ↔
    Takes env s name .refuses (s.recording name)
      (.errorCode ("Command not found: " ++ name ++ ". Type 'help' for available commands.") 127)
  /-- Unless the command of this name answers in the words for a missing one, they tell enough. -/
  unknown_outcome : (∀ b, env.catalog.find? name = some b →
      settle name (b.handler env.context (s.recording name) [] none).2 ≠ notFoundOutcome name) →
    (Reports env s name (name ++ ": not found") ↔
      (∀ text s' o, ¬ Takes env s name (.expands text) s' o) ∧
        (execute env s name).2 = notFoundOutcome name)

namespace IsPlainName

theorem exists_course (h : IsPlainName name) (env : Environment) (s : Session) :
    ∃ c, Takes env s name c (execute env s name).1 (execute env s name).2 :=
  exists_takes h.scan_trim

theorem unknown_outcome_iff (h : IsPlainName name)
    (hothers : ∀ b, env.catalog.find? name = some b →
      settle name (b.handler env.context (s.recording name) [] none).2 ≠ notFoundOutcome name) :
    Reports env s name (name ++ ": not found") ↔
      (∀ text s' o, ¬ Takes env s name (.expands text) s' o) ∧
        (execute env s name).2 = notFoundOutcome name := by
  rw [reports_unknown_iff, ← h.takes_refuses_iff]
  constructor
  · intro hrefuses
    refine ⟨fun text s' o hexpands => ?_, by rw [hrefuses.execute_eq, notFoundOutcome]⟩
    cases hrefuses.course_unique hexpands
  · rintro ⟨hplain, houtcome⟩
    obtain ⟨c, hcourse⟩ := h.exists_course env s
    rw [houtcome] at hcourse
    generalize (execute env s name).1 = left, hsaid : notFoundOutcome name = o at hcourse
    cases hcourse with
    | expands hne hfirst halias hrun =>
        exact absurd (Takes.expands hne hfirst halias hrun) (hplain _ _ _)
    | calls hwords _ hb hcall =>
        obtain ⟨rfl, rfl⟩ := h.eq_of_words hwords
        have hanswer := hothers _ hb
        rw [hcall] at hanswer
        exact absurd hsaid.symm hanswer
    | refuses hwords halias hb =>
        obtain ⟨rfl, rfl⟩ := h.eq_of_words hwords
        exact .refuses hwords halias hb

theorem tellsWhatRuns (h : IsPlainName name) (env : Environment) (s : Session) :
    TellsWhatRuns env s name := by
  obtain ⟨c, hcourse⟩ := h.exists_course env s
  refine ⟨⟨c, ⟨_, _, hcourse⟩, ?_⟩, fun s' o => ⟨fun hrun => ?_, ?_⟩, fun text => ?_, ?_, ?_,
    h.unknown_outcome_iff⟩
  · rintro c' ⟨s', o, hother⟩
    exact hother.course_unique hcourse
  · rw [hrun] at hcourse
    exact ⟨c, hcourse⟩
  · rintro ⟨c', hother⟩
    exact hother.execute_eq
  · rw [reports_aliased_iff, h.takes_expands_iff]
  · rw [reports_builtin_iff, h.takes_calls_iff]
  · rw [reports_unknown_iff, h.takes_refuses_iff]

end IsPlainName

/-! ## Definitions and registrations -/

/-- A change to what names mean. -/
inductive Redefinition where
  | define (name text : String)
  | register (r : Registration)

namespace Redefinition

def apply : Environment × Session → Redefinition → Environment × Session
  | (env, s), .define name text => (env, { s with aliases := s.aliases.define name text })
  | (env, s), .register r => ({ env with catalog := env.catalog.accept r }, s)

/-- The text that the change gives to an alias of this name. -/
def text? (name : String) : Redefinition → Option String
  | .define other text => if other = name then some text else none
  | .register _ => none

/-- The names under which the change files a command. -/
def filedNames : Redefinition → List String
  | .define .. => []
  | .register r => r.assignments.map (·.1)

end Redefinition

/-- What changes leave of an environment and a session. -/
def redefine (env : Environment) (s : Session) (changes : List Redefinition) :
    Environment × Session :=
  changes.foldl Redefinition.apply (env, s)

variable {changes : List Redefinition}

/-- An alias has the text of its last definition. -/
theorem lookup_redefine :
    (redefine env s changes).2.aliases.lookup name =
      (changes.filterMap (·.text? name)).getLast?.or (s.aliases.lookup name) := by
  induction changes using List.reverseRecOn with
  | nil => rfl
  | append_singleton changes change ih =>
      rw [redefine, List.foldl_concat, ← redefine, List.filterMap_append]
      cases change with
      | define other text =>
          simp only [Redefinition.apply, Aliases.lookup_define, ih]
          by_cases hname : name = other
          · simp [hname, Redefinition.text?]
          · simp [hname, Ne.symm hname, Redefinition.text?]
      | register r => simpa [Redefinition.apply, Redefinition.text?] using ih

theorem mem_keys_assignments {α : Type} {log table : List (String × α)} :
    name ∈ (log.foldl assign table).map (·.1) ↔ name ∈ table.map (·.1) ∨ name ∈ log.map (·.1) := by
  induction log generalizing table with
  | nil => simp
  | cons entry log ih =>
      rw [List.foldl_cons, ih, keys_assign, List.map_cons, List.mem_cons]
      split
      · rename_i hthere
        constructor
        · exact Or.imp_right .inr
        · rintro (h | rfl | h)
          · exact .inl h
          · exact .inl hthere
          · exact .inr h
      · rw [List.mem_append, List.mem_singleton, or_assoc]

/-- A command once filed under a name stays there, if not the same one. -/
theorem find?_redefine :
    ((redefine env s changes).1.catalog.find? name).isSome ↔
      (env.catalog.find? name).isSome ∨ name ∈ changes.flatMap (·.filedNames) := by
  simp only [Catalog.find?_eq_lookup, lookup_isSome_iff_mem_keys]
  induction changes using List.reverseRecOn with
  | nil => simp [redefine]
  | append_singleton changes change ih =>
      rw [redefine, List.foldl_concat, ← redefine, List.flatMap_append, List.mem_append, ← or_assoc,
        ← ih]
      cases change with
      | define other text => simp [Redefinition.apply, Redefinition.filedNames]
      | register r =>
          simp only [Redefinition.apply, Catalog.filed_accept, mem_keys_assignments]
          simp [Redefinition.filedNames]

/-- After any changes to the aliases and the commands, `type` calls a plain name an alias with its
text, a builtin or unknown just as the line of this name alone is expanded to that text, calls a
command or is refused; and one of the three is so. A name is an alias with the text of its last
definition, and otherwise a builtin if a command was ever filed under it. -/
theorem type_tells_what_runs (env : Environment) (s : Session) (name : String) (hne : name ≠ "")
    (hplain : ∀ c ∈ name.toList, isBlank c = false ∧ c ∉ ['\'', '"', '\\', '|', '>'])
    (changes : List Redefinition) :
    let after := redefine env s changes
    let text? := (changes.filterMap (·.text? name)).getLast?.or (s.aliases.lookup name)
    TellsWhatRuns after.1 after.2 name ∧
    (∀ text, Reports after.1 after.2 name (name ++ " is aliased to `" ++ text ++ "`") ↔
      text? = some text) ∧
    (Reports after.1 after.2 name (name ++ " is a shell builtin") ↔
      text? = none ∧
        ((env.catalog.find? name).isSome ∨ name ∈ changes.flatMap (·.filedNames))) := by
  intro after text?
  have hname : IsPlainName name := ⟨hne, hplain⟩
  have hlookup : after.2.aliases.lookup name = text? := lookup_redefine
  refine ⟨hname.tellsWhatRuns after.1 after.2, fun text => ?_, ?_⟩
  · rw [reports_aliased_iff, hlookup]
  · rw [reports_builtin_iff, hlookup, find?_redefine]

theorem type_tells_what_runs_redefined :
    let env : Environment := ⟨Catalog.standard, 0⟩
    let s : Session := ⟨{}, .empty 0 "/home/user", .empty 10, .initial, []⟩
    let changes : List Redefinition := [.define "ls" "pwd",
      .register ⟨"gr~et", "fun", ["ls", "héllo"], {}, Command.whoami⟩,
      .define "ls" "echo a | rev", .register ⟨"lost", "games", [], {}, Command.whoami⟩]
    let after := redefine env s changes
    (∀ name ∈ ["ls", "héllo", "lost"], name ≠ "" ∧
      (∀ c ∈ name.toList, isBlank c = false ∧ c ∉ ['\'', '"', '\\', '|', '>']) ∧
      TellsWhatRuns after.1 after.2 name) ∧
    Reports after.1 after.2 "ls" "ls is aliased to `echo a | rev`" ∧
    (∃ s' o, Takes after.1 after.2 "ls" (.expands "echo a | rev") s' o) ∧
    Reports after.1 after.2 "héllo" "héllo is a shell builtin" ∧
    (execute after.1 after.2 "héllo").2 = .ok "guest" ∧
    ¬ Reports after.1 after.2 "lost" "lost is a shell builtin" ∧
    (execute after.1 after.2 "lost").2.exitCode = 127 := by
  intro env s changes after
  have hnames : ∀ name ∈ ["ls", "héllo", "lost"], name ≠ "" ∧
      ∀ c ∈ name.toList, isBlank c = false ∧ c ∉ ['\'', '"', '\\', '|', '>'] := by
    simp [isBlank]
  have htells := fun name hname =>
    type_tells_what_runs env s name (hnames name hname).1 (hnames name hname).2 changes
  obtain ⟨hls, haliased, -⟩ := htells "ls" (by simp)
  obtain ⟨-, -, hbuiltin⟩ := htells "héllo" (by simp)
  obtain ⟨-, -, hlost⟩ := htells "lost" (by simp)
  have hreports := (haliased "echo a | rev").mpr (by decide +kernel)
  refine ⟨fun name hname => ⟨(hnames name hname).1, (hnames name hname).2, (htells name hname).1⟩,
    hreports, (hls.aliased _).mp hreports, hbuiltin.mpr (by decide +kernel), by decide +kernel,
    fun h => absurd (hlost.mp h) (by decide +kernel), by decide +kernel⟩

end Shellbox
