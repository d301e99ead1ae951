import Shellbox.Proofs.Command.Readers
import Shellbox.Proofs.Command.Search
import Shellbox.Proofs.Pattern.Literal

/-!
# What `grep` selects

A pattern of letters, digits and blanks selects the lines that contain it. Of the lines of files,
each is selected either by a run or by the run with `-v`, whatever the pattern; the code of a run
tells whether a file could not be read and whether a line was selected.
-/

namespace Shellbox.Command

open Filesystem Text Pattern

variable {fs : Filesystem} {s : Session} {args paths targets : List String} {pattern text : String}
  {piped : Option String} {p : Regex}

theorem runWords_grepWith (now : Instant) (s : Session) (piped : Option String)
    (hoperands : (Arguments.ofWords args).operands = pattern :: paths)
    (hcompile : compile pattern ((Arguments.ofWords args).has 'i') = .ok p) :
    runWords ⟨Catalog.standard, now⟩ s ("grep" :: args) piped =
      (s, grepWith ⟨p, (Arguments.ofWords args).has 'v', (Arguments.ofWords args).has 'n'⟩
        ((Arguments.ofWords args).has 'r') s.fs paths piped) := by
  rw [runWords_standard "grep" grep rfl]
  simp only [grep, Handler.trying, hoperands, hcompile, Except.map, settle, Reply.resolve]

/-! ## Lines that contain a text -/

theorem linesOutcome_eq (rows : List String) :
    linesOutcome rows =
      if rows = [] then ⟨"", false, 1, []⟩ else ⟨joinLines rows, true, 0, []⟩ := by
  cases rows <;> rfl

theorem grepWith_input (c : LineChoice) (recursive : Bool)
    (hinput : piped = some text ∨ piped = none ∧ ∃ f, paths = [f] ∧ fs.read (some f) = .ok text) :
    grepWith c recursive fs paths piped = linesOutcome (c.select "" text) := by
  rcases hinput with rfl | ⟨rfl, f, rfl, hread⟩
  · rfl
  · rw [grepWith_file hread]
    rfl

theorem chooses_literal {folded inverted numbered : Bool} {line : String}
    (hoccurs : p.occursIn line ↔ Contains folded pattern line) :
    LineChoice.chooses ⟨p, inverted, numbered⟩ line =
      (decide (Contains folded pattern line) != inverted) := by
  have hequal := Bool.eq_iff_iff.mpr (hoccurs.trans decide_eq_true_iff.symm)
  rw [LineChoice.chooses, hequal]

/-- A pattern of letters, digits and blanks selects the lines that contain it, or under `-v` those
that do not; under `-i` letter case does not count, if the text is ASCII. Under `-n` each line is
behind its number. The run fails just if no line is selected. -/
theorem grep_literal_selects (now : Instant) (s : Session) {args : List String} {pattern : String}
    {paths : List String} {piped : Option String} {text : String} (hpattern : IsLiteral pattern)
    (hoperands : (Arguments.ofWords args).operands = pattern :: paths)
    (hinput : piped = some text ∨
      piped = none ∧ ∃ f, paths = [f] ∧ s.fs.read (some f) = .ok text)
    (hascii : (Arguments.ofWords args).has 'i' → ∀ c ∈ text.toList, c.toNat < 128) :
    let a := Arguments.ofWords args
    let selected := ((lines text).zipIdx 1).filter fun x =>
      decide (Contains (a.has 'i') pattern x.1) != a.has 'v'
    let row (x : String × Nat) : String := if a.has 'n' then toString x.2 ++ ":" ++ x.1 else x.1
    runWords ⟨Catalog.standard, now⟩ s ("grep" :: args) piped =
      (s, if selected = [] then ⟨"", false, 1, []⟩
        else ⟨joinLines (selected.map row), true, 0, []⟩) := by
  intro a selected row
  obtain ⟨p, hcompile, hoccurs⟩ := exists_compile_contains hpattern (a.has 'i')
  have hrow (x : String × Nat) :
      LineChoice.shown ⟨p, a.has 'v', a.has 'n'⟩ "" x.1 x.2 = row x := by
    simp [LineChoice.shown, row]
  have hchooses (x : String × Nat) (hx : x ∈ (lines text).zipIdx 1) :
      LineChoice.chooses ⟨p, a.has 'v', a.has 'n'⟩ x.1 =
        (decide (Contains (a.has 'i') pattern x.1) != a.has 'v') := by
    have hline : x.1 ∈ lines text := List.fst_mem_of_mem_zipIdx hx
    exact chooses_literal (hoccurs x.1 fun hi c hc => hascii hi c (mem_of_mem_lines hline hc))
  have hselect : LineChoice.select ⟨p, a.has 'v', a.has 'n'⟩ "" text = selected.map row := by
    simp only [LineChoice.select, hrow]
    rw [List.filter_congr hchooses]
  rw [runWords_grepWith now s piped hoperands hcompile, grepWith_input _ _ hinput, hselect,
    linesOutcome_eq]
  simp only [List.map_eq_nil_iff]

theorem grep_literal_selects_inverted :
    let fs := ((empty 0 "/").populate 0 [("/f", some "one Fig\n\nfig tree\nend")]).1
    let s : Session := ⟨{}, fs, .empty 10, [], []⟩
    IsLiteral "g T" ∧ s.fs.read (some "/f") = .ok "one Fig\n\nfig tree\nend" ∧
      runWords ⟨Catalog.standard, 0⟩ s ["grep", "-in", "g T", "/f"] none =
        (s, ⟨"3:fig tree", true, 0, []⟩) ∧
      runWords ⟨Catalog.standard, 0⟩ s ["grep", "-v", "fig", "-n", "/f"] none =
        (s, ⟨"1:one Fig\n2:\n4:end", true, 0, []⟩) := by
  intro fs s
  have hliteral : IsLiteral "g T" ∧ IsLiteral "fig" := by decide
  have hread : s.fs.read (some "/f") = .ok "one Fig\n\nfig tree\nend" := by decide +kernel
  have hall : "one Fig\n\nfig tree\nend".toList.all fun c => c.toNat < 128 := by decide
  have hascii : ∀ c ∈ "one Fig\n\nfig tree\nend".toList, c.toNat < 128 := fun c hc =>
    of_decide_eq_true (List.all_eq_true.mp hall c hc)
  have hfolded := @grep_literal_selects 0 s ["-in", "g T", "/f"] _ _ none _ hliteral.1 rfl
    (.inr ⟨rfl, "/f", rfl, hread⟩) fun _ => hascii
  have hinverted := @grep_literal_selects 0 s ["-v", "fig", "-n", "/f"] _ _ none _ hliteral.2 rfl
    (.inr ⟨rfl, "/f", rfl, hread⟩) fun _ => hascii
  refine ⟨hliteral.1, hread, hfolded.trans (congrArg (Prod.mk s) ?_),
    hinverted.trans (congrArg (Prod.mk s) ?_)⟩
  · decide +kernel
  · decide +kernel

/-! ## Lines of files -/

/-- The files that paths stand for: under `-r` a directory stands for the files below it, in the
order in which they are walked, and everything else for itself. -/
inductive StandFor (fs : Filesystem) (recursive : Bool) : List String → List String → Prop
  | nil : StandFor fs recursive [] []
  | itself {path : String} {paths targets : List String}
      (hpath : ¬ (recursive ∧ fs.isDir (some path)))
      (hrest : StandFor fs recursive paths targets) :
      StandFor fs recursive (path :: paths) (path :: targets)
  | expanded {path : String} {paths targets : List String} {found : List (String × Node)}
      (hrecursive : recursive) (hwalk : fs.walk (some path) = .ok found)
      (hrest : StandFor fs recursive paths targets) :
      StandFor fs recursive (path :: paths) ((found.filter (·.2.isFile)).map (·.1) ++ targets)

theorem standFor_grepTargets (fs : Filesystem) (recursive : Bool) (paths : List String) :
    StandFor fs recursive paths (paths.flatMap (grepTargets fs recursive)) := by
  induction paths with
  | nil => exact .nil
  | cons path paths ih =>
      rw [List.flatMap_cons]
      by_cases hdir : recursive ∧ fs.isDir (some path)
      · obtain ⟨rfl, hdir⟩ := hdir
        obtain ⟨found, hwalk⟩ := exists_walk hdir
        rw [grepTargets_walk hwalk]
        exact .expanded rfl hwalk ih
      · have hitself : grepTargets fs recursive path = [path] := by
          rw [grepTargets, if_neg (by simpa using hdir)]
        rw [hitself]
        exact .itself hdir ih

/-- A line of a file and where it stands. -/
structure Row where
  target : String
  number : Nat
  line : String
deriving DecidableEq, Repr

/-- All lines of the files that can be read. -/
def rowsOf (fs : Filesystem) (targets : List String) : List Row :=
  targets.flatMap fun t => ((fileLines fs t).zipIdx 1).map fun x => ⟨t, x.2, x.1⟩

/-- A line as it is shown: behind its file if there are several, and behind its number if asked. -/
def Row.shown (several numbered : Bool) (r : Row) : String :=
  (if several then r.target ++ ":" else "") ++
    (if numbered then toString r.number ++ ":" else "") ++ r.line

/-- The messages of the files that cannot be read. -/
def messagesOf (fs : Filesystem) (targets : List String) : List String :=
  targets.filterMap fun t => match fs.read (some t) with
    | .ok _ => none
    | .error e => some ("grep: " ++ e.message)

theorem shown_eq (c : LineChoice) (several : Bool) (r : Row) :
    c.shown (if several then r.target ++ ":" else "") r.line r.number =
      r.shown several c.numbered := by
  cases hn : c.numbered with
  | false => simp [LineChoice.shown, Row.shown, hn]
  | true => simp [LineChoice.shown, Row.shown, hn, String.append_assoc]

theorem select_eq (c : LineChoice) (several : Bool) (t text : String) :
    c.select (if several then t ++ ":" else "") text =
      ((((lines text).zipIdx 1).map fun x => Row.mk t x.2 x.1).filter (c.chooses ·.line)).map
        (Row.shown several c.numbered) := by
  rw [LineChoice.select, List.filter_map, List.map_map]
  exact List.map_congr_left fun x _ => shown_eq c several ⟨t, x.2, x.1⟩

theorem grepFiles_eq (c : LineChoice) (fs : Filesystem) (targets : List String) :
    grepFiles c fs targets =
      (((rowsOf fs targets).filter (c.chooses ·.line)).map
        (Row.shown (1 < targets.length) c.numbered), messagesOf fs targets) := by
  refine Prod.ext ?_ ?_
  · simp only [grepFiles, rowsOf, List.flatMap_map, List.filter_flatMap, List.map_flatMap]
    refine List.flatMap_congr fun t _ => ?_
    cases hread : fs.read (some t) with
    | error e => simp [fileLines, hread]
    | ok text =>
        have hselect := select_eq c (1 < targets.length) t text
        simp only [decide_eq_true_eq] at hselect
        rw [fileLines_of_read hread]
        exact hselect
  · simp only [grepFiles, messagesOf, List.filterMap_map]
    rfl

theorem messagesOf_eq_nil_iff :
    messagesOf fs targets = [] ↔ ∀ t ∈ targets, ∃ text, fs.read (some t) = .ok text := by
  rw [messagesOf, List.filterMap_eq_nil_iff]
  refine forall₂_congr fun t _ => ?_
  cases fs.read (some t) <;> simp

/-- Two lists are parts of a third in its order, and together all of it. -/
inductive Interleave {α : Type} : List α → List α → List α → Prop
  | nil : Interleave [] [] []
  | left {x : α} {xs ys zs : List α} (h : Interleave xs ys zs) : Interleave (x :: xs) ys (x :: zs)
  | right {y : α} {xs ys zs : List α} (h : Interleave xs ys zs) : Interleave xs (y :: ys) (y :: zs)

theorem interleave_filter {α : Type} (p : α → Bool) (xs : List α) :
    Interleave (xs.filter p) (xs.filter (!p ·)) xs := by
  induction xs with
  | nil => exact .nil
  | cons x xs ih =>
      cases hx : p x with
      | false =>
          rw [List.filter_cons_of_neg (by simp [hx]), List.filter_cons_of_pos (by simp [hx])]
          exact .right ih
      | true =>
          rw [List.filter_cons_of_pos hx, List.filter_cons_of_neg (by simp [hx])]
          exact .left ih

/-- The outcome shows selected lines and then the messages of files that cannot be read. Its code is
two if there is such a file, else one if no line is selected, else zero. -/
structure Answers (fs : Filesystem) (targets : List String) (numbered : Bool) (selected : List Row)
    (o : Outcome) : Prop where
  output : o.output = joinLines
    (selected.map (Row.shown (1 < targets.length) numbered) ++ messagesOf fs targets)
  code_two : o.exitCode = 2 ↔ ∃ t ∈ targets, ∀ text, fs.read (some t) ≠ .ok text
  code_one : o.exitCode = 1 ↔
    (∀ t ∈ targets, ∃ text, fs.read (some t) = .ok text) ∧ selected = []
  code_zero : o.exitCode = 0 ↔
    (∀ t ∈ targets, ∃ text, fs.read (some t) = .ok text) ∧ selected ≠ []
  success : o.success ↔ o.exitCode = 0
  silent : o.exitCode = 1 → o.output = ""
  markers : o.markers = []

theorem answers_filesOutcome (fs : Filesystem) (targets : List String) (numbered : Bool)
    (selected : List Row) :
    Answers fs targets numbered selected
      (filesOutcome (selected.map (Row.shown (1 < targets.length) numbered))
        (messagesOf fs targets)) := by
  cases hmessages : messagesOf fs targets with
  | nil =>
      have hreadable := messagesOf_eq_nil_iff.mp hmessages
      have hnone : ¬ ∃ t ∈ targets, ∀ text, fs.read (some t) ≠ .ok text := by
        rintro ⟨t, ht, hunread⟩
        obtain ⟨text, hread⟩ := hreadable t ht
        exact hunread text hread
      cases selected with
      | nil =>
          exact
            { output := by rw [hmessages]; rfl
              code_two := iff_of_false nofun hnone
              code_one := iff_of_true rfl ⟨hreadable, rfl⟩
              code_zero := iff_of_false nofun fun h => h.2 rfl
              success := iff_of_false nofun nofun
              silent := fun _ => rfl
              markers := rfl }
      | cons r selected =>
          exact
            { output := by rw [hmessages, List.append_nil]; rfl
              code_two := iff_of_false nofun hnone
              code_one := iff_of_false nofun fun h => List.cons_ne_nil _ _ h.2
              code_zero := iff_of_true rfl ⟨hreadable, List.cons_ne_nil _ _⟩
              success := iff_of_true rfl rfl
              silent := nofun
              markers := rfl }
  | cons m messages =>
      have hunreadable : ¬ ∀ t ∈ targets, ∃ text, fs.read (some t) = .ok text := by
        rw [← messagesOf_eq_nil_iff, hmessages]
        exact List.cons_ne_nil m messages
      exact
        { output := by rw [hmessages]; rfl
          code_two := iff_of_true rfl (by simpa using hunreadable)
          code_one := iff_of_false nofun fun h => hunreadable h.1
          code_zero := iff_of_false nofun fun h => hunreadable h.1
          success := iff_of_false nofun nofun
          silent := nofun
          markers := rfl }

theorem answers_grepWith (c : LineChoice) (recursive : Bool) (fs : Filesystem)
    (hpaths : paths ≠ []) :
    Answers fs (paths.flatMap (grepTargets fs recursive)) c.numbered
      ((rowsOf fs (paths.flatMap (grepTargets fs recursive))).filter (c.chooses ·.line))
      (grepWith c recursive fs paths none) := by
  have hempty : paths.isEmpty = false := by simpa using hpaths
  simp only [grepWith, hempty, Bool.false_eq_true, ↓reduceIte, grepFiles_eq]
  exact answers_filesOutcome fs _ c.numbered _

/-- The arguments differ in that only the second ones ask for the lines that do not match. -/
structure Inverts (a a' : Arguments) : Prop where
  operands : a'.operands = a.operands
  flags : ∀ flag ≠ 'v', a'.has flag = a.has flag
  plain : a.has 'v' = false
  inverted : a'.has 'v' = true

/-- Two outcomes share out the lines of the files that paths stand for: the one shows the lines in
which a pattern occurs, the other those in which it does not, both in their order. -/
def ShareOut (fs : Filesystem) (recursive numbered : Bool) (paths : List String) (p : Regex)
    (o o' : Outcome) : Prop :=
  ∃ targets plain inverted, StandFor fs recursive paths targets ∧
    Interleave plain inverted (rowsOf fs targets) ∧
    (∀ r ∈ plain, p.occursIn r.line) ∧ (∀ r ∈ inverted, ¬ p.occursIn r.line) ∧
    Answers fs targets numbered plain o ∧ Answers fs targets numbered inverted o'

theorem shareOut_grepWith (fs : Filesystem) (recursive numbered : Bool) (hpaths : paths ≠ [])
    (p : Regex) :
    ShareOut fs recursive numbered paths p (grepWith ⟨p, false, numbered⟩ recursive fs paths none)
      (grepWith ⟨p, true, numbered⟩ recursive fs paths none) := by
  have hplain := answers_grepWith ⟨p, false, numbered⟩ recursive fs hpaths
  have hinverted := answers_grepWith ⟨p, true, numbered⟩ recursive fs hpaths
  simp only [LineChoice.chooses, Bool.bne_false, Bool.bne_true] at hplain hinverted
  refine ⟨_, _, _, standFor_grepTargets fs recursive paths, interleave_filter _ _,
    fun r hr => (List.mem_filter.mp hr).2, fun r hr => ?_, hplain, hinverted⟩
  simpa using (List.mem_filter.mp hr).2

/-- For one or more paths, a run and the run with `-v` and the same other flags share out the lines
of the files that the paths stand for. Each run shows what it selects in front of the messages, a
line behind its file just if there are several files, and tells by its code whether it could read
all files and whether it selected a line. -/
theorem grep_inverted_shares_out (now : Instant) (s : Session) {args args' : List String}
    {pattern : String} {paths : List String} {p : Regex}
    (hinverts : Inverts (Arguments.ofWords args) (Arguments.ofWords args'))
    (hoperands : (Arguments.ofWords args).operands = pattern :: paths) (hpaths : paths ≠ [])
    (hcompile : compile pattern ((Arguments.ofWords args).has 'i') = .ok p) :
    let a := Arguments.ofWords args
    ∃ o o', runWords ⟨Catalog.standard, now⟩ s ("grep" :: args) none = (s, o) ∧
      runWords ⟨Catalog.standard, now⟩ s ("grep" :: args') none = (s, o') ∧
      ShareOut s.fs (a.has 'r') (a.has 'n') paths p o o' := by
  intro a
  have hoperands' : (Arguments.ofWords args').operands = pattern :: paths :=
    hinverts.operands.trans hoperands
  have hcompile' : compile pattern ((Arguments.ofWords args').has 'i') = .ok p := by
    rwa [hinverts.flags 'i' (by decide)]
  have hrun := runWords_grepWith now s none hoperands hcompile
  have hrun' := runWords_grepWith now s none hoperands' hcompile'
  rw [hinverts.plain] at hrun
  rw [hinverts.inverted, hinverts.flags 'n' (by decide), hinverts.flags 'r' (by decide)] at hrun'
  exact ⟨_, _, hrun, hrun', shareOut_grepWith s.fs (a.has 'r') (a.has 'n') hpaths p⟩

theorem grep_inverted_shares_out_below :
    let fs := ((empty 0 "/").populate 0
      [("/d/a", some "fig\nplum\nfig"), ("/d/e/b", some "plum"), ("/f", some "no\n")]).1
    let s : Session := ⟨{}, fs, .empty 10, [], []⟩
    let p : Regex := ⟨seqOf ((literalTests .exact ['f', 'i']).map .one), 2⟩
    compile "fi" false = .ok p ∧
      ShareOut s.fs true true ["/d", "/g", "/f"] p
        ⟨"/d/a:1:fig\n/d/a:3:fig\ngrep: /g: No such file or directory", false, 2, []⟩
        ⟨"/d/a:2:plum\n/d/e/b:1:plum\n/f:1:no\ngrep: /g: No such file or directory",
          false, 2, []⟩ := by
  intro fs s p
  have hcompile : compile "fi" false = .ok p := by rfl
  have hwords : Arguments.ofWords ["-rn", "fi", "/d", "/g", "/f"] =
      ⟨['r', 'n'], ["fi", "/d", "/g", "/f"]⟩ := by decide +kernel
  have hwords' : Arguments.ofWords ["-rn", "-v", "fi", "/d", "/g", "/f"] =
      ⟨['r', 'n', 'v'], ["fi", "/d", "/g", "/f"]⟩ := by decide +kernel
  have hinverts : Inverts (Arguments.ofWords ["-rn", "fi", "/d", "/g", "/f"])
      (Arguments.ofWords ["-rn", "-v", "fi", "/d", "/g", "/f"]) := by
    rw [hwords, hwords']
    refine ⟨rfl, fun flag hflag => ?_, rfl, rfl⟩
    simp [Arguments.has, hflag]
  obtain ⟨o, o', hrun, hrun', hshare⟩ := @grep_inverted_shares_out 0 s _ _ _ ["/d", "/g", "/f"] _
    hinverts (by rw [hwords]) (by simp) (by rw [hwords]; exact hcompile)
  have ho : (runWords ⟨Catalog.standard, 0⟩ s ["grep", "-rn", "fi", "/d", "/g", "/f"] none).2 =
      ⟨"/d/a:1:fig\n/d/a:3:fig\ngrep: /g: No such file or directory", false, 2, []⟩ := by
    decide +kernel
  have ho' : (runWords ⟨Catalog.standard, 0⟩ s
      ["grep", "-rn", "-v", "fi", "/d", "/g", "/f"] none).2 =
      ⟨"/d/a:2:plum\n/d/e/b:1:plum\n/f:1:no\ngrep: /g: No such file or directory",
        false, 2, []⟩ := by
    decide +kernel
  rw [hrun] at ho
  rw [hrun'] at ho'
  obtain rfl : o = _ := ho
  obtain rfl : o' = _ := ho'
  rw [hwords] at hshare
  exact ⟨hcompile, hshare⟩

end Shellbox.Command
