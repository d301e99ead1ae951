import Shellbox.Filesystem.Search

/-!
# Spellings of a path

Texts that resolve to one path are spellings of it. Every operation gives the same for all of them:
the same value and the same filesystem, or the same failure, told about the text that was given.
-/

namespace Shellbox.Filesystem

/-- The same failure, told about another path. -/
def PathError.about (path : Option String) (e : PathError) : PathError := { e with path }

/-- The same failure of a search; that of a pattern tells about no path. -/
def SearchError.about (path : Option String) : SearchError → SearchError
  | .pattern text f => .pattern text f
  | .path e => .path (e.about path)

variable {fs : Filesystem} {p q : Option String}

/-! ## What an operation looks at -/

theorem names_spelling (h : fs.resolve p = fs.resolve q) : fs.names p = fs.names q :=
  congrArg Path.segments h

theorem node?_spelling (h : fs.resolve p = fs.resolve q) : fs.node? p = fs.node? q :=
  congrArg fs.root.get? (names_spelling h)

theorem siblings_spelling (h : fs.resolve p = fs.resolve q) :
    (∃ cs, fs.siblings p = .ok cs ∧ fs.siblings q = .ok cs) ∨
      ∃ e : PathError, fs.siblings p = .error e ∧ fs.siblings q = .error (e.about q) := by
  simp only [siblings, names_spelling h]
  cases fs.root.get? (fs.names q).dropLast with
  | none => exact .inr ⟨_, rfl, rfl⟩
  | some n =>
      cases n with
      | file i text => exact .inr ⟨_, rfl, rfl⟩
      | dir i cs => exact .inl ⟨cs, rfl, rfl⟩

/-! ## Questions -/

theorem list_spelling (h : fs.resolve p = fs.resolve q) :
    fs.list q = (fs.list p).mapError (·.about q) := by
  simp only [list, node?_spelling h]
  cases fs.node? q with
  | none => rfl
  | some n => cases n <;> rfl

theorem read_spelling (h : fs.resolve p = fs.resolve q) :
    fs.read q = (fs.read p).mapError (·.about q) := by
  simp only [read, node?_spelling h]
  cases fs.node? q with
  | none => rfl
  | some n => cases n <;> rfl

theorem stat_spelling (h : fs.resolve p = fs.resolve q) :
    fs.stat q = (fs.stat p).mapError (·.about q) := by
  simp only [stat, node?_spelling h, h]
  cases fs.node? q <;> rfl

theorem walk_spelling (h : fs.resolve p = fs.resolve q) :
    fs.walk q = (fs.walk p).mapError (·.about q) := by
  simp only [walk, node?_spelling h, names_spelling h]
  cases fs.node? q with
  | none => rfl
  | some n => cases n <;> rfl

theorem find_spelling (h : fs.resolve p = fs.resolve q) (glob : String) :
    fs.find q glob = (fs.find p glob).mapError (·.about q) := by
  simp only [find, walk_spelling h]
  cases Glob.compile glob with
  | error f => rfl
  | ok pattern => cases fs.walk p <;> rfl

theorem searchedFiles_spelling (h : fs.resolve p = fs.resolve q) (recursive : Bool) :
    fs.searchedFiles q recursive = (fs.searchedFiles p recursive).mapError (·.about q) := by
  simp only [searchedFiles, node?_spelling h, names_spelling h, h]
  cases fs.node? q with
  | none => rfl
  | some n =>
      cases n with
      | file => rfl
      | dir => cases recursive <;> rfl

theorem search_spelling (h : fs.resolve p = fs.resolve q) (pattern : String)
    (recursive ignoreCase : Bool) :
    fs.search pattern q recursive ignoreCase =
      (fs.search pattern p recursive ignoreCase).mapError (·.about q) := by
  simp only [search, searchedFiles_spelling h]
  cases Pattern.compile pattern ignoreCase with
  | error f => rfl
  | ok regex => cases fs.searchedFiles p recursive <;> rfl

/-! ## Changes -/

theorem write_spelling (h : fs.resolve p = fs.resolve q) (now : Instant) (text : String) :
    fs.write now q text = (fs.write now p text).mapError (·.about q) := by
  rcases siblings_spelling h with ⟨cs, hp, hq⟩ | ⟨e, hp, hq⟩
  · simp only [write, hp, hq, names_spelling h]
    cases (fs.names q).getLast? with
    | none => rfl
    | some name =>
        dsimp only
        cases cs.lookup name with
        | none => rfl
        | some n => cases n <;> rfl
  · simp only [write, hp, hq]
    rfl

theorem makeDirectory_spelling (h : fs.resolve p = fs.resolve q) (now : Instant) :
    fs.makeDirectory now q = (fs.makeDirectory now p).mapError (·.about q) := by
  rcases siblings_spelling h with ⟨cs, hp, hq⟩ | ⟨e, hp, hq⟩
  · simp only [makeDirectory, hp, hq, names_spelling h]
    cases (fs.names q).getLast? with
    | none => rfl
    | some name =>
        dsimp only
        cases cs.lookup name <;> rfl
  · simp only [makeDirectory, hp, hq]
    rfl

theorem makeDirectories_spelling (h : fs.resolve p = fs.resolve q) (now : Instant) :
    fs.makeDirectories now q = (fs.makeDirectories now p).mapError (·.about q) := by
  simp only [makeDirectories, names_spelling h]
  cases fs.root.ensureDirs now (fs.names q) <;> rfl

theorem remove_spelling (h : fs.resolve p = fs.resolve q) (now : Instant) (recursive : Bool) :
    fs.remove now q recursive = (fs.remove now p recursive).mapError (·.about q) := by
  simp only [remove, names_spelling h]
  cases (fs.names q).getLast? with
  | none => rfl
  | some name =>
      rcases siblings_spelling h with ⟨cs, hp, hq⟩ | ⟨e, hp, hq⟩
      · simp only [hp, hq]
        cases cs.lookup name with
        | none => rfl
        | some n =>
            dsimp only
            split <;> rfl
      · simp only [hp, hq]
        rfl

theorem changeDirectory_spelling {a b : String} (ha : a ≠ "") (hb : b ≠ "")
    (h : fs.resolve (some a) = fs.resolve (some b)) :
    fs.changeDirectory (some b) = (fs.changeDirectory (some a)).mapError (·.about (some b)) := by
  have hdest {c : String} (hc : c ≠ "") : destination (some c) = c := by
    simp [destination, hc]
  simp only [changeDirectory, hdest ha, hdest hb, node?_spelling h, h]
  cases fs.node? (some b) with
  | none => rfl
  | some n => cases n <;> rfl

/-! ## All operations together -/

/-- What a change leaves, with its failure, if any, told about another path. -/
def retell (path : Option String) (x : Filesystem × Except PathError Unit) :
    Filesystem × Except PathError Unit :=
  (x.1, x.2.mapError (·.about path))

/-- A failure leaves the filesystem as it was, whatever path it is told about. -/
theorem attempt_mapError (fs : Filesystem) (path : Option String)
    (result : Except PathError Filesystem) :
    fs.attempt (result.mapError (·.about path)) = retell path (fs.attempt result) := by
  cases result <;> rfl

/-- No operation tells two spellings of a path apart, but for the text that a failure carries. -/
theorem spelling_irrelevant (fs : Filesystem) (a b : String)
    (h : fs.resolve (some a) = fs.resolve (some b)) :
    fs.node? (some b) = fs.node? (some a) ∧
    fs.pathExists (some b) = fs.pathExists (some a) ∧
    fs.isDir (some b) = fs.isDir (some a) ∧
    fs.isFile (some b) = fs.isFile (some a) ∧
    fs.list (some b) = (fs.list (some a)).mapError (·.about (some b)) ∧
    fs.read (some b) = (fs.read (some a)).mapError (·.about (some b)) ∧
    fs.stat (some b) = (fs.stat (some a)).mapError (·.about (some b)) ∧
    fs.walk (some b) = (fs.walk (some a)).mapError (·.about (some b)) ∧
    (∀ glob, fs.find (some b) glob = (fs.find (some a) glob).mapError (·.about (some b))) ∧
    (∀ pattern recursive ignoreCase, fs.search pattern (some b) recursive ignoreCase =
      (fs.search pattern (some a) recursive ignoreCase).mapError (·.about (some b))) ∧
    (∀ now text, fs.attempt (fs.write now (some b) text) =
      retell (some b) (fs.attempt (fs.write now (some a) text))) ∧
    (∀ now, fs.attempt (fs.makeDirectory now (some b)) =
      retell (some b) (fs.attempt (fs.makeDirectory now (some a)))) ∧
    (∀ now, fs.attempt (fs.makeDirectories now (some b)) =
      retell (some b) (fs.attempt (fs.makeDirectories now (some a)))) ∧
    (∀ now recursive, fs.attempt (fs.remove now (some b) recursive) =
      retell (some b) (fs.attempt (fs.remove now (some a) recursive))) ∧
    (a ≠ "" → b ≠ "" → fs.attempt (fs.changeDirectory (some b)) =
      retell (some b) (fs.attempt (fs.changeDirectory (some a)))) := by
  have hnode : fs.node? (some b) = fs.node? (some a) := (node?_spelling h).symm
  refine ⟨hnode, ?_, ?_, ?_, list_spelling h, read_spelling h, stat_spelling h, walk_spelling h,
    find_spelling h, search_spelling h, ?_, ?_, ?_, ?_, ?_⟩
  · rw [pathExists, pathExists, hnode]
  · rw [isDir, isDir, hnode]
  · rw [isFile, isFile, hnode]
  · intro now text
    rw [write_spelling h, attempt_mapError]
  · intro now
    rw [makeDirectory_spelling h, attempt_mapError]
  · intro now
    rw [makeDirectories_spelling h, attempt_mapError]
  · intro now recursive
    rw [remove_spelling h, attempt_mapError]
  · intro ha hb
    rw [changeDirectory_spelling ha hb h, attempt_mapError]

theorem spelling_irrelevant_home :
    let note : Node := .file ⟨"note", fileMode, 1, 2⟩ "text"
    let fs : Filesystem := ⟨.dir ⟨"", directoryMode, 0, 2⟩
      [("h", .dir ⟨"h", directoryMode, 0, 2⟩ [("note", note)])], "/h", "/h"⟩
    fs.resolve (some "~/../h//./note") = fs.resolve (some "note/") ∧
    fs.read (some "note/") = .ok "text" ∧
    fs.changeDirectory (some "~/../h//./note") = .error ⟨some "~/../h//./note", .notDirectory⟩ ∧
    fs.attempt (fs.changeDirectory (some "note/")) =
      (fs, .error ⟨some "note/", .notDirectory⟩) := by
  intro note fs
  have hresolve : fs.resolve (some "~/../h//./note") = fs.resolve (some "note/") := by
    decide +kernel
  have hnames : fs.names (some "~/../h//./note") = ["h", "note"] := by decide +kernel
  have hnode : fs.node? (some "~/../h//./note") = some note := by
    rw [node?, hnames]
    rfl
  have hread : fs.read (some "~/../h//./note") = .ok "text" := by
    simp only [read, hnode, note]
  have hcd : fs.changeDirectory (some "~/../h//./note") =
      .error ⟨some "~/../h//./note", .notDirectory⟩ := by
    have hdest : destination (some "~/../h//./note") = "~/../h//./note" := by decide +kernel
    simp only [changeDirectory, hdest, hnode, note]
  obtain ⟨-, -, -, -, -, hread', -, -, -, -, -, -, -, -, hcd'⟩ := spelling_irrelevant fs _ _ hresolve
  refine ⟨hresolve, ?_, hcd, ?_⟩
  · rw [hread', hread]
    rfl
  · rw [hcd' (by decide) (by decide), hcd]
    rfl

end Shellbox.Filesystem
