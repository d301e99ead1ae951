import Shellbox.Proofs.Command.Effects
import Shellbox.Proofs.Shell.Run

/-!
# What a line changes

A line changes a part of a session only through the commands for that part that it calls, and the
tree also through the file that its last stage writes. All else is as before, whether the line
succeeds or fails.
-/

namespace Shellbox

open Text Line

variable {env : Environment} {s s' : Session} {piped : Option String} {words : List String}
  {o : Outcome} {p : Part} {a : Attempt} {stage : String}

/-! ## What an attempt calls and writes -/

/-- The name of the command that the attempt calls; none is called without words or by a name that
no command has. -/
def Attempt.called? (env : Environment) (a : Attempt) : Option String :=
  a.words.head?.filter fun name => (env.catalog.find? name).isSome

/-- The attempt writes a file: its command succeeds, and the filesystem that the command leaves
takes the output. -/
def Attempt.writes (env : Environment) (a : Attempt) : Bool :=
  a.saves && match redirection? a.stage with
    | none => false
    | some r =>
      let left := runWords env a.before r.command a.piped
      left.2.success && (writeRedirected env.now left.1.fs r left.2.output).isOk

/-- The names of the commands that are called while a typed line is run. -/
def calledNames (env : Environment) (s : Session) (typed : String) : List String :=
  (lineAttempts env s typed).filterMap (·.called? env)

/-- Every command leaves the parts that it is not named for. -/
def Environment.KeepsParts (env : Environment) : Prop :=
  ∀ name b, env.catalog.find? name = some b → ∀ p : Part, name ∉ p.commands → b.handler.Keeps p

theorem Environment.standard_keepsParts (now : Filesystem.Instant) :
    Environment.KeepsParts ⟨Catalog.standard, now⟩ := by
  intro name b hb p hname
  dsimp only at hb
  exact Catalog.standard_keeps hb hname

/-! ## One attempt -/

/-- Words are tried in one way only. -/
theorem Tried.runWords_eq (h : Tried env s piped words s' o) :
    runWords env s words piped = (s', o) := by
  cases h with
  | blank => rfl
  | called h => exact runWords_eq_iff.mpr h

theorem runWords_same (henv : env.KeepsParts) (s : Session) (piped : Option String)
    (hcall : ∀ name ∈ words.head?, (env.catalog.find? name).isSome → name ∉ p.commands) :
    p.Same s (runWords env s words piped).1 := by
  cases words with
  | nil => exact .refl p s
  | cons name args =>
      cases hb : env.catalog.find? name with
      | none =>
          simp only [runWords, hb]
          exact .refl p s
      | some b =>
          simp only [runWords, hb, Environment.call]
          exact henv name b hb p (hcall name rfl (by simp [hb])) env.context s args piped

theorem writeRedirected_eq_root {now : Filesystem.Instant} {fs fs' : Filesystem} {r : Redirection}
    {output : String} (h : writeRedirected now fs r output = .ok fs') :
    ∃ root, fs' = { fs with root } := by
  unfold writeRedirected at h
  split at h
  · cases h
  · exact Filesystem.write_eq_root h

/-- An attempt leaves what its words leave, but for the file that it writes. -/
theorem Attempt.Holds.after_cases (h : a.Holds env) :
    a.after = (runWords env a.before a.words a.piped).1 ∨
      a.writes env ∧ ∃ r output fs,
        writeRedirected env.now (runWords env a.before a.words a.piped).1.fs r output = .ok fs ∧
        a.after = { (runWords env a.before a.words a.piped).1 with fs } := by
  cases hsaves : a.saves with
  | false =>
      simp only [Holds, hsaves, Bool.false_eq_true, ↓reduceIte] at h
      rw [words, if_neg (by simp [hsaves]), h.runWords_eq]
      exact .inl rfl
  | true =>
      simp only [Holds, hsaves, ↓reduceIte] at h
      have hwords : a.words = ((redirection? a.stage).map (·.command)).getD [] := by
        rw [words, if_pos hsaves]
      rw [hwords]
      generalize hafter : a.after = after at h ⊢
      generalize a.outcome = outcome at h
      cases h with
      | malformed hr =>
          rw [hr]
          exact .inl rfl
      | failed hr htried =>
          rw [hr, Option.map_some, Option.getD_some, htried.runWords_eq]
          exact .inl rfl
      | refused hr htried =>
          rw [hr, Option.map_some, Option.getD_some, htried.runWords_eq]
          exact .inl rfl
      | @written r s' o fs hr htried ho hw =>
          have hleft : runWords env a.before
              (((redirection? a.stage).map (·.command)).getD []) a.piped = (s', o) := by
            rw [hr, Option.map_some, Option.getD_some, htried.runWords_eq]
          rw [hleft]
          refine .inr ⟨?_, r, o.output, fs, hw, rfl⟩
          simp only [writes, hsaves, hr, htried.runWords_eq, ho, hw]
          rfl

/-- An attempt leaves a part unless it calls a command for it or, in the case of the tree, writes a
file. -/
theorem Attempt.Holds.same (henv : env.KeepsParts) (h : a.Holds env)
    (hcall : ∀ name ∈ a.called? env, name ∉ p.commands)
    (hwrite : p = .tree → a.writes env = false) : p.Same a.before a.after := by
  have hsame : p.Same a.before (runWords env a.before a.words a.piped).1 := by
    refine runWords_same henv a.before a.piped fun name hname hsome => hcall name ?_
    rw [called?, Option.mem_def.mp hname, Option.filter_some, if_pos hsome]
    rfl
  rcases h.after_cases with hafter | ⟨hwrites, r, output, fs, hw, hafter⟩
  · rw [hafter]
    exact hsame
  · have hp : p ≠ .tree := by
      intro htree
      rw [hwrite htree] at hwrites
      cases hwrites
    obtain ⟨root, rfl⟩ := writeRedirected_eq_root hw
    rw [hafter]
    exact hsame.trans (Part.same_root hp _ root)

/-! ## The whole line -/

/-- A line leaves a part of the session that has recorded it, unless it calls a command for the part
or, in the case of the tree, writes a file. -/
theorem execute_same (henv : env.KeepsParts) (s : Session) (typed : String)
    (hcall : ∀ name ∈ p.commands, name ∉ calledNames env s typed)
    (hwrite : p = .tree → ∀ a ∈ lineAttempts env s typed, a.writes env = false) :
    p.Same (s.recording typed) (execute env s typed).1 := by
  refine (execute_leads env s typed).invariant (P := p.Same (s.recording typed))
    (fun a ha hsame => ?_) (.refl p _)
  refine hsame.trans ((lineAttempts_holds a ha).same henv (fun name hname hmem => ?_)
    fun htree => hwrite htree a ha)
  exact hcall name hmem (List.mem_filterMap.mpr ⟨a, ha, hname⟩)

/-- A line that calls neither `touch`, `mkdir` nor `rm` and writes no file leaves the tree as it
was; one that does not call `cd` leaves the working directory, one that does not call `alias` the
aliases, and one that does not call `history` only records itself. -/
theorem execute_frame (now : Filesystem.Instant) (s : Session) (typed : String) :
    let env : Environment := ⟨Catalog.standard, now⟩
    let called := calledNames env s typed
    let after := (execute env s typed).1
    ("touch" ∉ called → "mkdir" ∉ called → "rm" ∉ called →
      (∀ a ∈ lineAttempts env s typed, a.writes env = false) → after.fs.root = s.fs.root) ∧
    ("cd" ∉ called → after.fs.cwd = s.fs.cwd) ∧
    ("alias" ∉ called → after.aliases = s.aliases) ∧
    ("history" ∉ called → after.history = s.history.add (trim typed)) := by
  intro env called after
  have henv : env.KeepsParts := Environment.standard_keepsParts now
  have hframe : ∀ p : Part, (∀ name ∈ p.commands, name ∉ called) →
      (p = .tree → ∀ a ∈ lineAttempts env s typed, a.writes env = false) →
      p.Same (s.recording typed) after := fun p => execute_same henv s typed
  clear_value after
  refine ⟨fun htouch hmkdir hrm hwrite => ?_, fun hcd => ?_, fun halias => ?_, fun hhistory => ?_⟩
  · have hsame : Part.tree.Same (s.recording typed) after :=
      hframe .tree (by simp [Part.commands, htouch, hmkdir, hrm]) fun _ => hwrite
    simpa only [Part.Same, recording_fs] using hsame
  · have hsame : Part.directory.Same (s.recording typed) after :=
      hframe .directory (by simpa [Part.commands] using hcd) nofun
    simpa only [Part.Same, recording_fs] using hsame
  · have hsame : Part.aliases.Same (s.recording typed) after :=
      hframe .aliases (by simpa [Part.commands] using halias) nofun
    simpa only [Part.Same, recording_aliases] using hsame
  · have hsame : Part.history.Same (s.recording typed) after :=
      hframe .history (by simpa [Part.commands] using hhistory) nofun
    simpa only [Part.Same, recording_history] using hsame

theorem execute_frame_refused :
    let env : Environment := ⟨Catalog.standard, 0⟩
    let s : Session := ⟨{}, .empty 0 "/home/user", .empty 10, [("say", "echo 'b'")], []⟩
    let typed := " say a | sort > / "
    calledNames env s typed = ["echo", "sort"] ∧
    (∀ a ∈ lineAttempts env s typed, a.writes env = false) ∧
    (execute env s typed).1.fs.root = s.fs.root ∧ (execute env s typed).1.fs.cwd = s.fs.cwd ∧
    (execute env s typed).1.aliases = s.aliases ∧
    (execute env s typed).1.history = s.history.add "say a | sort > /" := by
  intro env s typed
  have hcalled : calledNames env s typed = ["echo", "sort"] := by decide +kernel
  have hwrites : ∀ a ∈ lineAttempts env s typed, a.writes env = false := by
    have hall : (lineAttempts env s typed).all (!·.writes env) = true := by decide +kernel
    simpa using hall
  have htrim : trim typed = "say a | sort > /" := by decide +kernel
  have henv : (⟨Catalog.standard, 0⟩ : Environment) = env := rfl
  obtain ⟨htree, hcwd, haliases, hhistory⟩ := execute_frame 0 s typed
  rw [henv, hcalled] at htree hcwd haliases hhistory
  rw [htrim] at hhistory
  exact ⟨hcalled, hwrites, htree (by decide) (by decide) (by decide) hwrites, hcwd (by decide),
    haliases (by decide), hhistory (by decide)⟩

end Shellbox
