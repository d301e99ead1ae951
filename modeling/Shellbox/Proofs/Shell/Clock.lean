import Shellbox.Proofs.Command.Operations
import Shellbox.Proofs.Filesystem.Making
import Shellbox.Proofs.Filesystem.Times
import Shellbox.Proofs.Shell.Frame

/-!
# Sessions under a clock

A session goes on by operations on its filesystem and by lines, each at the time that the clock
shows. The lines change the filesystem by operations at their time, so as long as the clock never
goes back, the times in the tree tell when its nodes were made and changed.
-/

namespace Shellbox

open Filesystem Line

variable {now : Instant} {s : Session} {P : Filesystem → Prop} {a : Attempt}

/-! ## Lines work through operations -/

theorem runWords_works (hP : KeptAt now P) (s : Session) (words : List String)
    (piped : Option String) (hfs : P s.fs) :
    P (runWords ⟨Catalog.standard, now⟩ s words piped).1.fs := by
  cases words with
  | nil => exact hfs
  | cons name args =>
      cases hb : Catalog.standard.find? name with
      | none =>
          simp only [runWords, hb]
          exact hfs
      | some b =>
          simp only [runWords, hb, Environment.call]
          exact Catalog.standard_works hb _ s args piped P hP hfs

theorem Attempt.Holds.works (h : a.Holds ⟨Catalog.standard, now⟩) (hP : KeptAt now P)
    (hfs : P a.before.fs) : P a.after.fs := by
  have hleft := runWords_works hP a.before a.words a.piped hfs
  rcases h.after_cases with hafter | ⟨-, r, output, fs, hw, hafter⟩
  · rwa [hafter]
  · rw [hafter]
    unfold writeRedirected at hw
    split at hw
    · cases hw
    · exact hP.write hw hleft

/-- A line keeps of the filesystem all that the operations at its time keep. -/
theorem execute_works (hP : KeptAt now P) (s : Session) (typed : String) (hfs : P s.fs) :
    P (execute ⟨Catalog.standard, now⟩ s typed).1.fs := by
  refine (execute_leads ⟨Catalog.standard, now⟩ s typed).invariant (P := fun s => P s.fs)
    (fun a ha => (lineAttempts_holds a ha).works hP) ?_
  rwa [recording_fs]

/-! ## Runs under a clock -/

/-- Sessions that come from a new filesystem by operations and lines, with the time by then. -/
inductive Timed : Instant → Session → Prop
  | start {now : Instant} {home : String} {tree : List (String × Option String)}
      {initial : Option String} {s : Session}
      (h : Filesystem.create now home tree initial = .ok s.fs) : Timed now s
  | wait {now later : Instant} {s : Session} (h : Timed now s) (hle : now ≤ later) : Timed later s
  | change {now : Instant} {s : Session} {c : Change} (h : Timed now s) (hc : c.At now) :
      Timed now { s with fs := s.fs.apply c }
  | line {now : Instant} {s : Session} (h : Timed now s) (typed : String) :
      Timed now (execute ⟨Catalog.standard, now⟩ s typed).1

theorem Timed.reachable (h : Timed now s) : s.fs.Reachable := by
  induction h with
  | start h => exact .create h
  | wait _ _ ih => exact ih
  | change _ _ ih => exact ih.change _
  | @line now s _ typed ih =>
      have hkept : KeptAt now Reachable := fun _ c _ h => h.change c
      exact execute_works hkept s typed ih

theorem Timed.dated (h : Timed now s) : Dated now s.fs.root := by
  induction h with
  | start h => exact create_dated h
  | wait _ hle ih => exact ih.mono hle
  | @change now s c _ hc ih => exact dated_kept now s.fs c hc ih
  | @line now s _ typed ih => exact execute_works (dated_kept now) s typed ih

/-- An operation that succeeds leaves its time; one that fails leaves everything as it was. -/
def LeavesTime (fs : Filesystem) (t : Instant) (touched : List String → Prop)
    (left : Filesystem × Except PathError Unit) : Prop :=
  (left.2 = .ok () → Marks t touched fs.root left.1.root) ∧ ∀ e, left.2 = .error e → left.1 = fs

theorem leavesTime_attempt {fs : Filesystem} {t : Instant} {touched : List String → Prop}
    {result : Except PathError Filesystem}
    (h : ∀ fs', result = .ok fs' → Marks t touched fs.root fs'.root) :
    LeavesTime fs t touched (fs.attempt result) := by
  cases result with
  | error e => exact ⟨nofun, fun _ _ => rfl⟩
  | ok fs' => exact ⟨fun _ => h fs' rfl, nofun⟩

/-- Under a clock that never goes back, no node was modified before it was created nor later than
now, and no child is younger than the last change of its directory; and each operation leaves its
time just at the nodes that it makes, the directories that gain or lose a child and the node that it
writes or touches. That holds also of directories made one after another, where each is in place
before it is known whether the next can be made. -/
theorem times_truthful (h : Timed now s) :
    (∀ m, Node.Within m s.fs.root → m.info.created ≤ m.info.modified ∧ m.info.modified ≤ now ∧
      ∀ p ∈ m.children, p.2.info.created ≤ m.info.modified) ∧
    ∀ t path, let named (ks : List String) : Prop := ks = s.fs.names path
      let nowhere (_ : List String) : Prop := False
      (∀ text, LeavesTime s.fs t named (s.fs.attempt (s.fs.write t path text))) ∧
      LeavesTime s.fs t nowhere (s.fs.attempt (s.fs.makeDirectory t path)) ∧
      s.fs.makeInTurn t path = s.fs.attempt (s.fs.makeDirectories t path) ∧
      LeavesTime s.fs t nowhere (s.fs.makeInTurn t path) ∧
      (∀ recursive, LeavesTime s.fs t nowhere (s.fs.attempt (s.fs.remove t path recursive))) ∧
      Marks t named s.fs.root (s.fs.touchNode t path).root := by
  have hwell := h.reachable.wellFormed
  refine ⟨fun m hm => h.dated.within hwell.tree hm, fun t path => ?_⟩
  have hturn := hwell.makeInTurn_eq t path
  refine ⟨fun text => ?_, ?_, hturn, ?_, fun recursive => ?_, touchNode_marks s.fs t path⟩
  · exact leavesTime_attempt fun fs' => write_marks
  · exact leavesTime_attempt fun fs' => makeDirectory_marks
  · rw [hturn]
    exact leavesTime_attempt fun fs' => makeDirectories_marks
  · exact leavesTime_attempt fun fs' => remove_marks

theorem times_truthful_after_lines :
    let s₀ : Session := ⟨{}, .empty 5 "/h", .empty 10, [], []⟩
    let s₁ := (execute ⟨Catalog.standard, 7⟩ s₀ "mkdir -p /a/b").1
    let s₂ := (execute ⟨Catalog.standard, 9⟩ s₁ "echo x > /a/f").1
    Timed 9 s₂ ∧ s₂.fs.root.record? ["a"] = some ⟨none, 7, 9⟩ ∧
      s₂.fs.root.record? ["a", "b"] = some ⟨none, 7, 7⟩ ∧
      (∀ m, Node.Within m s₂.fs.root → m.info.modified ≤ 9) ∧
      Marks 12 (fun _ => False) s₂.fs.root
        (s₂.fs.attempt (s₂.fs.remove 12 (some "/a/b") false)).1.root ∧
      (s₂.fs.makeInTurn 12 (some "/a/f/c")).1 = s₂.fs := by
  intro s₀ s₁ s₂
  have h₀ : Timed 5 s₀ := @Timed.start 5 "/h" [] none s₀ rfl
  have h₁ : Timed 7 s₁ := (h₀.wait (by decide)).line "mkdir -p /a/b"
  have h₂ : Timed 9 s₂ := (h₁.wait (by decide)).line "echo x > /a/f"
  obtain ⟨hnodes, hleaves⟩ := times_truthful h₂
  obtain ⟨-, -, -, -, hremove, -⟩ := hleaves 12 (some "/a/b")
  obtain ⟨-, -, -, hmake, -⟩ := hleaves 12 (some "/a/f/c")
  exact ⟨h₂, by decide +kernel, by decide +kernel, fun m hm => (hnodes m hm).2.1,
    (hremove false).1 (by decide +kernel),
    hmake.2 ⟨some "/a/f/c", .notDirectory⟩ (by decide +kernel)⟩

end Shellbox
