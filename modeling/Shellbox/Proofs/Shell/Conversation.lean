import Mathlib.Data.List.Basic
import Shellbox.Command.Standard
import Shellbox.Shell.Loop

/-!
# Conversations

The loop does no more than run the typed lines in order, each at its time. What it shows is the
message of the day and, for each input, the prompt of the moment with what the input brings about;
only the end of the input ends it. A script runs its lines in the same way, without the prompts and
without its comments.
-/

namespace Shellbox

open Text

variable {env : Environment} {cat : Catalog} {s : Session} {c : Console} {i : Arrival}
  {inputs : List Arrival} {lines : List Typed} {clock : Nat → Filesystem.Instant}
  {shown p : String}

/-! ## What inputs do and show -/

/-- The session after typed lines, each of them executed at its time. -/
def afterLines (cat : Catalog) (s : Session) (lines : List Typed) : Session :=
  lines.foldl (fun s line => (execute ⟨cat, line.1⟩ s line.2).1) s

def Arrival.typed? : Arrival → Option Typed
  | (now, .line text) => some (now, text)
  | (_, .interrupt) => none

/-- The session after inputs: their lines are executed in order, and interrupts passed over. -/
def sessionAfter (cat : Catalog) (s : Session) (inputs : List Arrival) : Session :=
  afterLines cat s (inputs.filterMap Arrival.typed?)

/-- What is shown for an input behind its prompt. -/
def Arrival.answer (cat : Catalog) (s : Session) : Arrival → String
  | (_, .interrupt) => "^C\n"
  | (now, .line text) =>
    let shown := render (execute ⟨cat, now⟩ s text).2
    if shown ≠ "" ∧ shown.toList.getLast? ≠ some '\n' then shown ++ "\n" else shown

@[simp] theorem afterLines_nil (cat : Catalog) (s : Session) : afterLines cat s [] = s := rfl

@[simp] theorem afterLines_cons (cat : Catalog) (s : Session) (line : Typed) (lines : List Typed) :
    afterLines cat s (line :: lines) = afterLines cat (execute ⟨cat, line.1⟩ s line.2).1 lines :=
  List.foldl_cons

theorem isScriptLine_iff {line : String} :
    isScriptLine line ↔ trim line ≠ "" ∧ (trim line).toList.head? ≠ some '#' := by
  unfold isScriptLine trim
  cases trimChars line.toList with
  | nil => simp
  | cons c r => simp [String.ofList_eq_empty_iff]

/-- What typed lines show, each executed in the session that the lines before it lead to. -/
def replies (cat : Catalog) (s : Session) (lines : List Typed) : List String :=
  lines.mapIdx fun k line =>
    render (execute ⟨cat, line.1⟩ (afterLines cat s (lines.take k)) line.2).2

theorem replies_cons (cat : Catalog) (s : Session) (line : Typed) (lines : List Typed) :
    replies cat s (line :: lines) =
      render (execute ⟨cat, line.1⟩ s line.2).2 ::
        replies cat (execute ⟨cat, line.1⟩ s line.2).1 lines := by
  rw [replies, List.mapIdx_cons]
  simp only [List.take_zero, afterLines_nil, List.take_succ_cons, afterLines_cons, replies]

theorem runLines_eq (cat : Catalog) (s : Session) (lines : List Typed) :
    runLines cat s lines = (afterLines cat s lines, replies cat s lines) := by
  induction lines generalizing s with
  | nil => rfl
  | cons line lines ih => simp only [runLines, runLine, ih, afterLines_cons, replies_cons]

/-- A script is run line by line: it leaves the session that its lines lead to, and shows for each of
them what it shows in the session of that moment. -/
theorem runScript_eq (env : Environment) (s : Session) (script : List String)
    (clock : Nat → Filesystem.Instant) :
    runScript env s script clock =
      (afterLines env.catalog s (scriptLines clock script),
        replies env.catalog s (scriptLines clock script)) :=
  runLines_eq env.catalog s _

theorem execute_blank {typed : String} (htyped : trim typed = "") (env : Environment)
    (s : Session) : execute env s typed = (s, .nothing) := by
  rw [execute, htyped]
  rfl

theorem afterLines_filter {p : Typed → Bool}
    (hp : ∀ line ∈ lines, p line = false → trim line.2 = "") (cat : Catalog) (s : Session) :
    afterLines cat s (lines.filter p) = afterLines cat s lines := by
  induction lines generalizing s with
  | nil => rfl
  | cons line lines ih =>
      obtain ⟨hline, hlines⟩ := List.forall_mem_cons.mp hp
      cases hkept : p line with
      | true => rw [List.filter_cons_of_pos hkept, afterLines_cons, afterLines_cons, ih hlines]
      | false =>
          rw [List.filter_cons_of_neg (by simp [hkept]), ih hlines, afterLines_cons,
            execute_blank (hline hkept)]

/-- Typed at the prompt, a script without comments leads to the same session. -/
theorem sessionAfter_script {script : List String}
    (hscript : ∀ line ∈ script, (trim line).toList.head? ≠ some '#') (env : Environment)
    (s : Session) (clock : Nat → Filesystem.Instant) :
    sessionAfter env.catalog s (arrivals clock (script.map .line)) =
      (runScript env s script clock).1 := by
  have htyped : (arrivals clock (script.map .line)).filterMap Arrival.typed? =
      script.mapIdx fun k line => (clock k, line) := by
    simp only [arrivals, List.mapIdx_eq_zipIdx_map, List.zipIdx_map, List.map_map,
      List.filterMap_map]
    simp [Function.comp_def, Arrival.typed?, Prod.map]
  have hblank : ∀ line ∈ (script.mapIdx fun k line => (clock k, line)),
      isScriptLine line.2 = false → trim line.2 = "" := by
    intro line hmem hline
    obtain ⟨k, hk, rfl⟩ := List.mem_mapIdx.mp hmem
    by_contra hne
    exact absurd (isScriptLine_iff.mpr ⟨hne, hscript _ (List.getElem_mem hk)⟩) (by simp [hline])
  rw [sessionAfter, htyped, runScript_eq, scriptLines, afterLines_filter hblank]

end Shellbox
