import Shellbox.Proofs.Command.Readers
import Shellbox.Proofs.Shell.Counting
import Shellbox.Proofs.Shell.FirstWord

/-!
# Reading a file and piping it

A line that calls a command on a file and a line that pipes the file into the command have the same
outcome, whatever the options, the text and the mistakes are. Only `cut` is to be excepted where it
takes the value of one option for another.
-/

namespace Shellbox

open Text Line Command

variable {now : Filesystem.Instant} {s : Session} {c : Reader} {opts : List String}
  {f text : String}

/-! ## The two lines -/

/-- The line that calls the command on a file, every word in double quotes. -/
def fileLine (c : Reader) (opts : List String) (f : String) : String :=
  quoteWords (c.name :: (opts ++ c.operands ++ [f]))

/-- The line that pipes a file into the command, every word in double quotes. -/
def pipeLine (c : Reader) (opts : List String) (f : String) : String :=
  pipeline [quoteWords ["cat", f], quoteWords (c.name :: (opts ++ c.operands))]

theorem runWords_reader (c : Reader) (now : Filesystem.Instant) (s : Session) (args : List String)
    (piped : Option String) :
    runWords ⟨Catalog.standard, now⟩ s (c.name :: args) piped =
      (s, c.answer ⟨now, Catalog.standard.pages⟩ s args piped) := by
  cases c with
  | head => exact runWords_standard "head" head rfl s args piped
  | tail => exact runWords_standard "tail" tail rfl s args piped
  | sort => exact runWords_standard "sort" Command.sort rfl s args piped
  | uniq => exact runWords_standard "uniq" uniq rfl s args piped
  | cut => exact runWords_standard "cut" cut rfl s args piped
  | wc => exact runWords_standard "wc" wc rfl s args piped
  | grep pattern => exact runWords_standard "grep" grep rfl s args piped

theorem no_blank_quote_name (c : Reader) : ∀ d ∈ (quote c.name).toList, isBlank d = false := by
  have hnames : ∀ name ∈ ["head", "tail", "sort", "uniq", "cut", "wc", "grep"],
      (quote name).toList.all (!isBlank ·) := by decide
  simpa using hnames c.name (by cases c <;> simp [Reader.name])

theorem execute_fileLine (halias : s.aliases.lookup (quote c.name) = none) :
    (execute ⟨Catalog.standard, now⟩ s (fileLine c opts f)).2 =
      c.answer ⟨now, Catalog.standard.pages⟩ (s.recording (fileLine c opts f))
        (opts ++ c.operands ++ [f]) none := by
  obtain ⟨v, vs, hargs⟩ : ∃ v vs, opts ++ c.operands ++ [f] = v :: vs :=
    List.exists_cons_of_ne_nil (by simp)
  have hspells : Spells (fileLine c opts f) (c.name :: (opts ++ c.operands ++ [f])) :=
    quoteWords_spells (by simp)
  have hfirst : (splitFirstWord (fileLine c opts f)).1 = quote c.name := by
    rw [fileLine, hargs, quoteWords_cons_cons,
      splitFirstWord_append (no_blank_quote_name c) (by simp [isBlank]) (by simp)]
  rw [execute_stage hspells (by simp) (by rw [hfirst, halias]), runWords_reader]

theorem execute_pipeLine (hcat : s.aliases.lookup (quote "cat") = none)
    (hread : s.fs.read (some f) = .ok text) (hf : IsUndashed f) :
    (execute ⟨Catalog.standard, now⟩ s (pipeLine c opts f)).2 =
      c.answer ⟨now, Catalog.standard.pages⟩ (s.recording (pipeLine c opts f))
        (opts ++ c.operands) (some text) := by
  have hspells : List.Forall₂ Spells
      [quoteWords ["cat", f], quoteWords (c.name :: (opts ++ c.operands))]
      [["cat", f], c.name :: (opts ++ c.operands)] :=
    .cons (quoteWords_spells (by simp)) (.cons (quoteWords_spells (by simp)) .nil)
  have hfirst : (splitFirstWord (pipeLine c opts f)).1 = quote "cat" := by
    have hname : (quote "cat").toList.all (!isBlank ·) := by decide
    have hline : pipeLine c opts f = quote "cat" ++ " " ++ (quoteWords [f] ++ " | " ++
        pipeline [quoteWords (c.name :: (opts ++ c.operands))]) := by
      rw [pipeLine, pipeline_cons_cons, quoteWords_cons_cons]
      simp only [String.append_assoc]
    rw [hline, splitFirstWord_append (by simpa using hname) (by simp [isBlank]) (by simp)]
  have hread' : (s.recording (pipeLine c opts f)).fs.read (some f) = .ok text := by
    rw [recording_fs, hread]
  have hcatted := runWords_cat now hread'
  have hoperand : IsOperand f := hf.flagLetters?_eq
  rw [if_pos hoperand] at hcatted
  have hrun : execute ⟨Catalog.standard, now⟩ s (pipeLine c opts f) = _ :=
    execute_spelled hspells (by simp) (by simp) (by rw [← pipeLine, hfirst, hcat])
  rw [← pipeLine] at hrun
  rw [hrun, runPiped_ok hcatted (by simp), runPiped, runWords_reader]

/-! ## The same outcome -/

/-- With complete options, a file that a command reads and the same file piped into it always have
the same outcome, up to the name that `wc` shows, just if the command is not `cut` or its options
read the same in front of a file. -/
theorem reading_eq_piping_iff (c : Reader) (opts : List String) (h : c.IsComplete opts)
    (hoperands : ∀ w ∈ c.operands, IsUndashed w) :
    (∀ (now : Filesystem.Instant) (s : Session) (f text : String),
      s.aliases.lookup (quote "cat") = none → s.aliases.lookup (quote c.name) = none →
      s.fs.read (some f) = .ok text → IsUndashed f → (c = .wc → f ≠ "") →
      (execute ⟨Catalog.standard, now⟩ s (fileLine c opts f)).2 =
        c.labelled f (execute ⟨Catalog.standard, now⟩ s (pipeLine c opts f)).2) ↔
    (c = .cut → CutReads opts) := by
  constructor
  · rintro hsame rfl
    by_contra hcut
    obtain ⟨name, hname, hne⟩ := exists_cut_file_ne hcut
    let s : Session := ⟨{}, holding name, .empty 10, [], []⟩
    have hread : s.fs.read (some ("/" ++ name)) = .ok "" := read_holding hname
    have hf : IsUndashed ("/" ++ name) := by simp [IsUndashed]
    have heq := hsame 0 s ("/" ++ name) "" rfl rfl hread hf (by simp)
    rw [execute_fileLine rfl, execute_pipeLine rfl hread hf,
      Reader.labelled_of_ne (by simp)] at heq
    simp only [Reader.answer_cut, recording_fs, Reader.operands, List.append_nil] at heq
    exact hne heq
  · intro hcut now s f text hcat halias hread hf hwc
    rw [execute_fileLine halias, execute_pipeLine hcat hread hf]
    exact Reader.answer_file _ h hcut hoperands hf hwc (by rw [recording_fs, hread])

theorem reading_eq_piping_passwd :
    let fs := ((Filesystem.empty 0 "/home/user").populate 0
      [("/etc/passwd", some "root:x:0\nuser:x:1000\n")]).1
    let s : Session := ⟨{}, fs, .empty 10, .initial, []⟩
    let outcome (line : String) : Outcome := (execute ⟨Catalog.standard, 0⟩ s line).2
    outcome (fileLine .cut ["-d", ":", "-f1,3"] "/etc/passwd") =
        outcome (pipeLine .cut ["-d", ":", "-f1,3"] "/etc/passwd") ∧
      outcome (pipeLine .wc ["-lc"] "/etc/passwd") = .ok "      2      21" ∧
      outcome (fileLine .wc ["-lc"] "/etc/passwd") = .ok "      2      21 /etc/passwd" := by
  intro fs s outcome
  have hread : s.fs.read (some "/etc/passwd") = .ok "root:x:0\nuser:x:1000\n" := by decide
  have hcat : s.aliases.lookup (quote "cat") = none := by decide
  have hcut : s.aliases.lookup (quote "cut") = none := by decide
  have hwc : s.aliases.lookup (quote "wc") = none := by decide
  have hf : IsUndashed "/etc/passwd" := by decide
  have hword : IsFlagWord "-f1,3" ∧ "-f1,3" ≠ "-f" ∧ "-f1,3" ≠ "-d" := by decide
  have hfields : OptionWords (fun w v => w = "-f" ∨ w = "-d" ∧ ¬ IsTakenFor "-f" v)
      (fun w => IsFlagWord w ∧ w ≠ "-f" ∧ w ≠ "-d") ["-d", ":", "-f1,3"] :=
    .value (by decide) (.alone hword .nil)
  have hcolumns : Reader.cut.IsComplete ["-d", ":", "-f1,3"] :=
    .value (.inr rfl) (.alone hword .nil)
  have hcounts : Reader.wc.IsComplete ["-lc"] := .alone (by decide) .nil
  have hpiped : outcome (pipeLine .wc ["-lc"] "/etc/passwd") = .ok "      2      21" :=
    (execute_pipeLine hcat hread hf).trans (by decide)
  refine ⟨?_, hpiped, ?_⟩
  · have h := (reading_eq_piping_iff .cut _ hcolumns (by simp [Reader.operands])).mpr
      (fun _ => .of_apart hfields) 0 s _ _ hcat hcut hread hf (by simp)
    exact h.trans (Reader.labelled_of_ne (by simp) _ _)
  · have h := (reading_eq_piping_iff .wc _ hcounts (by simp [Reader.operands])).mpr (by simp) 0 s
      _ _ hcat hwc hread hf (by simp)
    have hlabelled : Reader.labelled .wc "/etc/passwd" (.ok "      2      21") =
        .ok "      2      21 /etc/passwd" := by decide
    rw [← hlabelled, ← hpiped]
    exact h

/-- A delimiter that begins like a list of fields is taken for one, and the option that it belongs
to then takes the file for its value. -/
theorem cut_delimiter_taken_for_fields :
    let fs := ((Filesystem.empty 0 "/home/user").populate 0 [("/tmp/f", some "abc\n")]).1
    let s : Session := ⟨{}, fs, .empty 10, [], []⟩
    let opts := ["-d", "-fx", "-f", "1"]
    let outcome (line : String) : Outcome := (execute ⟨Catalog.standard, 0⟩ s line).2
    Reader.cut.IsComplete opts ∧ s.fs.read (some "/tmp/f") = .ok "abc\n" ∧ IsUndashed "/tmp/f" ∧
      outcome (fileLine .cut opts "/tmp/f") =
        .error "cut: no input provided (use pipe or provide filename)" ∧
      outcome (pipeLine .cut opts "/tmp/f") = .ok "abc" := by
  intro fs s opts outcome
  have hcomplete : Reader.cut.IsComplete opts := .value (.inr rfl) (.value (.inl rfl) .nil)
  have hread : s.fs.read (some "/tmp/f") = .ok "abc\n" := by decide
  have hf : IsUndashed "/tmp/f" := by decide
  exact ⟨hcomplete, hread, hf, (execute_fileLine rfl).trans (by decide),
    (execute_pipeLine rfl hread hf).trans (by decide +kernel)⟩

end Shellbox
