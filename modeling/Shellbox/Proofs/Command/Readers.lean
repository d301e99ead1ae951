import Mathlib.Data.List.Basic
import Shellbox.Command.Standard
import Shellbox.Proofs.Command.Options
import Shellbox.Shell.Executor

/-!
# Commands that read a file or a pipe

The commands that treat a text answer for a file just as for the same text piped in, if their
options read the same in front of the file. For all but `cut` they do; `cut` takes its options out
of the words one after the other, so that the value of one may be taken for the other.
-/

namespace Shellbox.Command

open Text

variable {cx : Context} {s : Session} {opts : List String} {f text : String}

/-- The commands that treat the text of a file, with the pattern that one of them has. -/
inductive Reader where
  | head
  | tail
  | sort
  | uniq
  | cut
  | wc
  | grep (pattern : String)
deriving DecidableEq, Repr

namespace Reader

def name : Reader → String
  | head => "head"
  | tail => "tail"
  | sort => "sort"
  | uniq => "uniq"
  | cut => "cut"
  | wc => "wc"
  | grep _ => "grep"

def handler : Reader → Handler
  | head => Command.head
  | tail => Command.tail
  | sort => Command.sort
  | uniq => Command.uniq
  | cut => Command.cut
  | wc => Command.wc
  | grep _ => Command.grep

/-- The operands in front of a file. -/
def operands : Reader → List String
  | grep pattern => [pattern]
  | _ => []

/-- The words are options of the command, none without a value that it needs. -/
def IsComplete : Reader → List String → Prop
  | head, opts | tail, opts => OptionWords (fun w _ => w = "-n") IsCountWord opts
  | cut, opts =>
    OptionWords (fun w _ => w = "-f" ∨ w = "-d") (fun w => IsFlagWord w ∧ w ≠ "-f" ∧ w ≠ "-d") opts
  | _, opts => OptionWords (fun _ _ => False) IsFlagWord opts

/-- What the command answers to arguments and a text piped in. -/
def answer (c : Reader) (cx : Context) (s : Session) (args : List String)
    (piped : Option String) : Outcome :=
  settle c.name (c.handler cx s args piped).2

/-- The outcome for a file, from that for its text: only `wc` shows the name of the file. -/
def labelled (c : Reader) (f : String) (o : Outcome) : Outcome :=
  if c = wc then { o with output := o.output ++ " " ++ f } else o

theorem labelled_of_ne {c : Reader} (h : c ≠ wc) (f : String) (o : Outcome) :
    c.labelled f o = o := if_neg h

end Reader

/-! ## Counts and flags -/

theorem someLines_file (name : String) (take : Nat → List String → List String) (s' : Session)
    (h : OptionWords (fun w _ => w = "-n") IsCountWord opts) (hf : IsUndashed f)
    (hread : s.fs.read (some f) = .ok text) :
    someLines name take s (opts ++ [f]) none = someLines name take s' opts (some text) := by
  obtain ⟨read, hopts⟩ := h.countAndFiles_eq 10
  have hpiped := hopts []
  rw [List.append_nil] at hpiped
  rw [someLines, someLines, hopts, hpiped]
  match read with
  | .error e => rfl
  | .ok none => rfl
  | .ok (some n) =>
      simp only [withCount, countAndFiles_undashed hf, countAndFiles, hread]

theorem sort_file (s' : Session) (h : OptionWords (fun _ _ => False) IsFlagWord opts)
    (hf : IsUndashed f) (hread : s.fs.read (some f) = .ok text) :
    (sort cx s (opts ++ [f]) none).2 = (sort cx s' opts (some text)).2 := by
  have hargs := h.ofWords_append [f] (by simpa using hf)
  simp only [sort, Handler.trying, hargs, inputText, hread, Except.mapError, Arguments.has]
  rfl

theorem uniq_file (s' : Session) (h : OptionWords (fun _ _ => False) IsFlagWord opts)
    (hf : IsUndashed f) (hread : s.fs.read (some f) = .ok text) :
    (uniq cx s (opts ++ [f]) none).2 = (uniq cx s' opts (some text)).2 := by
  have hargs := h.ofWords_append [f] (by simpa using hf)
  simp only [uniq, Handler.looking, overInput, hargs, inputText, hread, Except.mapError,
    Arguments.has]

/-- A path that names a file is searched itself, also when directories are searched through. -/
theorem grepTargets_file {fs : Filesystem} (hread : fs.read (some f) = .ok text)
    (recursive : Bool) : grepTargets fs recursive f = [f] := by
  have hdir : fs.isDir (some f) = false := by
    unfold Filesystem.read at hread
    split at hread
    · cases hread
    · rename_i hnode
      rw [Filesystem.isDir, hnode]
      rfl
    · cases hread
  rw [grepTargets, hdir, Bool.and_false, if_neg (by simp)]

theorem grepWith_file {fs : Filesystem} (hread : fs.read (some f) = .ok text) (c : LineChoice)
    (recursive : Bool) :
    grepWith c recursive fs [f] none = grepWith c recursive fs [] (some text) := by
  simp only [grepWith, List.isEmpty_cons, Bool.false_eq_true, ↓reduceIte, List.flatMap_cons,
    List.flatMap_nil, grepTargets_file hread, grepFiles, List.map_cons, List.map_nil, hread,
    List.append_nil, List.filterMap_cons, List.filterMap_nil, filesOutcome, List.isEmpty_nil,
    List.length_cons, List.length_nil, Nat.reduceAdd, Nat.lt_irrefl]

theorem grep_file {pattern : String} (s' : Session)
    (h : OptionWords (fun _ _ => False) IsFlagWord opts) (hpattern : IsUndashed pattern)
    (hf : IsUndashed f) (hread : s.fs.read (some f) = .ok text) :
    (grep cx s (opts ++ [pattern] ++ [f]) none).2 =
      (grep cx s' (opts ++ [pattern]) (some text)).2 := by
  have hfile := h.ofWords_append [pattern, f] (by simpa using ⟨hpattern, hf⟩)
  have hpiped := h.ofWords_append [pattern] (by simpa using hpattern)
  rw [List.append_assoc, List.singleton_append]
  simp only [grep, Handler.trying, hfile, hpiped, Arguments.has, grepWith_file hread]
  rfl

theorem Counts.columns_ne_nil (a : Arguments) (c : Counts) : c.columns a ≠ [] := by
  unfold Counts.columns
  simp only
  split
  · simp
  · rename_i hchosen
    simpa only [ne_eq, List.map_eq_nil_iff, List.isEmpty_iff] using hchosen

theorem Counts.row_name (a : Arguments) (c : Counts) (hf : f ≠ "") :
    c.row a f = c.row a "" ++ " " ++ f := by
  have hempty : f.isEmpty = false := by
    rw [← Bool.not_eq_true, String.isEmpty_iff]
    exact hf
  rw [row, row, hempty, if_neg (by simp), if_pos (by simp), List.append_nil,
    String.intercalate_append_of_ne_nil (columns_ne_nil a c) (by simp),
    String.intercalate_singleton]

theorem wc_file (cx : Context) (s' : Session)
    (h : OptionWords (fun _ _ => False) IsFlagWord opts) (hf : IsUndashed f)
    (hne : f ≠ "") (hread : s.fs.read (some f) = .ok text) :
    ∃ row, (wc cx s (opts ++ [f]) none).2 = .ok (.ready (.ok (row ++ " " ++ f))) ∧
      (wc cx s' opts (some text)).2 = .ok (.ready (.ok row)) := by
  have hargs := h.ofWords_append [f] (by simpa using hf)
  refine ⟨_, ?_, rfl⟩
  rw [← Counts.row_name _ _ hne]
  simp [wc, Handler.looking, hargs, countFiles, hread, Except.map, joinLines, Counts.row,
    Counts.columns, Arguments.has, Except.isOk, Except.toBool]

/-! ## Columns -/

/-- What `cut` takes from its arguments. -/
structure CutArguments where
  spec : Option String
  delimiter : Option String
  operands : List String

def CutArguments.ofWords (args : List String) : CutArguments :=
  let (spec, rest) := takeOption "f" args
  let (delimiter, rest) := takeOption "d" rest
  ⟨spec, delimiter, (Arguments.ofWords rest).operands⟩

/-- What `cut` answers to its arguments and to its input. -/
def CutArguments.answer (a : CutArguments) (input : Except Outcome String) : Outcome :=
  let delimiter := match a.delimiter with
    | some d => if d.isEmpty then "\t" else d
    | none => "\t"
  let spec := a.spec.getD ""
  if spec.isEmpty then .error "cut: you must specify a list of fields with -f"
  else
    match readFields spec with
    | .error f => .error ("cut: " ++ f.message)
    | .ok fields =>
      match input with
      | .error o => o
      | .ok text => .ok (joinLines ((lines text).map (pickColumns delimiter fields)))

def cutOutcome (fs : Filesystem) (args : List String) (piped : Option String) : Outcome :=
  let a := CutArguments.ofWords args
  a.answer (inputText "cut" fs a.operands piped)

theorem Reader.answer_cut (cx : Context) (s : Session) (args : List String)
    (piped : Option String) : cut.answer cx s args piped = cutOutcome s.fs args piped := rfl

/-- A word without a dash behind the others is the list of fields if that is missing at the end,
else the delimiter if that is, and else an operand. -/
theorem CutArguments.ofWords_concat (hf : IsUndashed f) (args : List String) :
    ofWords (args ++ [f]) =
      if waits "-f" args then { ofWords args with spec := some f }
      else if waits "-d" (takeOption "f" args).2 then { ofWords args with delimiter := some f }
      else { ofWords args with operands := (ofWords args).operands ++ [f] } := by
  have hf' : "-" ++ "f" = "-f" := rfl
  have hd' : "-" ++ "d" = "-d" := rfl
  have hspec := takeOption_concat hf "f" args
  have hdelimiter := takeOption_concat hf "d" (takeOption "f" args).2
  rw [hf'] at hspec
  rw [hd'] at hdelimiter
  by_cases hwaits : waits "-f" args
  · rw [if_pos hwaits] at hspec ⊢
    simp only [ofWords, hspec]
  · rw [if_neg hwaits] at hspec ⊢
    by_cases hwaits' : waits "-d" (takeOption "f" args).2
    · rw [if_pos hwaits'] at hdelimiter ⊢
      simp only [ofWords, hspec, hdelimiter]
    · rw [if_neg hwaits'] at hdelimiter ⊢
      have hlone : ∀ w ∈ [f], IsUndashed w := by simpa using hf
      simp only [ofWords, hspec, hdelimiter, Arguments.ofWords_append,
        Arguments.ofWords_undashed hlone]

/-- The arguments of `cut` read the same in front of a file: the list of fields is not missing at
the end, and unless it is refused, no delimiter is missing there and no operand is left over. -/
def CutReads (args : List String) : Prop :=
  waits "-f" args = false ∧
    ((∃ e, readFields ((CutArguments.ofWords args).spec.getD "") = .error e) ∨
      waits "-d" (takeOption "f" args).2 = false ∧ (CutArguments.ofWords args).operands = [])

theorem CutArguments.answer_refused {a b : CutArguments} {e : FieldFault}
    (h : readFields (a.spec.getD "") = .error e) (hspec : a.spec = b.spec)
    (input input' : Except Outcome String) : a.answer input = b.answer input' := by
  simp only [answer, ← hspec, h]

theorem cut_file {fs : Filesystem} (fs' : Filesystem) (h : CutReads opts) (hf : IsUndashed f)
    (hread : fs.read (some f) = .ok text) :
    cutOutcome fs (opts ++ [f]) none = cutOutcome fs' opts (some text) := by
  obtain ⟨hwaits, hrest⟩ := h
  unfold cutOutcome
  rw [CutArguments.ofWords_concat hf, hwaits, if_neg (by simp)]
  rcases hrest with ⟨e, he⟩ | ⟨hwaits', hoperands⟩
  · split
    · exact (CutArguments.answer_refused he (by rfl) _ _).symm
    · exact (CutArguments.answer_refused he (by rfl) _ _).symm
  · rw [hwaits', if_neg (by simp), hoperands]
    simp only [inputText, List.nil_append, hread, Except.mapError, CutArguments.answer]

/-- Complete options of `cut` read the same in front of a file if no delimiter in a word of its own
begins like a list of fields. -/
theorem CutReads.of_apart
    (h : OptionWords (fun w v => w = "-f" ∨ w = "-d" ∧ ¬ IsTakenFor "-f" v)
      (fun w => IsFlagWord w ∧ w ≠ "-f" ∧ w ≠ "-d") opts) : CutReads opts := by
  obtain ⟨hwaits, hrest⟩ := h.takeOptionFrom_rest
    (by rintro w v ⟨rfl, hv⟩; exact ⟨by decide, hv⟩) fun w hw => hw.2.1
  have hdelimiters : OptionWords (fun w _ => w = "-d" ∨ False) _ _ :=
    (hrest none).mono (fun w v hw => .inl hw.1) fun _ hw => hw
  obtain ⟨hwaits', hflags⟩ := hdelimiters.takeOptionFrom_rest (by simp) fun w hw => hw.2.2
  have hoperands := ((hflags none).mono (fun _ _ hw => hw) fun _ hw => hw.1).operands_eq
  exact ⟨hwaits, .inr ⟨hwaits', hoperands⟩⟩

/-! ## Columns that read otherwise -/

/-- A list of fields that is read is not empty, so a text gives a success and nothing else does. -/
theorem CutArguments.answer_success {a : CutArguments} {fields : List Nat}
    (h : readFields (a.spec.getD "") = .ok fields) (input : Except Outcome String)
    (hinput : ∀ o, input = .error o → o.success = false) :
    (a.answer input).success = input.isOk := by
  have hne : (a.spec.getD "").isEmpty = false := by
    rw [← Bool.not_eq_true, String.isEmpty_iff]
    intro hempty
    have hbad : readFields "" = .error (.badValue "") := by decide
    rw [hempty, hbad] at h
    cases h
  simp only [answer, hne, h, Bool.false_eq_true, ↓reduceIte]
  cases input with
  | error o => exact hinput o rfl
  | ok text => rfl

theorem success_of_inputText {fs : Filesystem} {name : String} {paths : List String} {o : Outcome}
    (h : inputText name fs paths none = .error o) : o.success = false := by
  cases paths with
  | nil =>
      cases h
      rfl
  | cons p paths =>
      rw [inputText] at h
      cases hread : fs.read (some p) with
      | error e =>
          rw [hread] at h
          cases h
          rfl
      | ok text =>
          rw [hread] at h
          cases h

/-- A filesystem with a single file in its root. -/
def holding (name : String) : Filesystem :=
  ⟨.addChild 0 (.newFile 0 name "") (.newDir 0), "/", "/"⟩

theorem read_holding {name : String} (h : name ∈ ["f", "g"]) :
    (holding name).read (some ("/" ++ name)) = .ok "" := by
  revert name
  decide

theorem names_of_read_holding {name : String} {path : Option String}
    (h : (holding name).read path = .ok text) : (holding name).names path = [name] := by
  have hroot : (holding name).root = .dir ⟨"", Filesystem.directoryMode, 0, 0⟩
      [(name, .newFile 0 name "")] := rfl
  unfold Filesystem.read at h
  split at h
  · cases h
  · rename_i info content hnode
    rw [Filesystem.node?, hroot] at hnode
    match hnames : (holding name).names path with
    | [] =>
        rw [hnames] at hnode
        cases hnode
    | k :: ks =>
        rw [hnames] at hnode
        by_cases hk : k = name
        · subst hk
          cases ks with
          | nil => rfl
          | cons k' ks => simp [Filesystem.Node.get?, Filesystem.Node.newFile] at hnode
        · have hkey : (k == name) = false := by simpa using hk
          simp [Filesystem.Node.get?, List.lookup_cons, hkey] at hnode
  · cases h

theorem exists_unreadable (path : String) :
    ∃ name ∈ ["f", "g"], ∃ e, (holding name).read (some path) = .error e := by
  cases hf : (holding "f").read (some path) with
  | error e => exact ⟨"f", by simp, e, hf⟩
  | ok text =>
      cases hg : (holding "g").read (some path) with
      | error e => exact ⟨"g", by simp, e, hg⟩
      | ok text' =>
          have hnames : (holding "f").names (some path) = (holding "g").names (some path) := rfl
          rw [names_of_read_holding hf, names_of_read_holding hg] at hnames
          exact absurd hnames (by decide)

/-- An operand that is left over is read in place of the file, and then there may be nothing. -/
theorem exists_inputText_error {waiting : Bool} {operands : List String}
    (h : ¬ (waiting = false ∧ operands = [])) :
    ∃ name ∈ ["f", "g"], ∃ o, inputText "cut" (holding name)
      (if waiting then operands else operands ++ ["/" ++ name]) none = .error o := by
  cases operands with
  | nil =>
      have hwaiting : waiting = true := by simpa using h
      exact ⟨"f", by simp, _, by rw [hwaiting]; rfl⟩
  | cons p operands =>
      obtain ⟨name, hname, e, he⟩ := exists_unreadable p
      refine ⟨name, hname, .error ("cut: " ++ e.message), ?_⟩
      cases waiting with
      | true => simp [inputText, he, Except.mapError]
      | false => simp [inputText, he, Except.mapError]

/-- Arguments of `cut` that read otherwise in front of a file are told apart from those behind a
pipe by one of two files. -/
theorem exists_cut_file_ne (h : ¬ CutReads opts) :
    ∃ name ∈ ["f", "g"],
      cutOutcome (holding name) (opts ++ ["/" ++ name]) none ≠
        cutOutcome (holding name) opts (some "") := by
  let a := CutArguments.ofWords opts
  have hpath (name : String) : IsUndashed ("/" ++ name) := by
    simp [IsUndashed]
  have hpiped (name : String) :
      cutOutcome (holding name) opts (some "") = a.answer (.ok "") := rfl
  by_cases hwaits : waits "-f" opts
  · -- The path is read as a list of fields, and the message shows which path it was.
    have hfile (name : String) (hname : name ∈ ["f", "g"]) :
        cutOutcome (holding name) (opts ++ ["/" ++ name]) none =
          .error ("cut: " ++ (FieldFault.badValue ("/" ++ name)).message) := by
      have hmessage : readFields ("/" ++ name) = .error (.badValue ("/" ++ name)) := by
        revert name
        decide
      have hne : ("/" ++ name).isEmpty = false := by
        simp [String.isEmpty_eq_false_iff]
      unfold cutOutcome
      rw [CutArguments.ofWords_concat (hpath name), if_pos hwaits]
      simp only [CutArguments.answer, Option.getD_some, hne, hmessage, Bool.false_eq_true,
        ↓reduceIte]
    by_cases hf : a.answer (.ok "") = .error ("cut: " ++ (FieldFault.badValue "/f").message)
    · refine ⟨"g", by simp, ?_⟩
      rw [hfile "g" (by simp), hpiped, hf]
      decide
    · refine ⟨"f", by simp, ?_⟩
      rw [hfile "f" (by simp), hpiped]
      exact Ne.symm hf
  · have hrest : (∀ e, readFields (a.spec.getD "") ≠ .error e) ∧
        ¬ (waits "-d" (takeOption "f" opts).2 = false ∧ a.operands = []) := by
      simpa [CutReads, hwaits, not_or] using h
    obtain ⟨fields, hfields⟩ : ∃ fields, readFields (a.spec.getD "") = .ok fields := by
      cases hread : readFields (a.spec.getD "") with
      | error e => exact absurd hread (hrest.1 e)
      | ok fields => exact ⟨fields, rfl⟩
    obtain ⟨name, hname, o, ho⟩ := exists_inputText_error hrest.2
    let b := CutArguments.ofWords (opts ++ ["/" ++ name])
    have hspec : b.spec = a.spec := by
      unfold b
      rw [CutArguments.ofWords_concat (hpath name), if_neg hwaits]
      split <;> rfl
    have hinput : inputText "cut" (holding name) b.operands none = .error o := by
      unfold b
      rw [CutArguments.ofWords_concat (hpath name), if_neg hwaits, ← ho]
      split <;> rfl
    have hfile : (b.answer (inputText "cut" (holding name) b.operands none)).success = false := by
      rw [hinput]
      exact CutArguments.answer_success (by rw [hspec]; exact hfields) _
        fun o' ho' => success_of_inputText (hinput.trans ho')
    have hsuccess : (a.answer (.ok "")).success = true :=
      CutArguments.answer_success hfields _ (by simp)
    refine ⟨name, hname, fun heq => ?_⟩
    rw [← hpiped name, ← heq] at hsuccess
    exact absurd (hfile.symm.trans hsuccess) (by simp)

/-! ## All of them -/

/-- A command with complete options answers for a file as for its text piped in. -/
theorem Reader.answer_file {c : Reader} (s' : Session) (h : c.IsComplete opts)
    (hcut : c = .cut → CutReads opts) (hoperands : ∀ w ∈ c.operands, IsUndashed w)
    (hf : IsUndashed f) (hwc : c = .wc → f ≠ "") (hread : s.fs.read (some f) = .ok text) :
    c.answer cx s (opts ++ c.operands ++ [f]) none =
      c.labelled f (c.answer cx s' (opts ++ c.operands) (some text)) := by
  cases c with
  | head =>
      have hlines := someLines_file "head" firstLines s' h hf hread
      simp only [answer, handler, Command.head, Handler.trying, operands, List.append_nil, hlines,
        labelled, reduceCtorEq, ↓reduceIte]
  | tail =>
      have hlines := someLines_file "tail" lastLines s' h hf hread
      simp only [answer, handler, Command.tail, Handler.trying, operands, List.append_nil, hlines,
        labelled, reduceCtorEq, ↓reduceIte]
  | sort =>
      simp only [answer, handler, operands, List.append_nil, sort_file s' h hf hread,
        labelled, reduceCtorEq, ↓reduceIte]
  | uniq =>
      simp only [answer, handler, operands, List.append_nil, uniq_file s' h hf hread,
        labelled, reduceCtorEq, ↓reduceIte]
  | cut =>
      have hcolumns := cut_file s'.fs (hcut rfl) hf hread
      simp only [answer_cut, operands, List.append_nil, hcolumns, labelled, reduceCtorEq,
        ↓reduceIte]
  | wc =>
      obtain ⟨row, hfile, hpiped⟩ := wc_file cx s' h hf (hwc rfl) hread
      simp only [answer, handler, operands, List.append_nil, hfile, hpiped, settle, Reply.resolve,
        labelled, ↓reduceIte, Outcome.ok]
  | grep pattern =>
      have hpattern : IsUndashed pattern := hoperands pattern (by simp [operands])
      simp only [answer, handler, operands, grep_file s' h hpattern hf hread, labelled,
        reduceCtorEq, ↓reduceIte]

end Shellbox.Command
