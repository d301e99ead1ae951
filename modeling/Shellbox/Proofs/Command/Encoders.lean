import Shellbox.Command.Standard
import Shellbox.Shell.Executor

/-!
# Text piped into encoders

The commands that write texts in other forms make of a text piped in what their options say, and
look neither at operands nor at files. An empty text counts as none: there the operands decide, and
without one the text is missed.
-/

namespace Shellbox.Command

open Text Codec

/-- The commands that write texts in other forms. -/
inductive Encoder where
  | base64
  | xxd
  | strings
  | md5sum
  | sha256sum
  | rot13
  | rev
deriving DecidableEq, Repr

/-! ## Options -/

/-- The options for a least length, each with its value. -/
def leastOptions : List String → List String
  | [] => []
  | "-n" :: v :: r => "-n" :: v :: leastOptions r
  | _ :: r => leastOptions r

/-- Words that are no options do not change the least length. -/
theorem readLeast_leastOptions (least : Nat) (args : List String) :
    (readLeast least (leastOptions args)).map (·.map (·.1)) =
      (readLeast least args).map (·.map (·.1)) := by
  fun_induction leastOptions args generalizing least with
  | case1 => rfl
  | case2 v r ih =>
      simp only [readLeast]
      split
      · rfl
      · split
        · rfl
        · split
          · rfl
          · exact ih _
  | case3 w r hw ih =>
      rw [ih, readLeast]
      · cases readLeast least r with
        | error f => rfl
        | ok read => cases read with
          | none => rfl
          | some x => rfl
      · exact hw

namespace Encoder

variable {e : Encoder} {cx cx' : Context} {s s' : Session} {args args' : List String}
  {text : String}

def name : Encoder → String
  | base64 => "base64"
  | xxd => "xxd"
  | strings => "strings"
  | md5sum => "md5sum"
  | sha256sum => "sha256sum"
  | rot13 => "rot13"
  | rev => "rev"

def handler : Encoder → Handler
  | base64 => Command.base64
  | xxd => Command.xxd
  | strings => Command.strings
  | md5sum => Command.md5sum
  | sha256sum => Command.sha256sum
  | rot13 => Command.rot13
  | rev => Command.rev

/-- The options among the arguments; all other words are operands. -/
def options (e : Encoder) (args : List String) : List String :=
  match e with
  | base64 => args.filter ["-d", "--decode"].contains
  | xxd => args.filter ["-r", "--revert"].contains
  | strings => leastOptions args
  | _ => []

/-- What becomes of a text under options. -/
def convert (e : Encoder) (options : List String) (text : String) : Except Fault Outcome :=
  match e with
  | base64 => .ok (if options = [] then encodeBase64 (trim text) else decodeBase64 (trim text))
  | xxd => .ok (if options = [] then .ok (Hex.dump (bytesOf text)) else decodeHex text)
  | strings =>
    match (readLeast 4 options).map (·.map (·.1)) with
    | .error f => .error f
    | .ok none => .ok (.error "strings: invalid minimum string length")
    | .ok (some least) =>
      if least ≥ Pattern.unbounded then .error .repetitionTooLarge
      else .ok (.ok (joinLines (plainRuns least text)))
  | md5sum => .ok (digestRow Digest.Md5.digest (text, "-"))
  | sha256sum => .ok (digestRow Digest.Sha256.digest (text, "-"))
  | rot13 => .ok (.ok (text.map turnLetter))
  | rev => .ok (.ok (reverseLines text))

/-- What a call answers, worked out. -/
def answer (e : Encoder) (cx : Context) (s : Session) (args : List String)
    (piped : Option String) : Except Fault Outcome :=
  (e.handler cx s args piped).2.bind Reply.resolve

/-! ## Answers -/

theorem answer_looking (f : Context → Session → List String → Option String → Outcome)
    (piped : Option String) :
    (Handler.looking f cx s args piped).2.bind Reply.resolve = .ok (f cx s args piped) := rfl

theorem answer_trying (f : Context → Session → List String → Option String → Except Fault Outcome)
    (piped : Option String) :
    (Handler.trying f cx s args piped).2.bind Reply.resolve = f cx s args piped := by
  simp only [Handler.trying]
  cases f cx s args piped with
  | error f => rfl
  | ok o => rfl

theorem any_eq_filter_ne_nil (p : String → Bool) (args : List String) :
    args.any p = decide (args.filter p ≠ []) := by
  rw [Bool.eq_iff_iff]
  simp [List.filter_eq_nil_iff]

/-- A text from the pipe leaves nothing to the operands and to the files. -/
theorem answer_piped (h : text ≠ "") :
    e.answer cx s args (some text) = e.convert (e.options args) text := by
  have hpiped : pipedText? (some text) = some text := by simp [pipedText?, h]
  cases e with
  | base64 =>
      simp only [answer, handler, Command.base64, answer_looking, splitOptions, hpiped, convert,
        options, any_eq_filter_ne_nil]
      by_cases hoptions : args.filter ["-d", "--decode"].contains = [] <;> simp [hoptions]
  | xxd =>
      simp only [answer, handler, Command.xxd, answer_looking, splitOptions, pipedOrFile, hpiped,
        convert, options, any_eq_filter_ne_nil]
      by_cases hoptions : args.filter ["-r", "--revert"].contains = [] <;> simp [hoptions]
  | strings =>
      simp only [answer, handler, Command.strings, answer_trying, pipedOrFile, hpiped, convert,
        options, readLeast_leastOptions]
      cases readLeast 4 args with
      | error f => rfl
      | ok read => cases read <;> rfl
  | md5sum =>
      simp only [answer, handler, Command.md5sum, answer_looking, digestSource?, hpiped, convert]
  | sha256sum =>
      simp only [answer, handler, Command.sha256sum, Handler.deferring, digestSource?, hpiped,
        convert, Except.bind, Reply.resolve]
  | rot13 => simp only [answer, handler, Command.rot13, answer_looking, hpiped, convert]
  | rev => simp only [answer, handler, Command.rev, answer_looking, hpiped, convert]

/-- An empty text counts as none. -/
theorem answer_empty : e.answer cx s args (some "") = e.answer cx s args none := by
  have hpiped : pipedText? (some "") = pipedText? none := rfl
  cases e with
  | base64 => simp only [answer, handler, Command.base64, answer_looking, hpiped]
  | xxd => simp only [answer, handler, Command.xxd, answer_looking, pipedOrFile, hpiped]
  | strings => simp only [answer, handler, Command.strings, answer_trying, pipedOrFile, hpiped]
  | md5sum => simp only [answer, handler, Command.md5sum, answer_looking, digestSource?, hpiped]
  | sha256sum =>
      simp only [answer, handler, Command.sha256sum, Handler.deferring, digestSource?, hpiped]
  | rot13 => simp only [answer, handler, Command.rot13, answer_looking, hpiped]
  | rev => simp only [answer, handler, Command.rev, answer_looking, hpiped]

/-! ## Missing texts -/

/-- The answer that a text is missing. -/
def IsMissing (e : Encoder) (answer : Except Fault Outcome) : Prop :=
  ∃ hint, answer = .ok (missingOperand e.name hint)

theorem not_isMissing_of_success {o : Outcome} (ho : o.success) : ¬ e.IsMissing (.ok o) := by
  rintro ⟨hint, h⟩
  cases h
  cases ho

/-- The first texts of the messages differ at a place that both reach. -/
theorem not_isMissing_of_error {front message : String} (n : Nat)
    (hfront : n < front.toList.length)
    (hmissing : n < (e.name ++ ": missing operand\nTry: ").toList.length)
    (hn : front.toList[n]? ≠ (e.name ++ ": missing operand\nTry: ").toList[n]?) :
    ¬ e.IsMissing (.ok (.error (front ++ message))) := by
  rintro ⟨hint, h⟩
  have houtput : front ++ message =
      (e.name ++ ": missing operand\nTry: ") ++
        (e.name ++ " " ++ hint ++ " or echo \"text\" | " ++ e.name) := by
    simpa [missingOperand, Outcome.error, Outcome.errorCode, String.append_assoc] using h
  have hlist := congrArg String.toList houtput
  rw [String.toList_append, String.toList_append (s := e.name ++ _)] at hlist
  have hplace := congrArg (·[n]?) hlist
  rw [List.getElem?_append_left hfront, List.getElem?_append_left hmissing] at hplace
  exact hn hplace

theorem isMissing_without (e : Encoder) (cx : Context) (s : Session) :
    e.IsMissing (e.answer cx s [] none) := by
  cases e with
  | strings => exact ⟨_, rfl⟩
  | _ => exact ⟨_, rfl⟩

theorem convert_not_isMissing (e : Encoder) (options : List String) (text : String) :
    ¬ e.IsMissing (e.convert options text) := by
  cases e with
  | base64 =>
      simp only [convert]
      split
      · exact not_isMissing_of_success rfl
      · unfold decodeBase64
        split
        · exact not_isMissing_of_error 8 (by decide) (by decide) (by decide)
        · exact not_isMissing_of_success rfl
  | xxd =>
      simp only [convert]
      split
      · exact not_isMissing_of_success rfl
      · unfold decodeHex
        split
        · rw [String.append_assoc]
          exact not_isMissing_of_error 5 (by decide) (by decide) (by decide)
        · exact not_isMissing_of_success rfl
  | strings =>
      simp only [convert]
      split
      · rintro ⟨hint, h⟩
        cases h
      · rw [← String.append_empty (s := "strings: invalid minimum string length")]
        exact not_isMissing_of_error 9 (by decide) (by decide) (by decide)
      · split
        · rintro ⟨hint, h⟩
          cases h
        · exact not_isMissing_of_success rfl
  | md5sum => exact not_isMissing_of_success rfl
  | sha256sum => exact not_isMissing_of_success rfl
  | rot13 => exact not_isMissing_of_success rfl
  | rev => exact not_isMissing_of_success rfl

/-! ## The pipe and the operands -/

def blankSession : Session := ⟨{}, .empty 0 "/", .empty 0, [], []⟩

theorem answer_operand_ne (e : Encoder) :
    ∃ cx s, e.answer cx s ["x"] none ≠ e.answer cx s [] none := by
  refine ⟨⟨0, []⟩, blankSession, fun h => ?_⟩
  have hmissing := e.isMissing_without ⟨0, []⟩ blankSession
  rw [← h] at hmissing
  revert hmissing
  cases e with
  | xxd =>
      exact not_isMissing_of_error 5 (by decide) (by decide) (by decide)
  | strings =>
      exact not_isMissing_of_error 9 (by decide) (by decide) (by decide)
  | _ => exact not_isMissing_of_success rfl

theorem options_operand (e : Encoder) : e.options ["x"] = e.options [] := by
  cases e <;> rfl

/-- A text from the pipe alone decides what a command makes of it, two calls with the same options
answer the same, and no text is missed: each of the three just if the text is not empty. -/
theorem piped_text_decides_iff (e : Encoder) (text : String) :
    ((∀ cx s args, e.answer cx s args (some text) = e.convert (e.options args) text) ↔
      text ≠ "") ∧
    ((∀ cx cx' s s' args args', e.options args = e.options args' →
      e.answer cx s args (some text) = e.answer cx' s' args' (some text)) ↔ text ≠ "") ∧
    ((∀ cx s args, ¬ e.IsMissing (e.answer cx s args (some text))) ↔ text ≠ "") := by
  refine ⟨⟨?_, fun h cx s args => answer_piped h⟩, ⟨?_, ?_⟩, ⟨?_, ?_⟩⟩
  · rintro hall rfl
    have hmissing := e.isMissing_without ⟨0, []⟩ blankSession
    rw [← answer_empty, hall] at hmissing
    exact e.convert_not_isMissing _ _ hmissing
  · rintro hall rfl
    obtain ⟨cx, s, hne⟩ := e.answer_operand_ne
    rw [← answer_empty, ← answer_empty] at hne
    exact hne (hall cx cx s s ["x"] [] e.options_operand)
  · intro h cx cx' s s' args args' hoptions
    rw [answer_piped h, answer_piped h, hoptions]
  · rintro hall rfl
    refine hall ⟨0, []⟩ blankSession [] ?_
    rw [answer_empty]
    exact e.isMissing_without _ _
  · intro h cx s args
    rw [answer_piped h]
    exact e.convert_not_isMissing _ _

/-- An empty text from the pipe is missed, and an operand takes its place. -/
theorem empty_piped_text_missed :
    let s : Session := ⟨{}, .empty 0 "/", .empty 10, [], []⟩
    let output (line : String) : String := (execute ⟨Catalog.standard, 0⟩ s line).2.output
    output "echo -n | md5sum" =
      "md5sum: missing operand\nTry: md5sum <file> or echo \"text\" | md5sum" ∧
    output "echo -n | rev ab" = "ba" ∧ output "echo -n | rev cd" = "dc" := by
  decide +kernel

end Encoder
end Shellbox.Command
