import Shellbox.Proofs.Line.Quoted
import Shellbox.Shell.Executor
import Shellbox.Proofs.Command.Catalog
import Shellbox.Proofs.Command.Encoders

/-!
# Lines of quoted words

A line of quoted words goes into the history and calls its first word with the others. The call is
stated as a relation of its own, with one rule for each way in which a call can end, and `runWords`
is shown to compute it.
-/

namespace Shellbox

open Text Line

variable {env : Environment} {s s' : Session} {o : Outcome} {name : String} {args : List String}
  {piped : Option String}

/-! ## Calls -/

/-- Calling a command by its name, with arguments and the text piped into it, leaves a session and
gives an outcome. -/
inductive Calls (env : Environment) (s : Session) (name : String) (args : List String)
    (piped : Option String) : Session → Outcome → Prop
  | missing (hb : env.catalog.find? name = none) :
      Calls env s name args piped s
        (.errorCode ("Command not found: " ++ name ++ ". Type 'help' for available commands.") 127)
  | raised {b : Builtin} {s' : Session} {f : Fault} (hb : env.catalog.find? name = some b)
      (hcall : b.handler env.context s args piped = (s', .error f)) :
      Calls env s name args piped s' (.error ("Error executing " ++ name ++ ": " ++ f.message))
  | unresolved {b : Builtin} {s' : Session} {r : Reply} {f : Fault}
      (hb : env.catalog.find? name = some b)
      (hcall : b.handler env.context s args piped = (s', .ok r)) (hr : r.resolve = .error f) :
      Calls env s name args piped s' (.error ("Error executing " ++ name ++ ": " ++ f.message))
  | resolved {b : Builtin} {s' : Session} {r : Reply} {o : Outcome}
      (hb : env.catalog.find? name = some b)
      (hcall : b.handler env.context s args piped = (s', .ok r)) (hr : r.resolve = .ok o) :
      Calls env s name args piped s' o

theorem runWords_calls (env : Environment) (s : Session) (name : String) (args : List String)
    (piped : Option String) :
    Calls env s name args piped (runWords env s (name :: args) piped).1
      (runWords env s (name :: args) piped).2 := by
  cases hb : env.catalog.find? name with
  | none =>
      simp only [runWords, hb]
      exact .missing hb
  | some b =>
      simp only [runWords, hb, Environment.call]
      cases hcall : b.handler env.context s args piped with
      | mk s' reply =>
          cases reply with
          | error f => exact .raised hb hcall
          | ok r =>
              cases hr : r.resolve with
              | error f =>
                  simp only [settle, hr]
                  exact .unresolved hb hcall hr
              | ok o =>
                  simp only [settle, hr]
                  exact .resolved hb hcall hr

/-- Words run as one command just as their first word is called with the others. -/
theorem runWords_eq_iff :
    runWords env s (name :: args) piped = (s', o) ↔ Calls env s name args piped s' o := by
  constructor
  · intro h
    have hcalls := runWords_calls env s name args piped
    rwa [h] at hcalls
  · intro h
    cases h with
    | missing hb => simp only [runWords, hb, notFoundOutcome]
    | raised hb hcall => simp only [runWords, hb, Environment.call, hcall, settle, faultOutcome]
    | unresolved hb hcall hr =>
        simp only [runWords, hb, Environment.call, hcall, settle, hr, faultOutcome]
    | resolved hb hcall hr => simp only [runWords, hb, Environment.call, hcall, settle, hr]

/-- A shipped command runs with its handler. -/
theorem runWords_standard {now : Filesystem.Instant} (name : String) (handler : Handler)
    (h : (Command.shipped.find? (name ∈ ·.names)).map (·.handler) = some handler) (s : Session)
    (args : List String) (piped : Option String) :
    runWords ⟨Catalog.standard, now⟩ s (name :: args) piped =
      let left := handler ⟨now, Catalog.standard.pages⟩ s args piped
      (left.1, settle name left.2) := by
  rw [← Catalog.find?_standard] at h
  obtain ⟨b, hb, rfl⟩ := Option.map_eq_some_iff.mp h
  simp only [runWords, hb, Environment.call, Environment.context]

theorem settle_of_resolve {reply : Except Fault Reply}
    (h : reply.bind Reply.resolve = .ok o) : settle name reply = o := by
  cases reply with
  | error f => cases h
  | ok r =>
      have hr : r.resolve = .ok o := h
      simp only [settle, hr]

/-- An encoder answers a text from the pipe with what it makes of it. -/
theorem runWords_encoder {text : String} (e : Command.Encoder) (now : Filesystem.Instant)
    (s : Session) (args : List String) (ht : text ≠ "")
    (h : e.convert (e.options args) text = .ok o) :
    runWords ⟨Catalog.standard, now⟩ s (e.name :: args) (some text) = (s, o) := by
  have hshipped : (Command.shipped.find? (e.name ∈ ·.names)).map (·.handler) = some e.handler := by
    cases e <;> rfl
  have hsession (cx : Context) (piped : Option String) : (e.handler cx s args piped).1 = s := by
    cases e <;> rfl
  rw [← Command.Encoder.answer_piped ht] at h
  rw [runWords_standard e.name e.handler hshipped]
  exact Prod.ext (hsession _ _) (settle_of_resolve h)

/-! ## Quoted words as a line -/

/-- No alias stands for a first word that begins with a double quote. -/
theorem expandAlias_quoteWords {aliases : Aliases}
    (h : ∀ a ∈ aliases, a.1.toList.head? ≠ some '"') (w : String) (ws : List String) :
    expandAlias aliases (quoteWords (w :: ws)) = quoteWords (w :: ws) := by
  obtain ⟨cs, hcs⟩ := quoteWords_ends w ws
  have hfirst : (splitFirstWord (quoteWords (w :: ws))).1.toList.head? = some '"' := by
    have hquote : isBlank '"' = false := rfl
    simp [splitFirstWord, hcs, hquote]
  have hlookup : aliases.lookup (splitFirstWord (quoteWords (w :: ws))).1 = none := by
    rw [List.lookup_eq_none_iff]
    intro a ha
    rw [bne_iff_ne]
    intro heq
    exact h a ha (heq ▸ hfirst)
  simp only [expandAlias, hlookup]

theorem History.accepts_quoteWords (h : History) (w : String) (ws : List String) :
    h.accepts (quoteWords (w :: ws)) ↔ h.entries.getLast? ≠ some (quoteWords (w :: ws)) := by
  simp [accepts, isAllBlank_quoteWords]

theorem execute_eq_runWords (h : ∀ a ∈ s.aliases, a.1.toList.head? ≠ some '"') (w : String)
    (ws : List String) :
    execute env s (quoteWords (w :: ws)) =
      runWords env { s with history := s.history.add (quoteWords (w :: ws)) } (w :: ws) none := by
  have hempty : (quoteWords (w :: ws)).isEmpty = false := by
    obtain ⟨cs, hcs⟩ := quoteWords_ends w ws
    rw [← Bool.not_eq_true, String.isEmpty_iff]
    intro hnil
    simp [hnil] at hcs
  rw [execute, trim_quoteWords, hempty]
  simp only [Bool.false_eq_true, ↓reduceIte]
  rw [expandAlias_quoteWords h, runExpanded, quoteWords_no_pipe, quoteWords_no_redirect,
    tokenTexts_quoteWords]
  simp

/-- A line of quoted words reads back as these words, without an operator among them. If no alias
begins with a double quote, the line is recorded unless it repeats the one before, and then does
just what a call of the first word with the others does. -/
theorem execute_quoteWords (name : String) (args : List String) :
    let line := quoteWords (name :: args)
    scan line = (name :: args).map .word ∧ hasPipe line = false ∧ hasRedirect line = false ∧
    ∀ (env : Environment) (s : Session), (∀ a ∈ s.aliases, a.1.toList.head? ≠ some '"') →
      (s.history.accepts line ↔ s.history.entries.getLast? ≠ some line) ∧
      ∀ (s' : Session) (o : Outcome),
        execute env s line = (s', o) ↔
          Calls env { s with history := s.history.add line } name args none s' o := by
  refine ⟨scan_quoteWords _, quoteWords_no_pipe _, quoteWords_no_redirect _, fun env s h => ?_⟩
  refine ⟨s.history.accepts_quoteWords name args, fun s' o => ?_⟩
  rw [execute_eq_runWords h, runWords_eq_iff]

theorem execute_quoteWords_echo :
    let env : Environment := ⟨[⟨⟨"echo", .text, false, {}⟩, Command.echo⟩], 0⟩
    let s : Session := ⟨{}, .empty 0 "/home/user", .empty 10, .initial, []⟩
    let line := "\"echo\" \"a|b >\" \"\" \"\\\"\\\\\""
    (∀ a ∈ s.aliases, a.1.toList.head? ≠ some '"') ∧
    execute env s line = ({ s with history := ⟨10, [line]⟩ }, .ok "a|b >  \"\\\n") := by
  intro env s line
  have halias : ∀ a ∈ s.aliases, a.1.toList.head? ≠ some '"' := by decide
  have hline : quoteWords ["echo", "a|b >", "", "\"\\"] = line := by decide +kernel
  have hhistory : s.history.add line = ⟨10, [line]⟩ := by decide +kernel
  have houtput : Command.echoText ["a|b >", "", "\"\\"] = "a|b >  \"\\\n" := by decide +kernel
  have hcall (s : Session) : Command.echo env.context s ["a|b >", "", "\"\\"] none =
      (s, .ok (.ready (.ok "a|b >  \"\\\n"))) := by
    simp [Command.echo, Handler.looking, houtput]
  have h := ((execute_quoteWords "echo" ["a|b >", "", "\"\\"]).2.2.2 env s halias).2
  rw [hline, hhistory] at h
  exact ⟨halias, (h _ _).mpr (.resolved rfl (hcall _) rfl)⟩

end Shellbox
