import Shellbox.Proofs.Command.Escapes
import Shellbox.Proofs.Shell.FirstWord
import Shellbox.Proofs.Shell.Piped

/-!
# Lines that print a text

A text is printed as it is by a line that holds it in double quotes with its escapes written out:
the quotes and the escapes are two layers, and each is undone once.
-/

namespace Shellbox

open Text Line Command

variable {s : Session} {text : String}

/-- The line that prints a text with its escapes read and without a line break behind it. -/
def printLine (text : String) : String := "echo -ne " ++ quote (writeEscapes text)

theorem printLine_spells (text : String) :
    Spells (printLine text) ["echo", "-ne", writeEscapes text] := by
  have hflags : Spells "echo -ne" ["echo", "-ne"] := by decide
  have hline : printLine text = "echo -ne" ++ " " ++ quote (writeEscapes text) := by
    simp [printLine]
  rw [hline]
  exact hflags.append (quote_spells _) (by simp) (by simp)

theorem splitFirstWord_printLine (text : String) :
    (splitFirstWord (printLine text)).1 = "echo" := by
  have hname : "echo".toList.all (!isBlank ·) := by decide
  have hline : printLine text = "echo" ++ " " ++ ("-ne " ++ quote (writeEscapes text)) := by
    simp [printLine, ← String.toList_inj]
  rw [hline, splitFirstWord_append (by simpa using hname) (by simp [isBlank]) (by simp)]

theorem execute_printLine (now : Filesystem.Instant) (h : s.aliases.lookup "echo" = none)
    (text : String) :
    execute ⟨Catalog.standard, now⟩ s (printLine text) =
      (s.recording (printLine text), .ok (echoText ["-ne", writeEscapes text])) := by
  have halias : s.aliases.lookup (splitFirstWord (printLine text)).1 = none := by
    rw [splitFirstWord_printLine, h]
  rw [execute_stage (printLine_spells text) (by simp) halias, runWords_standard "echo" echo rfl]
  rfl

theorem echo_eq_iff (cx : Context) {args : List String} (hargs : args ≠ [])
    (piped : Option String) :
    echo cx s args piped = (s, .ok (.ready (.ok text))) ↔ echoText args = text := by
  simp [echo, Handler.looking, hargs, Outcome.ok]

/-- A text with its escapes written out is printed as it is, by a call and by a line that holds it
in double quotes, just if it is no word of flags. With its escapes left alone it is printed as it is
just if, besides, it is no word of flags with a line break behind it. -/
theorem echo_prints_exactly (now : Filesystem.Instant) (s : Session) (text : String) :
    let line := "echo -ne " ++ quote (writeEscapes text)
    (∀ cx piped, echo cx s ["-ne", writeEscapes text] piped = (s, .ok (.ready (.ok text))) ↔
      ¬ IsEchoFlags text) ∧
    (s.aliases.lookup "echo" = none →
      (execute ⟨Catalog.standard, now⟩ s line = (s.recording line, .ok text) ↔
        ¬ IsEchoFlags text)) ∧
    ∀ cx piped, echo cx s ["-n", text] piped = (s, .ok (.ready (.ok text))) ↔
      ¬ IsEchoFlags text ∧ ∀ v, IsEchoFlags v → text ≠ v ++ "\n" := by
  intro line
  refine ⟨fun cx piped => ?_, fun halias => ?_, fun cx piped => ?_⟩
  · rw [echo_eq_iff cx (by simp), echoText_escaped_iff]
  · rw [← echoText_escaped_iff, show line = printLine text from rfl, execute_printLine now halias]
    simp [Outcome.ok]
  · rw [echo_eq_iff cx (by simp), echoText_plain_iff]

theorem echo_prints_exactly_backslashes :
    let s : Session := ⟨{}, .empty 0 "/", .empty 10, .initial, []⟩
    let line := "echo -ne \"\\\\\\\\n\\\\n\\\"\""
    s.aliases.lookup "echo" = none ∧ line = "echo -ne " ++ quote (writeEscapes "\\n\n\"") ∧
      execute ⟨Catalog.standard, 0⟩ s line = (s.recording line, .ok "\\n\n\"") := by
  intro s line
  have halias : s.aliases.lookup "echo" = none := by decide
  have hline : line = "echo -ne " ++ quote (writeEscapes "\\n\n\"") := by decide
  have hflags : ¬ IsEchoFlags "\\n\n\"" := by
    rintro ⟨letters, -, -, h⟩
    have hhead : '\\' = '-' := List.head_eq_of_cons_eq h
    exact absurd hhead (by decide)
  have hprints := ((echo_prints_exactly 0 s "\\n\n\"").2.1 halias).mpr hflags
  rw [← hline] at hprints
  exact ⟨halias, hline, hprints⟩

end Shellbox
