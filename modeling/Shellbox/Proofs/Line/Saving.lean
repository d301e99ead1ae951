import Shellbox.Proofs.Line.Spelled

/-!
# Lines that save the output of a command

A line without operators reads as the words of one command. With a redirect sign and a spelled word
behind it, it reads as the same command with its output sent to the file of that name: whichever of
the two signs it is, however the word is spelled, and however many blanks stand before the sign.
-/

namespace Shellbox.Line

open Text

variable {line gap spelled target : String} {append : Bool}

/-- The sign that sends output to a file: behind what the file holds, or in its place. -/
def signOf (append : Bool) : Operator := if append then .append else .redirect

/-- A redirect sign and the word behind it. -/
def signed (append : Bool) (spelled : String) : String := (signOf append).text ++ " " ++ spelled

/-- The line with its output sent to the file that the word names. -/
def savedTo (line : String) (append : Bool) (spelled : String) : String :=
  line ++ " " ++ signed append spelled

theorem signOf_isRedirect (append : Bool) : (Token.operator (signOf append)).isRedirect := by
  cases append <;> rfl

theorem signed_ne_empty (append : Bool) (spelled : String) : signed append spelled ≠ "" := by
  simp [signed]

theorem scan_signed (h : Spells spelled [target]) (append : Bool) :
    scan (signed append spelled) = [.operator (signOf append), .word target] := by
  have hsign : ∀ append, endState (signOf append).text = .clean ∧
      scan (signOf append).text = [.operator (signOf append)] := by decide
  rw [signed, scan_append_blank (hsign append).1, (hsign append).2, h.scan_eq]
  rfl

theorem trim_signed (h : Spells spelled [target]) (append : Bool) :
    trim (signed append spelled) = signed append spelled := by
  have hsign : ∀ append, (signOf append).text ≠ "" ∧
      trim (signOf append).text = (signOf append).text := by decide
  exact trim_append (hsign append).1 (hsign append).2 (h.ne_empty (by simp)) h.trimmed " "

/-- The line reads as the words of one command, and nothing is pending at its end. -/
structure Plain (line : String) : Prop where
  settled : endState line = .clean
  no_pipe : hasPipe line = false
  no_redirect : hasRedirect line = false

instance (line : String) : Decidable (Plain line) :=
  decidable_of_iff (endState line = .clean ∧ hasPipe line = false ∧ hasRedirect line = false)
    ⟨fun h => ⟨h.1, h.2.1, h.2.2⟩, fun h => ⟨h.settled, h.no_pipe, h.no_redirect⟩⟩

section

variable (h : Plain line) (hgap : ∀ c ∈ gap.toList, isBlank c) (hne : gap ≠ "")
  (hspelled : Spells spelled [target])

include h hgap hne hspelled

theorem Plain.scan_signed (append : Bool) :
    scan (line ++ gap ++ signed append spelled) =
      (tokenTexts line).map .word ++ [.operator (signOf append), .word target] := by
  rw [scan_append_gap h.settled hgap hne, Line.scan_signed hspelled,
    scan_eq_words h.no_pipe h.no_redirect]

theorem Plain.no_pipe_signed (append : Bool) :
    Token.operator .pipe ∉ scan (line ++ gap ++ signed append spelled) := by
  rw [h.scan_signed hgap hne hspelled]
  cases append <;> simp [signOf]

theorem Plain.redirect_signed (append : Bool) :
    Token.operator .redirect ∈ scan (line ++ gap ++ signed append spelled) ∨
      Token.operator .append ∈ scan (line ++ gap ++ signed append spelled) := by
  rw [h.scan_signed hgap hne hspelled]
  cases append <;> simp [signOf]

/-- The redirection has the words of the line and the file that the word names. -/
theorem Plain.redirection?_signed (hwords : tokenTexts line ≠ []) (append : Bool) :
    redirection? (line ++ gap ++ signed append spelled) =
      some ⟨tokenTexts line, target, append⟩ := by
  have hscan : scan line ≠ [] := by simpa [tokenTexts] using hwords
  rw [redirection?, h.scan_signed hgap hne hspelled, ← scan_eq_words h.no_pipe h.no_redirect,
    ofTokens?_append hscan (scan_not_isRedirect h.no_redirect) (signOf_isRedirect append) (by simp)
      (by simp [Token.isOperator])]
  cases append <;> rfl

end

end Shellbox.Line
