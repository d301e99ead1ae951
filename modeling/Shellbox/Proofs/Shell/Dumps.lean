import Shellbox.Proofs.Codec.Hex
import Shellbox.Proofs.Shell.Calls

/-!
# Texts dumped and read back

The digits that `xxd` shows for a text are read back by `xxd -r` as that text, and so are the digits
of its bytes in any other spelling.
-/

namespace Shellbox

open Text Codec Command

variable {t : String} {cs : List Char}

theorem decodeHex_spelled (h : Hex.Spells (Hex.halves (bytesOf t)) cs) :
    decodeHex (String.ofList cs) = .ok t := by
  have hfilter : cs.filter (fun c => !isBlank c && c != ':') = cs.filter (!Hex.isGap ·) :=
    List.filter_congr fun c _ => by simp [Hex.isGap, bne, beq_eq_decide]
  rw [decodeHex, String.toList_ofList, hfilter, Hex.parse_spelled h]
  exact congrArg Outcome.ok (textOf_bytesOf t)

/-- A text that is not empty has digits to spell. -/
theorem spelled_ne_nil (ht : t ≠ "") (h : Hex.Spells (Hex.halves (bytesOf t)) cs) : cs ≠ [] := by
  rintro rfl
  cases hbytes : bytesOf t with
  | nil =>
      have htext := textOf_bytesOf t
      rw [hbytes] at htext
      exact ht (htext.symm.trans rfl)
  | cons b bs =>
      rw [hbytes] at h
      cases h

theorem runWords_revert_spelled (now : Filesystem.Instant) (s : Session) (ht : t ≠ "")
    (h : Hex.Spells (Hex.halves (bytesOf t)) cs) :
    runWords ⟨Catalog.standard, now⟩ s ["xxd", "-r"] (some (String.ofList cs)) = (s, .ok t) := by
  have hne : String.ofList cs ≠ "" := by simpa using spelled_ne_nil ht h
  exact runWords_encoder .xxd now s ["-r"] hne (congrArg Except.ok (decodeHex_spelled h))

/-- A dump has a line for every sixteen bytes that are begun, each with its offset, its digits and
its characters. What `xxd` shows for a text is the dump of its bytes; the digits in its lines, one
line after another, are read back as the text, and so is every other spelling of its bytes. -/
theorem hex_dump_reverts (now : Filesystem.Instant) (s : Session) :
    let run (ws : List String) (piped : Option String) : Session × Outcome :=
      runWords ⟨Catalog.standard, now⟩ s ws piped
    (∀ bs : List UInt8, bs.length < 2 ^ 32 →
      (lines (Hex.dump bs)).length = (bs.length + 15) / 16 ∧
      ∀ k line, (lines (Hex.dump bs))[k]? = some line →
        Hex.IsLine k ((bs.drop (16 * k)).take 16) line) ∧
    ∀ t, t ≠ "" →
      run ["xxd"] (some t) = (s, .ok (Hex.dump (bytesOf t))) ∧
      run ["xxd", "-r"] (some (String.ofList
        ((lines (Hex.dump (bytesOf t))).flatMap Hex.columnOf))) = (s, .ok t) ∧
      ∀ cs, Hex.Spells (Hex.halves (bytesOf t)) cs →
        run ["xxd", "-r"] (some (String.ofList cs)) = (s, .ok t) := by
  intro run
  refine ⟨fun bs hbs => ⟨?_, fun k line hline => Hex.isLine_of_getElem? hbs hline⟩,
    fun t ht => ⟨runWords_encoder .xxd now s [] ht rfl, ?_, fun cs hcs => ?_⟩⟩
  · rw [Hex.lines_dump, Hex.length_dumpRows]
  · exact runWords_revert_spelled now s ht (Hex.columns_spell (bytesOf t))
  · exact runWords_revert_spelled now s ht hcs

theorem hex_dump_reverts_accented :
    let s : Session := ⟨{}, .empty 0 "/home/user", .empty 10, [], []⟩
    let run (ws : List String) (piped : Option String) : Session × Outcome :=
      runWords ⟨Catalog.standard, 0⟩ s ws piped
    let t := "né, twenty bytes ~\n"
    (lines (Hex.dump (bytesOf t))).length = 2 ∧
    (∃ column, column.length = 40 ∧ (lines (Hex.dump (bytesOf t)))[1]? =
      some (String.ofList ("00000010: ".toList ++ column ++ " s ~.".toList))) ∧
    run ["xxd", "-r"] (some (String.ofList ((lines (Hex.dump (bytesOf t))).flatMap Hex.columnOf))) =
      (s, .ok t) ∧
    run ["xxd", "-r"] (some "6 E:c3\nA 9") = (s, .ok "né") := by
  intro s run t
  obtain ⟨hdump, hread⟩ := hex_dump_reverts 0 s
  obtain ⟨hcount, hlines⟩ := hdump (bytesOf t) (by decide)
  obtain ⟨-, hback, -⟩ := hread t (by decide)
  obtain ⟨-, -, hspelled⟩ := hread "né" (by decide)
  have hlength : (bytesOf t).length = 20 := by decide
  rw [hlength] at hcount
  have hlast : 1 < (lines (Hex.dump (bytesOf t))).length := by
    rw [hcount]
    decide
  have hline := hlines 1 _ (List.getElem?_eq_getElem hlast)
  have hoffset : Hex.lastDigits 8 (16 * 1) ++ [':', ' '] = "00000010: ".toList := by decide
  have hgutter : [' '] ++ (((bytesOf t).drop (16 * 1)).take 16).map (fun b =>
      if 32 ≤ b.toNat ∧ b.toNat ≤ 126 then Char.ofNat b.toNat else '.') = " s ~.".toList := by
    decide
  refine ⟨hcount, ⟨_, hline.length_column, ?_⟩, hback,
    hspelled "6 E:c3\nA 9".toList (by decide)⟩
  rw [List.getElem?_eq_getElem hlast, ← hoffset, ← hgutter, ← List.append_assoc, ← hline.toList_eq,
    String.ofList_toList]

end Shellbox
