import Shellbox.Proofs.Codec.Base64
import Shellbox.Proofs.Shell.Piped
import Shellbox.Proofs.Text.Words

/-!
# Texts sent through base64 and back

What `base64` writes for a text is read back by `base64 -d` as that text, and a text of the written
form is what its bytes are written as.
-/

namespace Shellbox

open Text Codec Command

variable {now : Filesystem.Instant} {s : Session} {piped : Option String} {t : String}
  {cs : List Char} {bs : List UInt8}

/-! ## Written texts hold no blanks -/

theorem not_blank_of_isWritten (h : Base64.IsWritten cs) : ∀ c ∈ cs, isBlank c = false := by
  have hall : Base64.alphabet.all (!isBlank ·) := by decide
  obtain ⟨letters, n, rfl, hletters, -⟩ := h
  intro c hc
  rcases List.mem_append.mp hc with hc | hc
  · simpa using List.all_eq_true.mp hall c (hletters c hc)
  · rw [List.eq_of_mem_replicate hc]
    rfl

theorem decodeBase64_isWritten (h : Base64.IsWritten cs) (hbs : Base64.decode cs = .ok bs) :
    decodeBase64 (String.ofList cs) = .ok (textOf bs) := by
  have hfilter : cs.filter (!isBlank ·) = cs :=
    List.filter_eq_self.mpr fun c hc => by simp [not_blank_of_isWritten h c hc]
  rw [decodeBase64, String.toList_ofList, hfilter, hbs]

theorem trim_isWritten (h : Base64.IsWritten cs) : trim (String.ofList cs) = String.ofList cs := by
  rw [trim, String.toList_ofList, trimChars_of_not_blank (not_blank_of_isWritten h)]

/-! ## The command -/

/-- Without a pipe, an operand that names no file is encoded itself. -/
theorem runWords_base64 (now : Filesystem.Instant) (hoption : t ≠ "-d") (hlong : t ≠ "--decode")
    (hfile : s.fs.isFile (some t) = false) :
    runWords ⟨Catalog.standard, now⟩ s ["base64", t] none = (s, encodeBase64 t) := by
  have hwords : splitOptions ["-d", "--decode"] [t] = (false, [t]) := by
    simp [splitOptions, hoption, hlong]
  have htext : (fileOrOperand s.fs t).1 = t := by
    unfold fileOrOperand
    split
    · rename_i info text hnode
      simp [Filesystem.isFile, hnode, Filesystem.Node.isFile] at hfile
    · rfl
  rw [runWords_standard "base64" base64 rfl]
  simp only [base64, Handler.looking, hwords, pipedText?, Option.bind_none, htext, settle,
    Reply.resolve, Bool.false_eq_true, ↓reduceIte]

theorem runWords_base64_piped (now : Filesystem.Instant) (s : Session) (h : t ≠ "") :
    runWords ⟨Catalog.standard, now⟩ s ["base64"] (some t) = (s, encodeBase64 (trim t)) :=
  runWords_encoder .base64 now s [] h (by simp [Encoder.convert, Encoder.options])

theorem runWords_base64_decode (now : Filesystem.Instant) (s : Session) (h : t ≠ "") :
    runWords ⟨Catalog.standard, now⟩ s ["base64", "-d"] (some t) = (s, decodeBase64 (trim t)) :=
  runWords_encoder .base64 now s ["-d"] h (by simp [Encoder.convert, Encoder.options])

theorem runWords_decode_isWritten (now : Filesystem.Instant) (s : Session) (hne : cs ≠ [])
    (h : Base64.IsWritten cs) (hbs : Base64.decode cs = .ok bs) :
    runWords ⟨Catalog.standard, now⟩ s ["base64", "-d"] (some (String.ofList cs)) =
      (s, .ok (textOf bs)) := by
  rw [runWords_base64_decode now s (by simpa using hne), trim_isWritten h,
    decodeBase64_isWritten h hbs]

theorem encode_ne_nil (h : t ≠ "") : Base64.encode (bytesOf t) ≠ [] := by
  intro hnil
  have hdecode := Base64.decode_encode (bytesOf t)
  rw [hnil] at hdecode
  have hnothing : Base64.decode [] = .ok [] := rfl
  rw [hnothing, Except.ok.injEq] at hdecode
  have htext := textOf_bytesOf t
  rw [← hdecode] at htext
  exact h (htext.symm.trans rfl)

theorem runWords_decode_encode (now : Filesystem.Instant) (s : Session) (h : t ≠ "") :
    runWords ⟨Catalog.standard, now⟩ s ["base64", "-d"]
      (some (String.ofList (Base64.encode (bytesOf t)))) = (s, .ok t) := by
  rw [runWords_decode_isWritten now s (encode_ne_nil h) (Base64.encode_isWritten _)
    (Base64.decode_encode _), textOf_bytesOf]

/-- What `base64` writes for an operand or for a trimmed text from the pipe has the written form and
is decoded to that text; and every text of the written form is decoded, to a text that is written as
it if the bytes are those of a text. -/
theorem base64_round_trip (now : Filesystem.Instant) (s : Session) :
    let run (ws : List String) (piped : Option String) : Session × Outcome :=
      runWords ⟨Catalog.standard, now⟩ s ws piped
    let send (piped : Option String) (wss : List (List String)) : Session × Outcome :=
      runPiped ⟨Catalog.standard, now⟩ s piped wss
    (∀ t, t ≠ "" → t ≠ "-d" → t ≠ "--decode" → s.fs.isFile (some t) = false →
      (∃ cs, Base64.IsWritten cs ∧ run ["base64", t] none = (s, .ok (String.ofList cs))) ∧
      send none [["base64", t], ["base64", "-d"]] = (s, .ok t)) ∧
    (∀ t, trim t ≠ "" →
      (∃ cs, Base64.IsWritten cs ∧ run ["base64"] (some t) = (s, .ok (String.ofList cs))) ∧
      send (some t) [["base64"], ["base64", "-d"]] = (s, .ok (trim t))) ∧
    ∀ cs, cs ≠ [] → Base64.IsWritten cs →
      ∃ bs, Base64.decode cs = .ok bs ∧
        run ["base64", "-d"] (some (String.ofList cs)) = (s, .ok (textOf bs)) ∧
        ∀ t, bytesOf t = bs → textOf bs = t ∧
          (t ≠ "-d" → t ≠ "--decode" → s.fs.isFile (some t) = false →
            run ["base64", t] none = (s, .ok (String.ofList cs))) := by
  intro run send
  refine ⟨fun t hne hoption hlong hfile => ?_, fun t htrim => ?_, fun cs hne hcs => ?_⟩
  · have hencode : run ["base64", t] none = (s, encodeBase64 t) :=
      runWords_base64 now hoption hlong hfile
    refine ⟨⟨_, Base64.encode_isWritten _, hencode⟩, ?_⟩
    exact (runPiped_ok hencode (by simp)).trans (runWords_decode_encode now s hne)
  · have hne : t ≠ "" := by
      rintro rfl
      exact htrim rfl
    have hencode : run ["base64"] (some t) = (s, encodeBase64 (trim t)) :=
      runWords_base64_piped now s hne
    refine ⟨⟨_, Base64.encode_isWritten _, hencode⟩, ?_⟩
    exact (runPiped_ok hencode (by simp)).trans (runWords_decode_encode now s htrim)
  · obtain ⟨bs, hdecode, hencode⟩ := hcs.decode_eq
    refine ⟨bs, hdecode, runWords_decode_isWritten now s hne hcs hdecode, ?_⟩
    rintro t rfl
    refine ⟨textOf_bytesOf t, fun hoption hlong hfile => ?_⟩
    have hrun : run ["base64", t] none = (s, encodeBase64 t) :=
      runWords_base64 now hoption hlong hfile
    rw [hrun, encodeBase64, hencode]

theorem base64_round_trip_accented :
    let s : Session := ⟨{}, .empty 0 "/home/user", .empty 10, [], []⟩
    let env : Environment := ⟨Catalog.standard, 0⟩
    runPiped env s none [["base64", "né€"], ["base64", "-d"]] = (s, .ok "né€") ∧
      runPiped env s (some " né \n") [["base64"], ["base64", "-d"]] = (s, .ok "né") ∧
      runWords env s ["base64", "-d"] (some "bsOp") = (s, .ok "né") ∧
      runWords env s ["base64", "né"] none = (s, .ok "bsOp") := by
  intro s env
  obtain ⟨hoperand, hpiped, hwritten⟩ := base64_round_trip 0 s
  have htrim : trim " né \n" = "né" := by decide
  have hform : Base64.IsWritten "bsOp".toList := by
    have hencode : Base64.encode (bytesOf "né") = "bsOp".toList := by decide
    rw [← hencode]
    exact Base64.encode_isWritten _
  obtain ⟨bs, hdecode, hread, hback⟩ := hwritten "bsOp".toList (by decide) hform
  have hbs : bytesOf "né" = bs := by
    have hbytes : Base64.decode "bsOp".toList = .ok (bytesOf "né") := by decide
    exact Except.ok.inj (hbytes.symm.trans hdecode)
  obtain ⟨htext, hencode⟩ := hback "né" hbs
  refine ⟨(hoperand "né€" (by decide) (by decide) (by decide) (by decide)).2, ?_, ?_,
    hencode (by decide) (by decide) (by decide)⟩
  · exact (hpiped " né \n" (by rw [htrim]; decide)).2.trans (by rw [htrim])
  · exact hread.trans (by rw [htext])

end Shellbox
