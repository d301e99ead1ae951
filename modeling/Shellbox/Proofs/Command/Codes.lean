import Shellbox.Proofs.Command.Catalog

/-!
# How commands end

A success ends with the code zero; a failure ends with another code and has no markers. The shipped
commands fail with the code one, except that `grep` also has the code two for files that it cannot
read. What is proved of a handler here holds for every context, every session, all arguments and
every text piped in.
-/

namespace Shellbox

open Filesystem

variable {codes codes' : List Nat} {o : Outcome}

/-! ## Outcomes -/

/-- The outcome is a success with the code zero, or a failure without markers whose code is one of
those given. -/
inductive Outcome.EndsIn (codes : List Nat) : Outcome → Prop
  | success (output : String) (markers : List String) : EndsIn codes ⟨output, true, 0, markers⟩
  | failure (message : String) {code : Nat} (h : code ∈ codes) :
      EndsIn codes (errorCode message code)

namespace Outcome.EndsIn

theorem ok (output : String) : EndsIn codes (.ok output) := .success output []

theorem marked (output marker : String) : EndsIn codes (.marked output marker) :=
  .success output [marker]

theorem nothing : EndsIn codes .nothing := .ok ""

theorem error (message : String) : EndsIn [1] (.error message) :=
  .failure message (List.mem_singleton_self 1)

/-- Codes that the outcome does not have need not be allowed. -/
theorem restrict (h : EndsIn codes o) (hcode : o.exitCode ∈ codes → o.exitCode ∈ codes') :
    EndsIn codes' o := by
  cases h with
  | success output markers => exact .success output markers
  | failure message hmem => exact .failure message (hcode hmem)

theorem mono (h : EndsIn codes o) (hsub : codes ⊆ codes') : EndsIn codes' o :=
  h.restrict fun hmem => hsub hmem

theorem success_iff (h : EndsIn codes o) (h0 : 0 ∉ codes) : o.success ↔ o.exitCode = 0 := by
  cases h with
  | success => simp
  | failure message hcode => simpa [errorCode] using ne_of_mem_of_not_mem hcode h0

theorem code_mem (h : EndsIn codes o) : o.exitCode ∈ 0 :: codes := by
  cases h with
  | success => exact List.mem_cons_self
  | failure message hcode => exact List.mem_cons_of_mem 0 hcode

theorem markers_eq_nil (h : EndsIn codes o) (hfail : o.success = false) : o.markers = [] := by
  cases h with
  | success => cases hfail
  | failure => rfl

end Outcome.EndsIn

/-! ## Handlers -/

/-- Whatever the handler answers, at once or later, ends in success or with one of the codes. A
handler that gives a fault answers nothing. -/
def Handler.EndsIn (codes : List Nat) (handler : Handler) : Prop :=
  ∀ cx s args piped r o, (handler cx s args piped).2 = .ok r → r.resolve = .ok o → o.EndsIn codes

namespace Handler.EndsIn

theorem mono {handler : Handler} (h : handler.EndsIn codes) (hsub : codes ⊆ codes') :
    handler.EndsIn codes' :=
  fun cx s args piped r o hr ho => (h cx s args piped r o hr ho).mono hsub

theorem of_looking {f : Context → Session → List String → Option String → Outcome}
    (h : ∀ cx s args piped, (f cx s args piped).EndsIn codes) : (looking f).EndsIn codes := by
  rintro cx s args piped _ _ ⟨⟩ ⟨⟩
  exact h cx s args piped

theorem of_trying {f : Context → Session → List String → Option String → Except Fault Outcome}
    (h : ∀ cx s args piped o, f cx s args piped = .ok o → o.EndsIn codes) :
    (trying f).EndsIn codes := by
  intro cx s args piped r o hr ho
  cases hf : f cx s args piped with
  | error e => simp [trying, hf, Except.map] at hr
  | ok o' =>
      obtain rfl : Reply.ready o' = r := by simpa [trying, hf, Except.map] using hr
      cases ho
      exact h cx s args piped o hf

theorem of_deferring {f : Context → Session → List String → Option String → Reply}
    (h : ∀ cx s args piped o, (f cx s args piped).resolve = .ok o → o.EndsIn codes) :
    (deferring f).EndsIn codes := by
  rintro cx s args piped _ o ⟨⟩ ho
  exact h cx s args piped o ho

theorem of_acting {f : Context → Session → List String → Session × Outcome}
    (h : ∀ cx s args, (f cx s args).2.EndsIn codes) : (acting f).EndsIn codes := by
  rintro cx s args piped _ _ ⟨⟩ ⟨⟩
  exact h cx s args

end Handler.EndsIn

namespace Command

open Text

theorem ok_of_map {ε α β : Type} {f : α → β} {x : Except ε α} {b : β} (h : x.map f = .ok b) :
    ∃ a, x = .ok a ∧ f a = b := by
  cases x with
  | error e => cases h
  | ok a => exact ⟨a, rfl, Except.ok.inj h⟩

theorem error_of_mapError {ε ε' α : Type} {f : ε → ε'} {x : Except ε α} {e' : ε'}
    (h : x.mapError f = .error e') : ∃ e, x = .error e ∧ f e = e' := by
  cases x with
  | ok a => cases h
  | error e => exact ⟨e, rfl, Except.error.inj h⟩

/-- A result on which every step gives an outcome is one of these outcomes. -/
theorem endsIn_of_map {α : Type} {f : α → Outcome} {x : Except Fault α}
    (hf : ∀ a, (f a).EndsIn codes) (h : x.map f = .ok o) : o.EndsIn codes := by
  obtain ⟨a, -, rfl⟩ := ok_of_map h
  exact hf a

/-! ## Places and files -/

theorem pwd_endsIn : pwd.EndsIn [1] := .of_looking fun _ s _ _ => .ok s.fs.cwd

theorem cd_endsIn : cd.EndsIn [1] := by
  refine .of_acting fun cx s args => ?_
  split
  · exact .error _
  · exact .nothing

theorem ls_endsIn : ls.EndsIn [1] := by
  refine .of_trying fun cx s args piped o ho => ?_
  dsimp only at ho
  split at ho
  · cases ho
    exact .error _
  · exact endsIn_of_map .ok ho

theorem cat_endsIn : cat.EndsIn [1] := by
  refine .of_looking fun cx s args piped => ?_
  dsimp only
  split
  · exact .ok _
  · split
    · exact .error _
    · split
      · exact .error _
      · exact .ok _

theorem someLines_endsIn {name : String} {take : Nat → List String → List String} {s : Session}
    {args : List String} {piped : Option String}
    (ho : someLines name take s args piped = .ok o) : o.EndsIn [1] := by
  unfold someLines at ho
  split at ho
  · cases ho
  · cases ho
    exact .error _
  · split at ho
    · cases ho
      exact .ok _
    · cases ho
      exact .error _
    · split at ho
      · cases ho
        exact .error _
      · cases ho
        exact .ok _

theorem head_endsIn : head.EndsIn [1] := .of_trying fun _ _ _ _ _ => someLines_endsIn

theorem tail_endsIn : tail.EndsIn [1] := .of_trying fun _ _ _ _ _ => someLines_endsIn

theorem less_endsIn : less.EndsIn [1] := by
  refine .of_looking fun cx s args piped => ?_
  split
  · exact .error _
  · split
    · exact .error _
    · exact .ok _

theorem file_endsIn : file.EndsIn [1] := by
  refine .of_trying fun cx s args piped o ho => ?_
  split at ho
  · cases ho
    exact .error _
  · exact endsIn_of_map (fun rows => .ok _) ho

theorem stat_endsIn : stat.EndsIn [1] := by
  refine .of_trying fun cx s args piped o ho => ?_
  split at ho
  · cases ho
    exact .error _
  · refine endsIn_of_map (fun rows => ?_) ho
    split
    · exact .ok _
    · exact .error _

/-- Operands done in turn end in success, or with the message of the one that fails. -/
theorem eachOperand_endsIn (act : Filesystem → String → Except String Filesystem)
    (fs : Filesystem) (operands : List String) : (eachOperand act fs operands).2.EndsIn [1] := by
  induction operands generalizing fs with
  | nil => exact .nothing
  | cons p operands ih =>
      rw [eachOperand]
      split
      · exact .error _
      · exact ih _

theorem touch_endsIn : touch.EndsIn [1] := by
  refine .of_acting fun cx s args => ?_
  split
  · exact .error _
  · exact eachOperand_endsIn _ _ _

theorem mkdir_endsIn : mkdir.EndsIn [1] := by
  refine .of_acting fun cx s args => ?_
  dsimp only
  split
  · exact .error _
  · exact eachOperand_endsIn _ _ _

theorem rm_endsIn : rm.EndsIn [1] := by
  refine .of_acting fun cx s args => ?_
  dsimp only
  split
  · exact .error _
  · split
    · exact .ok _
    · split
      · exact .error _
      · exact eachOperand_endsIn _ _ _

theorem find_endsIn : find.EndsIn [1] := by
  refine .of_trying fun cx s args piped o ho => ?_
  split at ho
  · cases ho
    exact .error _
  · unfold findPaths at ho
    split at ho
    · cases ho
      exact .ok _
    · cases ho
      exact .error _
    · split at ho
      · cases ho
        exact .error _
      · cases ho

/-! ## Lines and columns -/

theorem linesOutcome_endsIn (rows : List String) : (linesOutcome rows).EndsIn [1] := by
  unfold linesOutcome
  split
  · exact .error _
  · exact .ok _

/-- Files that cannot be read give `grep` a code of its own. -/
theorem filesOutcome_endsIn (rows errors : List String) :
    (filesOutcome rows errors).EndsIn [1, 2] := by
  unfold filesOutcome
  split
  · exact (linesOutcome_endsIn rows).mono (by decide)
  · exact .failure _ (by decide)

theorem grep_endsIn : grep.EndsIn [1, 2] := by
  refine .of_trying fun cx s args piped o ho => ?_
  have herror (message : String) : (Outcome.error message).EndsIn [1, 2] :=
    (Outcome.EndsIn.error message).mono (by decide)
  dsimp only at ho
  split at ho
  · cases ho
    exact herror _
  · split at ho
    · split at ho
      · cases ho
        exact herror _
      · cases ho
    · cases ho
      unfold grepWith
      split
      · exact (linesOutcome_endsIn _).mono (by decide)
      · split
        · exact herror _
        · exact filesOutcome_endsIn _ _

/-- A text that cannot be found is told by a failure. -/
theorem inputText_endsIn {name : String} {fs : Filesystem} {paths : List String}
    {piped : Option String} (h : inputText name fs paths piped = .error o) : o.EndsIn [1] := by
  unfold inputText at h
  split at h
  · cases h
  · cases h
    exact .error _
  · obtain ⟨e, -, rfl⟩ := error_of_mapError h
    exact .error _

theorem overInput_endsIn (name : String) (fs : Filesystem) (paths : List String)
    (piped : Option String) (f : String → String) :
    (overInput name fs paths piped f).EndsIn [1] := by
  unfold overInput
  split
  · rename_i h
    exact inputText_endsIn h
  · exact .ok _

theorem countFiles_endsIn (a : Arguments) (fs : Filesystem) : (countFiles a fs).EndsIn [1] := by
  unfold countFiles
  dsimp only
  split
  · exact .ok _
  · exact .error _

theorem wc_endsIn : wc.EndsIn [1] := by
  refine .of_looking fun cx s args piped => ?_
  dsimp only
  split
  · exact .ok _
  · split
    · exact .error _
    · exact countFiles_endsIn _ _

theorem sort_endsIn : sort.EndsIn [1] := by
  refine .of_trying fun cx s args piped o ho => ?_
  dsimp only at ho
  split at ho
  · rename_i h
    cases ho
    exact inputText_endsIn h
  · exact endsIn_of_map (fun ls => .ok _) ho

theorem uniq_endsIn : uniq.EndsIn [1] := .of_looking fun _ _ _ _ => overInput_endsIn _ _ _ _ _

theorem cut_endsIn : cut.EndsIn [1] := by
  refine .of_looking fun cx s args piped => ?_
  dsimp only
  split
  · exact .error _
  · split
    · exact .error _
    · exact overInput_endsIn _ _ _ _ _

theorem tr_endsIn : tr.EndsIn [1] := by
  refine .of_looking fun cx s args piped => ?_
  split
  · exact .error _
  · split
    · exact .ok _
    · exact .error _
    · exact .ok _
    · exact .error _

/-! ## Encoders -/

theorem missingOperand_endsIn (name hint : String) : (missingOperand name hint).EndsIn [1] :=
  .error _

theorem pipedOrFile_endsIn {name : String} {fs : Filesystem} {operands : List String}
    {piped : Option String} (h : pipedOrFile name fs operands piped = .error o) :
    o.EndsIn [1] := by
  unfold pipedOrFile requireFile at h
  split at h
  · cases h
  · obtain ⟨e, -, rfl⟩ := error_of_mapError h
    exact .error _
  · cases h
    exact missingOperand_endsIn _ _

theorem base64_endsIn : base64.EndsIn [1] := by
  have hconvert (decoding : Bool) (text : String) :
      ((if decoding then decodeBase64 else encodeBase64) text).EndsIn [1] := by
    split
    · unfold decodeBase64
      split
      · exact .error _
      · exact .ok _
    · exact .ok _
  refine .of_looking fun cx s args piped => ?_
  dsimp only
  split
  · exact hconvert _ _
  · exact hconvert _ _
  · exact missingOperand_endsIn _ _

theorem xxd_endsIn : xxd.EndsIn [1] := by
  refine .of_looking fun cx s args piped => ?_
  dsimp only
  split
  · rename_i h
    exact pipedOrFile_endsIn h
  · split
    · unfold decodeHex
      split
      · exact .error _
      · exact .ok _
    · exact .ok _

theorem strings_endsIn : strings.EndsIn [1] := by
  refine .of_trying fun cx s args piped o ho => ?_
  split at ho
  · cases ho
  · cases ho
    exact .error _
  · split at ho
    · rename_i h
      cases ho
      exact pipedOrFile_endsIn h
    · split at ho
      · cases ho
      · cases ho
        exact .ok _

theorem md5sum_endsIn : md5sum.EndsIn [1] := by
  refine .of_looking fun cx s args piped => ?_
  split
  · exact missingOperand_endsIn _ _
  · exact .ok _

theorem sha256sum_endsIn : sha256sum.EndsIn [1] := by
  refine .of_deferring fun cx s args piped o ho => ?_
  split at ho
  · cases ho
    exact missingOperand_endsIn _ _
  · cases ho
    exact .ok _

theorem rot13_endsIn : rot13.EndsIn [1] := by
  refine .of_looking fun cx s args piped => ?_
  split
  · exact missingOperand_endsIn _ _
  · exact .ok _
  · exact .ok _

theorem rev_endsIn : rev.EndsIn [1] := by
  refine .of_looking fun cx s args piped => ?_
  split
  · exact .ok _
  · exact .ok _
  · exact missingOperand_endsIn _ _

/-! ## The session, help and jokes -/

theorem echo_endsIn : echo.EndsIn [1] := by
  refine .of_looking fun cx s args piped => ?_
  split
  · exact .nothing
  · exact .ok _

theorem clear_endsIn : clear.EndsIn [1] := .of_looking fun _ _ _ _ => .marked _ _

theorem help_endsIn : help.EndsIn [1] := by
  refine .of_looking fun cx s args piped => ?_
  split
  · exact .ok _
  · split
    · exact .error _
    · exact .ok _

theorem man_endsIn : man.EndsIn [1] := by
  refine .of_looking fun cx s args piped => ?_
  split
  · exact .error _
  · split
    · exact .error _
    · exact .ok _

theorem history_endsIn : history.EndsIn [1] := by
  refine .of_acting fun cx s args => ?_
  split
  · exact .nothing
  · exact .ok _

theorem whoami_endsIn : whoami.EndsIn [1] := .of_looking fun _ _ _ _ => .ok _

theorem date_endsIn : date.EndsIn [1] := by
  refine .of_trying fun cx s args piped o ho => ?_
  split at ho
  · cases ho
  · cases ho
    exact .ok _

theorem uname_endsIn : uname.EndsIn [1] := .of_looking fun _ _ _ _ => .ok _

theorem aliasing_endsIn : aliasing.EndsIn [1] := by
  refine .of_acting fun cx s args => ?_
  split
  · exact .ok _
  · split
    · exact .error _
    · exact .nothing

theorem type_endsIn : type.EndsIn [1] := by
  refine .of_looking fun cx s args piped => ?_
  split
  · exact .error _
  · exact .ok _

/-- A command that only says something always succeeds. -/
theorem saying_endsIn (choices : List String) (frame : String → String) :
    (saying choices frame).EndsIn codes := .of_acting fun _ _ _ => .ok _

theorem cowsay_endsIn : cowsay.EndsIn [1] := .of_looking fun _ _ _ _ => .ok _

theorem matrix_endsIn : matrix.EndsIn [1] := .of_looking fun _ _ _ _ => .marked _ _

theorem hack_endsIn : hack.EndsIn [1] := .of_looking fun _ _ _ _ => .ok _

theorem neofetch_endsIn : neofetch.EndsIn [1] := .of_looking fun _ _ _ _ => .ok _

theorem sl_endsIn : sl.EndsIn [1] := .of_looking fun _ _ _ _ => .ok _

/-! ## All shipped commands -/

/-- A shipped command fails with the code one only, or it is `grep`. -/
theorem shipped_endsIn : ∀ c ∈ shipped,
    c.handler.EndsIn [1] ∨ c.name = "grep" ∧ c.others = [] ∧ c.handler = grep := by
  simp only [shipped, List.forall_mem_cons, List.not_mem_nil, false_implies, implies_true, and_true]
  refine ⟨.inl pwd_endsIn, .inl cd_endsIn, .inl ls_endsIn, .inl cat_endsIn, .inl head_endsIn,
    .inl tail_endsIn, .inl less_endsIn, .inl file_endsIn, .inl stat_endsIn, .inl touch_endsIn,
    .inl mkdir_endsIn, .inl rm_endsIn, .inl find_endsIn, .inr trivial, .inl wc_endsIn,
    .inl sort_endsIn, .inl uniq_endsIn, .inl cut_endsIn, .inl tr_endsIn, .inl base64_endsIn,
    .inl xxd_endsIn, .inl strings_endsIn, .inl md5sum_endsIn, .inl sha256sum_endsIn,
    .inl rot13_endsIn, .inl rev_endsIn, .inl echo_endsIn, .inl clear_endsIn, .inl help_endsIn,
    .inl man_endsIn, .inl history_endsIn, .inl whoami_endsIn, .inl date_endsIn,
    .inl uname_endsIn, .inl aliasing_endsIn, .inl type_endsIn, .inl (saying_endsIn _ _),
    .inl cowsay_endsIn, .inl matrix_endsIn, .inl hack_endsIn, .inl neofetch_endsIn,
    .inl sl_endsIn, .inl (saying_endsIn _ _), .inl (saying_endsIn _ _)⟩

end Command

end Shellbox
