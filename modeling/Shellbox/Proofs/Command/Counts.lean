import Shellbox.Proofs.Number.Numeral
import Shellbox.Proofs.Shell.Reading

/-!
# Counts that are refused

`head` and `tail` read the values given as counts one after the other and stop at the first that
denotes no count. Whether they refuse it with a message is decided by one notion of digit and
whether it denotes a count by another: at digits that are not decimal, and at too many of them, they
give no reply at all.
-/

namespace Shellbox.Command

open Text Number Line

variable {args ws : List String} {v w : String} {c : Reader} {s : Session} {cx : Context}
  {piped : Option String}

/-- The values given as counts, in their order. An option at the end has none and counts as empty. -/
def countValues : List String → List String
  | [] => []
  | w :: r =>
    match CountWord.ofWord w with
    | .operand => countValues r
    | .joined v => v :: countValues r
    | .option =>
      match r with
      | [] => [""]
      | v :: r => v :: countValues r

/-- The first value given as a count that denotes none. -/
def refused? (args : List String) : Option String :=
  (countValues args).find? fun v => ¬ IsDecimals v.toList

/-! ## Single values -/

theorem readCount_of_isDecimals (h : IsDecimals v.toList) :
    readCount v = .ok (some (ofDecimals v.toList)) := by
  simp only [readCount, h.isDigits, readNumeral_eq_ok_iff.mpr ⟨h, rfl⟩, ↓reduceIte]

theorem readCount_of_digits (hdigits : isDigits v) (h : ¬ IsDecimals v.toList) :
    ∃ f, readCount v = .error f := by
  cases hread : readNumeral v with
  | error f => exact ⟨.numeral f, by simp only [readCount, hdigits, hread, ↓reduceIte]⟩
  | ok n => exact absurd (readNumeral_eq_ok_iff.mp hread).1 h

theorem readCount_of_not_digits (h : ¬ isDigits v) : readCount v = .ok none := if_neg h

/-- Nothing behind a value that denotes no count is read. -/
theorem withCount_of_not_isDecimals (h : ¬ IsDecimals v.toList) (ws : List String) :
    withCount (readCount v) ws = (readCount v).map fun _ => none := by
  by_cases hdigits : isDigits v
  · obtain ⟨f, hf⟩ := readCount_of_digits hdigits h
    rw [hf]
    rfl
  · rw [readCount_of_not_digits hdigits]
    rfl

theorem CountWord.eq_of_option (h : ofWord w = .option) : w = "-n" := by
  unfold ofWord at h
  split at h
  · assumption
  · split at h
    · cases h
    · split at h <;> cases h
    · cases h

/-! ## All values -/

theorem countAndFiles_accepted (h : refused? args = none) (n : Nat) :
    ∃ x, countAndFiles n args = .ok (some x) := by
  have hall : ∀ v ∈ countValues args, IsDecimals v.toList := by simpa [refused?] using h
  clear h
  fun_induction countValues args generalizing n with
  | case1 => exact ⟨(n, []), rfl⟩
  | case2 w r hw ih =>
      obtain ⟨x, hx⟩ := ih n hall
      exact ⟨_, by rw [countAndFiles_operand hw, hx]; rfl⟩
  | case3 w r v hw ih =>
      obtain ⟨hv, hr⟩ := List.forall_mem_cons.mp hall
      rw [countAndFiles_joined hw, readCount_of_isDecimals hv]
      exact ih _ hr
  | case4 w hw => exact absurd (hall "" (by simp)) (by decide)
  | case5 w hw v r ih =>
      obtain ⟨hv, hr⟩ := List.forall_mem_cons.mp hall
      rw [CountWord.eq_of_option hw, countAndFiles_option, readCount_of_isDecimals hv]
      exact ih _ hr

/-- A value in front of others is the first that denotes no count, or they hold the first. -/
theorem withCount_refused {u : String} {us : List String}
    (ih : us.find? (fun v => ¬ IsDecimals v.toList) = some v →
      ∀ n, countAndFiles n ws = (readCount v).map fun _ => none)
    (h : (u :: us).find? (fun v => ¬ IsDecimals v.toList) = some v) :
    withCount (readCount u) ws = (readCount v).map fun _ => none := by
  by_cases hu : IsDecimals u.toList
  · rw [readCount_of_isDecimals hu]
    exact ih (by simpa [hu] using h) _
  · obtain rfl : u = v := by simpa [hu] using h
    exact withCount_of_not_isDecimals hu ws

/-- The first value that denotes no count decides, whatever stands around it. -/
theorem countAndFiles_refused (h : refused? args = some v) (n : Nat) :
    countAndFiles n args = (readCount v).map fun _ => none := by
  unfold refused? at h
  fun_induction countValues args generalizing n with
  | case1 => cases h
  | case2 w r hw ih =>
      rw [countAndFiles_operand hw, ih h n]
      cases readCount v <;> rfl
  | case3 w r u hw ih =>
      rw [countAndFiles_joined hw]
      exact withCount_refused ih h
  | case4 w hw =>
      obtain rfl : "" = v := List.mem_singleton.mp (List.mem_of_find?_eq_some h) |>.symm
      rw [CountWord.eq_of_option hw]
      rfl
  | case5 w hw u r ih =>
      rw [CountWord.eq_of_option hw, countAndFiles_option]
      exact withCount_refused ih h

/-! ## Replies -/

theorem someLines_accepted (name : String) (take : Nat → List String → List String)
    (s : Session) (piped : Option String) (h : refused? args = none) :
    (∃ text, someLines name take s args piped = .ok (.ok text)) ∨
      ∃ m, someLines name take s args piped = .ok (.error (name ++ ": " ++ m)) := by
  obtain ⟨⟨n, files⟩, hx⟩ := countAndFiles_accepted h 10
  simp only [someLines, hx]
  cases piped with
  | some text => exact .inl ⟨_, rfl⟩
  | none =>
      cases files with
      | nil => exact .inr ⟨"missing file operand", by rw [String.append_assoc]; rfl⟩
      | cons f files =>
          cases hread : s.fs.read (some f) with
          | error e => exact .inr ⟨e.message, by simp only [hread]⟩
          | ok text => exact .inl ⟨_, by simp only [hread]; rfl⟩

theorem someLines_refused (name : String) (take : Nat → List String → List String)
    (s : Session) (piped : Option String) (h : refused? args = some v) :
    someLines name take s args piped =
      (readCount v).map fun _ => .error (name ++ ": invalid number of lines") := by
  rw [someLines, countAndFiles_refused h]
  cases readCount v <;> rfl

/-- What becomes of the arguments: a text or a message, the message for a value that is refused, or
no reply at all. -/
theorem someLines_cases (name : String) (take : Nat → List String → List String) (s : Session)
    (args : List String) (piped : Option String) :
    (refused? args = none ∧ ((∃ text, someLines name take s args piped = .ok (.ok text)) ∨
      ∃ m, someLines name take s args piped = .ok (.error (name ++ ": " ++ m)))) ∨
    (∃ v, refused? args = some v ∧ ¬ isDigits v ∧
      someLines name take s args piped = .ok (.error (name ++ ": invalid number of lines"))) ∨
    ∃ v f, refused? args = some v ∧ isDigits v ∧ someLines name take s args piped = .error f := by
  cases h : refused? args with
  | none => exact .inl ⟨rfl, someLines_accepted name take s piped h⟩
  | some v =>
      have hlines := someLines_refused name take s piped h
      have hv : ¬ IsDecimals v.toList := by simpa using List.find?_some h
      by_cases hdigits : isDigits v
      · obtain ⟨f, hf⟩ := readCount_of_digits hdigits hv
        rw [hf] at hlines
        exact .inr (.inr ⟨v, f, rfl, hdigits, hlines⟩)
      · rw [readCount_of_not_digits hdigits] at hlines
        exact .inr (.inl ⟨v, rfl, hdigits, hlines⟩)

theorem Reader.handler_extract (hc : c = .head ∨ c = .tail) :
    ∃ take, ∀ cx s args piped,
      c.handler cx s args piped = (s, (someLines c.name take s args piped).map .ready) := by
  rcases hc with rfl | rfl
  · exact ⟨firstLines, fun _ _ _ _ => rfl⟩
  · exact ⟨lastLines, fun _ _ _ _ => rfl⟩

theorem Reader.message_ne_fault (hc : c = .head ∨ c = .tail) (m n : String) :
    Outcome.error (c.name ++ m) ≠ .error ("Error executing " ++ n) := by
  intro h
  have hhead := congrArg (·.output.toList.head?) h
  rcases hc with rfl | rfl <;> simp [Outcome.error, Outcome.errorCode, name] at hhead

/-- Just a fault is answered with the words for a fault. -/
theorem Reader.answer_fault_iff (hc : c = .head ∨ c = .tail) :
    (∃ m, c.answer cx s args piped = .error ("Error executing " ++ m)) ↔
      ∃ v ∈ refused? args, isDigits v := by
  obtain ⟨take, htake⟩ := handler_extract hc
  rw [answer, htake]
  rcases someLines_cases c.name take s args piped with
    ⟨hnone, ⟨text, h⟩ | ⟨m, h⟩⟩ | ⟨v, hv, hdigits, h⟩ | ⟨v, f, hv, hdigits, h⟩
  · simp [hnone, h, settle, Reply.resolve, Except.map, Outcome.ok, Outcome.error, Outcome.errorCode]
  · rw [String.append_assoc] at h
    simp [hnone, h, settle, Reply.resolve, Except.map, message_ne_fault hc]
  · simp [hv, hdigits, h, settle, Reply.resolve, Except.map, message_ne_fault hc]
  · have hfault : settle c.name ((Except.error f).map .ready) =
        .error ("Error executing " ++ (c.name ++ ": " ++ f.message)) := by
      simp only [settle, Except.map, faultOutcome, String.append_assoc]
    simp only [h, hfault, hv, Option.mem_some_iff, exists_eq_left', hdigits, iff_true]
    exact ⟨_, rfl⟩

/-- The first and the last lines are shown, or refused with a message, just if the first value that
denotes no count is not all digits, for every session, all arguments and any text piped in. Such a
value is refused with a message of its own. At one of digits there is no reply, and a line that
calls the command is answered with the words for a fault. -/
theorem extracts_reply_iff (hc : c = .head ∨ c = .tail) (cx : Context) (now : Filesystem.Instant)
    (s : Session) (args : List String) (piped : Option String) :
    let reply := c.handler cx s args piped
    reply.1 = s ∧
    ((∃ o, reply.2 = .ok (.ready o)) ↔ ∀ v ∈ refused? args, ¬ isDigits v) ∧
    (∀ v ∈ refused? args, ¬ isDigits v →
      reply.2 = .ok (.ready (.error (c.name ++ ": invalid number of lines")))) ∧
    ∀ line, Spells line (c.name :: args) → s.aliases.lookup (splitFirstWord line).1 = none →
      ((∃ m, (execute ⟨Catalog.standard, now⟩ s line).2 = .error ("Error executing " ++ m)) ↔
        ∃ v ∈ refused? args, isDigits v) := by
  intro reply
  obtain ⟨take, htake⟩ := Reader.handler_extract hc
  have hreply : reply = (s, (someLines c.name take s args piped).map .ready) := htake ..
  refine ⟨by rw [hreply], ?_, ?_, fun line hspells halias => ?_⟩
  · rcases someLines_cases c.name take s args piped with
      ⟨hnone, ⟨text, h⟩ | ⟨m, h⟩⟩ | ⟨v, hv, hdigits, h⟩ | ⟨v, f, hv, hdigits, h⟩
    · simp [hreply, h, hnone, Except.map]
    · simp [hreply, h, hnone, Except.map]
    · simp [hreply, h, hv, hdigits, Except.map]
    · simp [hreply, h, hv, hdigits, Except.map]
  · intro v hv hdigits
    rw [hreply, someLines_refused c.name take s piped hv, readCount_of_not_digits hdigits]
    rfl
  · rw [execute_stage hspells (by simp) halias, runWords_reader]
    exact Reader.answer_fault_iff hc

theorem extracts_reply_iff_letters :
    let s : Session := ⟨{}, .empty 0 "/", .empty 10, .initial, []⟩
    let reply := tail ⟨0, []⟩ s ["-n3", "-n", "x", "-²"] none
    refused? ["-n3", "-n", "x", "-²"] = some "x" ∧
      reply.2 = .ok (.ready (.error "tail: invalid number of lines")) ∧
      ∀ m, (execute ⟨Catalog.standard, 0⟩ s "tail -n3 -n x -²").2 ≠
        .error ("Error executing " ++ m) := by
  intro s reply
  have hrefused : refused? ["-n3", "-n", "x", "-²"] = some "x" := by decide
  have hdigits : ¬ isDigits "x" := by decide
  have hspells : Spells "tail -n3 -n x -²" ["tail", "-n3", "-n", "x", "-²"] := by decide
  have halias : s.aliases.lookup (splitFirstWord "tail -n3 -n x -²").1 = none := by decide
  obtain ⟨-, -, hmessage, hline⟩ :=
    extracts_reply_iff (.inr rfl) ⟨0, []⟩ 0 s ["-n3", "-n", "x", "-²"] none
  refine ⟨hrefused, hmessage "x" hrefused hdigits, fun m hm => ?_⟩
  obtain ⟨v, hv, hvdigits⟩ := (hline _ hspells halias).mp ⟨m, hm⟩
  obtain rfl : "x" = v := Option.some.inj (hrefused.symm.trans hv)
  exact hdigits hvdigits

theorem head_refuses_superscript :
    let fs := ((Filesystem.empty 0 "/").populate 0 [("/f", some "a\nb\n")]).1
    let s : Session := ⟨{}, fs, .empty 10, .initial, []⟩
    (head ⟨0, []⟩ s ["-n", "²", "/f"] none).2.isOk = false ∧
      (execute ⟨Catalog.standard, 0⟩ s "head -n ² /f").2 =
        .error "Error executing head: invalid literal for int() with base 10: '²'" := by
  intro fs s
  have hrefused : refused? ["-n", "²", "/f"] = some "²" := by decide
  have hcount : readCount "²" = .error (.numeral (.malformed "²")) := rfl
  have hreply : ∀ cx s, head cx s ["-n", "²", "/f"] none =
      (s, .error (.numeral (.malformed "²"))) := fun cx s => by
    have hlines := someLines_refused "head" firstLines s none hrefused
    rw [hcount] at hlines
    exact congrArg (fun r => (s, r.map Reply.ready)) hlines
  have hspells : Spells "head -n ² /f" ["head", "-n", "²", "/f"] := by decide
  refine ⟨by rw [hreply]; rfl, ?_⟩
  rw [execute_stage hspells (by simp) (by decide), runWords_standard "head" head rfl, hreply]
  rfl

end Shellbox.Command
