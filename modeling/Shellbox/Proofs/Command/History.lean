import Shellbox.Proofs.Command.Catalog

/-!
# Commands and the history

All shipped commands but the one of that name ignore the history: they give the same reply and leave
the same session whatever the history holds, and the history stays as it was.
-/

namespace Shellbox

/-- The session with another history. -/
def Session.withHistory (s : Session) (h : History) : Session := { s with history := h }

/-- The handler neither looks at the history nor changes it. -/
def Handler.IgnoresHistory (handler : Handler) : Prop :=
  ∀ cx s args piped h, handler cx (s.withHistory h) args piped =
    ((handler cx s args piped).1.withHistory h, (handler cx s args piped).2)

/-- A handler that acts ignores the history if what it does with the session does. -/
theorem Handler.acting_ignoresHistory {f : Context → Session → List String → Session × Outcome}
    (hf : ∀ cx s args h,
      f cx (s.withHistory h) args = ((f cx s args).1.withHistory h, (f cx s args).2)) :
    (acting f).IgnoresHistory := by
  intro cx s args piped h
  simp only [acting, hf]

namespace Command

/-! ## The commands that act -/

theorem cd_ignoresHistory : cd.IgnoresHistory := by
  refine Handler.acting_ignoresHistory fun cx s args h => ?_
  simp only [Session.withHistory]
  split <;> rfl

theorem touch_ignoresHistory : touch.IgnoresHistory := by
  refine Handler.acting_ignoresHistory fun cx s args h => ?_
  split <;> rfl

theorem mkdir_ignoresHistory : mkdir.IgnoresHistory := by
  refine Handler.acting_ignoresHistory fun cx s args h => ?_
  dsimp only
  split <;> rfl

theorem rm_ignoresHistory : rm.IgnoresHistory := by
  refine Handler.acting_ignoresHistory fun cx s args h => ?_
  dsimp only
  split
  · rfl
  · split
    · rfl
    · split <;> rfl

theorem aliasing_ignoresHistory : aliasing.IgnoresHistory := by
  refine Handler.acting_ignoresHistory fun cx s args h => ?_
  split
  · rfl
  · split <;> rfl

theorem saying_ignoresHistory (choices : List String) (frame : String → String) :
    (saying choices frame).IgnoresHistory :=
  Handler.acting_ignoresHistory fun _ _ _ _ => rfl

/-! ## The commands that look -/

theorem ls_ignoresHistory : ls.IgnoresHistory := by
  intro cx s args piped h
  simp only [ls, Handler.trying, Session.withHistory]
  rfl

theorem someLines_withHistory (name : String) (take : Nat → List String → List String)
    (s : Session) (args : List String) (piped : Option String) (h : History) :
    someLines name take (s.withHistory h) args piped = someLines name take s args piped := by
  simp only [someLines, Session.withHistory]

theorem head_ignoresHistory : head.IgnoresHistory := by
  intro cx s args piped h
  simp only [head, Handler.trying, someLines_withHistory]

theorem tail_ignoresHistory : tail.IgnoresHistory := by
  intro cx s args piped h
  simp only [tail, Handler.trying, someLines_withHistory]

theorem less_ignoresHistory : less.IgnoresHistory := by
  intro cx s args piped h
  simp only [less, Handler.looking, Session.withHistory]

/-! ## All shipped commands -/

theorem shipped_ignoreHistory :
    ∀ c ∈ shipped, ∀ name ∈ c.name :: c.others, name ≠ "history" → c.handler.IgnoresHistory := by
  simp only [shipped, List.forall_mem_cons, cd_ignoresHistory, touch_ignoresHistory,
    mkdir_ignoresHistory, rm_ignoresHistory, aliasing_ignoresHistory, elevate, fortune, exit,
    saying_ignoresHistory, ls_ignoresHistory, head_ignoresHistory, tail_ignoresHistory,
    less_ignoresHistory, List.mem_singleton, forall_eq, List.not_mem_nil, implies_true, true_and,
    and_true, ne_eq, not_true_eq_false, false_implies]
  -- What is left only looks at other parts of the session.
  and_intros
  all_goals exact fun _ _ _ _ _ _ => rfl

end Command

/-! ## The catalog of the shipped commands -/

namespace Catalog

/-- The command found by any other name than its own ignores the history. -/
theorem standard_ignoresHistory {name : String} {b : Builtin}
    (hb : standard.find? name = some b) (hname : name ≠ "history") :
    b.handler.IgnoresHistory := by
  obtain ⟨hmem, rfl⟩ := of_find? hb
  obtain ⟨c, hc, hh, hn⟩ := mem_standard hmem
  rw [hh]
  exact Command.shipped_ignoreHistory c hc _ hn hname

end Catalog

end Shellbox
