import Shellbox.Pattern.CharTest

/-!
# Patterns

The tree of a regular expression. All switches are already resolved in it: a test for one character
says whether letter case counts, an anchor says where it holds.
-/

namespace Shellbox

/-- A condition on a place in a text. -/
inductive Pattern.Anchor where
  | textStart
  | lineStart
  | textEnd
  | lineEnd
  /-- The end of the text, or before a line break that ends it. -/
  | lastLineEnd
  | wordBoundary (asciiOnly : Bool)
  | notWordBoundary (asciiOnly : Bool)
deriving DecidableEq, Repr

/-- What a repetition tries first. -/
inductive Pattern.Greed where
  /-- As many rounds as possible, then fewer. -/
  | greedy
  /-- As few rounds as possible, then more. -/
  | lazy
  /-- As many rounds as possible and never fewer. -/
  | possessive
deriving DecidableEq, Repr

/-- The tree of a regular expression. -/
inductive Pattern where
  | empty
  | one (t : Pattern.CharTest)
  | anchor (a : Pattern.Anchor)
  | seq (p q : Pattern)
  /-- A branch and the branches after it; the last one is followed by `never`. -/
  | alt (branch rest : Pattern)
  /-- No branch is left. -/
  | never
  /-- A repetition of a test for one character. -/
  | run (t : Pattern.CharTest) (least : Nat) (most : Option Nat) (greed : Pattern.Greed)
  /-- A repetition of anything else. -/
  | loop (p : Pattern) (least : Nat) (most : Option Nat) (greed : Pattern.Greed)
  | capture (group : Nat) (p : Pattern)
  /-- A part with switches of its own. -/
  | switched (p : Pattern)
  | backref (group : Nat) (fold : Pattern.Fold)
  | atomic (p : Pattern)
  | ahead (negated : Bool) (p : Pattern)
  /-- Looks at what stands in the `width` characters before. -/
  | behind (width : Nat) (negated : Bool) (p : Pattern)
  | ifGroup (group : Nat) (yes no : Pattern)
deriving Repr

/-- A pattern with the least number of characters that it takes. -/
structure Regex where
  pattern : Pattern
  shortest : Nat
deriving Repr

namespace Pattern

/-! ## Width -/

/-- The width from which on a pattern counts as unbounded. -/
def unbounded : Nat := 4294967295

/-- Cuts a pair of widths off at the greatest that are told apart. -/
def clampWidth (lo hi : Nat) : Nat × Nat := (min lo (unbounded - 1), min hi unbounded)

/-- The least and the greatest number of characters that a pattern takes, given those of groups. -/
def width (groups : Nat → Nat × Nat) : Pattern → Nat × Nat
  | empty => (0, 0)
  | one _ => (1, 1)
  | anchor _ => (0, 0)
  | seq p q =>
    let (a, b) := p.width groups
    let (c, d) := q.width groups
    clampWidth (a + c) (b + d)
  | alt p q =>
    let (a, b) := p.width groups
    let (c, d) := q.width groups
    clampWidth (min a c) (max b d)
  | never => (unbounded - 1, 0)
  | run _ least most _ => clampWidth least (most.getD unbounded)
  | loop p least most _ =>
    let (a, b) := p.width groups
    clampWidth (a * least) (b * most.getD unbounded)
  | capture _ p => p.width groups
  | switched p => p.width groups
  | backref g _ => groups g
  | atomic p => p.width groups
  | ahead .. => (0, 0)
  | behind .. => (0, 0)
  | ifGroup _ p q =>
    let (a, b) := p.width groups
    let (c, d) := q.width groups
    clampWidth (min a c) (max b d)

/-! ## Building -/

def seqOf : List Pattern → Pattern
  | [] => .empty
  | [p] => p
  | p :: r => .seq p (seqOf r)

def altOf (branches : List Pattern) : Pattern := branches.foldr .alt .never

/-- The test that a pattern consists of, if it is a single one. -/
def test? : Pattern → Option CharTest
  | one t => some t
  | switched p => p.test?
  | _ => none

def repeated (p : Pattern) (least : Nat) (most : Option Nat) (greed : Greed) : Pattern :=
  match p.test? with
  | some t => .run t least most greed
  | none => .loop p least most greed

/-! ## Beginnings -/

/-- What a pattern begins with. -/
inductive Lead where
  /-- It does nothing, and what comes after it is all there is. -/
  | nothing
  /-- An exact test of the next character. -/
  | test (t : CharTest)
  | other
deriving DecidableEq, Repr

def lead : Pattern → Lead
  | empty => .nothing
  | one t => if t.isExact then .test t else .other
  | switched p => p.lead
  | seq p q =>
    match p.lead with
    | .nothing => q.lead
    | l => l
  | _ => .other

/-- The beginning of something, or of what follows it if it does nothing. -/
def Lead.orElse : Lead → Lead → Lead
  | .nothing, next => next
  | l, _ => l

/-- The next character fails the test that the pattern begins with. -/
def Lead.refuses (next : Option Char) : Lead → Bool
  | .test t => !next.any t.passes
  | _ => false

def Lead.code? : Lead → Option Nat
  | .test t => t.exactCode?
  | _ => none

/-- The branches all begin with a single code point. -/
def branchesLead : Pattern → Bool
  | alt p q => p.lead.code?.isSome && q.branchesLead
  | never => true
  | _ => false

/-- The pattern has no parts. -/
def isEmpty : Pattern → Bool
  | empty => true
  | _ => false

/-- The pattern begins with an exact test, perhaps inside groups and branches. -/
def beginsExactly : Pattern → Bool
  | one t => t.isExact
  | switched p => p.beginsExactly
  | capture _ p => p.beginsExactly
  | seq p _ => p.beginsExactly
  | alt p q => branchesLead (.alt p q)
  | _ => false

/-! ## Same beginnings -/

/-- Both patterns are the same test, anchor or reference. -/
def sameItem : Pattern → Pattern → Bool
  | one t, one u => t = u
  | anchor a, anchor b => a = b
  | backref g _, backref h _ => g = h
  | _, _ => false

def beginsWith (p : Pattern) : List Pattern → Bool
  | [] => false
  | q :: _ => p.sameItem q

/-- What a sequence and others have in common at their beginning, and what is left of each. -/
def commonPrefix : List Pattern → List (List Pattern) → List Pattern × List (List Pattern)
  | [], others => ([], [] :: others)
  | p :: r, others =>
    if others.all (beginsWith p) then
      let (shared, left) := commonPrefix r (others.map (·.drop 1))
      (p :: shared, left)
    else ([], (p :: r) :: others)

/-- The items of a set that holds what a sequence matches, if the sequence is one test. -/
def setItems? : List Pattern → Option (List SetItem)
  | [.one t] => t.items?
  | _ => none

/-- The sequence that stands for branches: what they have in common is tested first, and tests of
single characters become one set. -/
def branches (fold : Fold) : List (List Pattern) → List Pattern
  | [] => []
  | [items] => items
  | first :: others =>
    let (shared, left) := commonPrefix first others
    shared ++
      match left.mapM setItems? with
      | some sets => [.one (.ofItems fold false sets.flatten.eraseDups)]
      | none => [altOf (left.map seqOf)]

/-! ## What is refused -/

/-- Why a pattern that was read cannot be used. -/
inductive Defect where
  /-- A look behind at something of no fixed width. -/
  | unboundedLookbehind
  /-- A repetition in a pattern in which there may be none. -/
  | repetition (greed : Greed)
deriving DecidableEq, Repr

/-- The first defect of a pattern; `plain` tells that there may be no repetition in it. -/
def defect? (plain : Bool) (groups : Nat → Nat × Nat) : Pattern → Option Defect
  | seq p q => (p.defect? plain groups).orElse fun _ => q.defect? plain groups
  | alt p q => (p.defect? plain groups).orElse fun _ => q.defect? plain groups
  | run _ _ _ greed => if plain then some (.repetition greed) else none
  | loop p _ _ greed => if plain then some (.repetition greed) else p.defect? plain groups
  | capture _ p => p.defect? plain groups
  | switched p => p.defect? plain groups
  | atomic p => p.defect? plain groups
  | ahead _ p => p.defect? plain groups
  | behind _ _ p =>
    let (lo, hi) := p.width groups
    if lo = hi then p.defect? plain groups else some .unboundedLookbehind
  | ifGroup _ p q => (p.defect? plain groups).orElse fun _ => q.defect? plain groups
  | _ => none

end Pattern

end Shellbox
