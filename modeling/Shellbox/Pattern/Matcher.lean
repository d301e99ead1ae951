import Shellbox.Pattern.Basic

/-!
# Matching

A pattern is tried at a place of a text by backtracking: the branches of a pattern are tried in
order, each followed by all that comes after the pattern, and the first that succeeds as a whole
wins. What comes after is handed over as a function from states to outcomes.

An attempt that fails leaves traces. The cursor stays where the last try inside it set out, and the
ends of groups that it noted stay noted, except where a branching puts them back: it forgets the
groups noted since, but the contents of the others it restores only inside a repetition. Both show:
a reference may see a group that an earlier branch closed, and a possessive repetition goes on from
the cursor that its last, failed round has left behind.
-/

namespace Shellbox.Pattern

/-- A place in a text: the characters before it, last first, and those after it. -/
structure Place where
  before : List Char
  after : List Char
  index : Nat
deriving DecidableEq, Repr

namespace Place

def start (text : List Char) : Place := ⟨[], text, 0⟩

def next? (p : Place) : Option (Char × Place) :=
  match p.after with
  | [] => none
  | c :: r => some (c, ⟨c :: p.before, r, p.index + 1⟩)

/-- The place some characters before. -/
def back? : Nat → Place → Option Place
  | 0, p => some p
  | n + 1, p =>
    match p.before with
    | [] => none
    | c :: r => back? n ⟨r, c :: p.after, p.index - 1⟩

/-- The characters from one index of the text to another. -/
def slice (p : Place) (first last : Nat) : List Char :=
  if last ≤ p.index then ((p.before.drop (p.index - last)).take (last - first)).reverse
  else (p.before.take (p.index - first)).reverse ++
    (p.after.drop (first - p.index)).take (last - max first p.index)

end Place

/-- Where matching stands. -/
structure State where
  place : Place
  /-- Where the last try set out or ended. -/
  cursor : Place
  /-- The start of group `g` under `2 * g` and its end under `2 * g + 1`, if they are noted. -/
  marks : List (Option Nat)
deriving DecidableEq, Repr

/-- How an attempt ends. -/
inductive Outcome where
  | hit (s : State)
  /-- It failed, and this is left of it. -/
  | miss (s : State)
deriving DecidableEq, Repr

namespace State

/-- The state at a place where nothing is noted. -/
def start (p : Place) : State := ⟨p, p, []⟩

def moveTo (s : State) (p : Place) : State := { s with place := p }

/-- Sets the cursor to the place: a try sets out here. -/
def setOut (s : State) : State := { s with cursor := s.place }

def resume (s : State) : State := { s with place := s.cursor }

/-- Notes the present index under a number; numbers in between are not noted. -/
def mark (s : State) (n : Nat) : State :=
  let noted := s.marks ++ List.replicate (n + 1 - s.marks.length) none
  { s with marks := noted.set n (some s.place.index) }

/-- The ends of a group, if both are noted, in their order. -/
def ends? (s : State) (g : Nat) : Option (Nat × Nat) :=
  match s.marks[2 * g]?, s.marks[2 * g + 1]? with
  | some (some a), some (some b) => if a ≤ b then some (a, b) else none
  | _, _ => none

/-- The text of a group, if it took part and is closed. -/
def group? (s : State) (g : Nat) : Option (List Char) :=
  (s.ends? g).map fun (a, b) => s.place.slice a b

/-- Back from what a failed attempt left. The marks noted since are forgotten; the others have their
old contents again if `contents` says so. -/
def backFrom (s left : State) (contents : Bool) : State where
  place := s.place
  cursor := left.cursor
  marks := if contents then s.marks else left.marks.take s.marks.length

end State

/-! ## Single steps -/

/-- The character is a word character, or an ASCII one when only these count. -/
def isWordAt (asciiOnly : Bool) (c : Option Char) : Bool :=
  c.any (ClassName.word.holds asciiOnly)

/-- Exactly one side of the place is a word character; no place of the empty text is a boundary. -/
def isBoundary (asciiOnly : Bool) (p : Place) : Bool :=
  isWordAt asciiOnly p.before.head? != isWordAt asciiOnly p.after.head?

def Anchor.holds (p : Place) : Anchor → Bool
  | .textStart => p.before.isEmpty
  | .lineStart => p.before.isEmpty || p.before.head? == some '\n'
  | .textEnd => p.after.isEmpty
  | .lineEnd => p.after.isEmpty || p.after.head? == some '\n'
  | .lastLineEnd => p.after.isEmpty || p.after == ['\n']
  | .wordBoundary a => isBoundary a p
  | .notWordBoundary a => !(p.before.isEmpty && p.after.isEmpty) && !isBoundary a p

/-- Steps over a character that passes a test. -/
def step? (t : CharTest) (p : Place) : Option Place :=
  match p.next? with
  | none => none
  | some (c, q) => if t.passes c then some q else none

/-- Steps over given characters, compared under a fold. -/
def stepOver? (fold : Fold) : List Char → Place → Option Place
  | [], p => some p
  | c :: r, p =>
    match p.next? with
    | none => none
    | some (d, q) => if fold.key c.toNat = fold.key d.toNat then stepOver? fold r q else none

/--
The places reached by taking characters that pass a test, at most `most` of them, the last reached
place first; `after` are the characters from the last place on.
-/
def runPlaces (t : CharTest) : Option Nat → List Place → Place → List Char → List Place
  | _, acc, p, [] => p :: acc
  | some 0, acc, p, _ :: _ => p :: acc
  | most, acc, p, c :: r =>
    if t.passes c then
      runPlaces t (most.map (· - 1)) (p :: acc) ⟨c :: p.before, r, p.index + 1⟩ r
    else p :: acc

/-- At least so many characters are left. -/
def Place.hasLeft (p : Place) (n : Nat) : Bool := n == 0 || !(p.after.drop (n - 1)).isEmpty

/-! ## Attempts -/

/-- An attempt from a state, with what comes after it. -/
abbrev Step := State → (State → Outcome) → Outcome

def done (s : State) : Outcome := .hit s.setOut

/-- A failed attempt leaves the cursor at the place that it set out from. -/
def returning (s : State) : Outcome → Outcome
  | .hit r => .hit r
  | .miss m => .miss { m with cursor := s.place }

/-- What comes after is tried at places in turn. -/
def tryPlaces (contents : Bool) (k : State → Outcome) (s : State) : List Place → Outcome
  | [] => .miss s
  | p :: rest =>
    match k (s.moveTo p).setOut with
    | .hit r => .hit r
    | .miss m => tryPlaces contents k (s.backFrom m contents) rest

/-- As `tryPlaces`, but the cursor returns to each place. -/
def tryPlacesReturning (contents : Bool) (k : State → Outcome) (s : State) : List Place → Outcome
  | [] => .miss s
  | p :: rest =>
    match returning (s.moveTo p) (k (s.moveTo p).setOut) with
    | .hit r => .hit r
    | .miss m => tryPlacesReturning contents k (s.backFrom m contents) rest

/-- What is known around a pattern. -/
structure Context where
  /-- The number of characters of the text. -/
  size : Nat
  /-- The pattern stands inside a repetition. -/
  inLoop : Bool := false
  /-- What must come next in the text after the pattern. -/
  next : Lead := .other
deriving DecidableEq, Repr

/-- The context in which nothing is known of what comes next. -/
def Context.apart (cx : Context) : Context := { cx with next := .other }

/-- A repetition of a test for one character. Places that do not fit what must come next are left
out. -/
def runSteps (cx : Context) (t : CharTest) (least : Nat) (most : Option Nat) (greed : Greed) :
    Step := fun s k =>
  if !s.place.hasLeft least then .miss s
  else
    let s := s.setOut
    let reached := runPlaces t most [] s.place s.place.after
    let enough := reached.take (reached.length - least)
    match greed with
    | .greedy =>
      let fits := match cx.next.code? with
        | some _ => enough.filter fun p => !cx.next.refuses p.after.head?
        | none => enough
      tryPlaces cx.inLoop k s fits
    | .lazy => tryPlacesReturning cx.inLoop k s enough.reverse
    | .possessive =>
      match enough with
      | [] => .miss s
      | p :: _ => k (s.moveTo p)

/-! ## Repetitions -/

def allowsMore (most : Option Nat) (count : Nat) : Bool := most.all (count < ·)

/--
Rounds of `body`, as many as possible first. Beyond the least number a round begins only where the
round before did not begin. The fuel bounds the number of rounds.
-/
def greedyRounds (body : Step) (least : Nat) (most : Option Nat) (k : State → Outcome) :
    Nat → Nat → Option Nat → State → Outcome
  | 0, _, _, s => .miss s
  | fuel + 1, count, last, s =>
    let s := s.setOut
    if count < least then
      returning s (body s (greedyRounds body least most k fuel (count + 1) last))
    else if allowsMore most count && last != some s.place.index then
      match body s (greedyRounds body least most k fuel (count + 1) (some s.place.index)) with
      | .hit r => .hit r
      | .miss m => returning s (k (s.backFrom m true).setOut)
    else returning s (k s)

/-- Rounds of `body`, as few as possible first. -/
def lazyRounds (body : Step) (least : Nat) (most : Option Nat) (inLoop : Bool)
    (k : State → Outcome) : Nat → Nat → Option Nat → State → Outcome
  | 0, _, _, s => .miss s
  | fuel + 1, count, last, s =>
    let s := s.setOut
    if count < least then
      returning s (body s (lazyRounds body least most inLoop k fuel (count + 1) last))
    else
      match k s with
      | .hit r => .hit r
      | .miss m =>
        let s := (s.backFrom m inLoop).setOut
        if allowsMore most count && last != some s.place.index then
          returning s
            (body s (lazyRounds body least most inLoop k fuel (count + 1) (some s.place.index)))
        else .miss s

/-- Rounds of `body`, each taken as it first succeeds, as many as possible. After a round that fails
matching goes on at the cursor. -/
def possessiveRounds (body : Step) (least : Nat) (most : Option Nat) :
    Nat → Nat → Option Nat → State → Outcome
  | 0, _, _, s => .miss s
  | fuel + 1, count, last, s =>
    if count < least then
      match body s done with
      | .hit r => possessiveRounds body least most fuel (count + 1) last r
      | .miss m => .miss m
    else if allowsMore most count && last != some s.place.index then
      match body s done with
      | .hit r => possessiveRounds body least most fuel (count + 1) (some s.place.index) r
      | .miss m => .hit (s.backFrom m true).resume
    else .hit s

/-- A repetition of `body`. Rounds that take characters soon come to the end of the text, and few
others are made. -/
def rounds (cx : Context) (body : Step) (least : Nat) (most : Option Nat) (greed : Greed) : Step :=
  fun s k =>
    let s := s.setOut
    let fuel := least + (cx.size + 2) * (cx.size + 2)
    match greed with
    | .greedy => greedyRounds body least most k fuel 0 none s
    | .lazy => lazyRounds body least most cx.inLoop k fuel 0 none s
    | .possessive =>
      match returning s (possessiveRounds body least most fuel 0 none s) with
      | .hit r => k r
      | .miss m => .miss m

/-! ## Patterns -/

/-- Looks at what stands around the place, from `back` characters before. -/
def look (cx : Context) (body : Step) (back : Nat) (negated : Bool) : Step := fun s k =>
  match Place.back? back s.place, negated with
  | none, false => .miss s
  | none, true => k s
  | some p, false =>
    match body (s.moveTo p).setOut done with
    | .hit r => k (r.moveTo s.place)
    | .miss m => .miss m
  | some p, true =>
    match body (s.moveTo p).setOut done with
    | .hit r => .miss r
    | .miss m => k (s.backFrom m cx.inLoop)

/-- Tries a pattern at a state, and then what comes after it. -/
def attempt : Pattern → Context → Step
  | .empty, _, s, k => k s
  | .one t, _, s, k =>
    match step? t s.place with
    | some p => k (s.moveTo p)
    | none => .miss s
  | .anchor a, _, s, k => if a.holds s.place then k s else .miss s
  | .seq p q, cx, s, k =>
    attempt p { cx with next := q.lead.orElse cx.next } s fun s' => attempt q cx s' k
  | .alt p q, cx, s, k =>
    if p.lead.refuses s.place.after.head? then attempt q cx s k
    else
      match attempt p cx.apart s.setOut k with
      | .hit r => .hit r
      | .miss m => attempt q cx (s.backFrom m cx.inLoop) k
  | .never, _, s, _ => .miss s
  | .run t least most greed, cx, s, k => runSteps cx t least most greed s k
  | .loop p least most greed, cx, s, k =>
    let inner := { cx.apart with inLoop := cx.inLoop || greed != .possessive }
    rounds cx (attempt p inner) least most greed s k
  | .capture g p, cx, s, k =>
    attempt p cx.apart (s.mark (2 * g)) fun s' => k (s'.mark (2 * g + 1))
  | .switched p, cx, s, k => attempt p cx s k
  | .backref g fold, _, s, k =>
    match (s.group? g).bind fun cs => stepOver? fold cs s.place with
    | some p => k (s.moveTo p)
    | none => .miss s
  | .atomic p, cx, s, k =>
    match returning s (attempt p cx.apart s.setOut done) with
    | .hit r => k r
    | .miss m => .miss m
  | .ahead negated p, cx, s, k => look cx (attempt p cx.apart) 0 negated s k
  | .behind width negated p, cx, s, k => look cx (attempt p cx.apart) width negated s k
  | .ifGroup g p q, cx, s, k =>
    if (s.ends? g).isSome then attempt p (if q.isEmpty then cx else cx.apart) s k
    else attempt q cx s k

/-- The pattern matches at a place of a text with `size` characters. -/
def matchesAt (p : Pattern) (size : Nat) (at_ : Place) : Bool :=
  match attempt p { size } (.start at_) done with
  | .hit _ => true
  | .miss _ => false

/-- The pattern matches at a place or at one of the next `more` ones. -/
def matchesWithin (p : Pattern) (size : Nat) : (more : Nat) → Place → Bool
  | 0, at_ => p.matchesAt size at_
  | more + 1, at_ =>
    p.matchesAt size at_ ||
      match at_.next? with
      | some (_, q) => p.matchesWithin size more q
      | none => false

/-- Where a match of the pattern that begins at a place ends. -/
def matchEnd? (p : Pattern) (size : Nat) (at_ : Place) : Option Place :=
  match attempt p { size } (.start at_) done with
  | .hit s => some s.place
  | .miss _ => none

/-- Where the first match at a place or at one of the next `more` ones begins and ends. -/
def searchWithin? (p : Pattern) (size : Nat) : (more : Nat) → Place → Option (Place × Place)
  | 0, at_ => (p.matchEnd? size at_).map (at_, ·)
  | more + 1, at_ =>
    match p.matchEnd? size at_, at_.next? with
    | some e, _ => some (at_, e)
    | none, some (_, q) => p.searchWithin? size more q
    | none, none => none

end Shellbox.Pattern

namespace Shellbox.Regex

open Pattern

/-- The pattern matches at the start of a text; a text that is too short is not tried. -/
def matchesStart (r : Regex) (text : String) : Bool :=
  let cs := text.toList
  r.shortest ≤ cs.length && r.pattern.matchesAt cs.length (.start cs)

/-- The pattern matches somewhere in a text. It is tried where enough characters are left and at one
place more, or at every place if it begins with an exact test. -/
def occursIn (r : Regex) (text : String) : Bool :=
  let cs := text.toList
  let size := cs.length
  let more := if r.pattern.beginsExactly then size else size - (r.shortest - 1)
  r.shortest ≤ size && r.pattern.matchesWithin size more (.start cs)

/-- The first match from a place on, tried at the places at which `occursIn` tries it. -/
def searchFrom? (r : Regex) (size : Nat) (at_ : Place) : Option (Place × Place) :=
  let left := at_.after.length
  let more := if r.pattern.beginsExactly then left else left - (r.shortest - 1)
  if r.shortest ≤ left then r.pattern.searchWithin? size more at_ else none

/-- The texts of the matches from a place on, each searched behind the one before. The fuel bounds
their number. -/
def findAllFrom (r : Regex) (size : Nat) : Nat → Place → List (List Char)
  | 0, _ => []
  | fuel + 1, at_ =>
    match r.searchFrom? size at_ with
    | none => []
    | some (q, e) => q.after.take (e.index - q.index) :: r.findAllFrom size fuel e

/-- The texts of all matches, from the left and without overlap, of a pattern that takes at least
one character. -/
def findAll (r : Regex) (text : String) : List String :=
  let cs := text.toList
  (r.findAllFrom cs.length (cs.length + 1) (.start cs)).map String.ofList

end Shellbox.Regex
