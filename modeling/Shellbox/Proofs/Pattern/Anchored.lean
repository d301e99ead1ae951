import Shellbox.Proofs.Pattern.Ending
import Shellbox.Proofs.Pattern.Glob
import Shellbox.Proofs.Pattern.Parts

/-!
# Reading a pattern between anchors

A text without question marks that is a pattern of some branches is, between a caret and a dollar
sign, a pattern of the same branches, the first of which begins with the one anchor and the last of
which ends with the other.
-/

namespace Shellbox.Pattern

open Glob (flags)

variable {s t u : Source} {c : Char} {n m : Nat} {p : Pattern} {ps : List Pattern}
  {bs : List (List Pattern)} {items base : List Item}

/-! ## Parts that are read -/

theorem readSet_fine {cx : Flags} (h : readSet cx s = .ok (p, t)) : Fine p := by
  obtain ⟨⟨negated, u⟩, -, h⟩ := bind_eq_ok.mp h
  obtain ⟨⟨items, v⟩, -, h⟩ := bind_eq_ok.mp h
  cases h
  exact .one _

theorem plainPart_fine (c : Char) : Fine (plainPart flags c) := by
  unfold plainPart
  split
  · exact .one _
  · exact .anchor _
  · exact .anchor _
  · exact .one _

theorem groupReference_fine {g back : Nat} (h : groupReference flags s g back = .ok (p, t)) :
    Fine p := by
  unfold groupReference at h
  split at h
  · split at h
    · cases h
    · obtain ⟨_, -, h⟩ := bind_eq_ok.mp h
      cases h
      exact .backref g
  · cases h

theorem readNumberEscape_fine (h : readNumberEscape flags s c = .ok (p, t)) : Fine p := by
  have hread (d e : List Char) (u : Source)
      (h : (if e.isEmpty then groupReference flags u (ofDigits 10 (c :: d)) (d.length + 2)
        else octalCode u c (d ++ e) >>= fun x => .ok (codePattern flags x.1, x.2)) = .ok (p, t)) :
      Fine p := by
    split at h
    · exact groupReference_fine h
    · obtain ⟨⟨m, v⟩, -, h⟩ := bind_eq_ok.mp h
      cases h
      exact .one _
  unfold readNumberEscape at h
  split at h
  · obtain ⟨⟨ds, u⟩, -, h⟩ := bind_eq_ok.mp h
    cases h
    exact .one _
  · obtain ⟨⟨d, u⟩, -, h⟩ := bind_eq_ok.mp h
    dsimp only at h
    split at h
    · obtain ⟨⟨e, v⟩, -, h⟩ := bind_eq_ok.mp h
      exact hread d e v h
    · obtain ⟨⟨e, v⟩, -, h⟩ := bind_eq_ok.mp h
      exact hread d e v h

theorem readEscape_fine (h : readEscape flags s c = .ok (p, t)) : Fine p := by
  unfold readEscape at h
  split at h
  · cases h
    exact .anchor _
  · split at h
    · cases h
      exact .one _
    · split at h
      · cases h
        exact .one _
      · split at h
        · exact readNumberEscape_fine h
        · obtain ⟨⟨m, u⟩, -, h⟩ := bind_eq_ok.mp h
          cases h
          exact .one _

theorem ofPart_fine (h : Fine p) : ∀ q ∈ (Item.ofPart p).parts, Fine q := by
  have hparts : (Item.ofPart p).parts = [p] := by
    unfold Item.ofPart
    split <;> rfl
  simpa [hparts] using h

/-! ## Groups -/

/-- A parenthesis in a text without question marks begins a group with a number. -/
theorem readGroupHead_eq (h : '?' ∉ s.rest) (cx : Flags) (fresh : Bool) :
    readGroupHead cx fresh s = .ok (.capture none, s) := by
  have hhead : s.rest.head? ≠ some '?' := fun heq => h (List.mem_of_mem_head? heq)
  exact bind_eq_ok.mpr ⟨_, Source.takeIf_of_ne hhead (by decide), rfl⟩

theorem question_ended (hs : s.Sound) : '?' ∉ s.ended.rest := by
  simp [Source.ended, hs.question]

/-- The source in which one more group is open. -/
def Source.opened (s : Source) : Source := { s with groups := s.groups ++ [none] }

theorem Source.groupWidth?_opened (s : Source) (g : Nat) :
    s.opened.groupWidth? g = s.groupWidth? g := by
  cases g with
  | zero => rfl
  | succ i =>
      rw [groupWidth?, groupWidth?, opened, List.getElem?_append]
      split
      · rfl
      · rename_i hlt
        have hnone : s.groups[i]? = none := List.getElem?_eq_none (by omega)
        rw [hnone]
        cases i - s.groups.length <;> rfl

theorem Source.Sound.opened (hs : s.Sound) : s.LeadsTo s.opened := by
  refine ⟨⟨hs.open_escape, hs.question, fun g => ?_⟩, List.suffix_rfl, rfl, rfl⟩
  rw [groupWidth, groupWidth?_opened]
  exact hs.widths g

theorem Source.Sound.closeGroup (hs : s.Sound) (hp : Fine p) (g : Nat) :
    s.LeadsTo (s.closeGroup g p) := by
  refine ⟨⟨hs.open_escape, hs.question, fun i => ?_⟩, List.suffix_rfl, rfl, rfl⟩
  have hzero : ((0, 0) : Nat × Nat).1 < unbounded := by decide
  cases i with
  | zero => exact hzero
  | succ i =>
      have hi := hs.widths (i + 1)
      simp only [groupWidth, groupWidth?, Source.closeGroup, List.getElem?_set] at hi ⊢
      split
      · split
        · exact hp.width _ hs.widths
        · exact hzero
      · exact hi

theorem Source.length_of_skip (h : s.skip n = .ok t) : t.rest.length = s.rest.length - n := by
  unfold skip at h
  dsimp only at h
  split at h
  · cases h
  · cases h
    exact List.length_drop

theorem Source.takeIf_cases {b : Bool} (h : s.takeIf c = .ok (b, t)) :
    b = false ∧ t = s ∨ b = true ∧ t.rest.length < s.rest.length := by
  unfold takeIf at h
  split at h
  · rename_i hnext
    obtain ⟨u, hskip, heq⟩ := bind_eq_ok.mp h
    cases heq
    obtain ⟨hpos, hle⟩ := length_le_of_peek (of_decide_eq_true hnext)
    rw [length_of_skip hskip]
    exact .inr ⟨rfl, Nat.sub_lt_self Nat.one_pos hle⟩
  · cases h
    exact .inl ⟨rfl, rfl⟩

theorem closeParenthesis_ended (hs : s.Sound) {start : Nat} (start' : Nat)
    (h : closeParenthesis start s = .ok t) :
    closeParenthesis start' s.ended = .ok t.ended ∧ s.LeadsTo t ∧ s.rest ≠ [] := by
  obtain ⟨⟨closed, u⟩, htake, h⟩ := bind_eq_ok.mp h
  obtain ⟨htake', hto⟩ := Source.takeIf_ends hs (by decide) _ _ htake
  dsimp only at h
  split at h
  · rename_i hclosed
    cases h
    refine ⟨bind_eq_ok.mpr ⟨_, htake', if_pos hclosed⟩, hto, fun hnil => ?_⟩
    rw [Source.takeIf_of_nil hnil (by decide)] at htake
    cases htake
    cases hclosed
  · cases h

/-! ## Sequences -/

/-- A sequence that goes up to the end takes in the dollar sign behind it. -/
def closed (ps : List Pattern) (t : Source) : List Pattern × Source :=
  if t.rest = [] then (ps ++ [.anchor .lastLineEnd], t.ended.drop 1) else (ps, t.ended)

/-- What is read of a sequence is read alike, up to the dollar sign, behind other items and with the
dollar sign behind the text. -/
def Closes (s : Source) (front : List Pattern) (r r' : Except Fault (List Pattern × Source)) :
    Prop :=
  ∀ ps t, r = .ok (ps, t) →
    r' = .ok (closed (front ++ ps) t) ∧ s.LeadsTo t ∧ ∀ p ∈ ps, Fine p

namespace Closes

variable {front : List Pattern} {r r' q q' : Except Fault (List Pattern × Source)}

theorem from_ (h : s.LeadsTo t) (hr : Closes t front r r') : Closes s front r r' := by
  intro ps u hu
  obtain ⟨hu', htu, hfine⟩ := hr ps u hu
  exact ⟨hu', h.trans htu, hfine⟩

theorem ite {c : Prop} [Decidable c] (ht : c → Closes s front r r')
    (he : ¬ c → Closes s front q q') :
    Closes s front (if c then r else q) (if c then r' else q') := by
  by_cases hc : c
  · rw [if_pos hc, if_pos hc]
    exact ht hc
  · rw [if_neg hc, if_neg hc]
    exact he hc

theorem bind {α : Type} {x x' : Except Fault (α × Source)}
    {f f' : α × Source → Except Fault (List Pattern × Source)} (hx : Ends s x x')
    (hf : ∀ a t, x = .ok (a, t) → s.LeadsTo t → Closes s front (f (a, t)) (f' (a, t.ended))) :
    Closes s front (x >>= f) (x' >>= f') := by
  intro ps u hu
  obtain ⟨⟨a, t⟩, ht, hu⟩ := bind_eq_ok.mp hu
  obtain ⟨ht', hst⟩ := hx a t ht
  obtain ⟨hu', hsu, hfine⟩ := hf a t ht hst ps u hu
  exact ⟨bind_eq_ok.mpr ⟨_, ht', hu'⟩, hsu, hfine⟩

theorem skip (hs : s.Sound) (hn : n ≤ s.rest.length)
    {f f' : Source → Except Fault (List Pattern × Source)}
    (hf : ∀ t, s.LeadsTo t → t.rest.length + n = s.rest.length →
      Closes s front (f t) (f' t.ended)) :
    Closes s front (s.skip n >>= f) (s.ended.skip n >>= f') := by
  intro ps u hu
  obtain ⟨t, ht, hu⟩ := bind_eq_ok.mp hu
  obtain ⟨ht', hst, hlen⟩ := Source.skip_ended hs hn ht
  obtain ⟨hu', hsu, hfine⟩ := hf t hst hlen ps u hu
  exact ⟨bind_eq_ok.mpr ⟨_, ht', hu'⟩, hsu, hfine⟩

end Closes

theorem joinItems_append (items base : List Item) :
    joinItems (items ++ base) = joinItems base ++ joinItems items := by
  simp [joinItems]

/-- Repeating the last of some items leaves those in front of them alone. -/
theorem repeatLast_ended (hs : s.Sound) {index index' least : Nat} {most : Option Nat}
    {items' : List Item} (hitems : ∀ item ∈ items, ∀ p ∈ item.parts, Fine p)
    (h : repeatLast items index least most s = .ok (items', t)) :
    repeatLast (items ++ base) index' least most s.ended = .ok (items' ++ base, t.ended) ∧
      s.LeadsTo t ∧ ∀ item ∈ items', ∀ p ∈ item.parts, Fine p := by
  cases items with
  | nil => cases h
  | cons item r =>
      obtain ⟨hitem, hr⟩ := List.forall_mem_cons.mp hitems
      unfold repeatLast at h
      dsimp only at h
      split at h
      · cases h
      · cases h
      · rename_i hsort
        obtain ⟨⟨greed, u⟩, hgreed, h⟩ := bind_eq_ok.mp h
        obtain ⟨hgreed', hto⟩ := readGreed_ends hs _ _ hgreed
        cases h
        refine ⟨?_, hto, List.forall_mem_cons.mpr ⟨?_, hr⟩⟩
        · simp only [List.cons_append, repeatLast, hsort]
          exact bind_eq_ok.mpr ⟨_, hgreed', rfl⟩
        · exact List.forall_mem_singleton.mpr ((Fine.seqOf hitem).repeated _ _ _)

/-- At the end of the text the dollar sign is the one item that is left. -/
theorem readSequence_dollar (hnil : s.rest = []) (items : List Item) (first : Bool) :
    readSequence (m + 2) flags first items s.ended =
      .ok (joinItems items ++ [.anchor .lastLineEnd], s.ended.drop 1) := by
  have hend : s.ended.rest = ['$'] := by rw [Source.ended, hnil, List.nil_append]
  have hdrop : (s.ended.drop 1).rest = [] := by
    rw [Source.drop, hend]
    rfl
  rw [readSequence_lone rfl hend (by decide) (by simp), readSequence_end hdrop, joinItems_cons]
  rfl

/-! ## Whole patterns -/

/-- The first branch begins with some parts. -/
def startFirst (front : List Pattern) : List (List Pattern) → List (List Pattern)
  | [] => []
  | b :: bs => (front ++ b) :: bs

/-- The last branch ends with a dollar sign. -/
def endLast : List (List Pattern) → List (List Pattern)
  | [] => []
  | [b] => [b ++ [.anchor .lastLineEnd]]
  | b :: bs => b :: endLast bs

/-- With enough fuel for the text and for the text with a dollar sign behind it, sequences, branches
and groups are read alike. -/
structure ReadAlike (n : Nat) : Prop where
  sequence : ∀ (m : Nat) (first' : Bool) (base : List Item) {first items s}, s.Sound →
    3 * s.rest.length + 1 ≤ n → 3 * s.rest.length + 4 ≤ m →
    (∀ item ∈ items, ∀ p ∈ item.parts, Fine p) →
    Closes s (joinItems base) (readSequence n flags first items s)
      (readSequence m flags first' (items ++ base) s.ended)
  branches : ∀ (m : Nat) (first' : Bool) {top first s bs t}, s.Sound →
    (top = true → s.flags = flags) → 3 * s.rest.length + 2 ≤ n → 3 * s.rest.length + 5 ≤ m →
    readBranches n flags top first s = .ok (bs, t) →
    readBranches m flags top first' s.ended =
        .ok (if t.rest = [] then (endLast bs, t.ended.drop 1) else (bs, t.ended)) ∧
      s.LeadsTo t ∧ bs ≠ [] ∧ ∀ b ∈ bs, ∀ p ∈ b, Fine p
  body : ∀ (m start' : Nat) {start s ps t}, s.Sound → 3 * s.rest.length + 3 ≤ n →
    3 * s.rest.length + 6 ≤ m → readGroupBody n flags start (.capture none) s = .ok (ps, t) →
    readGroupBody m flags start' (.capture none) s.ended = .ok (ps, t.ended) ∧ s.LeadsTo t ∧
      ∀ p ∈ ps, Fine p

namespace ReadAlike

theorem sequence_succ (ih : ReadAlike n) {first first' : Bool} (hs : s.Sound)
    (hn : 3 * s.rest.length + 1 ≤ n + 1) (hm : 3 * s.rest.length + 4 ≤ m + 1)
    (hitems : ∀ item ∈ items, ∀ p ∈ item.parts, Fine p) :
    Closes s (joinItems base) (readSequence (n + 1) flags first items s)
      (readSequence (m + 1) flags first' (items ++ base) s.ended) := by
  have hjoined : ∀ p ∈ joinItems items, Fine p := by
    intro p hp
    obtain ⟨item, hitem, hp⟩ := List.mem_flatMap.mp hp
    exact hitems item (List.mem_reverse.mp hitem) p hp
  by_cases hnil : s.rest = []
  · intro ps t h
    rw [readSequence_end hnil] at h
    cases h
    obtain ⟨k, rfl⟩ : ∃ k, m = k + 1 := ⟨m - 1, by omega⟩
    refine ⟨?_, hs.refl, hjoined⟩
    rw [readSequence_dollar hnil, closed, if_pos hnil, joinItems_append]
  -- What is left to read has at least one character less.
  have hmore (t : Source) (ht : t.Sound) (hlen : t.rest.length < s.rest.length)
      (items' : List Item) (hitems' : ∀ item ∈ items', ∀ p ∈ item.parts, Fine p) :
      Closes t (joinItems base) (readSequence n flags first items' t)
        (readSequence m flags first' (items' ++ base) t.ended) :=
    ih.sequence m first' base ht (by omega) (by omega) hitems'
  have hnext (t : Source) (ht : t.Sound) (hlen : t.rest.length < s.rest.length) (item : Item)
      (hitem : ∀ p ∈ item.parts, Fine p) :=
    hmore t ht hlen (item :: items) (List.forall_mem_cons.mpr ⟨hitem, hitems⟩)
  have hverbose (b : Bool) : ¬ (flags.verbose && b) := Bool.false_ne_true
  rw [readSequence, readSequence, Source.peek_ended hs hnil]
  cases hpeek : s.peek with
  | none => exact absurd (Source.peek_eq_none_iff.mp hpeek) hnil
  | some piece =>
      obtain ⟨hpos, hle⟩ := Source.length_le_of_peek hpeek
      cases piece with
      | escaped c =>
          refine .skip hs hle fun t ht hlen => ?_
          refine .from_ ht (.bind (readEscape_ends ht.sound flags c) fun p u hp hu => ?_)
          have hlt := hu.length_le
          exact .from_ hu (hnext u hu.sound (by omega) _ (ofPart_fine (readEscape_fine hp)))
      | plain c =>
          refine .ite (fun _ => ?_) fun _ => ?_
          · intro ps t h
            cases h
            refine ⟨?_, hs.refl, hjoined⟩
            rw [closed, if_neg hnil, joinItems_append]
          refine .skip hs hle fun t ht hlen => .from_ ht ?_
          refine .ite (fun h => absurd h (hverbose _)) fun _ =>
            .ite (fun h => absurd h (hverbose _)) fun _ => ?_
          have hplain := hnext t ht.sound (by omega) _ (ofPart_fine (plainPart_fine c))
          refine .ite (fun _ => ?_) fun _ =>
            .ite (fun _ => ?_) fun _ => .ite (fun _ => ?_) fun _ => hplain
          · refine .bind (readSet_ends ht.sound flags) fun p u hp hu => .from_ hu ?_
            have hlt := hu.length_le
            exact hnext u hu.sound (by omega) _ (by simpa [Item.plain] using readSet_fine hp)
          · refine .bind (readRepeat_ends ht.sound c) fun bounds u hb hu => ?_
            cases bounds with
            | none => exact hplain
            | some bounds =>
                intro ps v h
                obtain ⟨⟨items', w⟩, hrepeat, h⟩ := bind_eq_ok.mp h
                obtain ⟨hrepeat', hw, hfine⟩ := repeatLast_ended hu.sound hitems hrepeat
                have hlt := (hu.trans hw).length_le
                obtain ⟨h', hv, hps⟩ := hmore w hw.sound (by omega) items' hfine ps v h
                exact ⟨bind_eq_ok.mpr ⟨_, hrepeat', h'⟩, (hu.trans hw).trans hv, hps⟩
          · intro ps v h
            obtain ⟨⟨head, u⟩, hhead, h⟩ := bind_eq_ok.mp h
            rw [readGroupHead_eq ht.sound.question] at hhead
            cases hhead
            obtain ⟨⟨parts, w⟩, hbody, h⟩ := bind_eq_ok.mp h
            obtain ⟨hbody', hw, hparts⟩ := ih.body m _ ht.sound (by omega) (by omega) hbody
            have hlt := hw.length_le
            obtain ⟨h', hv, hps⟩ := hnext w hw.sound (by omega) ⟨parts, .repeatable⟩ hparts ps v h
            refine ⟨bind_eq_ok.mpr ⟨_, readGroupHead_eq (question_ended ht.sound) _ _, ?_⟩,
              hw.trans hv, hps⟩
            exact bind_eq_ok.mpr ⟨_, hbody', h'⟩

/-- Branches are read alike if the items up to the first bar are, with some parts in front. -/
theorem branches_of_sequence (ih : ReadAlike n) {top first first' : Bool} {s' : Source}
    {front : List Pattern} (hs : s.Sound) (htop : top = true → s.flags = flags)
    (hn : 3 * s.rest.length + 2 ≤ n + 1) (hm : 3 * s.rest.length + 5 ≤ m + 1)
    (hsequence : ∀ items u, readSequence n flags (top && first) [] s = .ok (items, u) →
      readSequence m flags (top && first') [] s' = .ok (closed (front ++ items) u))
    (h : readBranches (n + 1) flags top first s = .ok (bs, t)) :
    readBranches (m + 1) flags top first' s' =
        .ok (if t.rest = [] then (endLast (startFirst front bs), t.ended.drop 1)
          else (startFirst front bs, t.ended)) ∧
      s.LeadsTo t ∧ bs ≠ [] ∧ ∀ b ∈ bs, ∀ p ∈ b, Fine p := by
  rw [readBranches] at h ⊢
  obtain ⟨⟨items, u⟩, hitems, hrest⟩ := bind_eq_ok.mp h
  have hitems' := hsequence items u hitems
  obtain ⟨-, hu, hfine⟩ := ih.sequence m true [] hs (by omega) (by omega) (by simp) _ _ hitems
  obtain ⟨⟨more, v⟩, hmore, hlast⟩ := bind_eq_ok.mp hrest
  rcases Source.takeIf_cases hmore with ⟨rfl, rfl⟩ | ⟨rfl, hlen⟩
  · simp only [Bool.not_false, ↓reduceIte, Except.ok.injEq, Prod.mk.injEq] at hlast
    obtain ⟨rfl, rfl⟩ := hlast
    refine ⟨bind_eq_ok.mpr ⟨_, hitems', ?_⟩, hu, by simp, by simpa using hfine⟩
    by_cases hnil : v.rest = []
    · have hend : (v.ended.drop 1).rest = [] := by simp [Source.drop, Source.ended, hnil]
      have hbar : (v.ended.drop 1).takeIf '|' = .ok (false, v.ended.drop 1) :=
        Source.takeIf_of_nil hend (by decide)
      simp only [closed, if_pos hnil]
      exact bind_eq_ok.mpr ⟨_, hbar, rfl⟩
    · obtain ⟨hbar, -⟩ := Source.takeIf_ends hu.sound (by decide) _ _ hmore
      simp only [closed, if_neg hnil]
      exact bind_eq_ok.mpr ⟨_, hbar, rfl⟩
  · have hne : u.rest ≠ [] := List.ne_nil_of_length_pos (by omega)
    obtain ⟨hbar, hv⟩ := Source.takeIf_ends hu.sound (by decide) _ _ hmore
    have hflags : (if top = true then v.flags else flags) = flags := by
      split
      · rename_i heq
        rw [hv.flags, hu.flags, htop heq]
      · rfl
    obtain ⟨⟨others, w⟩, hothers, heq⟩ := bind_eq_ok.mp hlast
    cases heq
    rw [hflags] at hothers
    have hle := hu.length_le
    obtain ⟨hothers', hw, hsome, hfines⟩ := ih.branches m false hv.sound
      (fun heq => hv.flags.trans (hu.flags.trans (htop heq))) (by omega) (by omega) hothers
    refine ⟨bind_eq_ok.mpr ⟨_, hitems', ?_⟩, (hu.trans hv).trans hw, by simp,
      List.forall_mem_cons.mpr ⟨hfine, hfines⟩⟩
    simp only [closed, if_neg hne]
    refine bind_eq_ok.mpr ⟨_, hbar, ?_⟩
    rw [← hflags] at hothers'
    refine bind_eq_ok.mpr ⟨_, hothers', ?_⟩
    obtain ⟨b, bs, rfl⟩ := List.exists_cons_of_ne_nil hsome
    split <;> rfl

theorem branches_succ (ih : ReadAlike n) {top first first' : Bool} (hs : s.Sound)
    (htop : top = true → s.flags = flags) (hn : 3 * s.rest.length + 2 ≤ n + 1)
    (hm : 3 * s.rest.length + 5 ≤ m + 1)
    (h : readBranches (n + 1) flags top first s = .ok (bs, t)) :
    readBranches (m + 1) flags top first' s.ended =
        .ok (if t.rest = [] then (endLast bs, t.ended.drop 1) else (bs, t.ended)) ∧
      s.LeadsTo t ∧ bs ≠ [] ∧ ∀ b ∈ bs, ∀ p ∈ b, Fine p := by
  have hsame : startFirst [] bs = bs := by cases bs <;> rfl
  have hsequence (items : List Pattern) (u : Source)
      (hitems : readSequence n flags (top && first) [] s = .ok (items, u)) :=
    (ih.sequence m (top && first') [] hs (by omega) (by omega) (by simp) _ _ hitems).1
  have hstep := @branches_of_sequence s t n m bs ih top first first' s.ended [] hs htop hn hm
    hsequence h
  rwa [hsame] at hstep

theorem body_succ (ih : ReadAlike n) {start start' : Nat} (hs : s.Sound)
    (hn : 3 * s.rest.length + 3 ≤ n + 1) (hm : 3 * s.rest.length + 6 ≤ m + 1)
    (h : readGroupBody (n + 1) flags start (.capture none) s = .ok (ps, t)) :
    readGroupBody (m + 1) flags start' (.capture none) s.ended = .ok (ps, t.ended) ∧
      s.LeadsTo t ∧ ∀ p ∈ ps, Fine p := by
  rw [readGroupBody] at h ⊢
  obtain ⟨⟨g, u⟩, hopen, h⟩ := bind_eq_ok.mp h
  cases hopen
  obtain ⟨⟨bs, v⟩, hbranches, h⟩ := bind_eq_ok.mp h
  obtain ⟨hbranches', hv, -, hfine⟩ := ih.branches m false hs.opened.sound (by simp)
    (by simpa [Source.opened] using hn) (by simpa [Source.opened] using hm) hbranches
  obtain ⟨w, hclose, h⟩ := bind_eq_ok.mp h
  obtain ⟨hclose', hw, hne⟩ := closeParenthesis_ended hv.sound start' hclose
  simp only [Except.ok.injEq, Prod.mk.injEq] at h
  obtain ⟨rfl, rfl⟩ := h
  have hpart := Fine.seqOf (fine_branches flags.fold hfine)
  refine ⟨?_, ?_, ?_⟩
  · rw [if_neg hne] at hbranches'
    refine bind_eq_ok.mpr ⟨_, rfl, bind_eq_ok.mpr ⟨_, hbranches', ?_⟩⟩
    exact bind_eq_ok.mpr ⟨_, hclose', rfl⟩
  · exact ((hs.opened.trans hv).trans hw).trans (hw.sound.closeGroup hpart _)
  · exact List.forall_mem_singleton.mpr (hpart.capture _)

end ReadAlike

theorem readAlike : ∀ n, ReadAlike n
  | 0 => ⟨fun _ hn => by omega, fun _ _ hn => by omega, fun _ hn => by omega⟩
  | n + 1 => by
      have ih := readAlike n
      refine ⟨fun m _ _ _ _ _ hs hn hm hitems => ?_, fun m _ _ _ _ _ _ hs htop hn hm h => ?_,
        fun m _ _ _ _ _ hs hn hm h => ?_⟩
      · obtain ⟨m, rfl⟩ : ∃ l, m = l + 1 := ⟨m - 1, by omega⟩
        exact ih.sequence_succ hs hn hm hitems
      · obtain ⟨m, rfl⟩ : ∃ l, m = l + 1 := ⟨m - 1, by omega⟩
        exact ih.branches_succ hs htop hn hm h
      · obtain ⟨m, rfl⟩ : ∃ l, m = l + 1 := ⟨m - 1, by omega⟩
        exact ih.body_succ hs hn hm h

/-! ## Compiling between anchors -/

/-- The branches that a text is read as. -/
def branchesOf (text : String) : Except Fault (List (List Pattern)) := do
  let s ← Source.ofText flags text.toList
  let (bs, _) ← readBranches (4 * text.length + 8) flags true true s
  .ok bs

/-- The branches of a text between anchors. -/
def anchored (bs : List (List Pattern)) : List (List Pattern) :=
  endLast (startFirst [.anchor .textStart] bs)

/-- The parts of branches stay fine between anchors. -/
theorem fine_anchored (h : ∀ b ∈ bs, ∀ p ∈ b, Fine p) : ∀ b ∈ anchored bs, ∀ p ∈ b, Fine p := by
  have hend (bs : List (List Pattern)) (h : ∀ b ∈ bs, ∀ p ∈ b, Fine p) :
      ∀ b ∈ endLast bs, ∀ p ∈ b, Fine p := by
    induction bs with
    | nil => exact h
    | cons b bs ih =>
        obtain ⟨hb, hbs⟩ := List.forall_mem_cons.mp h
        cases bs with
        | nil => simpa [endLast, or_imp, forall_and] using ⟨hb, Fine.anchor _⟩
        | cons c bs => exact List.forall_mem_cons.mpr ⟨hb, ih hbs⟩
  refine hend _ ?_
  cases bs with
  | nil => exact h
  | cons b bs =>
      obtain ⟨hb, hbs⟩ := List.forall_mem_cons.mp h
      exact List.forall_mem_cons.mpr ⟨List.forall_mem_cons.mpr ⟨.anchor _, hb⟩, hbs⟩

/-- The source of a whole text. -/
def sourceOf (text : String) : Source := ⟨text.toList, 0, flags, [], [], none, []⟩

theorem sound_sourceOf {text : String} (hquestion : '?' ∉ text.toList)
    (hescape : text.toList ≠ ['\\']) : (sourceOf text).Sound := by
  refine ⟨hescape, hquestion, fun g => ?_⟩
  have hzero : ((0, 0) : Nat × Nat).1 < unbounded := by decide
  cases g <;> exact hzero

/-- Branches that go up to the end of a text are, between anchors, the same between anchors. -/
theorem readBranches_anchored {text : String} (hs : (sourceOf text).Sound)
    (h : readBranches (4 * text.length + 8) flags true true (sourceOf text) = .ok (bs, t))
    (hend : t.rest = []) :
    readBranches (4 * ("^" ++ text ++ "$").length + 8) flags true true
        (sourceOf ("^" ++ text ++ "$")) = .ok (anchored bs, t.ended.drop 1) ∧
      (sourceOf text).LeadsTo t ∧ bs ≠ [] ∧ ∀ b ∈ bs, ∀ p ∈ b, Fine p := by
  have htext : ("^" ++ text ++ "$").toList = '^' :: (text.toList ++ ['$']) := by simp
  have hlen : ("^" ++ text ++ "$").length = text.length + 2 := by
    rw [← String.length_toList, htext, ← String.length_toList]
    simp
  have hcaret : (sourceOf ("^" ++ text ++ "$")).drop 1 = (sourceOf text).ended := by
    simp only [sourceOf, Source.drop, Source.ended, htext, List.drop_succ_cons, List.drop_zero]
  have hsize : (sourceOf text).rest.length = text.length := String.length_toList
  have ih := readAlike (4 * text.length + 7)
  have hsequence (items : List Pattern) (u : Source) (hitems : readSequence (4 * text.length + 7)
      flags true [] (sourceOf text) = .ok (items, u)) :
      readSequence (4 * text.length + 15) flags true [] (sourceOf ("^" ++ text ++ "$")) =
        .ok (closed ([.anchor .textStart] ++ items) u) := by
    have hbehind := (ih.sequence (4 * text.length + 14) true [.ofPart (.anchor .textStart)] hs
      (by omega) (by omega) (by simp) _ _ hitems).1
    rw [← hcaret] at hbehind
    exact (readSequence_lone (c := '^') rfl htext (by decide) (append_dollar_ne _)).trans hbehind
  have hread := @ReadAlike.branches_of_sequence (sourceOf text) t _ (4 * text.length + 15) bs ih
    true true true (sourceOf ("^" ++ text ++ "$")) [.anchor .textStart] hs (fun _ => rfl) (by omega)
    (by omega) hsequence h
  rw [if_pos hend] at hread
  rw [hlen]
  exact hread

/-- A text without question marks that compiles does so between anchors too. -/
theorem compile_anchored {text : String} (hquestion : '?' ∉ text.toList) {r : Regex}
    (hr : compile text true = .ok r) :
    ∃ bs groups, branchesOf text = .ok bs ∧ bs ≠ [] ∧ (∀ b ∈ bs, ∀ p ∈ b, Fine p) ∧
      (∀ g, (groups g).1 < unbounded) ∧
      r = ⟨seqOf (branches .unicode bs), ((seqOf (branches .unicode bs)).width groups).1⟩ ∧
      compile ("^" ++ text ++ "$") true = .ok ⟨seqOf (branches .unicode (anchored bs)),
        ((seqOf (branches .unicode (anchored bs))).width groups).1⟩ := by
  obtain ⟨s, hstart, h⟩ := bind_eq_ok.mp hr
  obtain ⟨hescape, rfl⟩ := Source.ofText_eq_ok.mp hstart
  obtain ⟨⟨bs, t⟩, hbs, h⟩ := bind_eq_ok.mp h
  have hs := sound_sourceOf hquestion hescape
  dsimp only at h
  split at h
  · cases h
  split at h
  · cases h
  rename_i hend
  split at h
  · cases h
  have hend : t.rest = [] := by simpa using hend
  obtain ⟨hanchored, hto, hne, hfine⟩ := readBranches_anchored hs hbs hend
  refine ⟨bs, t.groupWidth, ?_, hne, hfine, hto.sound.widths, ?_, ?_⟩
  · exact bind_eq_ok.mpr ⟨_, hstart, bind_eq_ok.mpr ⟨_, hbs, rfl⟩⟩
  · have hdefect : (seqOf (branches (sourceOf text).flags.fold bs)).defect?
        (sourceOf text).flags.template t.groupWidth = none :=
      (Fine.seqOf (fine_branches _ hfine)).defect _
    rw [Source.finish, hto.flags, hdefect] at h
    cases h
    rfl
  · have hrest : (t.ended.drop 1).rest = [] := by simp [Source.drop, Source.ended, hend]
    exact ofText_of_branches (t := t.ended.drop 1) (Source.ofText_eq_ok.mpr ⟨by simp, rfl⟩)
      hanchored rfl rfl hto.flags hto.conditions hrest
      ((Fine.seqOf (fine_branches _ (fine_anchored hfine))).defect _)

end Shellbox.Pattern
