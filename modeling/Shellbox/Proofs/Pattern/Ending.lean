import Shellbox.Proofs.Pattern.Reading
import Shellbox.Proofs.Success

/-!
# Reading with a dollar sign behind the text

What is read from a text is read alike if a dollar sign stands behind it, as long as reading does
not come to the end: no escape is left open, no set, no bounds and no number goes on into a dollar
sign. This holds for texts without question marks, in which a parenthesis begins nothing but a
group.
-/

namespace Shellbox.Pattern

variable {cx : Flags} {s t u : Source} {c : Char} {n : Nat}

namespace Source

/-- The source of the text with a dollar sign behind it, some characters of which are read. -/
def ended (s : Source) : Source := { s with rest := s.rest ++ ['$'], pos := s.pos + 1 }

/-- No backslash comes last on its own, no question mark comes, and no group is too wide. -/
structure Sound (s : Source) : Prop where
  open_escape : s.rest ≠ ['\\']
  question : '?' ∉ s.rest
  widths : ∀ g, (s.groupWidth g).1 < unbounded

/-- Reading leads from one source to another. -/
structure LeadsTo (s t : Source) : Prop where
  sound : t.Sound
  suffix : t.rest <:+ s.rest
  flags : t.flags = s.flags
  conditions : t.conditions = s.conditions

theorem Sound.refl (h : s.Sound) : s.LeadsTo s := ⟨h, List.suffix_rfl, rfl, rfl⟩

theorem LeadsTo.trans (h : s.LeadsTo t) (h' : t.LeadsTo u) : s.LeadsTo u :=
  ⟨h'.sound, h'.suffix.trans h.suffix, h'.flags.trans h.flags, h'.conditions.trans h.conditions⟩

theorem LeadsTo.length_le (h : s.LeadsTo t) : t.rest.length ≤ s.rest.length := h.suffix.length_le

/-! ## Pieces -/

theorem skip_ended (hs : s.Sound) (hn : n ≤ s.rest.length) (h : s.skip n = .ok t) :
    s.ended.skip n = .ok t.ended ∧ s.LeadsTo t ∧ t.rest.length + n = s.rest.length := by
  unfold skip at h
  dsimp only at h
  split at h
  · cases h
  · rename_i hescape
    cases h
    have hrest : (s.rest ++ ['$']).drop n = s.rest.drop n ++ ['$'] :=
      List.drop_append_of_le_length hn
    refine ⟨?_, ⟨⟨hescape, ?_, hs.widths⟩, List.drop_suffix n s.rest, rfl, rfl⟩, ?_⟩
    · rw [skip_eq]
      · simp only [drop, ended, hrest, Nat.add_right_comm]
      · rw [ended, hrest]
        exact append_dollar_ne _
    · exact fun hmem => hs.question (List.mem_of_mem_drop hmem)
    · simp only [List.length_drop]
      omega

theorem peek_ended (hs : s.Sound) (hne : s.rest ≠ []) : s.ended.peek = s.peek := by
  obtain ⟨c, r, hrest⟩ := List.exists_cons_of_ne_nil hne
  have hended : s.ended.rest = c :: (r ++ ['$']) := by rw [ended, hrest, List.cons_append]
  by_cases hc : c = '\\'
  · subst hc
    cases r with
    | nil => exact absurd hrest hs.open_escape
    | cons d r => rw [peek_escaped hrest, peek_escaped hended]
  · rw [peek_plain hrest hc, peek_plain hended hc]

theorem peek_eq_none_iff : s.peek = none ↔ s.rest = [] := by
  unfold peek
  split <;> simp [*]

theorem peek_ended_nil (h : s.rest = []) : s.ended.peek = some (.plain '$') :=
  peek_plain (by rw [ended, h, List.nil_append]) (by decide)

/-- A piece is made of the characters that come next. -/
theorem length_le_of_peek {p : Piece} (h : s.peek = some p) :
    0 < p.length ∧ p.length ≤ s.rest.length := by
  unfold peek at h
  split at h
  · cases h
  · cases h
    simp [Piece.length, Piece.chars, *]
  · cases h
    simp [Piece.length, Piece.chars, *]

theorem isNext_ended (hs : s.Sound) (hc : c ≠ '$') : s.ended.isNext c = s.isNext c := by
  by_cases hne : s.rest = []
  · have hpeek := peek_eq_none_iff.mpr hne
    simp [isNext, peek_ended_nil hne, hpeek, Ne.symm hc]
  · rw [isNext, isNext, peek_ended hs hne]

theorem takeWhile_append_of_fails {test : Char → Bool} {cs ds : List Char}
    (h : ds.takeWhile test = []) : (cs ++ ds).takeWhile test = cs.takeWhile test := by
  induction cs with
  | nil => exact h
  | cons c cs ih =>
      rw [List.cons_append, List.takeWhile_cons, List.takeWhile_cons, ih]

end Source

/-! ## Readers -/

/-- What is read from a source comes out alike when a dollar sign stands behind the text. -/
def Ends {α : Type} (s : Source) (r r' : Except Fault (α × Source)) : Prop :=
  ∀ a t, r = .ok (a, t) → r' = .ok (a, t.ended) ∧ s.LeadsTo t

namespace Ends

variable {α β : Type} {r r' : Except Fault (α × Source)}

theorem ok (h : s.LeadsTo t) (a : α) : Ends s (.ok (a, t)) (.ok (a, t.ended)) := by
  intro b u heq
  cases heq
  exact ⟨rfl, h⟩

theorem error (s : Source) (f : Fault) (r' : Except Fault (α × Source)) : Ends s (.error f) r' :=
  nofun

theorem from_ (h : s.LeadsTo t) (hr : Ends t r r') : Ends s r r' := by
  intro a u hu
  obtain ⟨hu', htu⟩ := hr a u hu
  exact ⟨hu', h.trans htu⟩

theorem bind {f f' : α × Source → Except Fault (β × Source)} (hr : Ends s r r')
    (hf : ∀ a t, s.LeadsTo t → Ends s (f (a, t)) (f' (a, t.ended))) :
    Ends s (r >>= f) (r' >>= f') := by
  intro b u hu
  obtain ⟨⟨a, t⟩, ht, hu⟩ := bind_eq_ok.mp hu
  obtain ⟨ht', hst⟩ := hr a t ht
  obtain ⟨hu', hsu⟩ := hf a t hst b u hu
  exact ⟨bind_eq_ok.mpr ⟨_, ht', hu'⟩, hsu⟩

/-- What goes before may be anything that succeeds alike. -/
theorem bind_value {x x' : Except Fault β} {f f' : β → Except Fault (α × Source)}
    (hx : ∀ b, x = .ok b → x' = .ok b) (hf : ∀ b, Ends s (f b) (f' b)) :
    Ends s (x >>= f) (x' >>= f') := by
  intro a u hu
  obtain ⟨b, hb, hu⟩ := bind_eq_ok.mp hu
  obtain ⟨hu', hsu⟩ := hf b a u hu
  exact ⟨bind_eq_ok.mpr ⟨b, hx b hb, hu'⟩, hsu⟩

theorem ite {p : Prop} [Decidable p] {q q' : Except Fault (α × Source)} (ht : p → Ends s r r')
    (he : ¬ p → Ends s q q') : Ends s (if p then r else q) (if p then r' else q') := by
  by_cases hp : p
  · rw [if_pos hp, if_pos hp]
    exact ht hp
  · rw [if_neg hp, if_neg hp]
    exact he hp

end Ends

theorem Source.takeIf_ends (hs : s.Sound) (hc : c ≠ '$') :
    Ends s (s.takeIf c) (s.ended.takeIf c) := by
  intro b t h
  unfold takeIf at h
  rw [takeIf, isNext_ended hs hc]
  by_cases hnext : s.isNext c
  · rw [if_pos hnext] at h ⊢
    obtain ⟨u, hskip, heq⟩ := bind_eq_ok.mp h
    cases heq
    obtain ⟨-, hle⟩ := length_le_of_peek (of_decide_eq_true hnext)
    obtain ⟨hended, hto, -⟩ := skip_ended hs hle hskip
    exact ⟨bind_eq_ok.mpr ⟨_, hended, rfl⟩, hto⟩
  · rw [if_neg hnext] at h ⊢
    cases h
    exact ⟨rfl, hs.refl⟩

/-- Characters that pass a test which a dollar sign fails are read alike, up to a number of them or
up to the end. -/
theorem Source.takeWhile_ends (hs : s.Sound) {test : Char → Bool} (htest : test '$' = false)
    {limit limit' : Nat}
    (hlimit : limit' = limit ∨ s.rest.length ≤ limit ∧ s.rest.length ≤ limit') :
    Ends s (s.takeWhile test limit) (s.ended.takeWhile test limit') := by
  intro cs t h
  have hdollar (n : Nat) : (['$'].take n).takeWhile test = [] := by
    cases n with
    | zero => rfl
    | succ n => simp [htest]
  have hsame : ((s.rest ++ ['$']).take limit').takeWhile test =
      (s.rest.take limit).takeWhile test := by
    rw [List.take_append, takeWhile_append_of_fails (hdollar _)]
    rcases hlimit with rfl | ⟨hle, hle'⟩
    · rfl
    · rw [List.take_of_length_le hle, List.take_of_length_le hle']
  unfold takeWhile at h
  unfold takeWhile
  rw [ended, hsame, ← ended]
  dsimp only at h ⊢
  by_cases hempty : ((s.rest.take limit).takeWhile test).isEmpty
  · rw [if_pos hempty] at h ⊢
    cases h
    exact ⟨rfl, hs.refl⟩
  · rw [if_neg hempty] at h ⊢
    obtain ⟨u, hskip, heq⟩ := bind_eq_ok.mp h
    cases heq
    have hle : ((s.rest.take limit).takeWhile test).length ≤ s.rest.length :=
      Nat.le_trans (List.takeWhile_prefix _).length_le (List.length_take_le' _ _)
    obtain ⟨hended, hto, -⟩ := skip_ended hs hle hskip
    exact ⟨bind_eq_ok.mpr ⟨_, hended, rfl⟩, hto⟩

/-- A piece is read alike where there is one, and what needs one fails where there is none. -/
theorem Source.take_ends {α : Type} (hs : s.Sound)
    {f f' : Option Piece × Source → Except Fault (α × Source)}
    (hnone : ∀ t, ∃ e, f (none, t) = .error e)
    (hsome : ∀ p t, s.LeadsTo t → Ends s (f (some p, t)) (f' (some p, t.ended))) :
    Ends s (s.take >>= f) (s.ended.take >>= f') := by
  intro a u hu
  obtain ⟨⟨p, t⟩, ht, hu⟩ := bind_eq_ok.mp hu
  cases p with
  | none =>
      obtain ⟨e, he⟩ := hnone t
      rw [he] at hu
      cases hu
  | some p =>
      unfold take at ht
      split at ht
      · cases ht
      · rename_i q hpeek
        obtain ⟨v, hskip, heq⟩ := bind_eq_ok.mp ht
        cases heq
        obtain ⟨-, hle⟩ := length_le_of_peek hpeek
        obtain ⟨hended, hto, -⟩ := skip_ended hs hle hskip
        have hne : s.rest ≠ [] := fun hnil => by simp [peek_eq_none_iff.mpr hnil] at hpeek
        obtain ⟨hu', hsu⟩ := hsome p t hto a u hu
        refine ⟨bind_eq_ok.mpr ⟨(some p, t.ended), ?_, hu'⟩, hsu⟩
        rw [take, peek_ended hs hne, hpeek]
        exact bind_eq_ok.mpr ⟨_, hended, rfl⟩

/-! ## Escapes -/

theorem readHexCode_ends (hs : s.Sound) (c : Char) (count : Nat) :
    Ends s (readHexCode s c count) (readHexCode s.ended c count) := by
  refine (Source.takeWhile_ends hs (by decide) (.inl rfl)).bind fun ds t ht => ?_
  refine .ite (fun _ => .error _ _ _) fun _ => .ite (fun _ => .error _ _ _) fun _ => ?_
  exact .ite (fun _ => .error _ _ _) fun _ => .ok ht _

theorem readNamedCode_ends (s : Source) (r : Except Fault (Nat × Source)) :
    Ends s (readNamedCode s) r := by
  intro m t h
  obtain ⟨⟨opened, u⟩, -, h⟩ := bind_eq_ok.mp h
  dsimp only at h
  split at h
  · cases h
  · obtain ⟨x, -, h⟩ := bind_eq_ok.mp h
    cases h

theorem readCode_ends (hs : s.Sound) (c : Char) : Ends s (readCode s c) (readCode s.ended c) := by
  unfold readCode
  split
  · exact readHexCode_ends hs _ _
  · exact readHexCode_ends hs _ _
  · exact readHexCode_ends hs _ _
  · exact readNamedCode_ends s _
  · exact .ite (fun _ => .error _ _ _) fun _ => .ok hs.refl _

theorem octalCode_ends (hs : s.Sound) (c : Char) (more : List Char) :
    Ends s (octalCode s c more) (octalCode s.ended c more) :=
  .ite (fun _ => .error _ _ _) fun _ => .ok hs.refl _

theorem readSetEscape_ends (hs : s.Sound) (cx : Flags) (c : Char) :
    Ends s (readSetEscape cx s c) (readSetEscape cx s.ended c) := by
  unfold readSetEscape
  cases controlCode? c with
  | some n => exact .ok hs.refl _
  | none =>
      cases namedClass? cx.ascii c with
      | some k => exact .ok hs.refl _
      | none =>
          refine .ite (fun _ => ?_) fun _ => .ite (fun _ => .error _ _ _) fun _ => ?_
          · refine (Source.takeWhile_ends hs (by decide) (.inl rfl)).bind fun ds t ht => ?_
            exact ((octalCode_ends ht.sound c ds).from_ ht).bind fun m u hu => .ok hu _
          · exact (readCode_ends hs c).bind fun m t ht => .ok ht _

theorem checkLookbehind_ended {g : Nat} {u : Unit} (h : s.checkLookbehind g = .ok u) :
    s.ended.checkLookbehind g = .ok u := by
  unfold Source.checkLookbehind at h ⊢
  rw [show s.ended.lookbehind = s.lookbehind from rfl,
    show s.ended.groupWidth? g = s.groupWidth? g from rfl]
  cases hlook : s.lookbehind with
  | none => rfl
  | some n =>
      rw [hlook] at h
      dsimp only at h ⊢
      split at h
      · cases h
      · split at h
        · cases h
        · rw [if_neg ‹_›, if_neg ‹_›]

theorem groupReference_ends (hs : s.Sound) (cx : Flags) (g back : Nat) :
    Ends s (groupReference cx s g back) (groupReference cx s.ended g back) := by
  refine .ite (fun _ => .ite (fun _ => .error _ _ _) fun _ => ?_) fun _ => .error _ _ _
  exact .bind_value (fun u hu => checkLookbehind_ended hu) fun _ => .ok hs.refl _

theorem readNumberEscape_ends (hs : s.Sound) (cx : Flags) (c : Char) :
    Ends s (readNumberEscape cx s c) (readNumberEscape cx s.ended c) := by
  refine .ite (fun _ => ?_) fun _ => ?_
  · exact (Source.takeWhile_ends hs (by decide) (.inl rfl)).bind fun ds t ht => .ok ht _
  · refine (Source.takeWhile_ends hs (by decide) (.inl rfl)).bind fun d t ht => ?_
    have hread (e : List Char) (u : Source) (hu : s.LeadsTo u) : Ends s
        (if e.isEmpty then groupReference cx u (ofDigits 10 (c :: d)) (d.length + 2)
          else octalCode u c (d ++ e) >>= fun x => .ok (codePattern cx x.1, x.2))
        (if e.isEmpty then groupReference cx u.ended (ofDigits 10 (c :: d)) (d.length + 2)
          else octalCode u.ended c (d ++ e) >>= fun x => .ok (codePattern cx x.1, x.2)) := by
      refine .ite (fun _ => ?_) fun _ => ?_
      · exact (groupReference_ends hu.sound cx _ _).from_ hu
      · exact ((octalCode_ends hu.sound c _).from_ hu).bind fun m v hv => .ok hv _
    refine .ite (fun _ => ?_) fun _ => (Ends.ok ht []).bind hread
    exact ((Source.takeWhile_ends ht.sound (by decide) (.inl rfl)).from_ ht).bind hread

theorem readEscape_ends (hs : s.Sound) (cx : Flags) (c : Char) :
    Ends s (readEscape cx s c) (readEscape cx s.ended c) := by
  unfold readEscape
  cases namedAnchor? cx.ascii c with
  | some a => exact .ok hs.refl _
  | none =>
      cases namedClass? cx.ascii c with
      | some k => exact .ok hs.refl _
      | none =>
          cases controlCode? c with
          | some n => exact .ok hs.refl _
          | none =>
              refine .ite (fun _ => readNumberEscape_ends hs cx c) fun _ => ?_
              exact (readCode_ends hs c).bind fun m t ht => .ok ht _

/-! ## Sets -/

theorem readSetItem_ends (hs : s.Sound) (cx : Flags) (p : Piece) :
    Ends s (readSetItem cx s p) (readSetItem cx s.ended p) := by
  cases p with
  | plain c => exact .ok hs.refl _
  | escaped c => exact readSetEscape_ends hs cx c

theorem readSetItems_ends (hs : s.Sound) (cx : Flags) (start start' : Nat) {fuel fuel' : Nat}
    (hfuel : fuel ≤ fuel') (items : List SetItem) :
    Ends s (readSetItems cx start fuel items s) (readSetItems cx start' fuel' items s.ended) := by
  induction fuel generalizing s items fuel' with
  | zero => exact .error _ _ _
  | succ fuel ih =>
      obtain ⟨fuel', rfl⟩ : ∃ m, fuel' = m + 1 := ⟨fuel' - 1, by omega⟩
      have hle : fuel ≤ fuel' := by omega
      rw [readSetItems, readSetItems]
      refine Source.take_ends hs (fun t => ⟨_, rfl⟩) fun p t ht => ?_
      refine .ite (fun _ => .ok ht _) fun _ => ?_
      refine ((readSetItem_ends ht.sound cx p).from_ ht).bind fun a t ht => ?_
      refine ((Source.takeIf_ends ht.sound (by decide)).from_ ht).bind fun dash t ht => ?_
      refine .ite (fun _ => (ih ht.sound hle _).from_ ht) fun _ => .from_ ht ?_
      refine Source.take_ends ht.sound (fun t => ⟨_, rfl⟩) fun q t ht => ?_
      refine .ite (fun _ => .ok ht _) fun _ => ?_
      refine ((readSetItem_ends ht.sound cx q).from_ ht).bind fun b t ht => ?_
      dsimp only
      cases rangeOf? a b with
      | none => exact .error _ _ _
      | some r => exact (ih ht.sound hle _).from_ ht

theorem readSet_ends (hs : s.Sound) (cx : Flags) : Ends s (readSet cx s) (readSet cx s.ended) := by
  refine (Source.takeIf_ends hs (by decide)).bind fun negated t ht => ?_
  have hfuel : t.rest.length + 1 ≤ t.ended.rest.length + 1 := by simp [Source.ended]
  refine ((readSetItems_ends ht.sound cx _ _ hfuel []).from_ ht).bind fun items u hu => ?_
  exact .ok hu _

/-! ## Repetitions -/

theorem readBounds_ok {here here' : Nat} {lo hi : List Char} {b : Nat × Option Nat}
    (h : readBounds here lo hi = .ok b) : readBounds here' lo hi = .ok b := by
  have hread (least : Nat)
      (h : (if hi.isEmpty then .ok (least, none)
        else do
          let most ← readBound hi
          if most < least then .error (.at .leastAboveMost here) else .ok (least, some most)) =
            Except.ok b) :
      (if hi.isEmpty then .ok (least, none)
        else do
          let most ← readBound hi
          if most < least then .error (.at .leastAboveMost here') else .ok (least, some most)) =
            Except.ok b := by
    by_cases hempty : hi.isEmpty
    · rw [if_pos hempty] at h ⊢
      exact h
    · rw [if_neg hempty] at h ⊢
      obtain ⟨most, hmost, h⟩ := bind_eq_ok.mp h
      refine bind_eq_ok.mpr ⟨most, hmost, ?_⟩
      split at h
      · cases h
      · rw [if_neg ‹_›]
        exact h
  unfold readBounds at h ⊢
  by_cases hempty : lo.isEmpty
  · rw [if_pos hempty] at h ⊢
    obtain ⟨least, hleast, h⟩ := bind_eq_ok.mp h
    exact bind_eq_ok.mpr ⟨least, hleast, hread least h⟩
  · rw [if_neg hempty] at h ⊢
    obtain ⟨least, hleast, h⟩ := bind_eq_ok.mp h
    exact bind_eq_ok.mpr ⟨least, hleast, hread least h⟩

theorem readBraces_ends (hs : s.Sound) : Ends s (readBraces s) (readBraces s.ended) := by
  have hlimit (t : Source) : t.ended.rest.length = t.rest.length ∨
      t.rest.length ≤ t.rest.length ∧ t.rest.length ≤ t.ended.rest.length := by
    simp [Source.ended]
  unfold readBraces
  rw [Source.isNext_ended hs (by decide)]
  refine .ite (fun _ => .ok hs.refl _) fun _ => ?_
  refine (Source.takeWhile_ends hs (by decide) (hlimit s)).bind fun lo t ht => ?_
  refine ((Source.takeIf_ends ht.sound (by decide)).from_ ht).bind fun comma t ht => ?_
  have hread (hi : List Char) (u : Source) (hu : s.LeadsTo u) : Ends s
      (u.takeIf '\x7d' >>= fun x => if !x.1 then .ok (none, s)
        else readBounds s.pos lo hi >>= fun b => .ok (some b, x.2))
      (u.ended.takeIf '\x7d' >>= fun x => if !x.1 then .ok (none, s.ended)
        else readBounds s.ended.pos lo hi >>= fun b => .ok (some b, x.2)) := by
    refine ((Source.takeIf_ends hu.sound (by decide)).from_ hu).bind fun closed v hv => ?_
    refine .ite (fun _ => .ok hs.refl _) fun _ => ?_
    exact .bind_value (fun b hb => readBounds_ok hb) fun b => .ok hv _
  refine .ite (fun _ => ?_) fun _ => (Ends.ok ht lo).bind hread
  exact ((Source.takeWhile_ends ht.sound (by decide) (hlimit t)).from_ ht).bind hread

theorem readRepeat_ends (hs : s.Sound) (c : Char) :
    Ends s (readRepeat s c) (readRepeat s.ended c) := by
  unfold readRepeat
  split
  · exact .ok hs.refl _
  · exact .ok hs.refl _
  · exact .ok hs.refl _
  · exact readBraces_ends hs

theorem readGreed_ends (hs : s.Sound) : Ends s (readGreed s) (readGreed s.ended) := by
  refine (Source.takeIf_ends hs (by decide)).bind fun isLazy t ht => ?_
  refine .ite (fun _ => .ok ht _) fun _ => ?_
  exact ((Source.takeIf_ends ht.sound (by decide)).from_ ht).bind fun possessive t ht => .ok ht _

end Shellbox.Pattern
