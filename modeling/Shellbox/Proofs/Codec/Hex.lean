import Mathlib.Algebra.Group.Nat.Defs
import Mathlib.Data.List.Basic
import Mathlib.Data.List.Forall2
import Shellbox.Codec.Hex
import Shellbox.Proofs.Text.Lines
import Shellbox.Text.Blank

/-!
# Dumps and what is read of them

Each byte is written as two digits. A dump has a line for every sixteen bytes, with their offset,
their digits and the characters that print; reading the digits, in either case and with gaps between
them, gives the bytes again.
-/

namespace Shellbox.Codec.Hex

open Text

variable {bs row : List UInt8} {ds : List Nat} {cs cs' : List Char} {c : Char} {d k n w : Nat}
  {line : String}

/-! ## Digits -/

/-- The values of the two digits of each byte. -/
def halves (bs : List UInt8) : List Nat := bs.flatMap fun b => [b.toNat / 16, b.toNat % 16]

@[simp] theorem halves_nil : halves [] = [] := rfl

@[simp] theorem halves_cons (b : UInt8) (bs : List UInt8) :
    halves (b :: bs) = b.toNat / 16 :: b.toNat % 16 :: halves bs := rfl

theorem halves_append (bs row : List UInt8) : halves (bs ++ row) = halves bs ++ halves row :=
  List.flatMap_append

theorem halves_lt (h : d ∈ halves bs) : d < 16 := by
  obtain ⟨b, -, hd⟩ := List.mem_flatMap.mp h
  have hb := b.toNat_lt
  rcases List.mem_pair.mp hd with rfl | rfl
  · omega
  · omega

/-- A digit with its value, in lower or in upper case. -/
def IsDigitOf (d : Nat) (c : Char) : Prop :=
  d < 16 ∧ (c = Nat.digitChar d ∨ c = (Nat.digitChar d).toUpper)

instance (d : Nat) (c : Char) : Decidable (IsDigitOf d c) := inferInstanceAs (Decidable (_ ∧ _))

theorem IsDigitOf.digitValue?_eq (h : IsDigitOf d c) : digitValue? c = some d := by
  obtain ⟨hd, rfl | rfl⟩ := h
  · revert d
    decide
  · revert d
    decide

theorem IsDigitOf.plain (h : IsDigitOf d c) : c.toNat < 128 ∧ isBlank c = false ∧ c ≠ ':' := by
  obtain ⟨hd, rfl | rfl⟩ := h
  · revert d
    decide
  · revert d
    decide

/-- The last `w` hexadecimal digits of a number, in lower case. -/
def lastDigits (w n : Nat) : List Char :=
  (List.range w).map fun i => Nat.digitChar (n / 16 ^ (w - 1 - i) % 16)

theorem lastDigits_succ (w n : Nat) :
    lastDigits (w + 1) n = lastDigits w (n / 16) ++ [Nat.digitChar (n % 16)] := by
  rw [lastDigits, List.range_succ, List.map_append, lastDigits]
  congr 1
  · refine List.map_congr_left fun i hi => ?_
    have hi := List.mem_range.mp hi
    have hw : w + 1 - 1 - i = w - 1 - i + 1 := by omega
    rw [hw, Nat.pow_succ', Nat.div_div_eq_div_mul]
  · simp

/-- A number that has no more digits than the width is written in just that many. -/
theorem hexDigits_eq (h : n < 16 ^ (w + 1)) : hexDigits (w + 1) n = lastDigits (w + 1) n := by
  induction w generalizing n with
  | zero =>
      have hn : n < 16 := by simpa using h
      simp [hexDigits, Nat.toDigits_of_lt_base hn, lastDigits, Nat.mod_eq_of_lt hn]
  | succ w ih =>
      have hrest : n / 16 < 16 ^ (w + 1) :=
        Nat.div_lt_of_lt_mul (by rw [Nat.mul_comm, ← Nat.pow_succ]; exact h)
      rw [lastDigits_succ, ← ih hrest]
      by_cases hn : n < 16
      · have hzero : n / 16 = 0 := Nat.div_eq_of_lt hn
        simp [hexDigits, hzero, Nat.toDigits_of_lt_base hn, Nat.mod_eq_of_lt hn,
          List.replicate_succ']
      · rw [hexDigits, hexDigits, Nat.toDigits_of_base_le (by decide) (Nat.le_of_not_lt hn)]
        simp

theorem isDigitOf_digitChar (h : d < 16) : IsDigitOf d (Nat.digitChar d) := ⟨h, .inl rfl⟩

theorem exists_isDigitOf_of_mem_toDigits (h : c ∈ Nat.toDigits 16 n) : ∃ d, IsDigitOf d c := by
  induction n using Nat.strongRecOn with
  | ind n ih =>
      rw [Nat.toDigits_eq_if (by decide)] at h
      split at h
      · rename_i hn
        obtain rfl := List.mem_singleton.mp h
        exact ⟨n, isDigitOf_digitChar hn⟩
      · rename_i hn
        rcases List.mem_append.mp h with h | h
        · exact ih (n / 16) (by omega) h
        · obtain rfl := List.mem_singleton.mp h
          exact ⟨n % 16, isDigitOf_digitChar (Nat.mod_lt n (by decide))⟩

theorem exists_isDigitOf_of_mem_hexDigits (h : c ∈ hexDigits w n) : ∃ d, IsDigitOf d c := by
  rcases List.mem_append.mp h with h | h
  · obtain rfl := List.eq_of_mem_replicate h
    exact ⟨0, isDigitOf_digitChar (by decide)⟩
  · exact exists_isDigitOf_of_mem_toDigits h

theorem hexDigits_byte (b : UInt8) :
    hexDigits 2 b.toNat = [Nat.digitChar (b.toNat / 16), Nat.digitChar (b.toNat % 16)] := by
  have hb : b.toNat < 16 ^ (1 + 1) := b.toNat_lt
  rw [hexDigits_eq hb]
  have hhigh : b.toNat / 16 % 16 = b.toNat / 16 := Nat.mod_eq_of_lt (by omega)
  simp [lastDigits, List.range_succ, hhigh]

/-! ## Texts that spell bytes -/

def isGap (c : Char) : Bool := isBlank c || c = ':'

/-- The characters are the digits of these values, with gaps anywhere. -/
inductive Spells : List Nat → List Char → Prop
  | nil : Spells [] []
  | gap {ds : List Nat} {cs : List Char} {c : Char} (hc : isGap c) (h : Spells ds cs) :
      Spells ds (c :: cs)
  | digit {ds : List Nat} {cs : List Char} {d : Nat} {c : Char} (hc : IsDigitOf d c)
      (h : Spells ds cs) : Spells (d :: ds) (c :: cs)

theorem IsDigitOf.not_isGap (h : IsDigitOf d c) : isGap c = false := by
  obtain ⟨-, hblank, hcolon⟩ := h.plain
  simp [isGap, hblank, hcolon]

theorem Spells.append {es : List Nat} (h : Spells ds cs) (h' : Spells es cs') :
    Spells (ds ++ es) (cs ++ cs') := by
  induction h with
  | nil => exact h'
  | gap hc _ ih => exact .gap hc ih
  | digit hc _ ih => exact .digit hc ih

/-- Without the gaps there are just the digits. -/
theorem Spells.filter (h : Spells ds cs) : List.Forall₂ IsDigitOf ds (cs.filter (!isGap ·)) := by
  induction h with
  | nil => exact .nil
  | gap hc _ ih => simpa [hc] using ih
  | digit hc _ ih => simpa [hc.not_isGap] using And.intro hc ih

theorem Spells.of_filter {g : Char → Bool} (hg : ∀ c, g c → isGap c)
    (h : List.Forall₂ IsDigitOf ds (cs.filter (!g ·))) : Spells ds cs := by
  induction cs generalizing ds with
  | nil =>
      cases h
      exact .nil
  | cons c cs ih =>
      by_cases hc : g c
      · rw [List.filter_cons_of_neg (by simp [hc])] at h
        exact .gap (hg c hc) (ih h)
      · rw [List.filter_cons_of_pos (by simp [hc])] at h
        cases h with
        | cons hd hrest => exact .digit hd (ih hrest)

theorem spells_iff : Spells ds cs ↔ List.Forall₂ IsDigitOf ds (cs.filter (!isGap ·)) :=
  ⟨Spells.filter, Spells.of_filter fun _ hc => hc⟩

instance (ds : List Nat) (cs : List Char) : Decidable (Spells ds cs) :=
  decidable_of_iff _ spells_iff.symm

theorem exists_isDigitOf (h : List.Forall₂ IsDigitOf ds cs) : ∀ c ∈ cs, ∃ d, IsDigitOf d c := by
  induction h with
  | nil => simp
  | cons hc _ ih => exact List.forall_mem_cons.mpr ⟨⟨_, hc⟩, ih⟩

theorem badPlace?_eq_none (h : List.Forall₂ IsDigitOf ds cs) (heven : ds.length % 2 = 0) :
    badPlace? cs = none := by
  have hall : ∀ c ∈ cs, c.toNat < 128 ∧ isDigit c := by
    intro c hc
    obtain ⟨d, hd⟩ := exists_isDigitOf h c hc
    exact ⟨hd.plain.1, by rw [isDigit, hd.digitValue?_eq]; rfl⟩
  have hascii : cs.any (128 ≤ ·.toNat) = false := by
    simpa using fun c hc => (hall c hc).1
  have hdigits : cs.any (!isDigit ·) = false := by
    simpa using fun c hc => (hall c hc).2
  have hlength : ¬ cs.length % 2 = 1 := by
    rw [← h.length_eq]
    omega
  rw [badPlace?, hascii, hdigits, if_neg (by decide), if_neg (by decide), if_neg hlength]

theorem byteOf_pair {b : UInt8} {high low : Char} (hhigh : IsDigitOf (b.toNat / 16) high)
    (hlow : IsDigitOf (b.toNat % 16) low) : byteOf [high, low] = b := by
  have hvalue : (0 * 16 + b.toNat / 16) * 16 + b.toNat % 16 = b.toNat := by omega
  simp only [byteOf, List.foldl_cons, List.foldl_nil, hhigh.digitValue?_eq, hlow.digitValue?_eq,
    Option.getD_some, hvalue, UInt8.ofNat_toNat]

theorem byteOf_chunks (h : List.Forall₂ IsDigitOf (halves bs) cs) :
    (chunks 2 cs).map byteOf = bs := by
  induction bs generalizing cs with
  | nil =>
      cases h
      rfl
  | cons b bs ih =>
      rcases h with - | ⟨hhigh, - | ⟨hlow, hrest⟩⟩
      rw [chunks_of_ne_nil (by decide) (by simp), List.map_cons]
      exact congrArg₂ List.cons (byteOf_pair hhigh hlow) (ih hrest)

theorem length_halves (bs : List UInt8) : (halves bs).length = 2 * bs.length := by
  induction bs with
  | nil => rfl
  | cons b bs ih =>
      rw [halves_cons, List.length_cons, List.length_cons, ih, List.length_cons]
      omega

theorem parse_spelled (h : Spells (halves bs) cs) : parse (cs.filter (!isGap ·)) = .ok bs := by
  have heven : (halves bs).length % 2 = 0 := by
    rw [length_halves]
    omega
  rw [parse, badPlace?_eq_none h.filter heven, byteOf_chunks h.filter]

/-! ## Lines of a dump -/

/-- The first places for bytes in a line, each second one with its blank. -/
def places (n : Nat) (row : List UInt8) : List Char :=
  (List.range n).flatMap fun i => cell row[i]? ++ if i % 2 = 1 then [' '] else []

theorem places_succ (n : Nat) (row : List UInt8) :
    places (n + 1) row = places n row ++ (cell row[n]? ++ if n % 2 = 1 then [' '] else []) := by
  simp [places, List.range_succ]

theorem pairs_eq_places (row : List UInt8) : pairs row = places rowLength row := rfl

theorem length_places (n : Nat) (row : List UInt8) : (places n row).length = 2 * n + n / 2 := by
  induction n with
  | zero => rfl
  | succ n ih =>
      have hcell : (cell row[n]?).length = 2 := by
        cases row[n]? with
        | none => rfl
        | some b =>
            rw [cell, hexDigits_byte]
            rfl
      have hblank : (if n % 2 = 1 then [' '] else []).length = n % 2 := by
        split
        · rename_i h
          exact h.symm
        · rename_i h
          exact (Nat.mod_two_ne_one.mp h).symm
      rw [places_succ, List.length_append, List.length_append, ih, hcell, hblank]
      omega

/-- Without the blanks there are just the digits. -/
theorem filter_places (n : Nat) (row : List UInt8) :
    (places n row).filter (· ≠ ' ') = (halves (row.take n)).map Nat.digitChar := by
  induction n with
  | zero => rfl
  | succ n ih =>
      have hblank : (if n % 2 = 1 then [' '] else []).filter (· ≠ ' ') = [] := by
        split <;> rfl
      have hcell : (cell row[n]?).filter (· ≠ ' ') = (halves row[n]?.toList).map Nat.digitChar := by
        cases row[n]? with
        | none => rfl
        | some b =>
            have hplain {d : Nat} (hd : d < 16) : Nat.digitChar d ≠ ' ' := by
              revert d
              decide
            have hb := b.toNat_lt
            have hhigh : Nat.digitChar (b.toNat / 16) ≠ ' ' := hplain (by omega)
            have hlow : Nat.digitChar (b.toNat % 16) ≠ ' ' := hplain (by omega)
            rw [cell, hexDigits_byte]
            simp [hhigh, hlow]
      rw [places_succ, List.filter_append, List.filter_append, ih, hblank, hcell, List.append_nil,
        List.take_add_one, halves_append, List.map_append]

/-- The digits in a line, with their blanks. -/
def columnOf (line : String) : List Char :=
  ((line.toList.dropWhile (· ≠ ':')).drop 2).take 40

theorem toList_dumpRow (k : Nat) (row : List UInt8) :
    (dumpRow k row).toList = hexDigits 8 (16 * k) ++
      ([':', ' '] ++ (pairs row ++ ([' '] ++ row.map gutterChar))) := by
  simp [dumpRow, hex, rowLength, List.append_assoc]

theorem columnOf_dumpRow (k : Nat) (row : List UInt8) : columnOf (dumpRow k row) = pairs row := by
  have hoffset : ∀ c ∈ hexDigits 8 (16 * k), decide (c ≠ ':') = true := by
    intro c hc
    obtain ⟨d, hd⟩ := exists_isDigitOf_of_mem_hexDigits hc
    exact decide_eq_true hd.plain.2.2
  have hlength : (pairs row).length = 40 := length_places rowLength row
  rw [columnOf, toList_dumpRow, List.dropWhile_append_of_pos hoffset]
  exact List.take_left' hlength

theorem gutterChar_ne (b : UInt8) : gutterChar b ≠ '\n' := by
  unfold gutterChar
  split
  · rename_i h
    have hprints : ∀ n < 127, 32 ≤ n → Char.ofNat n ≠ '\n' := by decide
    simp only [Bool.and_eq_true, decide_eq_true_eq] at h
    exact hprints _ (Nat.lt_succ_of_le h.2) h.1
  · decide

theorem pairs_ne (row : List UInt8) : '\n' ∉ pairs row := by
  intro hc
  have hdigits : '\n' ∈ (places rowLength row).filter (· ≠ ' ') :=
    List.mem_filter.mpr ⟨hc, by decide⟩
  rw [filter_places] at hdigits
  obtain ⟨d, hd, hbreak⟩ := List.mem_map.mp hdigits
  have hplain := (isDigitOf_digitChar (halves_lt hd)).plain
  rw [hbreak] at hplain
  cases hplain.2.1

theorem dumpRow_ne (k : Nat) (row : List UInt8) : '\n' ∉ (dumpRow k row).toList := by
  have hoffset : '\n' ∉ hexDigits 8 (16 * k) := by
    intro hc
    obtain ⟨d, hd⟩ := exists_isDigitOf_of_mem_hexDigits hc
    cases hd.plain.2.1
  have hgutter : '\n' ∉ row.map gutterChar := by
    intro hc
    obtain ⟨b, -, hb⟩ := List.mem_map.mp hc
    exact gutterChar_ne b hb
  simp [toList_dumpRow, hoffset, pairs_ne, hgutter]

theorem lines_dump (bs : List UInt8) : lines (dump bs) = dumpRows bs := by
  have hrows : ∀ l ∈ dumpRows bs, ∃ k row, l = dumpRow k row := by
    intro l hl
    obtain ⟨x, -, rfl⟩ := List.mem_map.mp hl
    exact ⟨x.2, x.1, rfl⟩
  have hlast : (dumpRows bs).getLast? ≠ some "" := by
    intro hempty
    obtain ⟨k, row, hrow⟩ := hrows _ (List.mem_of_getLast? hempty)
    have hlist := congrArg String.toList hrow
    rw [toList_dumpRow] at hlist
    simp at hlist
  have hbreaks : ∀ l ∈ dumpRows bs, '\n' ∉ l.toList := by
    intro l hl
    obtain ⟨k, row, rfl⟩ := hrows l hl
    exact dumpRow_ne k row
  rw [dump, lines_joinLines hbreaks, dropLastEmpty, if_neg hlast]

theorem length_dumpRows (bs : List UInt8) : (dumpRows bs).length = (bs.length + 15) / 16 := by
  rw [dumpRows, List.length_map, List.length_zipIdx, length_chunks (by decide), rowLength]

theorem getElem?_dumpRows (h : (dumpRows bs)[k]? = some line) :
    line = dumpRow k ((bs.drop (16 * k)).take 16) ∧ 16 * k < bs.length := by
  rw [dumpRows, List.getElem?_map, List.getElem?_zipIdx, getElem?_chunks (by decide), rowLength] at h
  split at h
  · rename_i hk
    rw [Option.map_some, Option.map_some, Option.some_inj, Nat.zero_add] at h
    exact ⟨h.symm, hk⟩
  · cases h

/-! ## What the lines tell -/

theorem pairs_spell (hrow : row.length ≤ rowLength) : Spells (halves row) (pairs row) := by
  have hblank : ∀ c : Char, decide (c = ' ') → isGap c := by
    intro c hc
    rw [of_decide_eq_true hc]
    rfl
  have hdigits := filter_places rowLength row
  simp only [ne_eq, decide_not] at hdigits
  refine Spells.of_filter hblank ?_
  rw [pairs_eq_places, hdigits, List.take_of_length_le hrow, List.forall₂_map_right_iff,
    List.forall₂_same]
  exact fun d hd => isDigitOf_digitChar (halves_lt hd)

theorem columns_eq (bs : List UInt8) :
    (lines (dump bs)).flatMap columnOf = (chunks rowLength bs).flatMap pairs := by
  have hpairs : (chunks rowLength bs).zipIdx.flatMap (fun x => columnOf (dumpRow x.2 x.1)) =
      ((chunks rowLength bs).zipIdx.map (·.1)).flatMap pairs := by
    simp only [columnOf_dumpRow, List.flatMap_map]
  rw [lines_dump, dumpRows, List.flatMap_map, hpairs, List.zipIdx_map_fst]

/-- The digits in the lines of a dump spell its bytes. -/
theorem columns_spell (bs : List UInt8) :
    Spells (halves bs) ((lines (dump bs)).flatMap columnOf) := by
  rw [columns_eq]
  induction bs using chunks_induction (n := rowLength) (by decide) with
  | nil => exact .nil
  | step bs hne ih =>
      have hrow := pairs_spell (List.length_take_le rowLength bs)
      rw [chunks_of_ne_nil (by decide) hne, List.flatMap_cons]
      have hall := hrow.append ih
      rwa [← halves_append, List.take_append_drop] at hall

/-- The line of a dump with this number, for a row of bytes: the offset in eight digits, the digits of
the bytes, and for each byte the character if it prints, else a dot. -/
structure IsLine (k : Nat) (row : List UInt8) (line : String) : Prop where
  offset_lt : 16 * k < 16 ^ 8
  toList_eq : line.toList = lastDigits 8 (16 * k) ++ [':', ' '] ++ columnOf line ++ [' '] ++
    row.map fun b => if 32 ≤ b.toNat ∧ b.toNat ≤ 126 then Char.ofNat b.toNat else '.'
  length_column : (columnOf line).length = 40
  column_digits : (columnOf line).filter (· ≠ ' ') = (halves row).map Nat.digitChar

theorem dumpRow_isLine (hk : 16 * k < 16 ^ 8) (hrow : row.length ≤ rowLength) :
    IsLine k row (dumpRow k row) := by
  have hgutter : (fun b : UInt8 => if 32 ≤ b.toNat ∧ b.toNat ≤ 126 then Char.ofNat b.toNat
      else '.') = gutterChar := by
    funext b
    simp [gutterChar]
  refine ⟨hk, ?_, ?_, ?_⟩
  · rw [columnOf_dumpRow, toList_dumpRow, hexDigits_eq hk, hgutter]
    simp only [List.append_assoc]
  · rw [columnOf_dumpRow]
    exact length_places rowLength row
  · rw [columnOf_dumpRow, pairs_eq_places, filter_places, List.take_of_length_le hrow]

theorem isLine_of_getElem? (hbs : bs.length < 2 ^ 32) (h : (lines (dump bs))[k]? = some line) :
    IsLine k ((bs.drop (16 * k)).take 16) line := by
  rw [lines_dump] at h
  obtain ⟨rfl, hk⟩ := getElem?_dumpRows h
  exact dumpRow_isLine (Nat.lt_trans hk hbs) (List.length_take_le 16 _)

end Shellbox.Codec.Hex
