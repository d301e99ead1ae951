import Mathlib.Algebra.Group.Nat.Defs
import Mathlib.Data.List.Basic
import Shellbox.Codec.Base64

/-!
# Base64 there and back

Bytes are written as numbers below sixty-four, each as a letter of the alphabet, with equals signs
to fill up the last group. Reading what was written gives the bytes again, and a text that has the
written form is what its bytes are written as.
-/

namespace Shellbox.Codec.Base64

variable {vs : List Nat} {cs rest : List Char} {bs : List UInt8}

/-! ## Letters -/

def alphabet : List Char :=
  "ABCDEFGHIJKLMNOPQRSTUVWXYZabcdefghijklmnopqrstuvwxyz0123456789+/".toList

theorem digit_mem_alphabet {n : Nat} (h : n < 64) : digit n ∈ alphabet := by
  revert n
  decide +kernel

theorem idxOf_digit {n : Nat} (h : n < 64) : alphabet.idxOf (digit n) = n := by
  revert n
  decide +kernel

theorem digitValue?_digit {n : Nat} (h : n < 64) : digitValue? (digit n) = some n := by
  revert n
  decide +kernel

theorem digit_idxOf {c : Char} (h : c ∈ alphabet) :
    alphabet.idxOf c < 64 ∧ digit (alphabet.idxOf c) = c := by
  have hall : alphabet.all fun c => alphabet.idxOf c < 64 ∧ digit (alphabet.idxOf c) = c := by
    decide +kernel
  simpa using List.all_eq_true.mp hall c h

theorem alphabet_plain {c : Char} (h : c ∈ alphabet) : c.toNat < 128 ∧ c ≠ '=' := by
  have hall : alphabet.all fun c => c.toNat < 128 ∧ c ≠ '=' := by decide +kernel
  simpa using List.all_eq_true.mp hall c h

/-! ## Numbers -/

/-- The numbers that the letters for bytes stand for. -/
def sextets : List UInt8 → List Nat
  | [] => []
  | [a] => [a.toNat / 4, a.toNat % 4 * 16]
  | [a, b] => [a.toNat / 4, a.toNat % 4 * 16 + b.toNat / 16, b.toNat % 16 * 4]
  | a :: b :: c :: r =>
    a.toNat / 4 :: (a.toNat % 4 * 16 + b.toNat / 16) :: (b.toNat % 16 * 4 + c.toNat / 64) ::
      c.toNat % 64 :: sextets r

/-- The bytes that numbers stand for. -/
def bytes (vs : List Nat) : List UInt8 := (chunks 4 vs).flatMap decodeChunk

theorem encode_four (a b c : UInt8) (r : List UInt8) :
    encode (a :: b :: c :: r) = encodeChunk [a, b, c] ++ encode r := by
  rw [encode, chunks_of_ne_nil (by decide) (by simp)]
  simp [encode]

theorem bytes_four (a b c d : Nat) (r : List Nat) :
    bytes (a :: b :: c :: d :: r) = decodeChunk [a, b, c, d] ++ bytes r := by
  rw [bytes, chunks_of_ne_nil (by decide) (by simp)]
  simp [bytes]

/-- The equals signs behind the letters. -/
def pads (n : Nat) : List Char := List.replicate ((4 - n % 4) % 4) '='

theorem encode_eq : ∀ bs, encode bs = (sextets bs).map digit ++ pads (sextets bs).length
  | [] => rfl
  | [a] => rfl
  | [a, b] => rfl
  | a :: b :: c :: r => by
      have hpads : pads (sextets (a :: b :: c :: r)).length = pads (sextets r).length := by
        rw [sextets, pads, pads]
        simp only [List.length_cons, Nat.add_assoc, Nat.add_mod_right]
      rw [encode_four, encode_eq r, hpads]
      rfl

theorem sextets_lt : ∀ bs, ∀ v ∈ sextets bs, v < 64
  | [] => by simp [sextets]
  | [a] => by
      have := a.toNat_lt
      simp [sextets]
      omega
  | [a, b] => by
      have := a.toNat_lt
      have := b.toNat_lt
      simp [sextets]
      omega
  | a :: b :: c :: r => by
      have := a.toNat_lt
      have := b.toNat_lt
      have := c.toNat_lt
      simp only [sextets, List.forall_mem_cons]
      exact ⟨by omega, by omega, by omega, by omega, sextets_lt r⟩

theorem toNat_ofNat {n : Nat} (h : n < 256) : (UInt8.ofNat n).toNat = n :=
  UInt8.toNat_ofNat_of_lt' h

theorem ofNat_eq {n : Nat} {b : UInt8} (h : n = b.toNat) : UInt8.ofNat n = b := by
  rw [h, UInt8.ofNat_toNat]

theorem bytes_sextets : ∀ bs, bytes (sextets bs) = bs
  | [] => rfl
  | [a] => by
      have ha : UInt8.ofNat (a.toNat / 4 * 4 + a.toNat % 4 * 16 / 16) = a := ofNat_eq (by omega)
      calc
        bytes (sextets [a]) = [UInt8.ofNat (a.toNat / 4 * 4 + a.toNat % 4 * 16 / 16)] := rfl
        _ = [a] := by rw [ha]
  | [a, b] => by
      have hlt := b.toNat_lt
      have ha : UInt8.ofNat (a.toNat / 4 * 4 + (a.toNat % 4 * 16 + b.toNat / 16) / 16) = a :=
        ofNat_eq (by omega)
      have hb : UInt8.ofNat ((a.toNat % 4 * 16 + b.toNat / 16) % 16 * 16 + b.toNat % 16 * 4 / 4) =
          b := ofNat_eq (by omega)
      calc
        bytes (sextets [a, b]) =
          [UInt8.ofNat (a.toNat / 4 * 4 + (a.toNat % 4 * 16 + b.toNat / 16) / 16),
            UInt8.ofNat ((a.toNat % 4 * 16 + b.toNat / 16) % 16 * 16 + b.toNat % 16 * 4 / 4)] := rfl
        _ = [a, b] := by rw [ha, hb]
  | a :: b :: c :: r => by
      have hb := b.toNat_lt
      have hc := c.toNat_lt
      rw [sextets, bytes_four, bytes_sextets r, decodeChunk, ofNat_eq (b := a) (by omega),
        ofNat_eq (b := b) (by omega), ofNat_eq (b := c) (by omega)]
      rfl

/-- No group is a single number, and a group that is not full leaves no bits in its last one. -/
def Filled (vs : List Nat) : Prop :=
  vs.length % 4 ≠ 1 ∧ ∀ v ∈ vs.getLast?, 4 ^ ((4 - vs.length % 4) % 4) ∣ v

theorem filled_four {a b c d : Nat} : Filled (a :: b :: c :: d :: vs) ↔ Filled vs := by
  have hlength : (a :: b :: c :: d :: vs).length % 4 = vs.length % 4 := by
    simp only [List.length_cons, Nat.add_assoc, Nat.add_mod_right]
  cases vs with
  | nil => simp [Filled]
  | cons v vs => simp only [Filled, hlength, List.getLast?_cons_cons]

theorem filled_sextets : ∀ bs, Filled (sextets bs)
  | [] => by simp [Filled, sextets]
  | [_] => ⟨by simp [sextets], fun _ hv => Option.mem_some_iff.mp hv ▸ Nat.dvd_mul_left 16 _⟩
  | [_, _] => ⟨by simp [sextets], fun _ hv => Option.mem_some_iff.mp hv ▸ Nat.dvd_mul_left 4 _⟩
  | a :: b :: c :: r => filled_four.mpr (filled_sextets r)

theorem sextets_bytes : ∀ vs : List Nat, (∀ v ∈ vs, v < 64) → Filled vs → sextets (bytes vs) = vs
  | [], _, _ => rfl
  | [a], _, h => absurd rfl h.1
  | [a, b], hlt, h => by
      have hb : 16 ∣ b := h.2 b rfl
      have ha : a < 64 ∧ b < 64 := by simpa using hlt
      have hbytes : bytes [a, b] = [UInt8.ofNat (a * 4 + b / 16)] := rfl
      rw [hbytes, sextets, toNat_ofNat (by omega)]
      congr 1
      · omega
      · congr 1
        omega
  | [a, b, c], hlt, h => by
      have hc : 4 ∣ c := h.2 c rfl
      have ha : a < 64 ∧ b < 64 ∧ c < 64 := by simpa using hlt
      have hbytes : bytes [a, b, c] =
          [UInt8.ofNat (a * 4 + b / 16), UInt8.ofNat (b % 16 * 16 + c / 4)] := rfl
      rw [hbytes, sextets, toNat_ofNat (by omega), toNat_ofNat (by omega)]
      congr 1
      · omega
      · congr 1
        · omega
        · congr 1
          omega
  | a :: b :: c :: d :: r, hlt, h => by
      have ha : a < 64 ∧ b < 64 ∧ c < 64 ∧ d < 64 ∧ ∀ v ∈ r, v < 64 := by simpa using hlt
      obtain ⟨ha, hb, hc, hd, hr⟩ := ha
      rw [bytes_four, decodeChunk, List.cons_append, List.cons_append, List.cons_append,
        List.nil_append, sextets, sextets_bytes r hr (filled_four.mp h),
        toNat_ofNat (by omega), toNat_ofNat (by omega),
        toNat_ofNat (by omega)]
      congr 1
      · omega
      · congr 1
        · omega
        · congr 1
          · omega
          · congr 1
            omega

/-! ## Reading letters -/

theorem readDigits_digits (p : Progress) (hvs : ∀ v ∈ vs, v < 64) (hp : p.padded = false) :
    readDigits p (vs.map digit ++ rest) =
      readDigits
        { p with digits := vs.reverse ++ p.digits, count := p.count + vs.length } rest := by
  induction vs generalizing p with
  | nil => simp
  | cons v vs ih =>
      obtain ⟨hv, hvs⟩ := List.forall_mem_cons.mp hvs
      have hplain : digit v ≠ '=' := (alphabet_plain (digit_mem_alphabet hv)).2
      rw [List.map_cons, List.cons_append, readDigits, if_neg hplain, digitValue?_digit hv]
      simp only [hp, Bool.false_eq_true, ↓reduceIte]
      rw [ih _ hvs rfl]
      simp [Nat.add_assoc, Nat.add_comm 1]

/-- Letters are read with the equals signs that fill up their last group. -/
theorem readDigits_pads (hlength : vs.length % 4 ≠ 1) :
    readDigits ⟨vs.reverse, vs.length, 0, false⟩ (pads vs.length) = .ok vs := by
  have hcases : vs.length % 4 = 0 ∨ vs.length % 4 = 2 ∨ vs.length % 4 = 3 := by omega
  rcases hcases with h | h | h
  · simp [pads, h, readDigits]
  · simp [pads, h, readDigits, List.replicate]
  · simp [pads, h, readDigits]

theorem mem_digits {c : Char} {n : Nat} (hvs : ∀ v ∈ vs, v < 64)
    (hc : c ∈ vs.map digit ++ pads n) : c ∈ alphabet ∨ c = '=' := by
  rcases List.mem_append.mp hc with hc | hc
  · obtain ⟨v, hv, rfl⟩ := List.mem_map.mp hc
    exact .inl (digit_mem_alphabet (hvs v hv))
  · exact .inr (List.eq_of_mem_replicate hc)

theorem decode_digits (hvs : ∀ v ∈ vs, v < 64) (hlength : vs.length % 4 ≠ 1) :
    decode (vs.map digit ++ pads vs.length) = .ok (bytes vs) := by
  have hascii : (vs.map digit ++ pads vs.length).any (128 ≤ ·.toNat) = false := by
    rw [List.any_eq_false]
    intro c hc
    rcases mem_digits hvs hc with hc | rfl
    · simpa using (alphabet_plain hc).1
    · decide
  have hhead : (vs.map digit ++ pads vs.length).head? ≠ some '=' := by
    cases vs with
    | nil => simp [pads]
    | cons v vs =>
        simpa using (alphabet_plain (digit_mem_alphabet (hvs v (by simp)))).2
  rw [decode, hascii, if_neg hhead, readDigits_digits _ hvs rfl, List.append_nil, Nat.zero_add,
    readDigits_pads hlength]
  rfl

theorem decode_encode (bs : List UInt8) : decode (encode bs) = .ok bs := by
  rw [encode_eq, decode_digits (sextets_lt bs) (filled_sextets bs).1, bytes_sextets]

/-! ## The written form -/

/-- The form in which bytes are written: letters in groups of four, with at most two equals signs to
fill up the last group and no bits left in the last letter before them. -/
def IsWritten (cs : List Char) : Prop :=
  ∃ letters n, cs = letters ++ List.replicate n '=' ∧ (∀ c ∈ letters, c ∈ alphabet) ∧ n ≤ 2 ∧
    4 ∣ cs.length ∧ ∀ c ∈ letters.getLast?, 4 ^ n ∣ alphabet.idxOf c

theorem encode_isWritten (bs : List UInt8) : IsWritten (encode bs) := by
  have hlt := sextets_lt bs
  obtain ⟨hlength, hlast⟩ := filled_sextets bs
  refine ⟨(sextets bs).map digit, (4 - (sextets bs).length % 4) % 4, encode_eq bs, ?_, by omega, ?_,
    ?_⟩
  · intro c hc
    obtain ⟨v, hv, rfl⟩ := List.mem_map.mp hc
    exact digit_mem_alphabet (hlt v hv)
  · rw [encode_eq]
    simp only [List.length_append, List.length_map, pads, List.length_replicate]
    omega
  · intro c hc
    rw [List.getLast?_map] at hc
    obtain ⟨v, hv, rfl⟩ := Option.map_eq_some_iff.mp hc
    rw [idxOf_digit (hlt v (List.mem_of_getLast? hv))]
    exact hlast v hv

theorem IsWritten.exists_filled (h : IsWritten cs) :
    ∃ vs, (∀ v ∈ vs, v < 64) ∧ Filled vs ∧ cs = vs.map digit ++ pads vs.length := by
  obtain ⟨letters, n, rfl, hletters, hn, hlength, hlast⟩ := h
  rw [List.length_append, List.length_replicate] at hlength
  have hdigits : (letters.map alphabet.idxOf).map digit = letters := by
    rw [List.map_map]
    exact (List.map_congr_left fun c hc => (digit_idxOf (hletters c hc)).2).trans
      (List.map_id letters)
  have hpads : n = (4 - letters.length % 4) % 4 := by omega
  refine ⟨letters.map alphabet.idxOf, ?_, ⟨?_, ?_⟩, ?_⟩
  · intro v hv
    obtain ⟨c, hc, rfl⟩ := List.mem_map.mp hv
    exact (digit_idxOf (hletters c hc)).1
  · rw [List.length_map]
    omega
  · intro v hv
    rw [List.getLast?_map] at hv
    obtain ⟨c, hc, rfl⟩ := Option.map_eq_some_iff.mp hv
    rw [List.length_map, ← hpads]
    exact hlast c hc
  · rw [hdigits, pads, List.length_map, ← hpads]

theorem IsWritten.decode_eq (h : IsWritten cs) : ∃ bs, decode cs = .ok bs ∧ encode bs = cs := by
  obtain ⟨vs, hvs, hfilled, rfl⟩ := h.exists_filled
  refine ⟨bytes vs, decode_digits hvs hfilled.1, ?_⟩
  rw [encode_eq, sextets_bytes vs hvs hfilled]

end Shellbox.Codec.Base64
