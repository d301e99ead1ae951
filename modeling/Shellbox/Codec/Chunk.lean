/-!
# Chunks

Lists cut into pieces of one length; the last piece may be shorter. The lemmas say that a list that
is not empty begins with its first chunk, and that the other chunks are those of the rest.
-/

namespace Shellbox.Codec

/-- Cuts off pieces of length `n`, at most as many as the fuel tells. -/
def chunksFrom {α : Type} (n : Nat) (done : Array (List α)) : Nat → List α → Array (List α)
  | _, [] => done
  | 0, _ :: _ => done
  | fuel + 1, x :: r => chunksFrom n (done.push ((x :: r).take n)) fuel ((x :: r).drop n)

/-- The pieces of length `n` of a list. -/
def chunks {α : Type} (n : Nat) (xs : List α) : List (List α) :=
  (chunksFrom n #[] xs.length xs).toList

variable {α : Type} {n fuel : Nat} {xs : List α}

theorem toList_chunksFrom (n : Nat) (done : Array (List α)) (fuel : Nat) (xs : List α) :
    (chunksFrom n done fuel xs).toList = done.toList ++ (chunksFrom n #[] fuel xs).toList := by
  induction fuel generalizing done xs with
  | zero => cases xs <;> simp [chunksFrom]
  | succ fuel ih =>
      cases xs with
      | nil => simp [chunksFrom]
      | cons x r =>
          rw [chunksFrom, ih, chunksFrom, ih (#[].push _)]
          simp

/-- Fuel beyond the length changes nothing. -/
theorem chunksFrom_fuel (hn : 0 < n) (done : Array (List α)) (h : xs.length ≤ fuel) :
    chunksFrom n done fuel xs = chunksFrom n done xs.length xs := by
  induction fuel using Nat.strongRecOn generalizing done xs with
  | ind fuel ih =>
      cases xs with
      | nil => cases fuel <;> rfl
      | cons x r =>
          obtain ⟨k, rfl⟩ : ∃ k, fuel = k + 1 := ⟨fuel - 1, by simp at h; omega⟩
          have hdrop : ((x :: r).drop n).length ≤ r.length := by simp; omega
          have hr : r.length ≤ k := by simpa using h
          rw [List.length_cons, chunksFrom, chunksFrom, ih k (by omega) _ (by omega),
            ih r.length (by omega) _ hdrop]

@[simp] theorem chunks_nil (n : Nat) : chunks n ([] : List α) = [] := rfl

theorem chunks_of_ne_nil (hn : 0 < n) (h : xs ≠ []) :
    chunks n xs = xs.take n :: chunks n (xs.drop n) := by
  obtain ⟨x, r, rfl⟩ := List.exists_cons_of_ne_nil h
  have hdrop : ((x :: r).drop n).length ≤ r.length := by simp; omega
  rw [chunks, List.length_cons, chunksFrom, toList_chunksFrom, chunksFrom_fuel hn _ hdrop, chunks]
  simp

/-- What holds of the empty list, and of a list if it holds of what is behind its first chunk. -/
theorem chunks_induction {P : List α → Prop} (hn : 0 < n) (nil : P [])
    (step : ∀ xs, xs ≠ [] → P (xs.drop n) → P xs) (xs : List α) : P xs := by
  induction hlen : xs.length using Nat.strongRecOn generalizing xs with
  | ind len ih =>
      cases xs with
      | nil => exact nil
      | cons x r =>
          have hdrop : ((x :: r).drop n).length < len := by
            rw [← hlen, List.length_drop, List.length_cons]
            omega
          exact step _ (by simp) (ih _ hdrop _ rfl)

theorem length_chunks (hn : 0 < n) (xs : List α) :
    (chunks n xs).length = (xs.length + (n - 1)) / n := by
  induction xs using chunks_induction hn with
  | nil => simp [Nat.div_eq_of_lt (Nat.sub_one_lt_of_lt hn)]
  | step xs hne ih =>
      have hpos := List.length_pos_iff.mpr hne
      rw [chunks_of_ne_nil hn hne, List.length_cons, ih, List.length_drop, ← Nat.add_div_right _ hn]
      by_cases hle : n ≤ xs.length
      · congr 1
        omega
      · rw [Nat.div_eq_of_lt_le (k := 1) (by omega) (by omega),
          Nat.div_eq_of_lt_le (k := 1) (by omega) (by omega)]

theorem getElem?_chunks (hn : 0 < n) (xs : List α) (k : Nat) :
    (chunks n xs)[k]? =
      if n * k < xs.length then some ((xs.drop (n * k)).take n) else none := by
  induction xs using chunks_induction hn generalizing k with
  | nil => simp
  | step xs hne ih =>
      rw [chunks_of_ne_nil hn hne]
      cases k with
      | zero => simp [List.length_pos_iff.mpr hne]
      | succ k =>
          have hlt : n * k < xs.length - n ↔ n * (k + 1) < xs.length := by
            rw [Nat.mul_succ]
            omega
          simp only [List.getElem?_cons_succ, ih, List.length_drop, hlt, List.drop_drop,
            Nat.mul_succ, Nat.add_comm]

end Shellbox.Codec
