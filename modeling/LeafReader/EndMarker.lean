import LeafReader.Bytes

/-!
# Data closed by an end marker and filled up with zeroes

The data is followed by a marker that is not zero and by as many zeroes as the block length asks
for. The marker is found by walking back over the zeroes from the last byte.
-/

namespace LeafReader.EndMarker

/-- The index reached by walking back from index `i` over zeroes; the walk stops at index 0. -/
def lastNonzero (l : Bytes) : ℕ → ℕ
  | 0 => 0
  | i + 1 => if l.getD (i + 1) 0 = 0 then lastNonzero l i else i + 1

/-- Over a stretch of zeroes behind a byte that is not zero, the walk comes to that byte. -/
theorem lastNonzero_eq {l : Bytes} {k : ℕ} (hk : l.getD k 0 ≠ 0) (n : ℕ)
    (hz : ∀ i, k < i → i ≤ k + n → l.getD i 0 = 0) : lastNonzero l (k + n) = k := by
  induction n with
  | zero =>
    rcases k with _ | k
    · rfl
    · simp only [lastNonzero, if_neg hk]
  | succ n ih =>
    rw [show k + (n + 1) = (k + n) + 1 by omega, lastNonzero, if_pos (hz _ (by omega) (by omega))]
    exact ih fun i h1 h2 => hz i h1 (by omega)

variable {m : UInt8} {data : Bytes} {n : ℕ}

theorem getD_marked : (data ++ m :: List.replicate n 0).getD data.length 0 = m := by
  simp [List.getD_eq_getElem?_getD]

theorem getD_fill {i : ℕ} (h : data.length < i) : (data ++ m :: List.replicate n 0).getD i 0 = 0 := by
  rw [List.getD_eq_getElem?_getD, List.getElem?_append_right (by omega),
    show i - data.length = (i - data.length - 1) + 1 by omega, List.getElem?_cons_succ,
    List.getElem?_replicate]
  split <;> rfl

/-- Walking back from the last byte finds the marker, whatever the data ends in. -/
theorem lastNonzero_marked (hm : m ≠ 0) :
    lastNonzero (data ++ m :: List.replicate n 0) (data.length + n) = data.length :=
  lastNonzero_eq (by rwa [getD_marked]) n fun _ h _ => getD_fill h

end LeafReader.EndMarker
