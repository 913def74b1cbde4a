import Mathlib.Data.List.Basic

/-!
# Searching a text that quotes divide

A text in which a quote stands now and then is a list of stretches without quotes. A search for a word
between two quotes finds the first stretch that equals the word and that another quote closes; a word with
quotes in it is a row of stretches.
-/

namespace LeafReader

variable {α β : Type*} {q : α}

/-- Stretches, each behind a quote. -/
def quoted (q : α) (segs : List (List α)) : List α := segs.flatMap (q :: ·)

@[simp] theorem quoted_nil : quoted q [] = [] := rfl

@[simp] theorem quoted_cons (s : List α) (segs : List (List α)) :
    quoted q (s :: segs) = q :: (s ++ quoted q segs) := rfl

/-- Stretches without quotes are prefixes of each other only if they are equal, once a quote follows. -/
theorem append_prefix_append_iff {k s : List α} (hk : q ∉ k) (hs : q ∉ s) (x : List α)
    (segs : List (List α)) :
    k ++ q :: x <+: s ++ quoted q segs ↔ k = s ∧ q :: x <+: quoted q segs := by
  induction k generalizing s with
  | nil =>
    cases s with
    | nil => simp
    | cons b s =>
      obtain ⟨hb, -⟩ := not_or.mp (List.mem_cons.not.mp hs)
      rw [List.nil_append, List.cons_append, List.cons_prefix_cons]
      simp [hb]
  | cons a k ih =>
    obtain ⟨ha, hk⟩ := not_or.mp (List.mem_cons.not.mp hk)
    cases s with
    | nil =>
      rw [List.nil_append, List.cons_append]
      cases segs with
      | nil => simp
      | cons t segs =>
        rw [quoted_cons, List.cons_prefix_cons]
        simp [Ne.symm ha]
    | cons b s =>
      obtain ⟨-, hs⟩ := not_or.mp (List.mem_cons.not.mp hs)
      rw [List.cons_append, List.cons_append, List.cons_prefix_cons, ih hk hs, List.cons_eq_cons, and_assoc]

/-- The words `ks` between quotes stand at the start of a text exactly if its first stretches are these, and
one more follows. -/
theorem quoted_prefix_iff {ks segs : List (List α)} (hks : ∀ s ∈ ks, q ∉ s) (hsegs : ∀ s ∈ segs, q ∉ s) :
    quoted q ks ++ [q] <+: quoted q segs ↔ ks <+: segs ∧ ks.length < segs.length := by
  induction ks generalizing segs with
  | nil =>
    cases segs with
    | nil => simp
    | cons s segs => simp [List.cons_prefix_cons]
  | cons k ks ih =>
    cases segs with
    | nil => simp
    | cons s segs =>
      have hx : ∃ x, quoted q ks ++ [q] = q :: x := by
        cases ks with
        | nil => exact ⟨[], rfl⟩
        | cons k' ks => exact ⟨k' ++ quoted q ks ++ [q], by simp⟩
      obtain ⟨x, hx⟩ := hx
      have ih := ih (fun t ht => hks t (List.mem_cons_of_mem k ht))
        (fun t ht => hsegs t (List.mem_cons_of_mem s ht))
      rw [hx] at ih
      rw [quoted_cons, quoted_cons, List.cons_append, List.append_assoc, hx, List.cons_prefix_cons,
        append_prefix_append_iff (hks k List.mem_cons_self) (hsegs s List.mem_cons_self), ih,
        List.cons_prefix_cons, List.length_cons, List.length_cons, Nat.add_lt_add_iff_right]
      simp only [true_and, and_assoc]

variable [DecidableEq α]

/-- The text from the first place on where `needle` stands (`strstr`). -/
def findInfix (needle : List α) : List α → Option (List α)
  | [] => if needle = [] then some [] else none
  | a :: l => if needle <+: a :: l then some (a :: l) else findInfix needle l

/-- The first place in a list of stretches (`f` gives their text) where the stretches `ks` stand and one more
follows: what stands there, and what follows. -/
def firstRun (f : β → List α) (ks : List (List α)) : List β → Option (List β × List β)
  | [] => none
  | p :: ps =>
    if ks <+: (p :: ps).map f ∧ ks.length < (p :: ps).length then
      some ((p :: ps).take ks.length, (p :: ps).drop ks.length)
    else firstRun f ks ps

/-! ### Words as stretches -/

theorem splitOn_notMem (l : List α) : ∀ s ∈ l.splitOn q, q ∉ s := by
  induction l with
  | nil =>
    intro s hs
    rw [List.splitOn_eq_splitOnP, List.splitOnP_nil, List.mem_singleton] at hs
    rw [hs]
    exact List.not_mem_nil
  | cons a l ih =>
    intro s hs
    rw [List.splitOn_eq_splitOnP, List.splitOnP_cons_eq_if_modifyHead, ← List.splitOn_eq_splitOnP] at hs
    split at hs
    · rcases List.mem_cons.mp hs with rfl | hs
      · exact List.not_mem_nil
      · exact ih s hs
    next ha =>
      obtain ⟨t, rest, hl⟩ := List.exists_cons_of_ne_nil (List.splitOn_ne_nil q l)
      rw [hl] at hs ih
      rcases List.mem_cons.mp hs with rfl | hs
      · rw [List.mem_cons, not_or]
        refine ⟨fun h => ha ?_, ih t List.mem_cons_self⟩
        rw [h]
        exact beq_self_eq_true a
      · exact ih s (List.mem_cons_of_mem t hs)

theorem quoted_splitOn (l : List α) : quoted q (l.splitOn q) = q :: l := by
  induction l with
  | nil => rfl
  | cons a l ih =>
    rw [List.splitOn_eq_splitOnP, List.splitOnP_cons_eq_if_modifyHead, ← List.splitOn_eq_splitOnP]
    split
    next ha =>
      rw [quoted_cons, ih, eq_of_beq ha]
      rfl
    · obtain ⟨t, rest, hl⟩ := List.exists_cons_of_ne_nil (List.splitOn_ne_nil q l)
      rw [hl] at ih ⊢
      exact congrArg (q :: a :: ·) (List.cons.inj ih).2

theorem splitOn_of_notMem {l : List α} (h : q ∉ l) : l.splitOn q = [l] := by
  rw [List.splitOn_eq_splitOnP]
  apply List.splitOnP_eq_singleton
  intro a ha
  exact beq_false_of_ne (ne_of_mem_of_not_mem ha h)

/-! ### The search -/

theorem findInfix_append {s : List α} (hs : q ∉ s) (needle l : List α) :
    findInfix (q :: needle) (s ++ l) = findInfix (q :: needle) l := by
  induction s with
  | nil => rfl
  | cons a s ih =>
    obtain ⟨ha, hs⟩ := not_or.mp (List.mem_cons.not.mp hs)
    rw [List.cons_append, findInfix, if_neg, ih hs]
    rw [List.cons_prefix_cons]
    exact fun h => ha h.1

theorem findInfix_suffix {needle l p : List α} (h : findInfix needle l = some p) : p <:+ l := by
  induction l with
  | nil =>
    rw [findInfix] at h
    split at h
    · cases h
      exact List.suffix_rfl
    · cases h
  | cons a l ih =>
    rw [findInfix] at h
    split at h
    · cases h
      exact List.suffix_rfl
    · exact (ih h).trans (List.suffix_cons a l)

/-- The search finds the first run of closed stretches. -/
theorem findInfix_quoted (f : β → List α) {ks : List (List α)} {ps : List β} (hks : ∀ s ∈ ks, q ∉ s)
    (hps : ∀ p ∈ ps, q ∉ f p) (hne : ks ≠ []) :
    findInfix (quoted q ks ++ [q]) (quoted q (ps.map f)) =
      (firstRun f ks ps).map fun hit => quoted q ks ++ quoted q (hit.2.map f) := by
  obtain ⟨x, hx⟩ : ∃ x, quoted q ks ++ [q] = q :: x := by
    obtain ⟨k, ks', rfl⟩ := List.exists_cons_of_ne_nil hne
    exact ⟨k ++ quoted q ks' ++ [q], by simp⟩
  induction ps with
  | nil =>
    rw [hx]
    rfl
  | cons p ps ih =>
    have hpre := @quoted_prefix_iff α q ks ((p :: ps).map f) hks (by simpa using hps)
    rw [List.length_map] at hpre
    rw [firstRun]
    by_cases hit : ks <+: (p :: ps).map f ∧ ks.length < (p :: ps).length
    · rw [if_pos hit]
      have htext : quoted q ((p :: ps).map f) =
          quoted q ks ++ quoted q (((p :: ps).drop ks.length).map f) := by
        obtain ⟨rest, hrest⟩ := hit.1
        rw [List.map_drop, ← hrest, List.drop_left]
        unfold quoted
        rw [List.flatMap_append]
      rw [Option.map_some, ← htext, List.map_cons, quoted_cons, findInfix, ← quoted_cons, ← List.map_cons,
        if_pos (hpre.mpr hit)]
    · rw [if_neg hit, ← ih fun t ht => hps t (List.mem_cons_of_mem p ht)]
      rw [List.map_cons, quoted_cons, findInfix, ← quoted_cons, ← List.map_cons, if_neg (mt hpre.mp hit), hx,
        findInfix_append (hps p List.mem_cons_self)]

/-- One word is looked up stretch by stretch. -/
theorem firstRun_singleton_cons (f : β → List α) (k : List α) (p : β) (ps : List β) :
    firstRun f [k] (p :: ps) = if f p = k ∧ ps ≠ [] then some ([p], ps) else firstRun f [k] ps := by
  rw [firstRun]
  apply if_congr
  · rw [List.map_cons, List.cons_prefix_cons]
    simp [List.length_pos_iff, eq_comm]
  · rfl
  · rfl

theorem firstRun_length {f : β → List α} {ks : List (List α)} {ps : List β} {hit : List β × List β}
    (h : firstRun f ks ps = some hit) : hit.1.length = ks.length ∧ hit.2 ≠ [] := by
  induction ps with
  | nil => cases h
  | cons p ps ih =>
    rw [firstRun] at h
    split at h
    next hhit =>
      cases h
      refine ⟨List.length_take_of_le (Nat.le_of_lt hhit.2), fun hnil => ?_⟩
      have := List.drop_eq_nil_iff.mp hnil
      omega
    · exact ih h

theorem firstRun_subset {f : β → List α} {ks : List (List α)} {ps : List β} {hit : List β × List β}
    (h : firstRun f ks ps = some hit) : hit.2 ⊆ ps := by
  induction ps with
  | nil => cases h
  | cons p ps ih =>
    rw [firstRun] at h
    split at h
    · cases h
      exact fun p hp => List.mem_of_mem_drop hp
    · exact fun p' hp => List.mem_cons_of_mem p (ih h hp)

theorem firstRun_of_first {f : β → List α} {k : List α} {pre rest : List β} {p : β}
    (hpre : ∀ p ∈ pre, f p ≠ k) (hp : f p = k) (hrest : rest ≠ []) :
    firstRun f [k] (pre ++ p :: rest) = some ([p], rest) := by
  induction pre with
  | nil => rw [List.nil_append, firstRun_singleton_cons, if_pos ⟨hp, hrest⟩]
  | cons a pre ih =>
    rw [List.cons_append, firstRun_singleton_cons, if_neg fun h => hpre a List.mem_cons_self h.1,
      ih fun b hb => hpre b (List.mem_cons_of_mem a hb)]

end LeafReader
