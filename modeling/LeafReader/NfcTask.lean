import LeafReader.ReaderMode
import Mathlib.Algebra.BigOperators.Intervals
import Mathlib.Algebra.Order.BigOperators.Group.Finset
import Mathlib.Data.ENat.Basic

/-!
# Card detection in the loop of `nfc_task`

`Detector` holds the two locals that decide whether a successful `nfc_find_target` is a new
presentation. A run of the loop is a sequence of polls; `detectorAt` is the detector before each of
them, and `Processed` says that a poll enters the branch that reads, writes or only logs the card.
-/

namespace LeafReader

/-- `card_in_field` and `empty_count`. -/
structure Detector where
  cardInField : Bool
  emptyCount : Nat
deriving DecidableEq, Repr

namespace Detector

def init : Detector := ⟨false, 0⟩

/-- The two tests on the result of `nfc_find_target`: whether the card is processed, and the locals
after them. -/
def poll (e : EspErr) (d : Detector) : Bool × Detector :=
  if e = .ok ∧ d.cardInField = false then (true, ⟨true, 0⟩)
  else if e = .notFound then
    if d.cardInField then
      (false, ⟨if d.emptyCount + 1 > 3 then false else d.cardInField, d.emptyCount + 1⟩)
    else (false, d)
  else (false, d)

end Detector

/-- One iteration: the result of `nfc_find_target`, and what `mode_get` returns if it is asked. -/
structure Poll where
  result : EspErr
  mode : ReaderMode
deriving DecidableEq, Repr

/-- What is done with a card that is processed. -/
inductive Handling
  | read | write | log
deriving DecidableEq, Repr

def handling : ReaderMode → Handling
  | .read => .read
  | .write => .write
  | .idle => .log

/-- One iteration of the loop. -/
def onPoll (p : Poll) (d : Detector) : Option Handling × Detector :=
  let (hit, d') := d.poll p.result
  (if hit then some (handling p.mode) else none, d')

/-- The detector before poll `n`. -/
def detectorAt (polls : ℕ → Poll) : ℕ → Detector
  | 0 => .init
  | n + 1 => (onPoll (polls n) (detectorAt polls n)).2

/-- Poll `n` is processed. -/
def Processed (polls : ℕ → Poll) (n : ℕ) : Prop :=
  ((onPoll (polls n) (detectorAt polls n)).1).isSome = true

/-- How many of the polls from `a` on and before `b` returned `ESP_ERR_NOT_FOUND`. -/
def misses (polls : ℕ → Poll) (a b : ℕ) : ℕ :=
  ∑ k ∈ Finset.Ico a b, if (polls k).result = .notFound then 1 else 0

section Detection

variable {polls : ℕ → Poll}

theorem processed_iff {n : ℕ} :
    Processed polls n ↔ (polls n).result = .ok ∧ (detectorAt polls n).cardInField = false := by
  simp only [Processed, onPoll, Detector.poll]
  split
  · rename_i h
    exact ⟨fun _ => h, fun _ => rfl⟩
  · rename_i h
    refine ⟨fun hs => ?_, fun h' => absurd h' h⟩
    split at hs
    · split at hs <;> cases hs
    · cases hs

theorem detectorAt_succ_of_processed {n : ℕ} (h : Processed polls n) :
    detectorAt polls (n + 1) = ⟨true, 0⟩ := by
  have hp := processed_iff.1 h
  simp only [detectorAt, onPoll, Detector.poll, hp, and_self, ↓reduceIte]

theorem misses_self (a : ℕ) : misses polls a a = 0 := by
  simp [misses]

theorem misses_succ {a b : ℕ} (h : a ≤ b) :
    misses polls a (b + 1) = misses polls a b + if (polls b).result = .notFound then 1 else 0 :=
  Finset.sum_Ico_succ_top h _

/-- A poll that is not processed changes the detector only when it misses a card in the field. -/
theorem detectorAt_succ {n : ℕ} (h : ¬ Processed polls n) :
    detectorAt polls (n + 1) =
      if (polls n).result = .notFound ∧ (detectorAt polls n).cardInField then
        ⟨decide ((detectorAt polls n).emptyCount + 1 < 4), (detectorAt polls n).emptyCount + 1⟩
      else detectorAt polls n := by
  have hp := fun hr => h (processed_iff.2 hr)
  simp only [detectorAt, onPoll, Detector.poll]
  rw [if_neg hp]
  by_cases hm : (polls n).result = .notFound
  · by_cases hc : (detectorAt polls n).cardInField
    · simp only [hm, hc, ↓reduceIte, and_self]
      by_cases h3 : (detectorAt polls n).emptyCount + 1 < 4
      · simp [h3, show ¬ (detectorAt polls n).emptyCount + 1 > 3 by omega]
      · simp [h3, show (detectorAt polls n).emptyCount + 1 > 3 by omega]
    · simp [hm, hc]
  · simp [hm]

/-- `empty_count` stays below four while a card is in the field. -/
theorem emptyCount_lt (n : ℕ) (h : (detectorAt polls n).cardInField = true) :
    (detectorAt polls n).emptyCount < 4 := by
  induction n with
  | zero => cases h
  | succ n ih =>
    by_cases hp : Processed polls n
    · rw [detectorAt_succ_of_processed hp]
      decide
    · rw [detectorAt_succ hp] at h ⊢
      split at h
      · rename_i hm
        rw [if_pos hm]
        exact of_decide_eq_true h
      · rename_i hm
        rw [if_neg hm]
        exact ih h

/-- Without a processed poll, an armed detector stays armed. -/
theorem armed_of_unprocessed {a b : ℕ} (hab : a ≤ b) (ha : (detectorAt polls a).cardInField = false)
    (hno : ∀ k, a ≤ k → k < b → ¬ Processed polls k) : (detectorAt polls b).cardInField = false := by
  induction b, hab using Nat.le_induction with
  | base => exact ha
  | succ b hab ih =>
    have hb := ih fun k hk hkb => hno k hk (by omega)
    rw [detectorAt_succ (hno b hab (by omega)), if_neg (by simp [hb])]
    exact hb

/-- Without a processed poll, a card leaves the field with the miss that makes four of them. -/
theorem inField_of_unprocessed {a b : ℕ} (hab : a ≤ b) (ha : (detectorAt polls a).cardInField = true)
    (hno : ∀ k, a ≤ k → k < b → ¬ Processed polls k) :
    ((detectorAt polls b).cardInField = true ↔ (detectorAt polls a).emptyCount + misses polls a b < 4) ∧
      ((detectorAt polls b).cardInField = true →
        (detectorAt polls b).emptyCount = (detectorAt polls a).emptyCount + misses polls a b) := by
  induction b, hab using Nat.le_induction with
  | base =>
    refine ⟨⟨fun _ => ?_, fun _ => ha⟩, fun _ => ?_⟩
    · rw [misses_self]
      exact emptyCount_lt a ha
    · rw [misses_self]
      rfl
  | succ b hab ih =>
    obtain ⟨hiff, hcount⟩ := ih fun k hk hkb => hno k hk (by omega)
    rw [detectorAt_succ (hno b hab (by omega)), misses_succ hab]
    by_cases hb : (detectorAt polls b).cardInField = true
    · have hc := hcount hb
      by_cases hm : (polls b).result = .notFound
      · rw [if_pos ⟨hm, hb⟩, if_pos hm, hc]
        exact ⟨decide_eq_true_iff, fun _ => rfl⟩
      · rw [if_neg (by simp [hm]), if_neg hm]
        exact ⟨hiff, hcount⟩
    · rw [if_neg (by simp [hb])]
      refine ⟨⟨fun h => absurd h hb, fun h => ?_⟩, fun h => absurd h hb⟩
      exact hiff.2 (by omega)

/-! ### One operation per presentation -/

/-- Four consecutive polls after `i` and before `j`, none of them `ESP_OK`. -/
def GapBetween (polls : ℕ → Poll) (i j : ℕ) : Prop :=
  ∃ k, i < k ∧ k + 3 < j ∧ ∀ d ≤ 3, (polls (k + d)).result ≠ .ok

/-- No two of the first `n` polls are processed without a gap between them. -/
def OncePerPresentation (polls : ℕ → Poll) (n : ℕ∞) : Prop :=
  ∀ i j : ℕ, i < j → (j : ℕ∞) < n → Processed polls i → Processed polls j → GapBetween polls i j

theorem GapBetween.mono {i j j' : ℕ} (h : GapBetween polls i j) (hj : j ≤ j') :
    GapBetween polls i j' := by
  obtain ⟨k, hik, hkj, hk⟩ := h
  exact ⟨k, hik, by omega, hk⟩

/-- The first poll processed after poll `i`, if one is by poll `j`. -/
theorem exists_next_processed {i j : ℕ} (hij : i < j) (hj : Processed polls j) :
    ∃ r, i < r ∧ r ≤ j ∧ Processed polls r ∧ ∀ k, i + 1 ≤ k → k < r → ¬ Processed polls k := by
  classical
  have hex : ∃ r, i < r ∧ Processed polls r := ⟨j, hij, hj⟩
  refine ⟨Nat.find hex, (Nat.find_spec hex).1, Nat.find_min' hex ⟨hij, hj⟩, (Nat.find_spec hex).2, ?_⟩
  intro k hik hk hp
  exact Nat.find_min hex hk ⟨hik, hp⟩

/-- The next poll processed after poll `i` comes after four misses. -/
theorem four_misses {i r : ℕ} (hi : Processed polls i) (hir : i < r) (hr : Processed polls r)
    (hno : ∀ k, i + 1 ≤ k → k < r → ¬ Processed polls k) : 4 ≤ misses polls (i + 1) r := by
  have hd := detectorAt_succ_of_processed hi
  obtain ⟨hiff, -⟩ := inField_of_unprocessed hir (by rw [hd]) hno
  rw [hd] at hiff
  by_contra hlt
  have hin := hiff.2 (by simpa using hlt)
  rw [(processed_iff.1 hr).2] at hin
  cases hin

/-- A card is processed once per presentation exactly if a card that, once processed, is never out of
sight for four polls in a row is missed fewer than four times in all. -/
theorem oncePerPresentation_iff (polls : ℕ → Poll) (n : ℕ∞) :
    OncePerPresentation polls n ↔
      ∀ i j : ℕ, i < j → (j : ℕ∞) < n → (detectorAt polls i).cardInField = false →
        (polls i).result = .ok → (polls j).result = .ok →
        (∀ k, i < k → k + 3 < j → ∃ d ≤ 3, (polls (k + d)).result = .ok) →
        misses polls (i + 1) j < 4 := by
  constructor
  · intro h i j hij hjn harmed hi hj hseen
    have hp : Processed polls i := processed_iff.2 ⟨hi, harmed⟩
    have hgap : ¬ GapBetween polls i j := by
      rintro ⟨k, hik, hkj, hk⟩
      obtain ⟨d, hd, hok⟩ := hseen k hik hkj
      exact hk d hd hok
    by_contra hlt
    -- four misses re-arm the detector, so that poll `j` or an earlier one is processed
    by_cases hno : ∀ k, i + 1 ≤ k → k < j → ¬ Processed polls k
    · have hd := detectorAt_succ_of_processed hp
      obtain ⟨hiff, -⟩ := inField_of_unprocessed hij (by rw [hd]) hno
      rw [hd] at hiff
      have hout : (detectorAt polls j).cardInField = false := by
        rw [← Bool.not_eq_true]
        exact fun hin => hlt (by simpa using hiff.1 hin)
      exact hgap (h i j hij hjn hp (processed_iff.2 ⟨hj, hout⟩))
    · push Not at hno
      obtain ⟨k, hik, hkj, hk⟩ := hno
      have hkn : (k : ℕ∞) < n := lt_trans (Nat.cast_lt.2 hkj) hjn
      exact hgap ((h i k hik hkn hp hk).mono hkj.le)
  · intro h i j hij hjn hi hj
    obtain ⟨r, hir, hrj, hr, hno⟩ := exists_next_processed hij hj
    have hrn : (r : ℕ∞) < n := lt_of_le_of_lt (Nat.cast_le.2 hrj) hjn
    have hmiss := four_misses hi hir hr hno
    have hgap : GapBetween polls i r := by
      by_contra hgap
      have hlt := h i r hir hrn (processed_iff.1 hi).2 (processed_iff.1 hi).1 (processed_iff.1 hr).1 ?_
      · omega
      · intro k hik hkr
        by_contra hall
        push Not at hall
        exact hgap ⟨k, hik, hkr, hall⟩
    exact hgap.mono hrj

/-- A card seen at every other poll. -/
def flicker (n : ℕ) : Poll := ⟨if n % 2 = 0 then .ok else .notFound, .read⟩

/-- It is read twice, at the polls 0 and 8, and is never missed twice in a row. -/
theorem flicker_read_twice :
    (onPoll (flicker 0) (detectorAt flicker 0)).1 = some .read ∧
      (onPoll (flicker 8) (detectorAt flicker 8)).1 = some .read ∧ ¬ OncePerPresentation flicker ⊤ := by
  refine ⟨by decide, by decide, fun h => ?_⟩
  obtain ⟨k, hk0, hk8, hk⟩ := h 0 8 (by decide) (ENat.natCast_lt_top 8) (by unfold Processed; decide)
    (by unfold Processed; decide)
  have hk4 : k < 5 := by omega
  have hmod : k % 2 = 0 ∨ (k + 1) % 2 = 0 := by omega
  rcases hmod with hmod | hmod
  · exact hk 0 (by omega) (by simp [flicker, hmod])
  · exact hk 1 (by omega) (by simp [flicker, hmod])

end Detection

end LeafReader
