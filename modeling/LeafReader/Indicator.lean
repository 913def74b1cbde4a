import LeafReader.ReaderMode
import LeafReader.Run
import Mathlib.Logic.Function.Iterate

/-!
# The indicator (`board_io.c`)

`board_indicate` writes one cell, `s_pattern`, and `indicator_task` loads it, plays the pattern, and
after an event pattern writes back the resting pattern it loaded last. The two writers do not know of
each other; `Lossless` says when nothing is lost by that.
-/

namespace LeafReader

/-- Where the loop of `indicator_task` stands. -/
inductive LoopPoint
  | head
  | loaded (p : IndicatorPattern)
  -- an event pattern, until the store after it
  | playing
deriving DecidableEq, Repr

/-- `s_pattern`, `s_resting` and the loop; `issued` is the last resting pattern `board_indicate` was
called with. -/
structure Indicator where
  pattern : IndicatorPattern
  resting : IndicatorPattern
  point : LoopPoint
  issued : Option IndicatorPattern
deriving DecidableEq, Repr

namespace Indicator

def init : Indicator := ⟨.off, .idle, .head, none⟩

def boardIndicate (p : IndicatorPattern) (s : Indicator) : Indicator :=
  { s with pattern := p, issued := if p.isResting then some p else s.issued }

/-- One step of `indicator_task`. -/
def loopStep (s : Indicator) : Indicator :=
  match s.point with
  | .head => { s with point := .loaded s.pattern }
  | .loaded p =>
    if p.isEvent then { s with point := .playing }
    else { s with resting := if p.isResting then p else s.resting, point := .head }
  | .playing => { s with pattern := s.resting, point := .head }

end Indicator

/-- `mode_set` indicates a mode, `nfc_task` and a factory reset an event; the loop goes on. -/
inductive IndicatorAction
  | mode (m : ReaderMode)
  | event (p : IndicatorPattern) (h : p.isEvent = true)
  | loop

def indicatorStep : IndicatorAction → Indicator → Option Indicator
  | .mode m, s => some (s.boardIndicate (applyIndicator m))
  | .event p _, s => some (s.boardIndicate p)
  | .loop, s => some s.loopStep

namespace Indicator

/-- An event pattern was loaded and `s_pattern` is not yet written back. -/
def inPlay (s : Indicator) : Bool :=
  match s.point with
  | .head => false
  | .loaded p => p.isEvent
  | .playing => true

/-- The resting pattern the loop has loaded last. -/
def lastLoaded (s : Indicator) : IndicatorPattern :=
  match s.point with
  | .loaded p => if p.isResting then p else s.resting
  | _ => s.resting

/-- No event pattern is played or waits in `s_pattern`. -/
def Settled (s : Indicator) : Prop := s.inPlay = false ∧ s.pattern.isEvent = false

/-- Left alone, the loop ends in the resting pattern issued last, and it does end. -/
def ReturnsToMode (s : Indicator) : Prop :=
  (∀ p, s.issued = some p → ∀ k, (loopStep^[k] s).Settled → (loopStep^[k] s).pattern = p) ∧
    ∀ k ≥ 4, (loopStep^[k] s).Settled

/-- The pattern the loop ends in when it is left alone. -/
def final (s : Indicator) : IndicatorPattern :=
  if s.inPlay then s.resting else if s.pattern.isEvent then s.lastLoaded else s.pattern

end Indicator

/-- A mode is indicated during an event pattern only if it is the one to be written back, and an event
pattern replaces a mode pattern only after the loop has loaded that. -/
def Lossless : IndicatorAction → Indicator → Prop
  | .mode m, s => s.inPlay = true → applyIndicator m = s.resting
  | .event _ _, s => s.inPlay = false → s.pattern.isResting = true → s.pattern = s.lastLoaded
  | .loop, _ => True

namespace Indicator

variable {s : Indicator}

@[simp] theorem iterate_succ (k : ℕ) : loopStep^[k + 1] s = loopStep^[k] s.loopStep :=
  Function.iterate_succ_apply loopStep k s

/-- What holds in every run: the loop rests in a resting pattern, and it has loaded any resting pattern
that was never issued. -/
structure Inv (s : Indicator) : Prop where
  resting : s.resting.isResting = true
  issued : ∀ p, s.issued = some p → p.isResting = true
  final : ∀ p, s.issued = some p → s.final = p
  unissued : s.issued = none → s.pattern.isResting = true → s.pattern = s.lastLoaded

theorem Inv.init : Inv .init where
  resting := rfl
  issued _ h := by cases h
  final _ h := by cases h
  unissued _ h := by cases h

/-- The loop does not change what it ends in. -/
theorem final_loopStep (h : s.resting.isResting = true) : s.loopStep.final = s.final := by
  have hr := IndicatorPattern.not_event_of_resting h
  cases hp : s.point with
  | head =>
    cases he : s.pattern.isEvent with
    | false => simp [loopStep, final, inPlay, hp, he]
    | true => simp [loopStep, final, inPlay, lastLoaded, hp, he]
  | loaded p =>
    cases he : p.isEvent with
    | false => simp [loopStep, final, inPlay, lastLoaded, hp, he]
    | true => simp [loopStep, final, inPlay, hp, he]
  | playing => simp [loopStep, final, inPlay, hp, hr]

theorem resting_loopStep (h : s.resting.isResting = true) : s.loopStep.resting.isResting = true := by
  simp only [loopStep]
  split
  · exact h
  · split
    · exact h
    · simp only
      split
      · assumption
      · exact h
  · exact h

theorem final_iterate (h : s.resting.isResting = true) (k : ℕ) : (loopStep^[k] s).final = s.final := by
  induction k generalizing s with
  | zero => rfl
  | succ k ih => rw [iterate_succ, ih (resting_loopStep h), final_loopStep h]

@[simp] theorem issued_loopStep : s.loopStep.issued = s.issued := by
  rw [loopStep]
  split
  · rfl
  · split <;> rfl
  · rfl

theorem Inv.loopStep (h : Inv s) : Inv s.loopStep := by
  refine ⟨resting_loopStep h.resting, fun p hp => ?_, fun p hp => ?_, ?_⟩
  · exact h.issued p (issued_loopStep ▸ hp)
  · rw [final_loopStep h.resting]
    exact h.final p (issued_loopStep ▸ hp)
  · intro hn hr
    cases hp : s.point with
    | head =>
      simp only [Indicator.loopStep, hp] at hr ⊢
      simp [lastLoaded, hr]
    | loaded q =>
      have hu := h.unissued
      cases he : q.isEvent with
      | false =>
        simp only [Indicator.loopStep, hp, he, lastLoaded] at hn hr hu ⊢
        exact hu hn hr
      | true =>
        have hq := IndicatorPattern.not_resting_of_event he
        simp only [Indicator.loopStep, hp, he, lastLoaded, hq] at hn hr hu ⊢
        exact hu hn hr
    | playing => simp [Indicator.loopStep, hp, lastLoaded]

theorem Settled.final (h : s.Settled) : s.final = s.pattern := by
  simp [Indicator.final, h.1, h.2]

theorem Settled.loopStep (h : s.Settled) : s.loopStep.Settled := by
  obtain ⟨hplay, hpat⟩ := h
  cases hp : s.point with
  | head => exact ⟨by simp [Indicator.loopStep, inPlay, hp, hpat], by simp [Indicator.loopStep, hp, hpat]⟩
  | loaded p =>
    have he : p.isEvent = false := by simpa [inPlay, hp] using hplay
    exact ⟨by simp [Indicator.loopStep, inPlay, hp, he], by simp [Indicator.loopStep, hp, he, hpat]⟩
  | playing => simp [inPlay, hp] at hplay

theorem Settled.iterate (h : s.Settled) (k : ℕ) : (Indicator.loopStep^[k] s).Settled := by
  induction k generalizing s with
  | zero => exact h
  | succ k ih =>
    rw [iterate_succ]
    exact ih h.loopStep

/-- An event pattern that is played is over after two steps. -/
theorem settled_of_inPlay (h : Inv s) (hplay : s.inPlay = true) :
    s.loopStep.Settled ∨ s.loopStep.loopStep.Settled := by
  have hr := IndicatorPattern.not_event_of_resting h.resting
  cases hp : s.point with
  | head => simp [inPlay, hp] at hplay
  | loaded p =>
    have he : p.isEvent = true := by simpa [inPlay, hp] using hplay
    exact .inr ⟨by simp [loopStep, inPlay, hp, he], by simp [loopStep, hp, he, hr]⟩
  | playing => exact .inl ⟨by simp [loopStep, inPlay, hp], by simp [loopStep, hp, hr]⟩

/-- From any point, no event pattern is left after four steps. -/
theorem settles (h : Inv s) : ∃ k ≤ 4, (Indicator.loopStep^[k] s).Settled := by
  by_cases hplay : s.inPlay = true
  · rcases settled_of_inPlay h hplay with hs | hs
    · exact ⟨1, by decide, hs⟩
    · exact ⟨2, by decide, hs⟩
  by_cases hpat : s.pattern.isEvent = true
  · -- the pattern that waits is loaded first, after the end of the loop body if need be
    cases hp : s.point with
    | head =>
      have hl : s.loopStep.inPlay = true := by simp [Indicator.loopStep, inPlay, hp, hpat]
      rcases settled_of_inPlay h.loopStep hl with hs | hs
      · exact ⟨2, by decide, hs⟩
      · exact ⟨3, by decide, hs⟩
    | loaded p =>
      have he : p.isEvent = false := by simpa [inPlay, hp] using hplay
      have hl : s.loopStep.loopStep.inPlay = true := by
        simp [Indicator.loopStep, inPlay, hp, he, hpat]
      rcases settled_of_inPlay h.loopStep.loopStep hl with hs | hs
      · exact ⟨3, by decide, hs⟩
      · exact ⟨4, by decide, hs⟩
    | playing => simp [inPlay, hp] at hplay
  · exact ⟨0, by decide, by simpa using hplay, by simpa using hpat⟩

theorem settled_from_four (h : Inv s) : ∀ k ≥ 4, (Indicator.loopStep^[k] s).Settled := by
  intro k hk
  obtain ⟨j, hj, hs⟩ := settles h
  obtain ⟨d, rfl⟩ : ∃ d, k = d + j := ⟨k - j, by omega⟩
  rw [Function.iterate_add_apply]
  exact hs.iterate d

theorem Inv.returnsToMode (h : Inv s) : s.ReturnsToMode := by
  refine ⟨fun p hp k hs => ?_, settled_from_four h⟩
  rw [← hs.final, final_iterate h.resting k]
  exact h.final p hp

/-- A loop that returns to the mode ends in the pattern issued last. -/
theorem ReturnsToMode.final {p : IndicatorPattern} (h : s.ReturnsToMode)
    (hr : s.resting.isResting = true) (hp : s.issued = some p) : s.final = p := by
  have hs := h.2 4 le_rfl
  rw [← final_iterate hr 4, hs.final]
  exact h.1 p hp 4 hs

theorem inPlay_boardIndicate (p : IndicatorPattern) : (s.boardIndicate p).inPlay = s.inPlay := rfl

theorem lastLoaded_boardIndicate (p : IndicatorPattern) :
    (s.boardIndicate p).lastLoaded = s.lastLoaded := rfl

theorem final_boardIndicate_resting {p : IndicatorPattern} (hp : p.isResting = true) :
    (s.boardIndicate p).final = if s.inPlay then s.resting else p := by
  have he := IndicatorPattern.not_event_of_resting hp
  simp only [Indicator.final, inPlay_boardIndicate]
  simp [boardIndicate, he]

theorem final_boardIndicate_event {p : IndicatorPattern} (hp : p.isEvent = true) :
    (s.boardIndicate p).final = if s.inPlay then s.resting else s.lastLoaded := by
  simp only [Indicator.final, inPlay_boardIndicate, lastLoaded_boardIndicate]
  simp [boardIndicate, hp]

theorem Inv.mode {m : ReaderMode} (h : Inv s) (hl : Lossless (.mode m) s) :
    Inv (s.boardIndicate (applyIndicator m)) := by
  have hm := isResting_applyIndicator m
  have hissued : (s.boardIndicate (applyIndicator m)).issued = some (applyIndicator m) := by
    simp [boardIndicate, hm]
  refine ⟨h.resting, fun p hp => ?_, fun p hp => ?_, fun hn => ?_⟩
  · rw [hissued] at hp
    cases hp
    exact hm
  · rw [hissued] at hp
    cases hp
    rw [final_boardIndicate_resting hm]
    split
    · rename_i hplay
      exact (hl hplay).symm
    · rfl
  · rw [hissued] at hn
    cases hn

theorem Inv.event {p : IndicatorPattern} {he : p.isEvent = true} (h : Inv s)
    (hl : Lossless (.event p he) s) : Inv (s.boardIndicate p) := by
  have hr := IndicatorPattern.not_resting_of_event he
  have hissued : (s.boardIndicate p).issued = s.issued := by simp [boardIndicate, hr]
  refine ⟨h.resting, fun q hq => h.issued q (hissued ▸ hq), fun q hq => ?_, fun _ hp => ?_⟩
  · rw [hissued] at hq
    rw [final_boardIndicate_event he, ← h.final q hq]
    have hres := h.issued q hq
    have hfin := h.final q hq
    simp only [Indicator.final] at hfin ⊢
    split
    · rfl
    · rename_i hplay
      rw [if_neg hplay] at hfin
      split
      · rfl
      · rename_i hpat
        rw [if_neg hpat] at hfin
        exact (hl (by simpa using hplay) (hfin ▸ hres)).symm
  · have hp' : p.isResting = true := hp
    rw [hr] at hp'
    cases hp'

theorem Inv.keep (a : IndicatorAction) (s s' : Indicator) (h : Inv s)
    (hs : indicatorStep a s = some s') (hl : Lossless a s) : Inv s' := by
  cases a with
  | mode m =>
    cases hs
    exact h.mode hl
  | event p he =>
    cases hs
    exact h.event hl
  | loop =>
    cases hs
    exact h.loopStep

/-- Right after a step that is not lossless, the loop no longer ends in the mode. -/
theorem Inv.lost (a : IndicatorAction) (s s' : Indicator) (h : Inv s)
    (hs : indicatorStep a s = some s') (hl : ¬ Lossless a s) : ¬ s'.ReturnsToMode := by
  intro hret
  cases a with
  | mode m =>
    cases hs
    have hm := isResting_applyIndicator m
    have hfin := hret.final h.resting (show _ = some (applyIndicator m) by simp [boardIndicate, hm])
    rw [final_boardIndicate_resting hm] at hfin
    refine hl fun hplay => ?_
    rw [if_pos hplay] at hfin
    exact hfin.symm
  | event p he =>
    cases hs
    refine hl fun hplay hpat => ?_
    have hr := IndicatorPattern.not_resting_of_event he
    have hpe := IndicatorPattern.not_event_of_resting hpat
    cases hi : s.issued with
    | none => exact h.unissued hi hpat
    | some q =>
      have hfin := hret.final h.resting (show _ = some q by simp [boardIndicate, hr, hi])
      rw [final_boardIndicate_event he, if_neg (by simp [hplay])] at hfin
      have hq := h.final q hi
      rw [Indicator.final, if_neg (by simp [hplay]), if_neg (by simp [hpe])] at hq
      rw [hfin, hq]
  | loop => exact hl trivial

end Indicator

/-- The indicator returns to the mode from every state of a run exactly if all steps are lossless. -/
theorem returnsToMode_iff (as : List IndicatorAction) :
    Throughout indicatorStep Lossless as .init ↔
      ∀ bs s, bs <+: as → exec indicatorStep bs .init = some s → s.ReturnsToMode :=
  throughout_iff (fun _ => Indicator.Inv.returnsToMode) (fun a _ => by cases a <;> rfl)
    Indicator.Inv.keep Indicator.Inv.lost as .init .init

/-- `WRITE` is set while the pattern of a read card plays. -/
def modeDuringGrant : List IndicatorAction :=
  [.mode .read, .loop, .loop, .event .grant rfl, .loop, .loop, .mode .write, .loop]

/-- The indicator stays in `ARMED_READ`. -/
theorem modeDuringGrant_lost :
    ∃ s, exec indicatorStep modeDuringGrant .init = some s ∧ s.Settled ∧
      s.issued = some .armedWrite ∧ s.pattern = .armedRead ∧ ¬ s.ReturnsToMode := by
  refine ⟨_, rfl, ⟨rfl, rfl⟩, rfl, rfl, fun h => ?_⟩
  have hp := h.1 .armedWrite rfl 0 ⟨rfl, rfl⟩
  cases hp

end LeafReader
