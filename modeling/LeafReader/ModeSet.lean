import LeafReader.ReaderMode
import LeafReader.Run
import Mathlib.Logic.Function.Basic

/-!
# Concurrent calls of `mode_set`

Tasks of any number call `mode_set`, `mode_handle_button`, `mode_post_event` and `board_indicate`; a
step of a task is one atomic operation on `s_mode`, on the indicator or on one subscriber's queue. The
queues never fill. `InOrder` says that no observer is given an update of an earlier change after one of
a later change; runs of such steps end with all observers in the real mode.
-/

namespace LeafReader

/-- Where a task stands. -/
inductive TaskPoint
  | idle
  | button (b : ButtonEvent)
  | set (m : ReaderMode)
  | indicate (m : ReaderMode)
  | post (e : ReaderEvent) (i : ℕ)
  -- in the delay before `esp_restart`, from which the call does not return
  | resetting
deriving DecidableEq

/-- The mode, the tasks, and what `board_indicate` and `xQueueSend` were called with, last call first.
The other fields number the changes of the mode: how many there were, which one a task made last, and
whose update the indicator and each subscriber got last. -/
structure ModeState (ι : Type) where
  mode : ReaderMode
  point : ι → TaskPoint
  indicated : List IndicatorPattern
  sent : ℕ → List ReaderEvent
  changes : ℕ
  stamp : ι → ℕ
  shown : ℕ
  heard : ℕ → ℕ

inductive ModeAction (ι : Type)
  | callSet (t : ι) (m : ReaderMode)
  | callButton (t : ι) (b : ButtonEvent)
  -- the calls of `nfc_task` after a card was handled
  | callPost (t : ι) (e : ReaderEvent)
  | callIndicate (t : ι) (p : IndicatorPattern)
  | step (t : ι)

namespace ModeState

variable {ι : Type} [DecidableEq ι]

/-- The state after `mode_init`. -/
def init : ModeState ι := ⟨.idle, fun _ => .idle, [], fun _ => [], 0, fun _ => 0, 0, fun _ => 0⟩

def goto (t : ι) (p : TaskPoint) (s : ModeState ι) : ModeState ι :=
  { s with point := Function.update s.point t p }

/-- `atomic_exchange` in `mode_set`. -/
def exchange (t : ι) (m : ReaderMode) (s : ModeState ι) : ModeState ι :=
  if s.mode = m then s.goto t .idle
  else
    { s with
      mode := m
      point := Function.update s.point t (.indicate m)
      changes := s.changes + 1
      stamp := Function.update s.stamp t (s.changes + 1) }

/-- `apply_indicator` in `mode_set`. -/
def indicate (t : ι) (m : ReaderMode) (s : ModeState ι) : ModeState ι :=
  { s with
    point := Function.update s.point t (.post (modeChangedEvent m) 0)
    indicated := applyIndicator m :: s.indicated
    shown := s.stamp t }

/-- One `xQueueSend` of `mode_post_event`. -/
def send (t : ι) (e : ReaderEvent) (i : ℕ) (s : ModeState ι) : ModeState ι :=
  { s with
    point := Function.update s.point t (.post e (i + 1))
    sent := Function.update s.sent i (e :: s.sent i)
    heard := if e.kind = .modeChanged then Function.update s.heard i (s.stamp t) else s.heard }

/-- The next step of a task, with `n` subscribers. -/
def stepTask (n : ℕ) (t : ι) (s : ModeState ι) : Option (ModeState ι) :=
  match s.point t with
  | .idle => none
  | .button b =>
    match b.target s.mode with
    | some m => some (s.goto t (.set m))
    | none => some { s.goto t .resetting with indicated := .error :: s.indicated }
  | .set m => some (s.exchange t m)
  | .indicate m => some (s.indicate t m)
  | .post e i => if i < n then some (s.send t e i) else some (s.goto t .idle)
  | .resetting => none

/-- A task that is in no call makes one. -/
def call (t : ι) (p : TaskPoint) (s : ModeState ι) : Option (ModeState ι) :=
  if s.point t = .idle then some (s.goto t p) else none

end ModeState

section

variable {ι : Type} [DecidableEq ι]

/-- One step of the system; events and patterns of a mode are those of `mode_set` only. -/
def modeStep (n : ℕ) : ModeAction ι → ModeState ι → Option (ModeState ι)
  | .callSet t m, s => s.call t (.set m)
  | .callButton t b, s => s.call t (.button b)
  | .callPost t e, s => if e.kind = .modeChanged then none else s.call t (.post e 0)
  | .callIndicate t p, s =>
    if s.point t = .idle ∧ p.isEvent then some { s with indicated := p :: s.indicated } else none
  | .step t, s => s.stepTask n t

/-- The last `EVT_MODE_CHANGED` of a queue. -/
def lastChange (q : List ReaderEvent) : Option ReaderEvent := q.find? fun e => e.kind == .modeChanged

/-- The last mode pattern given to `board_indicate`. -/
def lastModePattern (ps : List IndicatorPattern) : Option IndicatorPattern := ps.find? (·.isResting)

namespace ModeState

/-- All calls have returned. -/
def Quiet (s : ModeState ι) : Prop := ∀ t, s.point t = .idle

/-- Once the mode was changed, the indicator and all subscribers have been told the real mode last. -/
def Observed (n : ℕ) (s : ModeState ι) : Prop :=
  s.changes ≠ 0 → lastModePattern s.indicated = some (applyIndicator s.mode) ∧
    ∀ i < n, (lastChange (s.sent i)).map (·.mode) = some s.mode

end ModeState

/-- The step gives an observer no update of an earlier change than the one it got last. -/
def InOrder : ModeAction ι → ModeState ι → Prop
  | .step t, s =>
    match s.point t with
    | .indicate _ => s.shown ≤ s.stamp t
    | .post e i => e.kind = .modeChanged → s.heard i ≤ s.stamp t
    | _ => True
  | _, _ => True

/-- The last change is under way to an observer, or was the last one it was told. -/
structure ModeInv (n : ℕ) (s : ModeState ι) : Prop where
  stamp_le : ∀ t, s.stamp t ≤ s.changes
  shown_le : s.shown ≤ s.changes
  heard_le : ∀ i, s.heard i ≤ s.changes
  indicating : ∀ t m, s.point t = .indicate m → s.stamp t = s.changes → m = s.mode
  posting : ∀ t e i, s.point t = .post e i → e.kind = .modeChanged → s.stamp t = s.changes →
    e = modeChangedEvent s.mode
  pattern : s.shown = s.changes → s.changes ≠ 0 →
    lastModePattern s.indicated = some (applyIndicator s.mode)
  event : ∀ i < n, s.heard i = s.changes → s.changes ≠ 0 →
    lastChange (s.sent i) = some (modeChangedEvent s.mode)
  toShow : s.shown = s.changes ∨ ∃ t, s.stamp t = s.changes ∧ s.point t = .indicate s.mode
  toHear : ∀ i < n, s.heard i = s.changes ∨ ∃ t, s.stamp t = s.changes ∧
    (s.point t = .indicate s.mode ∨ ∃ j ≤ i, s.point t = .post (modeChangedEvent s.mode) j)

namespace ModeInv

variable {n : ℕ} {s : ModeState ι} {t : ι}

omit [DecidableEq ι] in
theorem init (n : ℕ) : ModeInv n (ModeState.init : ModeState ι) where
  stamp_le _ := le_rfl
  shown_le := le_rfl
  heard_le _ := le_rfl
  indicating _ _ h := by cases h
  posting _ _ _ h := by cases h
  pattern _ h := absurd rfl h
  event _ _ _ h := absurd rfl h
  toShow := .inl rfl
  toHear _ _ := .inl rfl

/-- A step from a point with no update left to a point with no update to make. -/
theorem goto {p : TaskPoint} (h : ModeInv n s) (hind : ∀ m, s.point t ≠ .indicate m)
    (hpost : ∀ e j, s.point t = .post e j → e.kind = .modeChanged → n ≤ j)
    (hp : ∀ m, p ≠ .indicate m) (hp' : ∀ e j, p = .post e j → e.kind ≠ .modeChanged) :
    ModeInv n (s.goto t p) where
  stamp_le := h.stamp_le
  shown_le := h.shown_le
  heard_le := h.heard_le
  indicating u m hu hs := by
    by_cases hut : u = t
    · subst hut
      exact absurd (by simpa [ModeState.goto] using hu) (hp m)
    · exact h.indicating u m (by simpa [ModeState.goto, hut] using hu) hs
  posting u e j hu he hs := by
    by_cases hut : u = t
    · subst hut
      exact absurd he (hp' e j (by simpa [ModeState.goto] using hu))
    · exact h.posting u e j (by simpa [ModeState.goto, hut] using hu) he hs
  pattern := h.pattern
  event := h.event
  toShow := by
    rcases h.toShow with hs | ⟨u, hu, hp⟩
    · exact .inl hs
    · have hut : u ≠ t := by
        rintro rfl
        exact hind _ hp
      exact .inr ⟨u, hu, by simpa [ModeState.goto, hut] using hp⟩
  toHear i hi := by
    rcases h.toHear i hi with hs | ⟨u, hu, hp⟩
    · exact .inl hs
    · have hut : u ≠ t := by
        rintro rfl
        rcases hp with hp | ⟨j, hj, hp⟩
        · exact hind _ hp
        · exact absurd (hpost _ j hp rfl) (by omega)
      exact .inr ⟨u, hu, by simpa [ModeState.goto, hut] using hp⟩

omit [DecidableEq ι] in
/-- A pattern that is not a mode's. -/
theorem addEvent {p : IndicatorPattern} (h : ModeInv n s) (hp : p.isResting = false) :
    ModeInv n { s with indicated := p :: s.indicated } where
  stamp_le := h.stamp_le
  shown_le := h.shown_le
  heard_le := h.heard_le
  indicating := h.indicating
  posting := h.posting
  pattern hs hn := by
    show (p :: s.indicated).find? _ = _
    rw [List.find?_cons_of_neg (by simp [hp])]
    exact h.pattern hs hn
  event := h.event
  toShow := h.toShow
  toHear := h.toHear

theorem exchange {m : ReaderMode} (h : ModeInv n s) (ht : s.point t = .set m) :
    ModeInv n (s.exchange t m) := by
  rw [ModeState.exchange]
  split
  · exact h.goto (by simp [ht]) (by simp [ht]) (by simp) (by simp)
  -- the change gets the largest number; all updates under way are of earlier ones
  have hlt (u : ι) (hu : u ≠ t) : Function.update s.stamp t (s.changes + 1) u ≠ s.changes + 1 := by
    rw [Function.update_of_ne hu]
    exact Nat.ne_of_lt (Nat.lt_succ_of_le (h.stamp_le u))
  refine
    { stamp_le := fun u => ?_
      shown_le := Nat.le_succ_of_le h.shown_le
      heard_le := fun i => Nat.le_succ_of_le (h.heard_le i)
      indicating := fun u m' hu hs => ?_
      posting := fun u e j hu he hs => ?_
      pattern := fun hs => absurd hs (Nat.ne_of_lt (Nat.lt_succ_of_le h.shown_le))
      event := fun i _ hs => absurd hs (Nat.ne_of_lt (Nat.lt_succ_of_le (h.heard_le i)))
      toShow := .inr ⟨t, by simp, by simp⟩
      toHear := fun i _ => .inr ⟨t, by simp, .inl (by simp)⟩ }
  · by_cases hut : u = t
    · simp [hut]
    · simpa [hut] using Nat.le_succ_of_le (h.stamp_le u)
  · by_cases hut : u = t
    · subst hut
      have hm : m = m' := by simpa using hu
      exact hm.symm
    · exact absurd hs (hlt u hut)
  · by_cases hut : u = t
    · subst hut
      simp at hu
    · exact absurd hs (hlt u hut)

theorem indicate {m : ReaderMode} (h : ModeInv n s) (ht : s.point t = .indicate m)
    (ho : s.shown ≤ s.stamp t) : ModeInv n (s.indicate t m) where
  stamp_le := h.stamp_le
  shown_le := h.stamp_le t
  heard_le := h.heard_le
  indicating u m' hu hs := by
    by_cases hut : u = t
    · subst hut
      simp [ModeState.indicate] at hu
    · exact h.indicating u m' (by simpa [ModeState.indicate, hut] using hu) hs
  posting u e j hu he hs := by
    by_cases hut : u = t
    · subst hut
      have hm := h.indicating u m ht hs
      have hev : modeChangedEvent m = e ∧ 0 = j := by simpa [ModeState.indicate] using hu
      rw [← hev.1, hm]
      rfl
    · exact h.posting u e j (by simpa [ModeState.indicate, hut] using hu) he hs
  pattern hs _ := by
    have hm := h.indicating t m ht hs
    show (applyIndicator m :: s.indicated).find? _ = some (applyIndicator s.mode)
    rw [List.find?_cons_of_pos (isResting_applyIndicator m), hm]
  event := h.event
  toShow := by
    rcases h.toShow with hs | ⟨u, hu, hp⟩
    · exact .inl (le_antisymm (h.stamp_le t) (hs ▸ ho))
    · by_cases hut : u = t
      · exact .inl (hut ▸ hu)
      · exact .inr ⟨u, hu, by simpa [ModeState.indicate, hut] using hp⟩
  toHear i hi := by
    rcases h.toHear i hi with hs | ⟨u, hu, hp⟩
    · exact .inl hs
    · refine .inr ⟨u, hu, ?_⟩
      by_cases hut : u = t
      · subst hut
        have hm := h.indicating u m ht hu
        exact .inr ⟨0, Nat.zero_le i, by simp [ModeState.indicate, hm]⟩
      · simpa [ModeState.indicate, hut] using hp

theorem heard_send (s : ModeState ι) (t : ι) (e : ReaderEvent) (i k : ℕ) :
    (s.send t e i).heard k = if e.kind = .modeChanged ∧ k = i then s.stamp t else s.heard k := by
  by_cases he : e.kind = .modeChanged <;> by_cases hk : k = i <;>
    simp [ModeState.send, he, hk]

theorem event_send {e : ReaderEvent} {i k : ℕ} (h : ModeInv n s) (ht : s.point t = .post e i)
    (hk : k < n) (hs : (s.send t e i).heard k = s.changes) (hn : s.changes ≠ 0) :
    lastChange ((s.send t e i).sent k) = some (modeChangedEvent s.mode) := by
  rw [heard_send] at hs
  by_cases hki : k = i
  · subst hki
    show ((Function.update s.sent k (e :: s.sent k) k).find? _) = _
    rw [Function.update_self]
    by_cases he : e.kind = .modeChanged
    · rw [if_pos ⟨he, rfl⟩] at hs
      rw [List.find?_cons_of_pos (by simp [he]), h.posting t e k ht he hs]
    · rw [if_neg (by simp [he])] at hs
      rw [List.find?_cons_of_neg (by simp [he])]
      exact h.event k hk hs hn
  · rw [if_neg (by simp [hki])] at hs
    have hsent : (s.send t e i).sent k = s.sent k := Function.update_of_ne hki _ _
    rw [hsent]
    exact h.event k hk hs hn

/-- The last change moves on to the next subscriber. -/
theorem toHear_send {e : ReaderEvent} {i k : ℕ} (h : ModeInv n s) (ht : s.point t = .post e i)
    (ho : e.kind = .modeChanged → s.heard i ≤ s.stamp t) (hk : k < n) :
    (s.send t e i).heard k = s.changes ∨ ∃ u, s.stamp u = s.changes ∧
      ((s.send t e i).point u = .indicate s.mode ∨
        ∃ j ≤ k, (s.send t e i).point u = .post (modeChangedEvent s.mode) j) := by
  rw [heard_send]
  rcases h.toHear k hk with hs | ⟨u, hu, hp⟩
  · left
    split
    · rename_i hc
      obtain ⟨he, rfl⟩ := hc
      exact le_antisymm (h.stamp_le t) (hs ▸ ho he)
    · exact hs
  · by_cases hut : u = t
    · subst hut
      obtain ⟨j, hj, hev, rfl⟩ : ∃ j ≤ k, e = modeChangedEvent s.mode ∧ i = j := by
        rcases hp with hp | ⟨j, hj, hp⟩
        · rw [ht] at hp
          cases hp
        · rw [ht] at hp
          cases hp
          exact ⟨i, hj, rfl, rfl⟩
      subst hev
      by_cases hki : k = i
      · rw [if_pos ⟨rfl, hki⟩]
        exact .inl hu
      · exact .inr ⟨u, hu, .inr ⟨i + 1, by omega, by simp [ModeState.send]⟩⟩
    · exact .inr ⟨u, hu, by simpa [ModeState.send, hut] using hp⟩

theorem send {e : ReaderEvent} {i : ℕ} (h : ModeInv n s) (ht : s.point t = .post e i)
    (ho : e.kind = .modeChanged → s.heard i ≤ s.stamp t) : ModeInv n (s.send t e i) where
  stamp_le := h.stamp_le
  shown_le := h.shown_le
  heard_le k := by
    rw [heard_send]
    split
    · exact h.stamp_le t
    · exact h.heard_le k
  indicating u m hu hs := by
    by_cases hut : u = t
    · subst hut
      simp [ModeState.send] at hu
    · exact h.indicating u m (by simpa [ModeState.send, hut] using hu) hs
  posting u e' j hu he hs := by
    by_cases hut : u = t
    · subst hut
      have hev : e = e' ∧ i + 1 = j := by simpa [ModeState.send] using hu
      obtain ⟨rfl, -⟩ := hev
      exact h.posting u e i ht he hs
    · exact h.posting u e' j (by simpa [ModeState.send, hut] using hu) he hs
  pattern := h.pattern
  event _ hk hs hn := h.event_send ht hk hs hn
  toShow := by
    rcases h.toShow with hs | ⟨u, hu, hp⟩
    · exact .inl hs
    · have hut : u ≠ t := by
        rintro rfl
        rw [ht] at hp
        cases hp
      exact .inr ⟨u, hu, by simpa [ModeState.send, hut] using hp⟩
  toHear _ hk := h.toHear_send ht ho hk

theorem call {s' : ModeState ι} {p : TaskPoint} (h : ModeInv n s) (hs : s.call t p = some s')
    (hp : ∀ m, p ≠ .indicate m) (hp' : ∀ e j, p = .post e j → e.kind ≠ .modeChanged) :
    ModeInv n s' := by
  rw [ModeState.call] at hs
  split at hs
  · rename_i ht
    cases hs
    exact h.goto (by simp [ht]) (by simp [ht]) hp hp'
  · cases hs

/-- Steps in order keep the invariant. -/
theorem step (a : ModeAction ι) (s s' : ModeState ι) (ho : InOrder a s) (h : ModeInv n s)
    (hs : modeStep n a s = some s') : ModeInv n s' := by
  cases a with
  | callSet t m => exact h.call hs (by simp) (by simp)
  | callButton t b => exact h.call hs (by simp) (by simp)
  | callPost t e =>
    simp only [modeStep] at hs
    split at hs
    · cases hs
    · rename_i he
      refine h.call hs (by simp) ?_
      intro e' j hej
      cases hej
      exact he
  | callIndicate t p =>
    simp only [modeStep] at hs
    split at hs
    · rename_i hp
      cases hs
      exact h.addEvent (IndicatorPattern.not_resting_of_event hp.2)
    · cases hs
  | step t =>
    simp only [modeStep, ModeState.stepTask] at hs
    simp only [InOrder] at ho
    split at hs
    · cases hs
    · rename_i b ht
      split at hs
      · cases hs
        exact h.goto (by simp [ht]) (by simp [ht]) (by simp) (by simp)
      · cases hs
        refine ModeInv.addEvent ?_ rfl
        exact h.goto (by simp [ht]) (by simp [ht]) (by simp) (by simp)
    · rename_i m ht
      cases hs
      exact h.exchange ht
    · rename_i m ht
      cases hs
      rw [ht] at ho
      exact h.indicate ht ho
    · rename_i e i ht
      rw [ht] at ho
      split at hs
      · cases hs
        exact h.send ht ho
      · cases hs
        refine h.goto (by simp [ht]) ?_ (by simp) (by simp)
        intro e' j hej _
        rw [ht] at hej
        cases hej
        omega
    · cases hs

omit [DecidableEq ι] in
/-- When all calls have returned, nothing of the last change is under way. -/
theorem observed (h : ModeInv n s) (hq : s.Quiet) : s.Observed n := by
  intro hn
  refine ⟨?_, fun i hi => ?_⟩
  · rcases h.toShow with hs | ⟨u, -, hp⟩
    · exact h.pattern hs hn
    · rw [hq u] at hp
      cases hp
  · rcases h.toHear i hi with hs | ⟨u, -, hp⟩
    · rw [h.event i hi hs hn]
      rfl
    · rw [hq u] at hp
      rcases hp with hp | ⟨j, -, hp⟩ <;> cases hp

end ModeInv

/-- In a run in order, all observers know the real mode once all calls have returned. -/
theorem observed_of_inOrder (n : ℕ) (as : List (ModeAction ι)) (s : ModeState ι)
    (hc : Throughout (modeStep n) InOrder as .init) (hs : exec (modeStep n) as .init = some s)
    (hq : s.Quiet) : s.Observed n :=
  (exec_invariant ModeInv.step as .init s (.init n) hc hs).observed hq

end

/-- A button press and a call of another task, which updates each observer second. -/
def overtaken : List (ModeAction Bool) :=
  [.callButton false .short, .step false, .step false, .callSet true .write, .step true, .step false,
    .step true, .step false, .step true, .step false, .step true]

theorem observed_after_two :
    ∃ s, exec (modeStep 1) overtaken .init = some s ∧ s.mode = .write ∧ s.Observed 1 := by
  have horder : Throughout (modeStep 1) InOrder overtaken .init :=
    .cons rfl trivial (.cons rfl trivial (.cons rfl trivial (.cons rfl trivial (.cons rfl trivial
      (.cons rfl (Nat.zero_le 1) (.cons rfl (show 1 ≤ 2 by decide) (.cons rfl (fun _ => Nat.zero_le 1)
        (.cons rfl (fun _ => show 1 ≤ 2 by decide) (.cons rfl (fun _ => Nat.zero_le 1)
          (.cons rfl (fun _ => Nat.zero_le 2) trivial))))))))))
  have hquiet : ∀ s, exec (modeStep 1) overtaken .init = some s → s.Quiet := by
    intro s hs t
    cases hs
    cases t <;> rfl
  exact ⟨_, rfl, rfl, observed_of_inOrder 1 overtaken _ horder rfl (hquiet _ rfl)⟩

/-- Two calls cross: the one that sets `READ` first updates the observers last. -/
def crossing : List (ModeAction Bool) :=
  [.callSet false .read, .callSet true .write, .step false, .step true, .step true, .step true,
    .step true, .step false, .step false, .step false]

theorem crossing_not_observed :
    ∃ s, exec (modeStep 1) crossing .init = some s ∧ s.Quiet ∧ s.mode = .write ∧
      lastModePattern s.indicated = some .armedRead ∧
      (lastChange (s.sent 0)).map (·.mode) = some .read ∧ ¬ s.Observed 1 := by
  refine ⟨_, rfl, ?_, rfl, rfl, rfl, ?_⟩
  · intro t
    cases t <;> rfl
  · intro h
    have hp := (h (by decide)).1
    cases hp

end LeafReader
