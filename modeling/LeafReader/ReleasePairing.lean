import LeafReader.ActivationCleanup

/-!
# Searches and releases

`nfc_task` releases a card in the branch that processes it, and searches in every iteration. A card
that answers while `card_in_field` is set is activated and not released; the next activation then
starts with the field on and the link open.
-/

namespace LeafReader

variable {σ : Type}

/-! ### Calls of the loop -/

/-- The calls of `nfc_task` that acquire and release a card. -/
inductive NfcCall
  | find (e : EspErr)
  | release
deriving DecidableEq

/-- The calls of iteration `n`. -/
def callsAt (polls : ℕ → Poll) (n : ℕ) : List NfcCall :=
  .find (polls n).result ::
    if ((onPoll (polls n) (detectorAt polls n)).1).isSome then [.release] else []

/-- The calls of the first `n` iterations. -/
def calls (polls : ℕ → Poll) (n : ℕ) : List NfcCall := (List.range n).flatMap (callsAt polls)

/-- Between any two searches of which the first found a card there is a release. -/
def Paired (cs : List NfcCall) : Prop :=
  ∀ pre mid post e, cs = pre ++ .find .ok :: mid ++ .find e :: post → .release ∈ mid

/-- No search finds a card while `card_in_field` is set. -/
def AbsentWhenFound (polls : ℕ → Poll) : Prop :=
  ∀ n, (polls n).result = .ok → (detectorAt polls n).cardInField = false

section Pairing

variable {polls : ℕ → Poll}

theorem callsAt_of_processed {n : ℕ} (h : Processed polls n) :
    callsAt polls n = [.find (polls n).result, .release] := congrArg (_ :: ·) (if_pos h)

theorem callsAt_of_unprocessed {n : ℕ} (h : ¬ Processed polls n) :
    callsAt polls n = [.find (polls n).result] := congrArg (_ :: ·) (if_neg h)

theorem callsAt_eq (n : ℕ) : ∃ rel, callsAt polls n = .find (polls n).result :: rel ∧
    (.release ∈ rel → Processed polls n) := by
  by_cases h : Processed polls n
  · exact ⟨_, callsAt_of_processed h, fun _ => h⟩
  · exact ⟨_, callsAt_of_unprocessed h, nofun⟩

theorem processed_of_release {n : ℕ} (h : .release ∈ callsAt polls n) : Processed polls n := by
  obtain ⟨rel, hrel, hprocessed⟩ := @callsAt_eq polls n
  rw [hrel] at h
  exact hprocessed ((List.mem_cons.1 h).resolve_left nofun)

theorem Paired.cons {c : NfcCall} {cs : List NfcCall} (h : Paired cs) (hc : c ≠ .find .ok) :
    Paired (c :: cs) := by
  intro pre mid post e heq
  cases pre with
  | nil => exact absurd (List.cons.inj heq).1 hc
  | cons _ pre => exact h pre mid post e (List.cons.inj heq).2

theorem Paired.cons_release {cs : List NfcCall} (h : Paired cs) :
    Paired (.find .ok :: .release :: cs) := by
  intro pre mid post e heq
  cases pre with
  | nil =>
    have htail := (List.cons.inj heq).2
    cases mid with
    | nil => cases (List.cons.inj htail).1
    | cons c mid =>
      rw [← (List.cons.inj htail).1]
      exact List.mem_cons_self ..
  | cons _ pre =>
    exact h.cons (by decide) pre mid post e (List.cons.inj heq).2

theorem paired_flatMap {ns : List ℕ} (h : ∀ n ∈ ns, (polls n).result = .ok → Processed polls n) :
    Paired (ns.flatMap (callsAt polls)) := by
  induction ns with
  | nil =>
    intro pre mid post e heq
    simp at heq
  | cons n ns ih =>
    have hrest := ih fun m hm => h m (List.mem_cons_of_mem _ hm)
    rw [List.flatMap_cons]
    by_cases hp : Processed polls n
    · rw [callsAt_of_processed hp, (processed_iff.1 hp).1]
      exact hrest.cons_release
    · rw [callsAt_of_unprocessed hp]
      refine hrest.cons fun heq => hp (h n (List.mem_cons_self ..) ?_)
      injection heq

/-- Every card found is released before the next search exactly if none is found while
`card_in_field` is set. -/
theorem paired_iff : (∀ n, Paired (calls polls n)) ↔ AbsentWhenFound polls := by
  constructor
  · intro h n hok
    obtain ⟨rel, hrel, hprocessed⟩ := @callsAt_eq polls n
    obtain ⟨rel', hrel', -⟩ := @callsAt_eq polls (n + 1)
    have hcalls : calls polls (n + 2) =
        calls polls n ++ .find .ok :: rel ++ .find (polls (n + 1)).result :: rel' := by
      rw [calls, List.range_succ, List.range_succ]
      simp [calls, hrel, hrel', hok]
    exact (processed_iff.1 (hprocessed (h (n + 2) _ _ _ _ hcalls))).2
  · intro h n
    exact paired_flatMap fun m _ hok => processed_iff.2 ⟨hok, h m hok⟩

end Pairing

/-! ### The loop over the PN5180 -/

/-- `pn5180_iso14443_deselect`: the result, `g_pn5180_card` and the chip. -/
def pn5180Iso14443Deselect (ops : ChipOps σ) (card : Pn5180CardState) (s : σ) :
    EspErr × Pn5180CardState × σ :=
  if !card.iso144434Active then
    let (e, s) := ops.rfOff s
    (e, card, s)
  else
    let (_, s) := ops.sendData [0xC2] 0 s
    let (_, s) := ops.readData 1 s
    (.ok, { card with iso144434Active := false }, (ops.rfOff s).2)

/-- What comes from outside in an iteration: the mode, and what the exchanges of `leaf_read` or
`leaf_personalize` make of `g_pn5180_card` and the chip. -/
structure Turn (σ : Type) where
  mode : ReaderMode
  flow : Pn5180CardState × Wire σ → Pn5180CardState × Wire σ

/-- The locals of `nfc_task`, `g_pn5180_card` and the chip. -/
structure Pn5180Task (σ : Type) where
  detector : Detector
  card : Pn5180CardState
  wire : Wire σ

namespace Pn5180Task

variable (bus : ChipBus σ)

def poll (t : Turn σ) (s : Pn5180Task σ) : Poll :=
  ⟨codeOf (pn5180Iso14443Activate bus.chipOps 10 s.wire).result, t.mode⟩

/-- One iteration of the loop. -/
def turn (t : Turn σ) (s : Pn5180Task σ) : Pn5180Task σ :=
  let a := pn5180Iso14443Activate bus.chipOps 10 s.wire
  let (handled, detector) := onPoll (s.poll bus t) s.detector
  match handled with
  | none => ⟨detector, a.card, a.chip⟩
  | some h =>
    let (card, wire) := if h = .log then (a.card, a.chip) else t.flow (a.card, a.chip)
    let (_, card, wire) := pn5180Iso14443Deselect bus.chipOps card wire
    ⟨detector, card, wire⟩

/-- The state before iteration `n`. -/
def at' (turns : ℕ → Turn σ) (w : Wire σ) : ℕ → Pn5180Task σ
  | 0 => ⟨.init, noCard, w⟩
  | n + 1 => (at' turns w n).turn bus (turns n)

/-- The polls of the run. -/
def polls (turns : ℕ → Turn σ) (w : Wire σ) (n : ℕ) : Poll := (at' bus turns w n).poll bus (turns n)

/-- The field is on and the link with a card is open. -/
def Held (s : Pn5180Task σ) : Prop :=
  fieldAfter s.wire.issued false = true ∧ s.card.iso144434Active = true

variable {bus}

theorem deselect_closes (ops : ChipOps σ) (card : Pn5180CardState) (s : σ) :
    (pn5180Iso14443Deselect ops card s).2.1.iso144434Active = false := by
  rw [pn5180Iso14443Deselect]
  split
  · rename_i h
    simpa using h
  · rfl

/-- Both branches end with RF_OFF. -/
theorem deselect_fieldOff (card : Pn5180CardState) (w : Wire σ) (on : Bool) :
    fieldAfter (pn5180Iso14443Deselect bus.chipOps card w).2.2.issued on = false := by
  rw [pn5180Iso14443Deselect]
  split
  · exact bus.fieldAfter_rfOff w on
  · exact bus.fieldAfter_rfOff _ on

/-- An iteration that releases the card turns the field off. -/
theorem turn_fieldOff {t : Turn σ} {s : Pn5180Task σ}
    (h : (onPoll (s.poll bus t) s.detector).1.isSome) (on : Bool) :
    fieldAfter (s.turn bus t).wire.issued on = false := by
  rw [turn]
  generalize onPoll (s.poll bus t) s.detector = r at h
  obtain ⟨_ | handled, detector⟩ := r
  · cases h
  · exact deselect_fieldOff _ _ on

theorem activate_error {uidBuf : Nat} {w : Wire σ} {e : EspErr}
    (h : (pn5180Iso14443Activate bus.chipOps uidBuf w).result = .error e) :
    (pn5180Iso14443Activate bus.chipOps uidBuf w).card = noCard := by
  rcases bus.respects_quiet.activate_cases uidBuf w with
    ⟨-, ha⟩ | ⟨-, -, ha⟩ | ⟨-, -, w', -, ⟨e', ha⟩ | ⟨found, ha⟩ | ⟨found, ats, ha⟩⟩
  · rw [ha]
  · rw [ha]
  · rw [ha]
  · rw [ha] at h
    cases h
  · rw [ha] at h
    cases h

/-- The link is open after an iteration only if a card was found and not processed. -/
theorem turn_closed {t : Turn σ} {s : Pn5180Task σ}
    (h : (s.poll bus t).result = .ok → s.detector.cardInField = false) :
    (s.turn bus t).card.iso144434Active = false := by
  rw [turn]
  generalize hpoll : onPoll (s.poll bus t) s.detector = r
  obtain ⟨_ | handled, detector⟩ := r
  · cases hresult : (pn5180Iso14443Activate bus.chipOps 10 s.wire).result with
    | error e =>
      dsimp only
      rw [activate_error hresult]
      rfl
    | ok found =>
      have hok : (s.poll bus t).result = .ok := congrArg codeOf hresult
      simp only [onPoll, Detector.poll, hok, h hok, and_self, ↓reduceIte] at hpoll
      cases hpoll
  · exact deselect_closes _ _ _

theorem turn_detector (t : Turn σ) (s : Pn5180Task σ) :
    (s.turn bus t).detector = (onPoll (s.poll bus t) s.detector).2 := by
  rw [turn]
  generalize onPoll (s.poll bus t) s.detector = r
  obtain ⟨_ | handled, detector⟩ := r
  · rfl
  · rfl

theorem detectorAt_polls (turns : ℕ → Turn σ) (w : Wire σ) (n : ℕ) :
    detectorAt (polls bus turns w) n = (at' bus turns w n).detector := by
  induction n with
  | zero => rfl
  | succ n ih =>
    rw [detectorAt, ih]
    exact (turn_detector (turns n) _).symm

theorem not_held {turns : ℕ → Turn σ} {w : Wire σ} (h : AbsentWhenFound (polls bus turns w)) (n : ℕ) :
    ¬ (at' bus turns w n).Held := by
  have hclosed : (at' bus turns w n).card.iso144434Active = false := by
    cases n with
    | zero => rfl
    | succ n =>
      refine turn_closed fun hok => ?_
      rw [← detectorAt_polls]
      exact h n hok
  intro hheld
  rw [hheld.2] at hclosed
  cases hclosed

end Pn5180Task

/-- In a run of the loop, whatever the driver returns, every card found is released before the next
search exactly if none is found while `card_in_field` is set. With the PN5180 the field is off after
every release, and no activation of such a run starts with the field on and the link open. -/
theorem release_before_search (polls : ℕ → Poll) :
    ((∀ n, Paired (calls polls n)) ↔ AbsentWhenFound polls) ∧
      ∀ (σ : Type) (bus : ChipBus σ) (turns : ℕ → Turn σ) (w : Wire σ),
        polls = Pn5180Task.polls bus turns w →
          (∀ n, .release ∈ callsAt polls n →
            fieldAfter (Pn5180Task.at' bus turns w (n + 1)).wire.issued false = false) ∧
          (AbsentWhenFound polls → ∀ n, ¬ (Pn5180Task.at' bus turns w n).Held) := by
  refine ⟨paired_iff, fun σ bus turns w hpolls => ⟨fun n hrelease => ?_, fun h n => ?_⟩⟩
  · subst hpolls
    refine Pn5180Task.turn_fieldOff ?_ false
    rw [← Pn5180Task.detectorAt_polls]
    exact processed_of_release hrelease
  · subst hpolls
    exact Pn5180Task.not_held h n

/-- A card that is presented once, in read mode. -/
def oneCard (n : ℕ) : Poll := ⟨if n = 0 then .ok else .notFound, .read⟩

theorem release_before_search_oneCard : ∀ n, Paired (calls oneCard n) := by
  refine (release_before_search oneCard).1.mpr fun n hok => ?_
  cases n with
  | zero => rfl
  | succ n => cases hok

/-! ### A card that stays -/

/-- What a card with a UID of four bytes answers to a frame. -/
def shortAnswer : Bytes → Bytes
  | [0x26] => [0x44, 0x03]
  | [_, 0x20] => [0x04, 0x11, 0x22, 0x33, 0x04]
  | _ :: 0x70 :: _ => [0x20]
  | 0xE0 :: _ => [0x05, 0x78, 0x80, 0x02, 0x00]
  | frame => frame

/-- A chip with that card in the field; it keeps the last frame sent. -/
def shortCardBus : ChipBus Bytes where
  command frame n s :=
    match frame with
    | 0x09 :: _ :: data => (.ok (.replicate n 0), data)
    | [0x04, 0x13] => (.ok (.ofFn fun i => if i.val = 0 then (shortAnswer s).length.toUInt8 else 0), s)
    | [0x0A, _] => (.ok (.ofFn fun i => (shortAnswer s).getD i 0), s)
    | _ => (.ok (.replicate n 0xFF), s)
  turns _ _ := 0

def idleTurns (_ : ℕ) : Turn Bytes := ⟨.idle, id⟩

/-- The second search finds the card again: it is not released, and the third one starts with the
field on and the link open. -/
theorem shortCardBus_held :
    let polls := Pn5180Task.polls shortCardBus idleTurns ⟨[], []⟩
    (polls 0).result = .ok ∧ (polls 1).result = .ok ∧
      (Pn5180Task.at' shortCardBus idleTurns ⟨[], []⟩ 2).Held ∧ ¬ Paired (calls polls 3) := by
  refine ⟨by decide +kernel, by decide +kernel, ⟨by decide +kernel, by decide +kernel⟩, fun h => ?_⟩
  exact List.not_mem_nil (h [.find .ok, .release] [] [] .ok (by decide +kernel))

end LeafReader
