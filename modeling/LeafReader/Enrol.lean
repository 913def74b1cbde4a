import LeafReader.NfcTask
import LeafReader.Run
import Mathlib.Logic.Function.Basic
import Mathlib.Data.List.Count

/-!
# Enrol requests (`mode_controller.c`, `nfc_task.c`)

Any number of UI tasks enrol credentials and set modes while `nfc_task` handles presentations; reading
and personalizing a card end in any way. The one slot of the write request is filled and emptied in
critical sections. Each accepted request has a number, and the accounts at the end of the state say
where it went.
-/

namespace LeafReader

/-- A UI task in `cmd_enroll` or the enrol command of the web UI: the request is stored first, then
the mode is set. -/
inductive UiPoint
  | idle | stored
deriving DecidableEq, Repr

/-- Where `nfc_task` stands in its loop; `waiting` is the number of the request that was pending
when the presentation took one, `source` that of the request it took. -/
inductive NfcPoint
  | loop
  | found (uid : Bytes)
  | reading (uid : Bytes)
  | taking (uid : Bytes)
  | writing (uid : Bytes) (waiting source : Option ℕ) (toWrite : Credential)
deriving DecidableEq

/-- The request on the card that is being personalized. -/
def NfcPoint.source : NfcPoint → Option ℕ
  | .writing _ _ source _ => source
  | _ => none

/-- A personalization that has ended. -/
structure WriteOutcome where
  waiting : Option ℕ
  source : Option ℕ
  cred : Credential
  ok : Bool
deriving DecidableEq

/-- Modes, the write request, the tasks and the events posted, last first; then the accounts: the
credentials of the requests so far, the numbers of those overwritten in the slot, and the ended
personalizations, last first. -/
structure EnrolState (ι : Type) where
  mode : ReaderMode
  request : WriteRequest
  ui : ι → UiPoint
  detector : Detector
  nfc : NfcPoint
  posted : List ReaderEvent
  accepted : List Credential
  overwritten : List ℕ
  outcomes : List WriteOutcome

inductive EnrolAction (ι : Type)
  -- `mode_set_write_request` and then `mode_set(WRITE)`
  | enrol (t : ι) (c : Credential)
  | enrolMode (t : ι)
  | modeSet (t : ι) (m : ReaderMode)
  | poll (e : EspErr) (uid : Bytes)
  -- the steps of `nfc_task` between two polls
  | modeGet
  | takeRequest
  | readDone (r : Option Credential)
  | writeDone (ok : Bool)

/-- What is written when nothing is queued. -/
def dummyCredential : Credential := ⟨0x0001, 0xCAFEBABE, 0⟩

def cardEvent (kind : ReaderEventKind) (mode : ReaderMode) (cred : Credential) (uid : Bytes) :
    ReaderEvent :=
  ⟨kind, mode, cred, eventUid uid, uid.length.toUInt8⟩

namespace EnrolState

variable {ι : Type} [DecidableEq ι]

def init : EnrolState ι :=
  ⟨.idle, ⟨⟨0, 0, 0⟩, false⟩, fun _ => .idle, .init, .loop, [], [], [], []⟩

/-- The request with number `accepted.length` is stored. -/
def store (t : ι) (c : Credential) (s : EnrolState ι) : EnrolState ι :=
  { s with
    request := modeSetWriteRequest c s.request
    ui := Function.update s.ui t .stored
    accepted := s.accepted ++ [c]
    overwritten :=
      if s.request.pending then (s.accepted.length - 1) :: s.overwritten else s.overwritten }

/-- The number of the request in the slot. -/
def slot (s : EnrolState ι) : Option ℕ :=
  if s.request.pending then some (s.accepted.length - 1) else none

/-- `mode_take_write_request`, or the dummy. -/
def take (uid : Bytes) (s : EnrolState ι) : EnrolState ι :=
  match modeTakeWriteRequest s.request with
  | (some c, r) =>
    { s with request := r, nfc := .writing uid s.slot (some (s.accepted.length - 1)) c }
  | (none, r) => { s with request := r, nfc := .writing uid s.slot none dummyCredential }

end EnrolState

section

variable {ι : Type} [DecidableEq ι]

def enrolStep : EnrolAction ι → EnrolState ι → Option (EnrolState ι)
  | .enrol t c, s => if s.ui t = .idle then some (s.store t c) else none
  | .enrolMode t, s =>
    if s.ui t = .stored then some { s with mode := .write, ui := Function.update s.ui t .idle }
    else none
  | .modeSet t m, s => if s.ui t = .idle then some { s with mode := m } else none
  | .poll e uid, s =>
    match s.nfc, s.detector.poll e with
    | .loop, (hit, d) => some { s with detector := d, nfc := if hit then .found uid else .loop }
    | _, _ => none
  | .modeGet, s =>
    match s.nfc with
    | .found uid =>
      match s.mode with
      | .read => some { s with nfc := .reading uid }
      | .write => some { s with nfc := .taking uid }
      | .idle => some { s with nfc := .loop }
    | _ => none
  | .takeRequest, s =>
    match s.nfc with
    | .taking uid => some (s.take uid)
    | _ => none
  | .readDone r, s =>
    match s.nfc with
    | .reading uid =>
      let e := match r with
        | some cred => cardEvent .cardReadOk .read cred uid
        | none => cardEvent .cardReadFail .read ⟨0, 0, 0⟩ uid
      some { s with nfc := .loop, posted := e :: s.posted }
    | _ => none
  | .writeDone ok, s =>
    match s.nfc with
    | .writing uid waiting source toWrite =>
      let e := if ok then cardEvent .cardWriteOk .write toWrite uid
        else cardEvent .cardWriteFail .write ⟨0, 0, 0⟩ uid
      some { s with
        nfc := .loop, posted := e :: s.posted,
        outcomes := ⟨waiting, source, toWrite, ok⟩ :: s.outcomes }
    | _ => none

/-- The credentials of the `EVT_CARD_WRITE_OK` events, last first. -/
def written (posted : List ReaderEvent) : List Credential :=
  (posted.filter fun e => e.kind = .cardWriteOk).map (·.cred)

namespace EnrolState

/-- Where the requests are: in the slot, overwritten in it, on the card that is being personalized, or
on the cards that were. -/
def places (s : EnrolState ι) : List ℕ :=
  s.slot.toList ++ s.overwritten ++ s.nfc.source.toList ++ s.outcomes.filterMap (·.source)

/-- The request that was pending is the one that was taken, and `c` is its credential; `c` is the
dummy if none was pending. -/
def FromSource (s : EnrolState ι) (waiting source : Option ℕ) (c : Credential) : Prop :=
  source = waiting ∧
    match waiting with
    | some i => s.accepted[i]? = some c
    | none => c = dummyCredential

/-- Every accepted request is in exactly one place, every personalization has the request that was
pending, or the dummy with none pending, and the `EVT_CARD_WRITE_OK` events are those of the
personalizations that succeeded. -/
structure Accounted (s : EnrolState ι) : Prop where
  once : s.places.Perm (List.range s.accepted.length)
  slot : s.request.pending = true → s.accepted.getLast? = some s.request.cred
  writing : ∀ uid waiting source c, s.nfc = .writing uid waiting source c → s.FromSource waiting source c
  outcome : ∀ o ∈ s.outcomes, s.FromSource o.waiting o.source o.cred
  posted : written s.posted = (s.outcomes.filter (·.ok)).map (·.cred)

variable {s s' : EnrolState ι}

theorem FromSource.store {waiting source : Option ℕ} {c : Credential} (h : s.FromSource waiting source c)
    (t : ι) (c' : Credential) : (s.store t c').FromSource waiting source c := by
  obtain ⟨hsource, hcred⟩ := h
  refine ⟨hsource, ?_⟩
  cases waiting with
  | none => exact hcred
  | some i =>
    have hi : i < s.accepted.length := (List.getElem?_eq_some_iff.1 hcred).1
    show (s.accepted ++ [c'])[i]? = some c
    rw [List.getElem?_append_left hi]
    exact hcred

namespace Accounted

omit [DecidableEq ι] in
theorem init : Accounted (EnrolState.init : EnrolState ι) where
  once := .refl _
  slot h := by cases h
  writing _ _ _ _ h := by cases h
  outcome _ h := by cases h
  posted := rfl

omit [DecidableEq ι] in
/-- The steps that leave the slot, the card and the accounts alone. -/
theorem frame (h : Accounted s) (hr : s'.request = s.request) (ha : s'.accepted = s.accepted)
    (ho : s'.overwritten = s.overwritten) (hout : s'.outcomes = s.outcomes)
    (hn : s.nfc.source = none) (hn' : ∀ uid waiting source c, s'.nfc ≠ .writing uid waiting source c)
    (hp : written s'.posted = written s.posted) : Accounted s' where
  once := by
    have hsource : s'.nfc.source = none := by
      cases hs' : s'.nfc with
      | writing uid waiting source c => exact absurd hs' (hn' uid waiting source c)
      | _ => rfl
    have hpl : s'.places = s.places := by
      simp only [places, EnrolState.slot, hr, ha, ho, hout, hn, hsource]
    rw [hpl, ha]
    exact h.once
  slot hpend := by
    rw [ha, hr]
    exact h.slot (hr ▸ hpend)
  writing uid waiting source c hc := absurd hc (hn' uid waiting source c)
  outcome o ho' := by
    simp only [FromSource, ha]
    exact h.outcome o (hout ▸ ho')
  posted := by rw [hp, hout, h.posted]

omit [DecidableEq ι] in
/-- A task sets the mode, or goes on to do so. -/
theorem setMode (h : Accounted s) (m : ReaderMode) (ui : ι → UiPoint) :
    Accounted { s with mode := m, ui := ui } :=
  ⟨h.once, h.slot, h.writing, h.outcome, h.posted⟩

theorem store (h : Accounted s) (t : ι) (c : Credential) : Accounted (s.store t c) where
  once := by
    -- the new number takes the slot; the one that was in it is now an overwritten one
    have hpl : (s.store t c).places.Perm (s.accepted.length :: s.places) := by
      by_cases hp : s.request.pending = true
      · simp [places, EnrolState.slot, EnrolState.store, modeSetWriteRequest, hp]
      · simp [places, EnrolState.slot, EnrolState.store, modeSetWriteRequest, hp]
    have hlen : (s.store t c).accepted.length = s.accepted.length + 1 := by simp [EnrolState.store]
    rw [hlen, List.range_succ]
    exact hpl.trans ((h.once.cons _).trans (List.perm_append_singleton _ _).symm)
  slot _ := by simp [EnrolState.store, modeSetWriteRequest]
  writing uid waiting source c' hc := (h.writing uid waiting source c' hc).store t c
  outcome o ho := (h.outcome o ho).store t c
  posted := h.posted

omit [DecidableEq ι] in
theorem take {uid : Bytes} (h : Accounted s) (hn : s.nfc = .taking uid) : Accounted (s.take uid) := by
  by_cases hp : s.request.pending = true
  · -- the number in the slot goes to the card
    have ht : s.take uid = { s with
        request := { s.request with pending := false }
        nfc := .writing uid (some (s.accepted.length - 1)) (some (s.accepted.length - 1))
          s.request.cred } := by
      simp [EnrolState.take, modeTakeWriteRequest, EnrolState.slot, hp]
    have hpl : (s.take uid).places.Perm s.places := by
      rw [ht]
      simp only [places, EnrolState.slot, hp, hn, NfcPoint.source, ↓reduceIte, Option.toList_some,
        Option.toList_none, List.append_nil]
      exact List.Perm.append_right _ List.perm_append_comm
    have hlast := h.slot hp
    rw [List.getLast?_eq_getElem?] at hlast
    refine ⟨hpl.trans (by rw [ht]; exact h.once), ?_, ?_, ?_, ?_⟩
    · rw [ht]
      exact fun hf => by cases hf
    · rw [ht]
      intro uid' waiting source c hc
      cases hc
      exact ⟨rfl, hlast⟩
    · rw [ht]
      exact h.outcome
    · rw [ht]
      exact h.posted
  · have ht : s.take uid = { s with nfc := .writing uid none none dummyCredential } := by
      simp [EnrolState.take, modeTakeWriteRequest, EnrolState.slot, hp]
    rw [ht]
    refine ⟨?_, h.slot, ?_, h.outcome, h.posted⟩
    · have honce := h.once
      simp only [places, hn, NfcPoint.source] at honce ⊢
      exact honce
    · intro uid' waiting source c hc
      cases hc
      exact ⟨rfl, rfl⟩

omit [DecidableEq ι] in
theorem writeDone {uid : Bytes} {waiting source : Option ℕ} {c : Credential} {e : ReaderEvent} {ok : Bool}
    (h : Accounted s) (hn : s.nfc = .writing uid waiting source c)
    (hk : e.kind = .cardWriteOk ↔ ok = true) (hc : ok = true → e.cred = c) :
    Accounted { s with
      nfc := .loop, posted := e :: s.posted, outcomes := ⟨waiting, source, c, ok⟩ :: s.outcomes } where
  once := by
    have honce := h.once
    rw [places, hn] at honce
    refine List.Perm.trans ?_ honce
    cases source <;> simp [places, EnrolState.slot, NfcPoint.source]
  slot := h.slot
  writing _ _ _ _ hw := by cases hw
  outcome o ho := by
    rcases List.mem_cons.1 ho with rfl | ho
    · exact h.writing uid waiting source c hn
    · exact h.outcome o ho
  posted := by
    have hp := h.posted
    simp only [written] at hp ⊢
    cases ok with
    | true =>
      have hcred := hc rfl
      simp [hk.2 rfl, hp, hcred]
    | false =>
      have hkind : ¬ e.kind = .cardWriteOk := fun hcontra => by simpa using hk.1 hcontra
      simp [hkind, hp]

/-- Every step keeps the accounts. -/
theorem step (a : EnrolAction ι) (s s' : EnrolState ι) (h : Accounted s)
    (hs : enrolStep a s = some s') : Accounted s' := by
  cases a with
  | enrol t c =>
    simp only [enrolStep] at hs
    split at hs
    · cases hs
      exact h.store t c
    · cases hs
  | enrolMode t =>
    simp only [enrolStep] at hs
    split at hs
    · cases hs
      exact h.setMode .write _
    · cases hs
  | modeSet t m =>
    simp only [enrolStep] at hs
    split at hs
    · cases hs
      exact h.setMode m _
    · cases hs
  | poll e uid =>
    simp only [enrolStep] at hs
    split at hs
    · rename_i hn _
      cases hs
      refine h.frame rfl rfl rfl rfl (by rw [hn]; rfl) (fun uid' waiting source c => ?_) rfl
      simp only
      split <;> simp
    · cases hs
  | modeGet =>
    simp only [enrolStep] at hs
    split at hs
    · rename_i uid hn
      have hnone : s.nfc.source = none := by rw [hn]; rfl
      split at hs <;> cases hs <;> exact h.frame rfl rfl rfl rfl hnone (by simp) rfl
    · cases hs
  | takeRequest =>
    simp only [enrolStep] at hs
    split at hs
    · rename_i uid hn
      cases hs
      exact h.take hn
    · cases hs
  | readDone r =>
    simp only [enrolStep] at hs
    split at hs
    · rename_i uid hn
      cases hs
      refine h.frame rfl rfl rfl rfl (by rw [hn]; rfl) (by simp) ?_
      cases r <;> rfl
    · cases hs
  | writeDone ok =>
    simp only [enrolStep] at hs
    split at hs
    · rename_i uid waiting source c hn
      cases hs
      cases ok with
      | true => exact h.writeDone hn (by simp [cardEvent]) (fun _ => rfl)
      | false => exact h.writeDone hn (by simp [cardEvent]) (fun hf => by cases hf)
    · cases hs

end Accounted

end EnrolState

/-- In every reachable state, each accepted request is accounted for exactly once. -/
theorem enrol_accounted (as : List (EnrolAction ι)) (s : EnrolState ι)
    (hs : exec enrolStep as .init = some s) : s.Accounted :=
  exec_always EnrolState.Accounted.step EnrolState.Accounted.init hs

end

/-- A credential is enrolled, its card fails to be personalized, and another card is presented. -/
def failedEnrol : List (EnrolAction Unit) :=
  [.enrol () ⟨7, 42, 0⟩, .enrolMode (), .poll .ok [1, 2, 3, 4], .modeGet, .takeRequest,
    .writeDone false, .poll .notFound [], .poll .notFound [], .poll .notFound [], .poll .notFound [],
    .poll .ok [5, 6, 7, 8], .modeGet, .takeRequest, .writeDone true]

/-- The accounts after both presentations, the second of which found no request. -/
theorem enrol_accounted_failedEnrol :
    ∃ s, exec enrolStep failedEnrol .init = some s ∧ s.Accounted ∧
      s.outcomes.map (·.waiting) = [none, some 0] :=
  ⟨_, rfl, enrol_accounted failedEnrol _ rfl, rfl⟩

/-- The only request is neither pending nor written, and a credential nobody asked for is. -/
theorem failedEnrol_lost :
    ∃ s, exec enrolStep failedEnrol .init = some s ∧ s.accepted = [⟨7, 42, 0⟩] ∧
      s.request.pending = false ∧ s.overwritten = [] ∧ written s.posted = [dummyCredential] ∧
      dummyCredential ∉ s.accepted := by
  refine ⟨_, rfl, rfl, rfl, rfl, rfl, ?_⟩
  decide

end LeafReader
