import LeafReader.OpStep
import LeafReader.LeafFlow
import LeafReader.Run

/-!
# The MAC key slot between two tasks

`g_session_mac_key_full` is written by the NFC task, in the ways of `KeyUse`, and by the console's
self-test, which saves it, puts its own key in and restores it. A copy to or from the slot, and a call of
`desfire_cmac`, is one step. The state keeps, beside the NFC task's variables, those it would have if it
ran alone; `Exclusive` keeps the two equal but for the time of the self-test's own key.
-/

namespace LeafReader

/-- One atomic step of the NFC task on the key slot and the session. -/
inductive Micro
  | save
  | set (k : Block)
  | cmac
  -- the `desfire_cmac` of `derive_session_keys` whose result is `k_ses_auth_mac`
  | derive (k : Block)
  | restore
  -- the slot is loaded with `k_ses_auth_mac`
  | load
  | flag (b : Bool)
  -- the `memset` of `desfire_init`
  | clear
deriving DecidableEq, Repr

/-- The key slot, the session fields that go with it, the task's local `saved`, and the keys its CMACs
were computed with, last first. -/
structure KeyView where
  slot : Block
  kSesAuthMac : Block
  authenticated : Bool
  saved : Block
  macs : List Block
deriving DecidableEq

namespace Micro

def run (v : KeyView) : Micro → KeyView
  | .save => { v with saved := v.slot }
  | .set k => { v with slot := k }
  | .cmac => { v with macs := v.slot :: v.macs }
  | .derive k => { v with macs := v.slot :: v.macs, kSesAuthMac := k }
  | .restore => { v with slot := v.saved }
  | .load => { v with slot := v.kSesAuthMac }
  | .flag b => { v with authenticated := b }
  | .clear => { v with kSesAuthMac := .zero, authenticated := false }

/-- The step reads or writes the slot. -/
def usesSlot : Micro → Bool
  | .save | .set _ | .cmac | .derive _ | .restore | .load => true
  | .flag _ | .clear => false

end Micro

/-- The parts of the NFC task's calls that have to do with the slot. -/
inductive KeyUse
  -- `cmac_with_key`, `leaf_diversify_key`, `leaf_payload_mac`, and the block in `leaf_personalize`
  | withKey (k : Block)
  -- the end of `desfire_auth_ev2_first`
  | capture (key kMac : Block)
  -- a MAC of a command or of an answer
  | sessionMac
  -- SelectApplication, and ChangeKey of the session's own key
  | close
  | init

def KeyUse.steps : KeyUse → List Micro
  | .withKey k => [.save, .set k, .cmac, .restore]
  | .capture key kMac =>
    [.save, .set key, .cmac, .restore, .save, .set key, .derive kMac, .restore, .load, .flag true]
  | .sessionMac => [.cmac]
  | .close => [.flag false]
  | .init => [.clear]

/-! ### The tasks -/

/-- The console task in `leaf_payload_mac`; it keeps what it saved. -/
inductive ConsolePoint
  | idle
  | saved (k : Block)
  | set (k : Block)
  | computed (k : Block)
deriving DecidableEq

/-- What the NFC task sees, what it would see alone, and what is left of its current use. -/
structure SlotState where
  nfc : KeyView
  alone : KeyView
  todo : List Micro
  console : ConsolePoint

inductive SlotAction
  | start (use : KeyUse)
  | nfc
  -- the next step of `cmd_self_test`, or the first of a new one
  | console

/-- The key of the self-test. -/
def selfTestKey : Block := .zero

namespace SlotState

def init : SlotState :=
  let v : KeyView := ⟨.zero, .zero, false, .zero, []⟩
  ⟨v, v, [], .idle⟩

def setSlot (s : SlotState) (k : Block) : SlotState := { s with nfc := { s.nfc with slot := k } }

/-- One step of the self-test. -/
def consoleStep (s : SlotState) : SlotState :=
  match s.console with
  | .idle => { s with console := .saved s.nfc.slot }
  | .saved k => { s.setSlot selfTestKey with console := .set k }
  | .set k => { s with console := .computed k }
  | .computed k => { s.setSlot k with console := .idle }

end SlotState

def slotStep : SlotAction → SlotState → Option SlotState
  | .start use, s => if s.todo = [] then some { s with todo := use.steps } else none
  | .nfc, s =>
    match s.todo with
    | [] => none
    | m :: ms => some { s with nfc := m.run s.nfc, alone := m.run s.alone, todo := ms }
  | .console, s => some s.consoleStep

/-- Every CMAC of the NFC task used the key that task had set last; and when both tasks are idle, an
authenticated session has its MAC key in the slot. -/
def SlotState.Undisturbed (s : SlotState) : Prop :=
  s.nfc.macs = s.alone.macs ∧
    (s.todo = [] → s.console = .idle → s.nfc.authenticated = true → s.nfc.slot = s.nfc.kSesAuthMac)

/-- The self-test puts its key over the one it saved, and the NFC task keeps away from the slot until
that is restored. -/
def Exclusive : SlotAction → SlotState → Prop
  | .start _, _ => True
  | .nfc, s =>
    match s.console with
    | .idle | .saved _ => True
    | .set _ | .computed _ => ∀ m ∈ s.todo.head?, m.usesSlot = false
  | .console, s =>
    match s.console with
    | .saved k => s.nfc.slot = k
    | _ => True

instance decidableExclusive : ∀ a s, Decidable (Exclusive a s)
  | .start _, _ => .isTrue trivial
  | .nfc, ⟨_, _, _, .idle⟩ | .nfc, ⟨_, _, _, .saved _⟩ => .isTrue trivial
  | .nfc, ⟨_, _, todo, .set _⟩ | .nfc, ⟨_, _, todo, .computed _⟩ =>
    inferInstanceAs (Decidable (∀ m ∈ todo.head?, m.usesSlot = false))
  | .console, ⟨nfc, _, _, .saved k⟩ => inferInstanceAs (Decidable (nfc.slot = k))
  | .console, ⟨_, _, _, .idle⟩ | .console, ⟨_, _, _, .set _⟩ | .console, ⟨_, _, _, .computed _⟩ =>
    .isTrue trivial

/-! ### The invariant -/

/-- An authenticated session has its MAC key in the slot. -/
def KeyView.Live (v : KeyView) : Prop := v.authenticated = true → v.slot = v.kSesAuthMac

def KeyView.runAll (v : KeyView) (ms : List Micro) : KeyView := ms.foldl Micro.run v

theorem KeyUse.live (use : KeyUse) {v : KeyView} (h : v.Live) : (v.runAll use.steps).Live := by
  cases use with
  | withKey k | sessionMac => exact h
  | capture key kMac => exact fun _ => rfl
  | close | init => exact fun ha => by cases ha

structure SlotInv (s : SlotState) : Prop where
  -- but for the slot, the NFC task sees what it would see alone
  same : { s.nfc with slot := s.alone.slot } = s.alone
  slot : match s.console with
    | .idle | .saved _ => s.nfc.slot = s.alone.slot
    | .set k | .computed k => k = s.alone.slot
  live : (s.alone.runAll s.todo).Live

namespace SlotInv

variable {s s' : SlotState}

theorem init : SlotInv .init := ⟨rfl, rfl, fun ha => by cases ha⟩

/-- With the right key in the slot, the two views are equal. -/
theorem nfc_eq (h : SlotInv s) (hslot : s.nfc.slot = s.alone.slot) : s.nfc = s.alone := by
  rw [← h.same, ← hslot]

theorem run_unused {v : KeyView} {k : Block} {m : Micro} (hm : m.usesSlot = false) :
    m.run { v with slot := k } = { m.run v with slot := k } := by
  cases m <;> first | rfl | cases hm

theorem slot_unused {v : KeyView} {m : Micro} (hm : m.usesSlot = false) :
    (m.run v).slot = v.slot := by
  cases m <;> first | rfl | cases hm

theorem nfcStep {m : Micro} {ms : List Micro} (h : SlotInv s) (ht : s.todo = m :: ms)
    (hx : Exclusive .nfc s) :
    SlotInv { s with nfc := m.run s.nfc, alone := m.run s.alone, todo := ms } := by
  have hlive := h.live
  rw [ht] at hlive
  have hslot := h.slot
  simp only [Exclusive, ht, List.head?_cons, Option.mem_def, Option.some.injEq, forall_eq'] at hx
  cases hc : s.console with
  | idle | saved k =>
    rw [hc] at hslot
    have heq := h.nfc_eq hslot
    refine ⟨by rw [heq], ?_, hlive⟩
    simp only [heq]
  | set k | computed k =>
    rw [hc] at hslot hx
    refine ⟨?_, ?_, hlive⟩
    · show { m.run s.nfc with slot := (m.run s.alone).slot } = m.run s.alone
      rw [slot_unused hx, ← run_unused hx, h.same]
    · simp only
      rw [slot_unused hx]
      exact hslot

theorem consoleStep (h : SlotInv s) (hx : Exclusive .console s) : SlotInv s.consoleStep := by
  have hslot := h.slot
  cases hc : s.console with
  | idle =>
    rw [hc] at hslot
    simp only [SlotState.consoleStep, hc]
    exact ⟨h.same, hslot, h.live⟩
  | saved k =>
    simp only [hc] at hslot
    simp only [Exclusive, hc] at hx
    simp only [SlotState.consoleStep, hc, SlotState.setSlot]
    exact ⟨h.same, by rw [← hx, hslot], h.live⟩
  | set k =>
    rw [hc] at hslot
    simp only [SlotState.consoleStep, hc]
    exact ⟨h.same, hslot, h.live⟩
  | computed k =>
    rw [hc] at hslot
    simp only [SlotState.consoleStep, hc, SlotState.setSlot]
    exact ⟨h.same, hslot, h.live⟩

theorem step (a : SlotAction) (s s' : SlotState) (hx : Exclusive a s) (h : SlotInv s)
    (hs : slotStep a s = some s') : SlotInv s' := by
  cases a with
  | start use =>
    simp only [slotStep] at hs
    split at hs
    · rename_i ht
      cases hs
      have hlive := h.live
      rw [ht] at hlive
      exact ⟨h.same, h.slot, use.live hlive⟩
    · cases hs
  | nfc =>
    simp only [slotStep] at hs
    split at hs
    · cases hs
    · rename_i m ms ht
      cases hs
      exact h.nfcStep ht hx
  | console =>
    cases hs
    exact h.consoleStep hx

theorem undisturbed (h : SlotInv s) : s.Undisturbed := by
  have hmacs := congrArg KeyView.macs h.same
  refine ⟨hmacs, fun ht hc ha => ?_⟩
  have hslot := h.slot
  rw [hc] at hslot
  have hlive := h.live
  rw [ht] at hlive
  have heq := h.nfc_eq hslot
  rw [heq] at ha ⊢
  exact hlive ha

end SlotInv

/-! ### The calls of the NFC task -/

/-- What the NFC task sees when its call is in no section. -/
def Host.keyView (h : Host) (saved : Block) (macs : List Block) : KeyView :=
  ⟨h.macKey, h.session.kSesAuthMac, h.session.authenticated, saved, macs⟩

/-- The call that leads from `h` to `h'` uses the slot in some of the ways of `KeyUse`, one after the
other. -/
def Uses (h h' : Host) : Prop :=
  ∃ uses : List KeyUse, ∀ saved macs, ∃ saved' macs',
    (h.keyView saved macs).runAll (uses.flatMap KeyUse.steps) = h'.keyView saved' macs'

namespace Uses

variable {h h' h'' : Host}

theorem runAll_append (v : KeyView) (ms ms' : List Micro) :
    v.runAll (ms ++ ms') = (v.runAll ms).runAll ms' := List.foldl_append

theorem trans (h₁ : Uses h h') (h₂ : Uses h' h'') : Uses h h'' := by
  obtain ⟨us, hu⟩ := h₁
  obtain ⟨us', hu'⟩ := h₂
  refine ⟨us ++ us', fun saved macs => ?_⟩
  obtain ⟨saved₁, macs₁, h₁⟩ := hu saved macs
  obtain ⟨saved₂, macs₂, h₂⟩ := hu' saved₁ macs₁
  exact ⟨saved₂, macs₂, by rw [List.flatMap_append, runAll_append, h₁, h₂]⟩

theorem of_same (hm : h'.macKey = h.macKey) (hk : h'.session.kSesAuthMac = h.session.kSesAuthMac)
    (ha : h'.session.authenticated = h.session.authenticated) : Uses h h' :=
  ⟨[], fun saved macs => ⟨saved, macs, by simp [Host.keyView, KeyView.runAll, hm, hk, ha]⟩⟩

theorem of_close (hm : h'.macKey = h.macKey) (hk : h'.session.kSesAuthMac = h.session.kSesAuthMac)
    (ha : h'.session.authenticated = false) : Uses h h' :=
  ⟨[.close], fun saved macs => ⟨saved, macs, by
    simp [Host.keyView, KeyView.runAll, KeyUse.steps, Micro.run, hm, hk, ha]⟩⟩

theorem of_capture (hm : h'.macKey = h'.session.kSesAuthMac) (ha : h'.session.authenticated = true)
    (key : Block) : Uses h h' :=
  ⟨[.capture key h'.session.kSesAuthMac], fun saved macs => ⟨h.macKey, key :: key :: macs, by
    simp [Host.keyView, KeyView.runAll, KeyUse.steps, Micro.run, hm, ha]⟩⟩

theorem init : Uses h { desfireInit with macKey := h.macKey } :=
  ⟨[.init], fun saved macs => ⟨saved, macs, rfl⟩⟩

end Uses

/-- The MAC key of the session is the same, and it is open only if it was. -/
def SameKeys (s s' : Session) : Prop :=
  s'.kSesAuthMac = s.kSesAuthMac ∧ (s'.authenticated = s.authenticated ∨ s'.authenticated = false)

theorem SameKeys.refl (s : Session) : SameKeys s s := ⟨rfl, .inl rfl⟩

theorem SameKeys.bump (s : Session) : SameKeys s s.bump := ⟨rfl, .inl rfl⟩

theorem SameKeys.ite {s s₁ s₂ : Session} {p : Prop} [Decidable p] (h₁ : SameKeys s s₁)
    (h₂ : SameKeys s s₂) : SameKeys s (if p then s₁ else s₂) := by
  split
  · exact h₁
  · exact h₂

theorem Op.next_keys (op : Op) (s : Session) (r : LinkResult) : SameKeys s (op.next s r) := by
  have hbump := SameKeys.bump s
  have hself := SameKeys.refl s
  cases op with
  | readData _ _ _ comm | writeData _ _ comm =>
    cases comm with
    | plain => exact hself
    | cmac | encrypted => exact hbump.ite hself
  | changeKey => exact SameKeys.ite (.ite ⟨rfl, .inr rfl⟩ hbump) hself
  | selectApplication => exact SameKeys.ite ⟨rfl, .inr rfl⟩ hself
  | authEv2First => exact hself
  | _ => exact hbump.ite hself

section Calls

variable {σ : Type} {aes : Aes} {nfc : Nfc σ} {w : World σ}

theorem auth_uses (keyNo : UInt8) (key rndA : Block) (w : World σ) :
    Uses w.host (desfireAuthEv2First aes nfc keyNo key rndA w).world.host := by
  rcases auth_cases aes nfc keyNo key rndA w with
    ⟨-, hs, hm, -⟩ | ⟨eRndB, plain, -, -, -, hs, hm, -⟩
  · exact .of_same hm (by rw [hs]) (by rw [hs])
  · exact .of_capture hm (by rw [hs]; rfl) key

/-- Every card operation uses the slot in the ways of `KeyUse`. -/
theorem op_uses {op : Op} {c : Call σ EspErr} (hc : op.run aes nfc w = .ok c) :
    Uses w.host c.world.host := by
  by_cases hna : op.IsAuth
  · obtain ⟨keyNo, key, rndA, rfl⟩ := hna.exists_eq
    cases hc
    exact auth_uses keyNo key rndA w
  obtain ⟨-, hw⟩ | ⟨cmd, params, -, hs, hm, -⟩ := Op.run_ok_cases aes nfc hna hc
  · rw [hw]
    exact .of_same rfl rfl rfl
  · obtain ⟨hk, ha⟩ := op.next_keys w.host.session (nfc w.link (apdu cmd params)).1
    rcases ha with ha | ha
    · exact .of_same hm (by rw [hs, hk]) (by rw [hs, ha])
    · exact .of_close hm (by rw [hs, hk]) (by rw [hs, ha])

theorem flow_uses {fs : List FlowOp} {c : Call σ EspErr} (hc : runFlow aes nfc fs w = .ok c) :
    Uses w.host c.world.host :=
  runFlow_rel (R := fun w w' => Uses w.host w'.host) (fun _ => .of_same rfl rfl rfl) Uses.trans fs
    (fun _ _ _ _ h => op_uses h) w c hc

theorem leafPersonalize_uses {site : Block} {uid : Bytes} {cred : Credential}
    {rndA1 rndA2 rndA3 : Block} {mem : Vector UInt8 32} {c : Call σ EspErr}
    (hc : leafPersonalize aes nfc (some site) uid cred rndA1 rndA2 rndA3 mem w = .ok c) :
    Uses w.host c.world.host :=
  flow_uses (leafPersonalize_eq aes nfc site uid cred rndA1 rndA2 rndA3 mem w ▸ hc)

theorem leafRead_uses {site : Block} {uid : Bytes} {rndA : Block} {mem : Vector UInt8 32}
    {r : ReadCall σ} (hr : leafRead aes nfc (some site) uid rndA mem w = .ok r) :
    Uses w.host r.world.host := by
  obtain ⟨c, hc, hw⟩ := leafRead_world hr
  rw [hw]
  exact flow_uses hc

end Calls

/-! ### Self-tests -/

/-- Self-tests that are exclusive do not disturb the NFC task, in any state of any run. -/
theorem undisturbed_of_exclusive (as : List SlotAction) (s : SlotState)
    (hx : Throughout slotStep Exclusive as .init) (hs : exec slotStep as .init = some s) :
    s.Undisturbed :=
  (exec_invariant SlotInv.step as .init s .init hx hs).undisturbed

def sampleKey : Block := .replicate 16 1

/-- A handshake, a self-test from beginning to end, and a command under the session. -/
def testInSession : List SlotAction :=
  [.start (.capture defaultKey sampleKey)] ++ List.replicate 10 .nfc ++ List.replicate 4 .console ++
    [.start .sessionMac, .nfc]

/-- The command's MAC is computed with the key of the session. -/
theorem undisturbed_in_session :
    ∃ s, exec slotStep testInSession .init = some s ∧ s.nfc.authenticated = true ∧ s.console = .idle ∧
      s.nfc.macs.head? = some sampleKey ∧ s.Undisturbed := by
  have hexclusive : Throughout slotStep Exclusive testInSession .init := by decide
  exact ⟨_, rfl, rfl, rfl, rfl, undisturbed_of_exclusive testInSession _ hexclusive rfl⟩

/-- A handshake ends while a self-test is under way, which then restores the key from before it. -/
def lateRestore : List SlotAction :=
  [.console, .start (.capture defaultKey sampleKey)] ++ List.replicate 10 .nfc ++
    [.console, .console, .console, .start .sessionMac, .nfc]

/-- The session is live with the wrong key in the slot, and the next MAC is computed with that. -/
theorem lateRestore_disturbed :
    ∃ s, exec slotStep lateRestore .init = some s ∧ s.todo = [] ∧ s.console = .idle ∧
      s.nfc.authenticated = true ∧ s.nfc.kSesAuthMac = sampleKey ∧ s.nfc.slot = .zero ∧
      s.nfc.macs.head? = some .zero ∧ s.alone.macs.head? = some sampleKey ∧ ¬ s.Undisturbed := by
  refine ⟨_, rfl, rfl, rfl, rfl, rfl, rfl, rfl, rfl, fun h => ?_⟩
  have hslot := h.2 rfl rfl rfl
  revert hslot
  decide

end LeafReader
