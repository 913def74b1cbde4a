import LeafReader.Leaf
import LeafReader.OpStep

/-!
# The flows of `leaf.c` as lists of operations

`leaf_personalize` is a list of card operations of which the first failure, FormatPICC apart, ends the
flow; so are the card operations of `leaf_read`. What holds of every operation then holds of the flows
by induction over the list.
-/

namespace LeafReader

variable {σ : Type} (aes : Aes) (nfc : Nfc σ)

/-- An operation of a flow; the flow ends with its failure if `fatal`. -/
structure FlowOp where
  op : Op
  fatal : Bool

/-- The operations in order; the last one gives the result. -/
def runFlow : List FlowOp → World σ → Except Fault (Call σ EspErr)
  | [], w => .ok ⟨.ok, .null, w⟩
  | [f], w => f.op.run aes nfc w
  | f :: g :: rest, w => do
    let c ← f.op.run aes nfc w
    if f.fatal ∧ c.ret ≠ .ok then return ⟨.fail, .null, c.world⟩
    runFlow (g :: rest) c.world

/-- The read key and the application master key of a card. -/
def readKey (site : Block) (uid : Bytes) : Block := desfireCmac aes site (diversifyInput 0x01 uid)

def masterKey (site : Block) (uid : Bytes) : Block := desfireCmac aes site (diversifyInput 0x02 uid)

/-- The 18 bytes of a credential and its MAC. -/
def signedCredential (site : Block) (uid : Bytes) (cred : Credential) : Bytes :=
  leafPackCredential cred ++
    macTruncate (desfireCmac aes (readKey aes site uid) (leafPackCredential cred))

/-- The operations of `leaf_personalize` before the credential is written. -/
def setupOps (site : Block) (uid : Bytes) (rndA1 rndA2 rndA3 : Block) : List FlowOp :=
  [⟨.selectApplication piccAid, true⟩,
    ⟨.authEv2First 0 defaultKey rndA1, true⟩,
    ⟨.formatPicc, false⟩,
    ⟨.createApplication leafAid 0x0F 0x82, true⟩,
    ⟨.selectApplication leafAid, true⟩,
    ⟨.authEv2First 0 defaultKey rndA2, true⟩,
    ⟨.createStdDataFile leafFileNo .cmac 0x1000 leafFileSize, true⟩,
    ⟨.changeKey 1 defaultKey (readKey aes site uid) 0x01, true⟩,
    ⟨.changeKey 0 defaultKey (masterKey aes site uid) 0x01, true⟩,
    ⟨.authEv2First 0 (masterKey aes site uid) rndA3, true⟩]

/-- The operations of `leaf_personalize`. -/
def personalizeOps (site : Block) (uid : Bytes) (cred : Credential) (rndA1 rndA2 rndA3 : Block)
    (mem : Vector UInt8 32) : List FlowOp :=
  setupOps aes site uid rndA1 rndA2 rndA3 ++
    [⟨.writeData leafFileNo 0 .cmac (signedCredential aes site uid cred ++ mem.toList.drop 18), true⟩]

theorem leafPersonalize_eq (site : Block) (uid : Bytes) (cred : Credential)
    (rndA1 rndA2 rndA3 : Block) (mem : Vector UInt8 32) (w : World σ) :
    leafPersonalize aes nfc (some site) uid cred rndA1 rndA2 rndA3 mem w =
      runFlow aes nfc (personalizeOps aes site uid cred rndA1 rndA2 rndA3 mem) w := by
  have htake : (leafPackCredential cred).take 10 = leafPackCredential cred :=
    List.take_of_length_le (by simp [leafPackCredential])
  simp only [leafPersonalize, leafGetSiteKey, leafDiversifyKey, diversifyMaster, leafPayloadMac,
    cmacWithKey_eq, htake, runFlow, personalizeOps, setupOps, List.cons_append, List.nil_append, Op.run,
    signedCredential, readKey, masterKey, bind, Except.bind, true_and,
    Bool.false_eq_true, false_and, ↓reduceIte]

/-- The operations of `leaf_read`; the rest of it computes on the host. -/
def readOps (site : Block) (uid : Bytes) (rndA : Block) (mem : Vector UInt8 32) : List FlowOp :=
  [⟨.selectApplication leafAid, true⟩,
    ⟨.authEv2First 1 (readKey aes site uid) rndA, true⟩,
    ⟨.readData leafFileNo 0 leafFileSize .cmac ⟨some mem.toList, some 0⟩ 32, true⟩]

variable {aes nfc}

theorem leafRead_world {site : Block} {uid : Bytes} {rndA : Block} {mem : Vector UInt8 32}
    {w : World σ} {r : ReadCall σ} (h : leafRead aes nfc (some site) uid rndA mem w = .ok r) :
    ∃ c, runFlow aes nfc (readOps aes site uid rndA mem) w = .ok c ∧ r.world = c.world := by
  simp only [leafRead, leafGetSiteKey, leafDiversifyKey, leafPayloadMac, cmacWithKey_eq, bind,
    Except.bind] at h
  simp only [runFlow, readOps, Op.run, readKey, bind, Except.bind, true_and]
  by_cases h1 : (desfireSelectApplication nfc leafAid w).ret = .ok
  · by_cases h2 : (desfireAuthEv2First aes nfc 1 (desfireCmac aes site (diversifyInput 0x01 uid)) rndA
        (desfireSelectApplication nfc leafAid w).world).ret = .ok
    · simp only [h1, h2, ne_eq, not_true_eq_false, ↓reduceIte] at h ⊢
      split at h
      · cases h
      · rename_i c hc
        refine ⟨c, hc, ?_⟩
        split at h
        · cases h
          rfl
        · by_cases hm : (c.out.bytes.drop 10).take 8 = macTruncate (desfireCmac aes
              (desfireCmac aes site (diversifyInput 0x01 uid)) (c.out.bytes.take 10))
          · simp only [hm, not_true_eq_false, ↓reduceIte] at h
            cases h
            rfl
          · simp only [hm, not_false_eq_true, ↓reduceIte] at h
            cases h
            rfl
    · simp only [h1, h2, ne_eq, not_true_eq_false, not_false_eq_true, ↓reduceIte] at h ⊢
      cases h
      exact ⟨_, rfl, rfl⟩
  · simp only [h1, ne_eq, not_false_eq_true, ↓reduceIte] at h ⊢
    cases h
    exact ⟨_, rfl, rfl⟩

/-! ### Rules -/

/-- A flow in two parts, the first of which ends in a fatal operation. -/
theorem runFlow_append {gs : List FlowOp} (hgs : gs ≠ []) :
    ∀ (fs : List FlowOp), (∀ f ∈ fs.getLast?, f.fatal = true) → ∀ w,
      runFlow aes nfc (fs ++ gs) w = do
        let c ← runFlow aes nfc fs w
        if c.ret ≠ .ok then return ⟨.fail, .null, c.world⟩
        runFlow aes nfc gs c.world
  | [], _, w => rfl
  | [f], hlast, w => by
    obtain ⟨g, gs, rfl⟩ := List.exists_cons_of_ne_nil hgs
    have hf : f.fatal = true := hlast f rfl
    simp only [List.cons_append, List.nil_append, runFlow, hf, true_and]
  | f :: g :: rest, hlast, w => by
    have ih := runFlow_append hgs (g :: rest) (by simpa using hlast)
    simp only [List.cons_append, runFlow] at ih ⊢
    cases f.op.run aes nfc w with
    | error e => rfl
    | ok c =>
      by_cases hc : f.fatal ∧ c.ret ≠ .ok
      · simp only [bind, Except.bind, if_pos hc, pure, Except.pure]
        simp
      · simp only [bind, Except.bind, if_neg hc]
        exact ih c.world

/-- What relates the worlds before and after each operation relates those before and after the flow.
-/
theorem runFlow_rel {R : World σ → World σ → Prop} (hrefl : ∀ w, R w w)
    (htrans : ∀ {w w' w''}, R w w' → R w' w'' → R w w'') :
    ∀ (fs : List FlowOp), (∀ f ∈ fs, ∀ w c, f.op.run aes nfc w = .ok c → R w c.world) →
      ∀ w c, runFlow aes nfc fs w = .ok c → R w c.world
  | [], _, w, c, h => by
    cases h
    exact hrefl w
  | [f], hop, w, c, h => hop f (List.mem_singleton_self f) w c h
  | f :: g :: rest, hop, w, c, h => by
    obtain ⟨c₁, hc₁, h⟩ := bind_eq_ok h
    have h₁ := hop f (List.mem_cons_self ..) w c₁ hc₁
    split at h
    · cases h
      exact h₁
    · have ih := runFlow_rel hrefl htrans (g :: rest) fun f' hf' => hop f' (List.mem_cons_of_mem _ hf')
      exact htrans h₁ (ih c₁.world c h)

/-- What every exchange of the operations' commands keeps of the link, the flow keeps. -/
theorem runFlow_link {I : σ → Prop} {fs : List FlowOp}
    (hI : ∀ f ∈ fs, ∀ cmd ∈ f.op.commands, ∀ params l, I l → I (nfc l (apdu cmd params)).2)
    {w : World σ} {c : Call σ EspErr} (hc : runFlow aes nfc fs w = .ok c) (hw : I w.link) :
    I c.world.link :=
  runFlow_rel (R := fun w w' : World σ => I w.link → I w'.link) (fun _ h => h)
    (fun h h' hw => h' (h hw)) fs (fun f hf _ _ hrun hw => Op.run_link f.op (hI f hf) hrun hw) w c hc hw

/-! ### Flows that succeed -/

variable (aes nfc)

/-- From every world with `P`, the operation succeeds and leaves one with `Q`. -/
def Op.Succeeds (op : Op) (P Q : World σ → Prop) : Prop :=
  ∀ w, P w → ∃ c, op.run aes nfc w = .ok c ∧ c.ret = .ok ∧ Q c.world

def FlowSucceeds (fs : List FlowOp) (P Q : World σ → Prop) : Prop :=
  ∀ w, P w → ∃ c, runFlow aes nfc fs w = .ok c ∧ c.ret = .ok ∧ Q c.world

variable {aes nfc} {P Q R : World σ → Prop} {f g : FlowOp} {rest : List FlowOp}

theorem FlowSucceeds.last (h : f.op.Succeeds aes nfc P Q) : FlowSucceeds aes nfc [f] P Q := h

theorem FlowSucceeds.cons (h : f.op.Succeeds aes nfc P Q)
    (hrest : FlowSucceeds aes nfc (g :: rest) Q R) : FlowSucceeds aes nfc (f :: g :: rest) P R := by
  intro w hw
  obtain ⟨c, hc, hret, hq⟩ := h w hw
  obtain ⟨c', hc', hret', hr⟩ := hrest c.world hq
  refine ⟨c', ?_, hret', hr⟩
  have hgo : ¬ (f.fatal = true ∧ c.ret ≠ .ok) := fun h => h.2 hret
  simp only [runFlow, hc, bind, Except.bind, hgo, ↓reduceIte]
  exact hc'

theorem FlowSucceeds.append {fs gs : List FlowOp} (hfs : ∀ f ∈ fs.getLast?, f.fatal = true)
    (h : FlowSucceeds aes nfc fs P Q) (h' : FlowSucceeds aes nfc gs Q R) (hgs : gs ≠ []) :
    FlowSucceeds aes nfc (fs ++ gs) P R := by
  intro w hw
  obtain ⟨c, hc, hret, hq⟩ := h w hw
  obtain ⟨c', hc', hret', hr⟩ := h' c.world hq
  refine ⟨c', ?_, hret', hr⟩
  rw [runFlow_append hgs fs hfs, hc]
  simp only [bind, Except.bind, hret, ne_eq, not_true_eq_false, ↓reduceIte]
  exact hc'

theorem Op.run_total (op : Op) (hover : ∀ h r, ¬ op.Overruns aes h r) (w : World σ) :
    ∃ c, op.run aes nfc w = .ok c := by
  by_cases hauth : op.IsAuth
  · obtain ⟨keyNo, key, rndA, rfl⟩ := hauth.exists_eq
    exact ⟨_, rfl⟩
  · cases hq : op.request aes w.host with
    | none =>
      obtain ⟨c, hc, -⟩ := Op.run_of_no_request aes nfc op w hq (.error .fail) (hover _ _)
      exact ⟨c, hc⟩
    | some p =>
      obtain ⟨c, hc, -⟩ := Op.run_of_request aes nfc op hauth w hq (hover _ _)
      exact ⟨c, hc⟩

theorem runFlow_total : ∀ (fs : List FlowOp), (∀ f ∈ fs, ∀ h r, ¬ f.op.Overruns aes h r) →
    ∀ w, ∃ c, runFlow aes nfc fs w = .ok c
  | [], _, w => ⟨_, rfl⟩
  | [f], hover, w => f.op.run_total (hover f (List.mem_singleton_self f)) w
  | f :: g :: rest, hover, w => by
    obtain ⟨c, hc⟩ : ∃ c, f.op.run aes nfc w = .ok c :=
      f.op.run_total (hover f (List.mem_cons_self ..)) w
    simp only [runFlow, hc, bind, Except.bind]
    split
    · exact ⟨_, rfl⟩
    · exact runFlow_total (g :: rest) (fun f' hf' => hover f' (List.mem_cons_of_mem _ hf')) c.world

@[simp] theorem length_signedCredential (site : Block) (uid : Bytes) (cred : Credential) :
    (signedCredential aes site uid cred).length = 18 := by
  simp [signedCredential, leafPackCredential]

/-- No array of `leaf_personalize` is overrun, on any link. -/
theorem leafPersonalize_total (site : Option Block) (uid : Bytes) (cred : Credential)
    (rndA1 rndA2 rndA3 : Block) (mem : Vector UInt8 32) (w : World σ) :
    ∃ c, leafPersonalize aes nfc site uid cred rndA1 rndA2 rndA3 mem w = .ok c := by
  cases site with
  | none => exact ⟨_, rfl⟩
  | some site =>
    rw [leafPersonalize_eq]
    refine runFlow_total _ (fun f hf h r => ?_) w
    simp only [personalizeOps, setupOps, List.cons_append, List.nil_append, List.mem_cons,
      List.not_mem_nil, or_false] at hf
    rcases hf with rfl | rfl | rfl | rfl | rfl | rfl | rfl | rfl | rfl | rfl | rfl <;>
      simp [Op.Overruns]

end LeafReader
