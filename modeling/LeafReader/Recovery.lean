import LeafReader.BareCard
import LeafReader.LeafFlow
import LeafReader.Personalize
import LeafReader.Run

/-!
# Interrupted personalization

Runs of `leaf_personalize` over a link that loses exchanges, before or after the card has executed them.
No such run touches the default key of the PICC, so the next run can format the card and start over.
-/

namespace LeafReader

/-! ### A link that loses exchanges -/

inductive Delivery
  | delivered | lostBefore | lostAfter

/-- The exchanges of `nfc` meet the given fates, and are delivered when there are none left. -/
def lossy {σ : Type} (nfc : Nfc σ) : Nfc (σ × List Delivery) := fun (l, fates) a =>
  match fates with
  | [] => ((nfc l a).1, ((nfc l a).2, []))
  | .delivered :: fates => ((nfc l a).1, ((nfc l a).2, fates))
  | .lostBefore :: fates => (.error .timeout, (l, fates))
  | .lostAfter :: fates => (.error .timeout, ((nfc l a).2, fates))

section Lossy

variable {σ : Type} {nfc : Nfc σ}

theorem lossy_keeps {I : σ → Prop} {l : σ × List Delivery} {a : Bytes} (hI : I l.1 → I (nfc l.1 a).2)
    (h : I l.1) : I (lossy nfc l a).2.1 := by
  obtain ⟨l, _ | ⟨_ | _ | _, fates⟩⟩ := l
  · exact hI h
  · exact hI h
  · exact h
  · exact hI h

/-- An answer that arrives comes from the card. -/
theorem lossy_answered {l : σ × List Delivery} {a : Bytes} {p : UInt8 × Bytes}
    (h : (lossy nfc l a).1.parse = some p) :
    (nfc l.1 a).1.parse = some p ∧ (lossy nfc l a).2.1 = (nfc l.1 a).2 := by
  obtain ⟨l, _ | ⟨_ | _ | _, fates⟩⟩ := l
  · exact ⟨h, rfl⟩
  · exact ⟨h, rfl⟩
  · cases h
  · cases h

end Lossy

/-! ### Runs -/

/-- A run of `leaf_personalize`: its inputs, its random numbers, and what becomes of its exchanges. -/
structure Attempt where
  site : Option Block
  uid : Bytes
  cred : Credential
  rndA : Fin 3 → Block
  mem : Vector UInt8 32
  fates : List Delivery

variable (aes : Aes)

/-- The host and the card after the run. -/
def attempt (a : Attempt) (w : World BareCard) : Option (World BareCard) :=
  match leafPersonalize aes (lossy (BareCard.respond aes)) a.site a.uid a.cred (a.rndA 0) (a.rndA 1)
      (a.rndA 2) a.mem ⟨w.host, (w.link, a.fates)⟩ with
  | .ok c => some ⟨c.world.host, c.world.link.1⟩
  | .error _ => none

section Runs

variable {σ : Type} {aes} {nfc : Nfc σ}

theorem desfireSelectApplication_ok {aid : Aid} {w : World σ}
    (h : (desfireSelectApplication nfc aid w).ret = .ok) :
    (desfireSelectApplication nfc aid w).world.link = (nfc w.link (apdu 0x5A aid.toList)).2 ∧
      ∃ d, (nfc w.link (apdu 0x5A aid.toList)).1.parse = some (0x00, d) := by
  unfold desfireSelectApplication at h ⊢
  rw [desfireXfer_eq _ _ _ _ _ (by simp)] at h ⊢
  cases hr : (nfc w.link (apdu 0x5A aid.toList)).1.accept [0x00] 0 with
  | none =>
    have hret := receive_ret_of_reject .null
      (World.mk w.host (nfc w.link (apdu 0x5A aid.toList)).2) hr
    dsimp only at h
    split at h
    · cases h
    · rename_i hok
      exact absurd (List.mem_singleton_self _) (hret 0x00 (not_not.1 hok))
  | some p =>
    obtain ⟨st, d⟩ := p
    obtain ⟨rfl, hp, -⟩ := LinkResult.accept_singleton.1 hr
    rw [receive_of_accept _ _ hr]
    exact ⟨rfl, d, hp⟩

theorem BareCard.respond_selected {c : BareCard} {aid : Aid} {d : Bytes}
    (h : (c.respond aes (apdu 0x5A aid.toList)).1.parse = some (0x00, d)) :
    (c.respond aes (apdu 0x5A aid.toList)).2.selected = aid := by
  by_cases hsome : (c.apps aid).isSome
  · rw [BareCard.respond_select aes hsome]
    rfl
  · rw [BareCard.respond_select_eq, Card.select, if_neg hsome] at h
    rw [BareCard.lift, Card.refuse, LinkResult.parse_answer _ (by simp)] at h
    cases h

/-- The part of the flow that ends in the selection of the application. -/
theorem selected_of_runFlow {site : Block} {uid : Bytes} {cred : Credential}
    {rndA1 rndA2 rndA3 : Block} {mem : Vector UInt8 32} {w : World (BareCard × List Delivery)}
    {c : Call (BareCard × List Delivery) EspErr}
    (hc : runFlow aes (lossy (BareCard.respond aes))
      ((personalizeOps aes site uid cred rndA1 rndA2 rndA3 mem).take 5) w = .ok c)
    (hret : c.ret = .ok) : c.world.link.1.selected = leafAid := by
  set ops := personalizeOps aes site uid cred rndA1 rndA2 rndA3 mem with hops
  have hsplit : ops.take 5 = ops.take 4 ++ [⟨.selectApplication leafAid, true⟩] := rfl
  rw [hsplit, runFlow_append (by simp) _ (by simp [hops, personalizeOps, setupOps])] at hc
  obtain ⟨c₁, -, hc⟩ := bind_eq_ok hc
  split at hc
  · cases hc
    cases hret
  · cases hc
    obtain ⟨hlink, d, hd⟩ := desfireSelectApplication_ok hret
    obtain ⟨hans, hcard⟩ := lossy_answered hd
    rw [hlink, hcard]
    exact BareCard.respond_selected hans

/-- Before an application is selected no key is changed. -/
theorem runFlow_factoryPicc {fs : List FlowOp} (hno : ∀ f ∈ fs, 0xC4 ∉ f.op.commands)
    {w : World (BareCard × List Delivery)} {c : Call (BareCard × List Delivery) EspErr}
    (hc : runFlow aes (lossy (BareCard.respond aes)) fs w = .ok c) (hw : w.link.1.FactoryPicc) :
    c.world.link.1.FactoryPicc := by
  refine runFlow_link (I := fun l => l.1.FactoryPicc) (fun f hf cmd hcmd params l hl => ?_) hc hw
  refine lossy_keeps (fun hl => (hl.respond params fun heq => ?_).1) hl
  exact absurd (heq ▸ hcmd) (hno f hf)

/-- From then on it stays selected. -/
theorem runFlow_selected {fs : List FlowOp} (hno : ∀ f ∈ fs, 0x5A ∉ f.op.commands)
    {w : World (BareCard × List Delivery)} {c : Call (BareCard × List Delivery) EspErr}
    (hc : runFlow aes (lossy (BareCard.respond aes)) fs w = .ok c) (hw : w.link.1.FactoryPicc)
    (hsel : w.link.1.selected = leafAid) : c.world.link.1.FactoryPicc := by
  refine (runFlow_link (I := fun l => l.1.FactoryPicc ∧ l.1.selected = leafAid)
    (fun f hf cmd hcmd params l hl => ?_) hc ⟨hw, hsel⟩).1
  refine lossy_keeps (I := fun c : BareCard => c.FactoryPicc ∧ c.selected = leafAid) (fun hl => ?_) hl
  obtain ⟨hf', hs⟩ := hl.1.respond params fun _ => by
    rw [hl.2]
    decide
  exact ⟨hf', (hs fun heq => hno f hf (heq ▸ hcmd)).trans hl.2⟩

/-- No run changes the PICC, whatever becomes of its exchanges. -/
theorem leafPersonalize_factoryPicc {site : Option Block} {uid : Bytes} {cred : Credential}
    {rndA1 rndA2 rndA3 : Block} {mem : Vector UInt8 32} {w : World (BareCard × List Delivery)}
    {c : Call (BareCard × List Delivery) EspErr}
    (hc : leafPersonalize aes (lossy (BareCard.respond aes)) site uid cred rndA1 rndA2 rndA3 mem w =
      .ok c) (hw : w.link.1.FactoryPicc) : c.world.link.1.FactoryPicc := by
  cases site with
  | none =>
    cases hc
    exact hw
  | some site =>
    rw [leafPersonalize_eq, ← List.take_append_drop 5 (personalizeOps ..),
      runFlow_append (by simp [personalizeOps, setupOps]) _ (by simp [personalizeOps, setupOps])] at hc
    obtain ⟨c₁, hc₁, hc⟩ := bind_eq_ok hc
    have hpicc : c₁.world.link.1.FactoryPicc :=
      runFlow_factoryPicc (by simp [personalizeOps, setupOps, Op.commands]) hc₁ hw
    split at hc
    · cases hc
      exact hpicc
    · rename_i hok
      have hsel := selected_of_runFlow hc₁ (not_not.1 hok)
      exact runFlow_selected (by simp [personalizeOps, setupOps, Op.commands]) hc hpicc hsel

theorem attempt_factoryPicc (a : Attempt) {w : World BareCard} (hw : w.link.FactoryPicc) :
    ∃ w', attempt aes a w = some w' ∧ w'.link.FactoryPicc := by
  obtain ⟨c, hc⟩ : ∃ c, leafPersonalize aes (lossy (BareCard.respond aes)) a.site a.uid a.cred
    (a.rndA 0) (a.rndA 1) (a.rndA 2) a.mem ⟨w.host, (w.link, a.fates)⟩ = .ok c :=
    leafPersonalize_total ..
  refine ⟨⟨c.world.host, c.world.link.1⟩, ?_, leafPersonalize_factoryPicc hc hw⟩
  rw [attempt, hc]

theorem exec_attempt_factoryPicc :
    ∀ (as : List Attempt) (w : World BareCard), w.link.FactoryPicc →
      ∃ w', exec (attempt aes) as w = some w' ∧ w'.link.FactoryPicc := by
  intro as
  induction as with
  | nil =>
    intro w hw
    exact ⟨w, rfl, hw⟩
  | cons a as ih =>
    intro w hw
    obtain ⟨w₁, hw₁, hpicc⟩ : ∃ w₁, attempt aes a w = some w₁ ∧ w₁.link.FactoryPicc :=
      attempt_factoryPicc a hw
    obtain ⟨w', hw', hpicc'⟩ := ih w₁ hpicc
    refine ⟨w', ?_, hpicc'⟩
    rw [exec, hw₁]
    exact hw'

end Runs

/-! ### The uninterrupted run -/

/-- What a card holds from FormatPICC on: the PICC as it left the factory, and `leaf` under `leafAid`. -/
structure Stage (c : BareCard) (aid : Aid) (leaf : Option App) : Prop where
  selected : c.selected = aid
  apps : c.apps = fun a => if a = piccAid then some blankApp else if a = leafAid then leaf else none
  picc : c.settings piccAid = (0x0F, 0x01)
  settings : leaf.isSome → c.settings leafAid = (0x0F, 0x82)

/-- The application with the given keys and contents of the credential file. -/
def leafApp (keys : UInt8 → CardKey) (data : Option Bytes) : App :=
  ⟨keys, fun n => if n = leafFileNo then data.map (⟨.cmac, 0x1000, ·⟩) else none⟩

theorem leafApp_blank : leafApp (fun _ => blankKey) none = blankApp := by
  simp [leafApp, blankApp]

namespace Stage

variable {c : BareCard} {aid : Aid} {leaf : Option App} {a : App}

theorem setSession (h : Stage c aid leaf) (s : Option Session) : Stage (c.setSession s) aid leaf :=
  ⟨h.selected, h.apps, h.picc, h.settings⟩

theorem establish (h : Stage c aid leaf) (s : Session) : Stage (c.establish s) aid leaf :=
  ⟨h.selected, h.apps, h.picc, h.settings⟩

theorem selectApp (h : Stage c aid leaf) (aid' : Aid) : Stage (c.selectApp aid') aid' leaf :=
  ⟨rfl, h.apps, h.picc, h.settings⟩

theorem leafApps (h : Stage c aid leaf) : c.apps leafAid = leaf := by
  rw [h.apps]
  exact (if_neg (by decide)).trans (if_pos rfl)

theorem app (h : Stage c leafAid leaf) : c.app = leaf := by
  rw [Card.app, h.selected, h.leafApps]

theorem keyCount (h : Stage c leafAid (some a)) : c.keyCount = 2 := by
  rw [BareCard.keyCount, h.selected, h.settings rfl]
  rfl

theorem setApp (h : Stage c leafAid (some a)) (a' : App) :
    Stage { c with toCard := c.setApp leafAid (some a') } leafAid (some a') := by
  refine ⟨h.selected, funext fun aid => ?_, h.picc, fun _ => h.settings rfl⟩
  show (if aid = leafAid then some a' else c.apps aid) = _
  rw [h.apps]
  by_cases haid : aid = leafAid
  · have hpicc : aid ≠ piccAid := by
      rw [haid]
      decide
    rw [if_pos haid, if_neg hpicc, if_pos haid]
  · simp only [if_neg haid]

end Stage

/-! ### The operations in order -/

section Operations

open BareCard

variable {aes}

theorem select_picc :
    (Op.selectApplication piccAid).Succeeds aes (BareCard.respond aes) (fun w => w.link.FactoryPicc)
      fun w => w.link.FactoryPicc ∧ w.link.selected = piccAid := by
  intro w hw
  obtain ⟨hret, hlink⟩ := desfireSelectApplication_bare aes w
    (show (w.link.apps piccAid).isSome by rw [hw.app]; rfl)
  refine ⟨_, rfl, hret, ?_⟩
  dsimp only
  rw [hlink]
  exact ⟨hw.congr rfl rfl, rfl⟩

theorem auth_picc (rndA : Block) :
    (Op.authEv2First 0 defaultKey rndA).Succeeds aes (BareCard.respond aes)
      (fun w => w.link.FactoryPicc ∧ w.link.selected = piccAid)
      fun w => (w.link.FactoryPicc ∧ w.link.selected = piccAid) ∧ Authed w := by
  rintro w ⟨hpicc, hsel⟩
  have happ : w.link.app = some blankApp := by rw [Card.app, hsel, hpicc.app]
  have hcount : w.link.keyCount = 1 := by
    rw [keyCount, hsel, hpicc.settings]
    rfl
  obtain ⟨hret, hauth, s, hlink⟩ := desfireAuthEv2First_bare aes happ (by omega)
    (show (blankApp.keys 0).key = defaultKey from rfl) rndA
  refine ⟨_, rfl, hret, ?_, hauth⟩
  rw [hlink]
  exact ⟨hpicc.congr rfl rfl, hsel⟩

/-- From here on nothing is left of what earlier runs did. -/
theorem format_picc :
    Op.formatPicc.Succeeds aes (BareCard.respond aes)
      (fun w => (w.link.FactoryPicc ∧ w.link.selected = piccAid) ∧ Authed w)
      fun w => Stage w.link piccAid none ∧ Authed w := by
  rintro w ⟨⟨hpicc, hsel⟩, hauth⟩
  have hexec : w.link.execute 0 0xFC ([] ++ []) = .ok w.link.format := by simp [execute, hsel]
  obtain ⟨c, hc, hret, hauth', s, hlink⟩ := cmacAppendAndSend_bare aes hauth (by decide)
    (show ([] : Bytes).length + ([] : Bytes).length ≤ 247 by simp) hexec
  refine ⟨c, ?_, hret, ?_, hauth'⟩
  · rw [Op.run, desfireFormatPicc_of_auth _ _ hauth.inStep.live.authenticated]
    exact hc
  · have happs : w.link.format.apps = fun aid =>
        if aid = piccAid then some blankApp else if aid = leafAid then none else none := by
      funext aid
      show (if aid = piccAid then w.link.apps aid else none) = _
      by_cases haid : aid = piccAid
      · simp [haid, hpicc.app]
      · simp [haid]
    have hst : Stage w.link.format piccAid none := ⟨hsel, happs, hpicc.settings, by simp⟩
    rw [hlink]
    exact hst.setSession s

/-- CreateApplication on a card that has been formatted. -/
theorem Stage.createApp {c : BareCard} (hst : Stage c piccAid none) {hdr : Bytes}
    (haid : (Vector.ofFn fun i : Fin 3 => hdr.getD i 0) = leafAid) (h3 : hdr.getD 3 0 = 0x0F)
    (h4 : hdr.getD 4 0 = 0x82) : Stage (c.createApp hdr) piccAid (some blankApp) := by
  have happs : (c.createApp hdr).apps = fun aid =>
      if aid = leafAid then some blankApp else c.apps aid := by
    simp only [BareCard.createApp, Card.createApp, haid]
    rfl
  have hset : (c.createApp hdr).settings = fun aid =>
      if aid = leafAid then (0x0F, 0x82) else c.settings aid := by
    simp only [BareCard.createApp, haid, h3, h4]
  refine ⟨hst.selected, ?_, ?_, fun _ => ?_⟩
  · rw [happs, hst.apps]
    funext aid
    by_cases h : aid = leafAid
    · have hpicc : aid ≠ piccAid := by
        rw [h]
        decide
      rw [if_pos h, if_neg hpicc, if_pos h]
    · simp only [if_neg h]
  · rw [hset]
    exact (if_neg (by decide)).trans hst.picc
  · rw [hset]
    exact if_pos rfl

theorem create_app :
    (Op.createApplication leafAid 0x0F 0x82).Succeeds aes (BareCard.respond aes)
      (fun w => Stage w.link piccAid none ∧ Authed w)
      fun w => Stage w.link piccAid (some blankApp) ∧ Authed w := by
  rintro w ⟨hst, hauth⟩
  set hdr := leafAid.toList ++ [0x0F, 0x82] with hhdr
  have haid : (Vector.ofFn fun i : Fin 3 => (hdr ++ []).getD i 0) = leafAid := by
    rw [List.append_nil]
    exact ofFn_getD leafAid [0x0F, 0x82]
  have hexec : w.link.execute 0 0xCA (hdr ++ []) = .ok (w.link.createApp (hdr ++ [])) := by
    simp only [execute, hst.selected, haid, hst.leafApps]
    rfl
  obtain ⟨c, hc, hret, hauth', s, hlink⟩ := cmacAppendAndSend_bare aes hauth (by decide)
    (show hdr.length + ([] : Bytes).length ≤ 247 by simp [hhdr]) hexec
  refine ⟨c, ?_, hret, ?_, hauth'⟩
  · rw [Op.run, desfireCreateApplication_of_auth _ _ hauth.inStep.live.authenticated]
    exact hc
  · rw [hlink]
    exact (hst.createApp haid rfl rfl).setSession s

theorem select_leaf (a : App) :
    (Op.selectApplication leafAid).Succeeds aes (BareCard.respond aes)
      (fun w => Stage w.link piccAid (some a) ∧ Authed w) fun w => Stage w.link leafAid (some a) := by
  rintro w ⟨hst, -⟩
  obtain ⟨hret, hlink⟩ := desfireSelectApplication_bare aes w
    (show (w.link.apps leafAid).isSome by rw [hst.leafApps]; rfl)
  refine ⟨_, rfl, hret, ?_⟩
  dsimp only
  rw [hlink]
  exact hst.selectApp leafAid

theorem auth_leaf {a : App} {key : Block} (hkey : (a.keys 0).key = key) (rndA : Block) :
    (Op.authEv2First 0 key rndA).Succeeds aes (BareCard.respond aes)
      (fun w => Stage w.link leafAid (some a)) fun w => Stage w.link leafAid (some a) ∧ Authed w := by
  intro w hst
  obtain ⟨hret, hauth, s, hlink⟩ := desfireAuthEv2First_bare aes hst.app
    (by rw [hst.keyCount]; decide) hkey rndA
  refine ⟨_, rfl, hret, ?_, hauth⟩
  rw [hlink]
  exact hst.establish s

theorem create_file (keys : UInt8 → CardKey) :
    (Op.createStdDataFile leafFileNo .cmac 0x1000 leafFileSize).Succeeds aes (BareCard.respond aes)
      (fun w => Stage w.link leafAid (some (leafApp keys none)) ∧ Authed w)
      fun w => Stage w.link leafAid (some (leafApp keys (some (List.replicate 32 0)))) ∧ Authed w := by
  rintro w ⟨hst, hauth⟩
  set hdr : Bytes := [leafFileNo, CommMode.cmac.toByte] ++ le16 0x1000 ++ le24 leafFileSize with hhdr
  have hfile : w.link.file leafFileNo = none := by
    rw [Card.file, hst.app]
    rfl
  have hexec : w.link.execute 0 0xCD (hdr ++ []) =
      .ok { w.link with toCard := w.link.createFile (hdr ++ []) } := by
    have hno : (hdr ++ []).getD 0 0 = leafFileNo := rfl
    have hsel : leafAid ≠ piccAid := by decide
    simp only [execute, hst.selected, hsel, hno, hfile]
    rfl
  obtain ⟨c, hc, hret, hauth', s, hlink⟩ := cmacAppendAndSend_bare aes hauth (by decide)
    (show hdr.length + ([] : Bytes).length ≤ 247 by simp [hhdr]) hexec
  refine ⟨c, ?_, hret, ?_, hauth'⟩
  · rw [Op.run, desfireCreateStdDataFile_of_auth _ _ hauth.inStep.live.authenticated]
    exact hc
  · rw [hlink]
    refine Stage.setSession ?_ s
    have hcreate : w.link.createFile (hdr ++ []) =
        w.link.setApp leafAid (some (leafApp keys (some (List.replicate 32 0)))) := by
      have hcomm : (if (hdr ++ []).getD 1 0 = 0 then CommMode.plain
          else if (hdr ++ []).getD 1 0 = 1 then .cmac else .encrypted) = .cmac := by decide
      have hrights : ((hdr ++ []).getD 2 0).toUInt16 ||| ((hdr ++ []).getD 3 0).toUInt16 <<< (8 : UInt16) =
          0x1000 := by decide
      have hsize : ofLe24 ((hdr ++ []).drop 4) = 32 := by decide
      unfold Card.createFile
      rw [hcomm, hrights, hsize, Card.setFile, hst.selected, hst.app]
      congr 1
      simp [leafApp, hhdr]
    rw [hcreate]
    exact hst.setApp _

theorem change_key {a : App} {keyNo : UInt8} (h2 : keyNo.toNat < 2) {old : Block}
    (hold : (a.keys keyNo).key = old) (new : Block) (ver : UInt8) :
    (Op.changeKey keyNo old new ver).Succeeds aes (BareCard.respond aes)
      (fun w => Stage w.link leafAid (some a) ∧ Authed w)
      fun w => Stage w.link leafAid
          (some { a with keys := fun n => if n = keyNo then ⟨new, ver⟩ else a.keys n }) ∧
        (keyNo ≠ 0 → Authed w) := by
  rintro w ⟨hst, hauth⟩
  have hn : keyNo.toNat < w.link.keyCount := by
    rw [hst.keyCount]
    exact h2
  obtain ⟨hret, hauth', s, hlink⟩ := desfireChangeKey_bare aes hauth hst.app hn hold new ver
  refine ⟨_, rfl, hret, ?_, hauth'⟩
  rw [hlink]
  refine Stage.setSession ?_ s
  rw [Card.setKey, hst.selected, hst.app]
  exact hst.setApp _

/-- A key-0 session may write the whole of the credential file. -/
theorem Stage.execute_write {c : BareCard} {keys : UInt8 → CardKey} {old data : Bytes}
    (hst : Stage c leafAid (some (leafApp keys (some old)))) (hold : old.length = 32)
    (hd : data.length = 32) :
    c.execute 0 0x3D (fileHeader leafFileNo 0 data.length.toUInt32 ++ data) =
      .ok { c with toCard := c.setFile leafFileNo ⟨.cmac, 0x1000, data⟩ } := by
  have hlen : data.length.toUInt32 = 32 := by rw [hd]; rfl
  have hfile : c.file leafFileNo = some ⟨.cmac, 0x1000, old⟩ := by
    rw [Card.file, hst.app]
    rfl
  have hmay : (File.mk .cmac 0x1000 old).mayWrite 0 = true := by
    simp only [File.mayWrite]
    decide
  have hat : writeAt old 0 data = data := by
    simp [writeAt, hold, hd]
  have hoff : ofLe24 ((fileHeader leafFileNo 0 32 ++ data).drop 1) = 0 :=
    ofLe24_fileHeader_offset leafFileNo 0 32 data
  have hsize : ofLe24 ((fileHeader leafFileNo 0 32 ++ data).drop 4) = 32 :=
    ofLe24_fileHeader_length leafFileNo 0 32 data
  have hbody : (fileHeader leafFileNo 0 32 ++ data).length = 39 := by simp [hd]
  have hdrop : (fileHeader leafFileNo 0 32 ++ data).drop 7 = data := rfl
  rw [hlen, execute, writeFile, getD_fileHeader, hoff, hsize, hfile, hbody, hdrop]
  simp only [hmay, hold, hat]
  rfl

theorem write_file (keys : UInt8 → CardKey) {old data : Bytes} (hold : old.length = 32)
    (hd : data.length = 32) :
    (Op.writeData leafFileNo 0 .cmac data).Succeeds aes (BareCard.respond aes)
      (fun w => Stage w.link leafAid (some (leafApp keys (some old))) ∧ Authed w)
      fun w => Stage w.link leafAid (some (leafApp keys (some data))) := by
  rintro w ⟨hst, hauth⟩
  obtain ⟨c, hc, hret, -, s, hlink⟩ := cmacAppendAndSend_bare aes hauth (by decide)
    (by rw [length_fileHeader, hd]; decide) (hst.execute_write hold hd)
  refine ⟨c, ?_, hret, ?_⟩
  · rw [Op.run, desfireWriteData_cmac_of_auth _ _ hauth.inStep.live.authenticated]
    exact hc
  · dsimp only
    rw [hlink]
    refine Stage.setSession ?_ s
    have hset : w.link.setFile leafFileNo ⟨.cmac, 0x1000, data⟩ =
        w.link.setApp leafAid (some (leafApp keys (some data))) := by
      rw [Card.setFile, hst.selected, hst.app]
      congr 1
      simp only [leafApp, Option.map_some, Option.some.injEq, App.mk.injEq, true_and]
      funext n
      split <;> rfl
    rw [hset]
    exact hst.setApp _

/-- The keys of a personalized application. -/
def leafKeys (aes : Aes) (site : Block) (uid : Bytes) : UInt8 → CardKey := fun n =>
  if n = 0 then ⟨masterKey aes site uid, 1⟩ else if n = 1 then ⟨readKey aes site uid, 1⟩ else blankKey

/-- Up to the last handshake, on any card that has its PICC key from the factory. -/
theorem setupOps_succeed (aes : Aes) (site : Block) (uid : Bytes) (rndA1 rndA2 rndA3 : Block) :
    FlowSucceeds aes (BareCard.respond aes) (setupOps aes site uid rndA1 rndA2 rndA3)
      (fun w => w.link.FactoryPicc) fun w => Stage w.link leafAid
        (some (leafApp (leafKeys aes site uid) (some (List.replicate 32 0)))) ∧ Authed w := by
  have hread : (Op.changeKey 1 defaultKey (readKey aes site uid) 0x01).Succeeds aes
      (BareCard.respond aes)
      (fun w => Stage w.link leafAid
        (some (leafApp (fun _ => blankKey) (some (List.replicate 32 0)))) ∧ Authed w)
      fun w => Stage w.link leafAid (some (leafApp
        (fun n => if n = 1 then ⟨readKey aes site uid, 1⟩ else blankKey)
        (some (List.replicate 32 0)))) ∧ Authed w := by
    intro w hw
    obtain ⟨c, hc, hret, hst, hauth⟩ := change_key
      (show (1 : UInt8).toNat < 2 by decide) rfl (readKey aes site uid) 0x01 w hw
    exact ⟨c, hc, hret, hst, hauth (by decide)⟩
  have hmaster : (Op.changeKey 0 defaultKey (masterKey aes site uid) 0x01).Succeeds aes
      (BareCard.respond aes)
      (fun w => Stage w.link leafAid (some (leafApp
        (fun n => if n = 1 then ⟨readKey aes site uid, 1⟩ else blankKey)
        (some (List.replicate 32 0)))) ∧ Authed w)
      fun w => Stage w.link leafAid
        (some (leafApp (leafKeys aes site uid) (some (List.replicate 32 0)))) := by
    intro w hw
    obtain ⟨c, hc, hret, hst, -⟩ := change_key
      (show (0 : UInt8).toNat < 2 by decide) rfl (masterKey aes site uid) 0x01 w hw
    exact ⟨c, hc, hret, hst⟩
  have hcreate : (Op.createStdDataFile leafFileNo .cmac 0x1000 leafFileSize).Succeeds aes
      (BareCard.respond aes) _ _ := create_file fun _ => blankKey
  rw [leafApp_blank] at hcreate
  exact .cons select_picc <| .cons (auth_picc rndA1) <| .cons format_picc <| .cons create_app <|
    .cons (select_leaf blankApp) <| .cons (auth_leaf rfl rndA2) <| .cons hcreate <| .cons hread <|
    .cons hmaster <| .last (auth_leaf rfl rndA3)

theorem personalizeOps_succeed (aes : Aes) (site : Block) (uid : Bytes) (cred : Credential)
    (rndA1 rndA2 rndA3 : Block) (mem : Vector UInt8 32) :
    FlowSucceeds aes (BareCard.respond aes) (personalizeOps aes site uid cred rndA1 rndA2 rndA3 mem)
      (fun w => w.link.FactoryPicc) fun w => Stage w.link leafAid
        (some (leafApp (leafKeys aes site uid)
          (some (signedCredential aes site uid cred ++ mem.toList.drop 18)))) :=
  (setupOps_succeed aes site uid rndA1 rndA2 rndA3).append (by simp [setupOps])
    (.last (write_file _ (by simp) (by simp))) (by simp)

end Operations

/-! ### What the card holds -/

/-- Settings of a file, and the first 18 of its bytes. -/
structure FileView where
  comm : CommMode
  rights : UInt16
  size : Nat
  front : Bytes

structure AppView where
  settings : UInt8 × UInt8
  keys : UInt8 → CardKey
  files : UInt8 → Option FileView

def File.view (f : File) : FileView := ⟨f.comm, f.rights, f.data.length, f.data.take 18⟩

def BareCard.contents (c : BareCard) : Aid → Option AppView := fun aid =>
  (c.apps aid).map fun a => ⟨c.settings aid, a.keys, fun n => (a.files n).map File.view⟩

theorem Stage.contents {c : BareCard} {aid : Aid} {keys : UInt8 → CardKey} {data : Bytes}
    (h : Stage c aid (some (leafApp keys (some data)))) :
    c.contents = fun aid =>
      if aid = piccAid then some ⟨(0x0F, 0x01), fun _ => blankKey, fun _ => none⟩
      else if aid = leafAid then
        some ⟨(0x0F, 0x82), keys, fun n =>
          if n = leafFileNo then some ⟨.cmac, 0x1000, data.length, data.take 18⟩ else none⟩
      else none := by
  funext aid
  rw [BareCard.contents]
  by_cases hpicc : aid = piccAid
  · rw [h.apps]
    simp [hpicc, h.picc, blankApp]
  · by_cases hleaf : aid = leafAid
    · have hfiles : (fun n => ((leafApp keys (some data)).files n).map File.view) = fun n =>
          if n = leafFileNo then some ⟨.cmac, 0x1000, data.length, data.take 18⟩ else none := by
        funext n
        by_cases hn : n = leafFileNo
        · simp [leafApp, hn, File.view]
        · simp [leafApp, hn]
      rw [if_neg hpicc, if_pos hleaf, hleaf, h.leafApps, Option.map_some, hfiles, h.settings rfl]
      rfl
    · rw [h.apps]
      simp [hpicc, hleaf]

/-- A personalization of a card whose PICC key is the default one. -/
theorem leafPersonalize_contents (aes : Aes) (site : Block) (uid : Bytes) (cred : Credential)
    (rndA1 rndA2 rndA3 : Block) (mem : Vector UInt8 32) {w : World BareCard}
    (hw : w.link.FactoryPicc) :
    ∃ c, leafPersonalize aes (BareCard.respond aes) (some site) uid cred rndA1 rndA2 rndA3 mem w =
        .ok c ∧ c.ret = .ok ∧
      c.world.link.contents = fun aid =>
        if aid = piccAid then some ⟨(0x0F, 0x01), fun _ => blankKey, fun _ => none⟩
        else if aid = leafAid then
          some ⟨(0x0F, 0x82), leafKeys aes site uid, fun n =>
            if n = leafFileNo then some ⟨.cmac, 0x1000, 32, signedCredential aes site uid cred⟩
            else none⟩
        else none := by
  rw [leafPersonalize_eq]
  obtain ⟨c, hc, hret, hst⟩ := personalizeOps_succeed aes site uid cred rndA1 rndA2 rndA3 mem w hw
  refine ⟨c, hc, hret, ?_⟩
  have hlen : (signedCredential aes site uid cred ++ mem.toList.drop 18).length = 32 := by simp
  have htake : (signedCredential aes site uid cred ++ mem.toList.drop 18).take 18 =
      signedCredential aes site uid cred := List.take_left' (by simp)
  rw [hst.contents, hlen, htake]

/-- A card from the factory. -/
def bareFactoryCard (uid : Vector UInt8 7) (draws : Nat → Block × Vector UInt8 4) : BareCard where
  toCard := factoryCard uid draws
  settings := fun _ => (0x0F, 0x01)

/-- After any sequence of interrupted personalizations, of any cards' credentials, the next one that is
not interrupted succeeds and leaves what it leaves on a card from the factory. -/
theorem personalize_recovers (aes : Aes) (as : List Attempt) (w : World BareCard)
    (hw : w.link.FactoryPicc) (site : Block) (uid : Bytes) (cred : Credential)
    (rndA rndA' : Fin 3 → Block) (mem mem' : Vector UInt8 32) (h : Host) (serial : Vector UInt8 7)
    (draws : Nat → Block × Vector UInt8 4) :
    ∃ w', exec (attempt aes) as w = some w' ∧
      ∃ c c', leafPersonalize aes (BareCard.respond aes) (some site) uid cred (rndA 0) (rndA 1) (rndA 2)
          mem w' = .ok c ∧
        leafPersonalize aes (BareCard.respond aes) (some site) uid cred (rndA' 0) (rndA' 1) (rndA' 2)
          mem' ⟨h, bareFactoryCard serial draws⟩ = .ok c' ∧
        c.ret = .ok ∧ c.world.link.contents = c'.world.link.contents := by
  obtain ⟨w', hw', hpicc⟩ : ∃ w', exec (attempt aes) as w = some w' ∧ w'.link.FactoryPicc :=
    exec_attempt_factoryPicc as w hw
  have hfactory : (bareFactoryCard serial draws).FactoryPicc := ⟨rfl, rfl⟩
  obtain ⟨c, hc, hret, hcont⟩ := leafPersonalize_contents aes site uid cred (rndA 0) (rndA 1) (rndA 2)
    mem hpicc
  obtain ⟨c', hc', -, hcont'⟩ := leafPersonalize_contents aes site uid cred (rndA' 0) (rndA' 1)
    (rndA' 2) mem' (w := ⟨h, bareFactoryCard serial draws⟩) hfactory
  exact ⟨w', hw', c, c', hc, hc', hret, hcont.trans hcont'.symm⟩

/-- A run in which the card changes its master key, and the answer is lost. -/
def lostMasterKey : Attempt :=
  ⟨some .zero, .replicate 7 0x04, ⟨1, 2, 3⟩, fun _ => .zero, .replicate 32 0,
    List.replicate 10 .delivered ++ [.lostAfter]⟩

/-- The card of that run, personalized again for another credential. -/
theorem personalize_recovers_lostMasterKey :
    ∃ w', exec (attempt Aes128.aes128) [lostMasterKey]
        ⟨desfireInit, bareFactoryCard (.replicate 7 0x04) fun _ => (.zero, .replicate 4 0)⟩ = some w' ∧
      ∃ c c', leafPersonalize Aes128.aes128 (BareCard.respond Aes128.aes128) (some .zero)
          (.replicate 7 0x04) ⟨1, 5, 3⟩ .zero .zero .zero (.replicate 32 0) w' = .ok c ∧
        leafPersonalize Aes128.aes128 (BareCard.respond Aes128.aes128) (some .zero)
          (.replicate 7 0x04) ⟨1, 5, 3⟩ .zero .zero .zero (.replicate 32 0)
          ⟨desfireInit, bareFactoryCard (.replicate 7 0x04) fun _ => (.zero, .replicate 4 0)⟩ = .ok c' ∧
        c.ret = .ok ∧ c.world.link.contents = c'.world.link.contents :=
  personalize_recovers Aes128.aes128 [lostMasterKey] _ ⟨rfl, rfl⟩ .zero (.replicate 7 0x04) ⟨1, 5, 3⟩
    (fun _ => .zero) (fun _ => .zero) (.replicate 32 0) (.replicate 32 0) desfireInit (.replicate 7 0x04)
    fun _ => (.zero, .replicate 4 0)

end LeafReader
