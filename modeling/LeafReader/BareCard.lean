import LeafReader.ChangeKey

/-!
# A card that answers without a MAC

A command under secure messaging is executed as a whole or refused, and one that returns no data is
answered with the bare status word. The PICC session survives FormatPICC. These are the answers for
which `desfire.c` leaves room.
-/

namespace LeafReader

variable (aes : Aes)

/-- An ideal card with the two settings bytes of each application. -/
structure BareCard extends Card where
  settings : Aid → UInt8 × UInt8

/-- A file may be written under the key of its write or its read-and-write nibble. -/
def File.mayWrite (f : File) (keyNo : UInt8) : Bool :=
  let nibble (shift : UInt16) : UInt8 := ((f.rights >>> shift) &&& 0x0F).toUInt8
  nibble 8 == keyNo || nibble 4 == keyNo

def blankApp : App := ⟨fun _ => blankKey, fun _ => none⟩

namespace BareCard

/-- The number of keys of the selected application. -/
def keyCount (c : BareCard) : Nat := ((c.settings c.selected).2 &&& 0x0F).toNat

def lift (c : BareCard) (r : LinkResult × Card) : LinkResult × BareCard :=
  (r.1, { c with toCard := r.2 })

def format (c : BareCard) : BareCard := { c with toCard := c.toCard.format }

def createApp (c : BareCard) (hdr : Bytes) : BareCard :=
  { c with
    toCard := c.toCard.createApp hdr
    settings := fun a =>
      if a = Vector.ofFn fun i => hdr.getD i 0 then (hdr.getD 3 0, hdr.getD 4 0) else c.settings a }

def writeFile (c : BareCard) (keyNo : UInt8) (body : Bytes) : Except UInt8 BareCard :=
  let offset := ofLe24 (body.drop 1)
  let length := ofLe24 (body.drop 4)
  match c.file (body.getD 0 0) with
  | none => .error 0xF0
  | some f =>
    if f.comm ≠ .cmac then .error 0x1C
    else if !f.mayWrite keyNo then .error 0x9D
    else if f.data.length < offset + length then .error 0xBE
    else if body.length ≠ 7 + length then .error 0x7E
    else .ok { c with
      toCard := c.setFile (body.getD 0 0) { f with data := writeAt f.data offset (body.drop 7) } }

/-- The effect of a command whose MAC is right, in a session with key `keyNo`. -/
def execute (c : BareCard) (keyNo : UInt8) (cmd : UInt8) (body : Bytes) : Except UInt8 BareCard :=
  if cmd = 0xFC then
    if c.selected ≠ piccAid ∨ keyNo ≠ 0 then .error 0x9D
    else if body.length ≠ 0 then .error 0x7E
    else .ok c.format
  else if cmd = 0xCA then
    if c.selected ≠ piccAid ∨ keyNo ≠ 0 then .error 0x9D
    else if body.length ≠ 5 then .error 0x7E
    else if (c.apps (Vector.ofFn fun i => body.getD i 0)).isSome then .error 0xDE
    else .ok (c.createApp body)
  else if cmd = 0xCD then
    if c.selected = piccAid ∨ keyNo ≠ 0 then .error 0x9D
    else if body.length ≠ 7 then .error 0x7E
    else if (c.file (body.getD 0 0)).isSome then .error 0xDE
    else .ok { c with toCard := c.createFile body }
  else if cmd = 0x3D then c.writeFile keyNo body
  else .error 0x1C

/-- ChangeKey, in a session with key 0 and of a key the application has. -/
def changeKey (c : BareCard) (s : Session) (params : Bytes) : Except UInt8 BareCard :=
  if s.keyNo ≠ 0 then .error 0x9D
  else if c.keyCount ≤ (params.getD 0 0).toNat then .error 0x40
  else match c.acceptKey aes s params with
    | none => .error 0x1E
    | some c' => .ok { c with toCard := c' }

/-- The card after a command of the session `s` that it accepts, or the status that refuses it. -/
def accept (c : BareCard) (s : Session) (cmd : UInt8) (params : Bytes) : Except UInt8 BareCard :=
  if cmd = 0xC4 then c.changeKey aes s params
  else match s.unmac aes cmd params with
    | none => .error 0x1E
    | some body =>
      (c.execute s.keyNo cmd body).map fun c' => { c' with toCard := c'.setSession (some s.bump) }

def respond : Nfc BareCard := fun c a =>
  let (cmd, params) := parseApdu a
  if cmd = 0x5A then c.lift (c.select (Vector.ofFn fun i => params.getD i 0))
  else if cmd = 0x71 then
    if (params.getD 0 0).toNat < c.keyCount then c.lift (c.startAuth aes (params.getD 0 0))
    else c.lift (c.refuse 0x40)
  else if cmd = 0xAF then c.lift (c.finishAuth aes params)
  else match c.session with
    | none => c.lift (c.refuse 0x9D)
    | some s => match c.accept aes s cmd params with
      | .error st => c.lift (c.refuse st)
      | .ok c' => (.answer 0x00 [], c')

/-! ### The PICC level -/

/-- The PICC holds its one key as it left the factory. -/
structure FactoryPicc (c : BareCard) : Prop where
  app : c.apps piccAid = some blankApp
  settings : c.settings piccAid = (0x0F, 0x01)

theorem FactoryPicc.congr {c c' : BareCard} (h : c.FactoryPicc) (happ : c'.apps piccAid = c.apps piccAid)
    (hset : c'.settings piccAid = c.settings piccAid) : c'.FactoryPicc :=
  ⟨happ.trans h.app, hset.trans h.settings⟩

theorem startAuth_apps (c : Card) (keyNo : UInt8) :
    (c.startAuth aes keyNo).2.apps = c.apps ∧ (c.startAuth aes keyNo).2.selected = c.selected := by
  unfold Card.startAuth
  split <;> exact ⟨rfl, rfl⟩

theorem finishAuth_apps (c : Card) (reply : Bytes) :
    (c.finishAuth aes reply).2.apps = c.apps ∧ (c.finishAuth aes reply).2.selected = c.selected := by
  unfold Card.finishAuth
  split
  · dsimp only
    split <;> exact ⟨rfl, rfl⟩
  · exact ⟨rfl, rfl⟩

theorem setApp_ne (c : Card) {aid aid' : Aid} (a : Option App) (h : aid' ≠ aid) :
    (c.setApp aid a).apps aid' = c.apps aid' := if_neg h

theorem select_apps (c : Card) (aid : Aid) : (c.select aid).2.apps = c.apps := by
  unfold Card.select
  split <;> rfl

theorem acceptKey_apps {c c' : Card} {s : Session} {params : Bytes}
    (h : c.acceptKey aes s params = some c') :
    (∀ aid ≠ c.selected, c'.apps aid = c.apps aid) ∧ c'.selected = c.selected := by
  unfold Card.acceptKey at h
  split at h
  · dsimp only at h
    split at h <;>
    · obtain ⟨k, -, rfl⟩ := Option.map_eq_some_iff.1 h
      exact ⟨fun aid haid => setApp_ne c _ haid, rfl⟩
  · cases h

section Keeps

variable {aes} {c c' : BareCard} (h : c.FactoryPicc)
include h

theorem FactoryPicc.writeFile {keyNo : UInt8} {body : Bytes} (hok : c.writeFile keyNo body = .ok c') :
    c'.FactoryPicc ∧ c'.selected = c.selected := by
  have hne (n : UInt8) {f : File} (hf : c.file n = some f) : piccAid ≠ c.selected := by
    intro hsel
    rw [Card.file, Card.app, ← hsel, h.app] at hf
    cases hf
  unfold BareCard.writeFile at hok
  dsimp only at hok
  split at hok
  · cases hok
  · rename_i f hf
    split_ifs at hok
    cases hok
    exact ⟨h.congr (setApp_ne c.toCard _ (hne _ hf)) rfl, rfl⟩

theorem FactoryPicc.createApp {body : Bytes}
    (hnew : ¬ (c.apps (Vector.ofFn fun i => body.getD i 0)).isSome) :
    (c.createApp body).FactoryPicc := by
  have hne : piccAid ≠ Vector.ofFn fun i => body.getD i 0 := by
    intro heq
    rw [← heq, h.app] at hnew
    exact hnew rfl
  exact h.congr (setApp_ne c.toCard _ hne) (if_neg hne)

/-- No command but ChangeKey reaches the PICC's own application. -/
theorem FactoryPicc.execute {keyNo cmd : UInt8} {body : Bytes}
    (hok : c.execute keyNo cmd body = .ok c') : c'.FactoryPicc ∧ c'.selected = c.selected := by
  unfold BareCard.execute at hok
  split_ifs at hok with hfc hsel hlen hca hsel hlen hnew hcd hsel hlen hnew h3d
  · cases hok
    exact ⟨h.congr (by simp [BareCard.format, Card.format]) rfl, rfl⟩
  · cases hok
    exact ⟨h.createApp hnew, rfl⟩
  · cases hok
    have hne : piccAid ≠ c.selected := fun heq => hsel (.inl heq.symm)
    exact ⟨h.congr (setApp_ne c.toCard _ hne) rfl, rfl⟩
  · exact h.writeFile hok

theorem FactoryPicc.changeKey {s : Session} {params : Bytes} (hsel : c.selected ≠ piccAid)
    (hok : c.changeKey aes s params = .ok c') : c'.FactoryPicc ∧ c'.selected = c.selected := by
  unfold BareCard.changeKey at hok
  split_ifs at hok
  split at hok
  · cases hok
  · rename_i card hcard
    cases hok
    obtain ⟨happs, hsel'⟩ := acceptKey_apps aes hcard
    exact ⟨h.congr (happs _ hsel.symm) rfl, hsel'⟩

theorem FactoryPicc.accept {s : Session} {cmd : UInt8} {params : Bytes}
    (hsel : cmd = 0xC4 → c.selected ≠ piccAid) (hok : c.accept aes s cmd params = .ok c') :
    c'.FactoryPicc ∧ c'.selected = c.selected := by
  unfold BareCard.accept at hok
  split_ifs at hok with hc4
  · exact h.changeKey (hsel hc4) hok
  · split at hok
    · cases hok
    · rename_i body hbody
      cases hc : c.execute s.keyNo cmd body with
      | error st =>
        rw [hc] at hok
        cases hok
      | ok c₁ =>
        rw [hc] at hok
        cases hok
        obtain ⟨hf, hs⟩ := h.execute hc
        exact ⟨hf.congr rfl rfl, hs⟩

/-- One exchange; ChangeKey must come while an application is selected. -/
theorem FactoryPicc.respond {cmd : UInt8} (params : Bytes) (hsel : cmd = 0xC4 → c.selected ≠ piccAid) :
    (c.respond aes (apdu cmd params)).2.FactoryPicc ∧
      (cmd ≠ 0x5A → (c.respond aes (apdu cmd params)).2.selected = c.selected) := by
  simp only [BareCard.respond, parseApdu_apdu]
  split_ifs with h5a h71 hkey haf
  · refine ⟨h.congr ?_ rfl, fun hne => absurd h5a hne⟩
    exact congrFun (select_apps c.toCard _) piccAid
  · obtain ⟨happs, hs⟩ := startAuth_apps aes c.toCard (params.getD 0 0)
    exact ⟨h.congr (congrFun happs piccAid) rfl, fun _ => hs⟩
  · exact ⟨h.congr rfl rfl, fun _ => rfl⟩
  · obtain ⟨happs, hs⟩ := finishAuth_apps aes c.toCard params
    exact ⟨h.congr (congrFun happs piccAid) rfl, fun _ => hs⟩
  · split
    · exact ⟨h.congr rfl rfl, fun _ => rfl⟩
    · rename_i s hs
      cases hacc : c.accept aes s cmd params with
      | error st => exact ⟨h.congr rfl rfl, fun _ => rfl⟩
      | ok c' =>
        obtain ⟨hf, hs⟩ := h.accept hsel hacc
        exact ⟨hf, fun _ => hs⟩

end Keeps

/-! ### Operations -/

def setSession (c : BareCard) (s : Option Session) : BareCard :=
  { c with toCard := c.toCard.setSession s }

def selectApp (c : BareCard) (aid : Aid) : BareCard :=
  { c with toCard := { c.toCard with selected := aid, session := none, pending := none } }

def establish (c : BareCard) (s : Session) : BareCard := { c with toCard := c.established s }

/-- The AID at the front of a request. -/
theorem ofFn_getD (aid : Aid) (l : Bytes) :
    (Vector.ofFn fun i : Fin 3 => (aid.toList ++ l).getD i 0) = aid := by
  ext i hi
  simp [List.getD_eq_getElem?_getD, List.getElem?_append]

theorem respond_select_eq (c : BareCard) (aid : Aid) :
    c.respond aes (apdu 0x5A aid.toList) = c.lift (c.select aid) := by
  have haid := ofFn_getD aid []
  rw [List.append_nil] at haid
  simp only [respond, parseApdu_apdu, ↓reduceIte, haid]

theorem respond_select {c : BareCard} {aid : Aid} (h : (c.apps aid).isSome) :
    c.respond aes (apdu 0x5A aid.toList) = (.answer 0x00 [], c.selectApp aid) := by
  rw [respond_select_eq, Card.select, if_pos h]
  rfl

/-- Host and card are in one session, with key 0. -/
structure Authed (w : World BareCard) : Prop where
  inStep : InStep w.host w.link.toCard
  keyNo : w.host.session.keyNo = 0

theorem desfireSelectApplication_bare (w : World BareCard) {aid : Aid}
    (haid : (w.link.apps aid).isSome) :
    let r := desfireSelectApplication (BareCard.respond aes) aid w
    r.ret = .ok ∧ r.world.link = w.link.selectApp aid := by
  have hx := desfireXfer_eq (BareCard.respond aes) 0x5A .null 0 w (show aid.toList.length ≤ 255 by simp)
  simp only [respond_select aes haid] at hx
  rw [receive_answer .null _ (by simp) (Nat.le_refl 0)] at hx
  simp only [desfireSelectApplication, hx, ne_eq, not_true_eq_false, ↓reduceIte]
  exact ⟨trivial, rfl⟩

theorem desfireAuthEv2First_bare {w : World BareCard} {a : App} (ha : w.link.app = some a)
    (hn : 0 < w.link.keyCount) {key : Block} (hk : (a.keys 0).key = key) (rndA : Block) :
    let r := desfireAuthEv2First aes (BareCard.respond aes) 0 key rndA w
    r.ret = .ok ∧ Authed r.world ∧ ∃ s, r.world.link = w.link.establish s := by
  intro r
  have h1 : w.link.respond aes (apdu 0x71 [0x00, 0x00, 0x00]) = w.link.lift (w.link.startAuth aes 0) := by
    simp [respond, hn]
  have h2 (reply : Bytes) :
      BareCard.respond aes { w.link with toCard := w.link.challenged 0 } (apdu 0xAF reply) =
        w.link.lift ((w.link.challenged 0).finishAuth aes reply) := by
    simp [respond, lift]
  simp only [Card.startAuth_eq aes ha, hk, lift] at h1
  have h3 := h2 (authChallenge aes key rndA
    (cardChallenge aes key (w.link.draws w.link.handshakes).1) (w.link.draws w.link.handshakes).1)
  have hfinish := Card.finishAuth_eq aes ha 0 rndA
  rw [hk] at hfinish
  simp only [hfinish, lift] at h3
  obtain ⟨hret, hses, hmac, hlink⟩ := auth_honest aes key rndA (w.link.draws w.link.handshakes).1
    (BareCard.respond aes) 0 (w.link.draws w.link.handshakes).2 (.replicate 12 0) w h1 h3
  refine ⟨hret, ⟨⟨⟨?_, hmac⟩, ?_⟩, ?_⟩, _, hlink⟩
  · rw [hses]
    rfl
  · rw [hlink, hses]
    rfl
  · rw [hses]
    rfl

section Session

variable {w : World BareCard} (hw : Authed w)
include hw

/-- A command without an answer, which the card executes. -/
theorem respond_cmac {cmd : UInt8} {header data : Bytes}
    (hcmd : cmd ∉ ([0x5A, 0x71, 0xAF, 0xC4] : List UInt8)) {c' : BareCard}
    (hexec : w.link.execute 0 cmd (header ++ data) = .ok c') :
    w.link.respond aes (apdu cmd (cmacParams aes w.host cmd header data)) =
      (.answer 0x00 [], c'.setSession (some w.host.session.bump)) := by
  obtain ⟨⟨hl, hs⟩, h0⟩ := hw
  simp only [List.mem_cons, List.not_mem_nil, or_false, not_or] at hcmd
  simp only [respond, parseApdu_apdu, hcmd, ↓reduceIte, hs, accept, unmac_cmacParams aes hl, h0, hexec]
  rfl

theorem cmacAppendAndSend_bare {cmd : UInt8} {header data : Bytes}
    (hcmd : cmd ∉ ([0x5A, 0x71, 0xAF, 0xC4] : List UInt8)) (hfit : header.length + data.length ≤ 247)
    {c' : BareCard} (hexec : w.link.execute 0 cmd (header ++ data) = .ok c') :
    ∃ r, cmacAppendAndSend aes (BareCard.respond aes) cmd header data .null 0 w = .ok r ∧
      r.ret = .ok ∧ Authed r.world ∧ ∃ s, r.world.link = c'.setSession s := by
  have hr := respond_cmac aes hw hcmd hexec
  obtain ⟨⟨hl, -⟩, h0⟩ := hw
  have hacc : (LinkResult.answer 0x00 []).accept [0x00, 0xAF] 0 = some (0x00, []) :=
    LinkResult.accept_eq_some.2 ⟨LinkResult.parse_answer _ (by simp), by simp, by simp⟩
  rw [cmacAppendAndSend_sent _ _ _ _ _ hfit, hr, cmacFinish_of_accept _ _ _ hacc]
  exact ⟨_, rfl, rfl, ⟨⟨⟨hl.authenticated, hl.macKey⟩, rfl⟩, h0⟩, _, rfl⟩

theorem desfireChangeKey_bare {a : App} (ha : w.link.app = some a) {keyNo : UInt8}
    (hn : keyNo.toNat < w.link.keyCount) {old : Block} (hold : (a.keys keyNo).key = old)
    (new : Block) (ver : UInt8) :
    let r := desfireChangeKey aes (BareCard.respond aes) keyNo old new ver w
    r.ret = .ok ∧ (keyNo ≠ 0 → Authed r.world) ∧
      ∃ s, r.world.link = setSession { w.link with toCard := w.link.setKey keyNo ⟨new, ver⟩ } s := by
  intro r
  obtain ⟨⟨hl, hs⟩, h0⟩ := hw
  have hkey : (encParams aes w.host 0xC4 [keyNo]
      (changeKeyPlain (keyNo == w.host.session.keyNo) keyNo old new ver)).getD 0 0 = keyNo := rfl
  have hr : w.link.respond aes (apdu 0xC4 (encParams aes w.host 0xC4 [keyNo]
      (changeKeyPlain (keyNo == w.host.session.keyNo) keyNo old new ver))) =
        (.answer 0x00 [], setSession { w.link with toCard := w.link.setKey keyNo ⟨new, ver⟩ }
          (if keyNo = 0 then none else some w.host.session.bump)) := by
    have hacc := acceptKey_request aes ⟨hl, hs⟩ ha keyNo old new ver fun _ => hold
    rw [h0] at hacc hkey ⊢
    simp only [respond, parseApdu_apdu, hs, accept, changeKey, h0, hkey, Nat.not_le.2 hn, hacc]
    rfl
  obtain ⟨hret, hlink, hses, hmac⟩ := desfireChangeKey_answered aes (BareCard.respond aes) hl
    keyNo old new ver (.inl rfl) hr
  refine ⟨hret, fun hne => ?_, _, hlink⟩
  have hses' : r.world.host.session = w.host.session.bump := by
    rw [h0] at hses
    exact hses.trans (if_neg hne)
  refine ⟨⟨⟨?_, ?_⟩, ?_⟩, ?_⟩
  · rw [hses']
    exact hl.authenticated
  · rw [hses']
    exact hmac.trans hl.macKey
  · rw [hses', show r.world.link = _ from hlink, if_neg hne]
    rfl
  · rw [hses']
    exact h0

end Session

end BareCard

end LeafReader
