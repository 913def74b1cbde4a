import LeafReader.CardSpec
import LeafReader.Aes128

/-!
# Personalize, then read

`leaf_personalize` and `leaf_read` against the ideal card. The requests of `desfire_xfer` that pass
no response buffer leave no room for the MAC of the answer, so CreateApplication fails in every
session; and the 32-byte buffer of `leaf_read` has no room for the 40 bytes of its answer.
-/

namespace LeafReader

variable {σ : Type} (aes : Aes)

/-- `leaf_personalize`, and a `leaf_read` after it, return `ESP_OK`, and the credential read is
`cred`. -/
def RoundTrip (site : Block) (uid : Bytes) (cred : Credential) (rndA : Fin 4 → Block)
    (payload buf : Vector UInt8 32) (w : World Card) : Prop :=
  ∃ c, leafPersonalize aes (Card.respond aes) (some site) uid cred (rndA 0) (rndA 1) (rndA 2) payload w =
      .ok c ∧ c.ret = .ok ∧
    ∃ r, leafRead aes (Card.respond aes) (some site) uid (rndA 3) buf c.world = .ok r ∧
      r.ret = .ok ∧ r.out = some cred

/-- A card from the factory: one blank key at the level of the PICC, and no application. -/
def factoryCard (uid : Vector UInt8 7) (draws : Nat → Block × Vector UInt8 4) : Card where
  uid := uid
  apps aid := if aid = piccAid then some ⟨fun _ => blankKey, fun _ => none⟩ else none
  selected := piccAid
  session := none
  pending := none
  draws := draws
  handshakes := 0

/-! ### No room for the MAC -/

theorem Card.reply_noRoom (c : Card) (s : Session) (data : Bytes) (good : List UInt8) {cap : Nat}
    (hcap : cap < data.length + 8) : (c.reply aes s data).1.accept good cap = none :=
  LinkResult.accept_eq_none.2 fun st d hp _ => by
    by_cases hfit : (data ++ s.bump.mac8 aes 0x00 data).length + 2 ≤ 280
    · rw [Card.reply, LinkResult.parse_answer _ hfit] at hp
      cases hp
      simpa using hcap
    · rw [Card.reply, LinkResult.parse_answer_of_lt (by omega)] at hp
      cases hp

/-- The card turns a CreateApplication with a MAC down, or answers it with a MAC. -/
theorem Card.respond_createApp (c : Card) {params : Bytes} (h : params.length = 13) :
    (c.respond aes (apdu 0xCA params)).1.accept [0x00, 0xAF] 0 = none := by
  have hbad {st : UInt8} (hst : st ∉ ([0x00, 0xAF] : List UInt8)) (c : Card) :
      (c.refuse st).1.accept [0x00, 0xAF] 0 = none := accept_refused hst
  simp only [respond, parseApdu_apdu]
  cases c.session with
  | none => simpa [h] using hbad (by decide) c
  | some s =>
    simp only [secured]
    cases hu : s.unmac aes 0xCA params with
    | none => exact hbad (by decide) c
    | some body =>
      have hb : body.length = 5 := by
        simp only [Session.unmac, Option.ite_none_right_eq_some, Option.some.injEq] at hu
        rw [← hu.2, List.length_take]
        omega
      simpa [hb] using Card.reply_noRoom aes (c.createApp body) s [] [0x00, 0xAF] (by simp)

theorem desfireCreateApplication_fails (aid : Aid) (ks nk : UInt8) {w : World Card}
    (hauth : w.host.session.authenticated = true) :
    ∃ out w', desfireCreateApplication aes (Card.respond aes) aid ks nk w = .ok ⟨.fail, out, w'⟩ := by
  rw [desfireCreateApplication_of_auth _ _ hauth, cmacAppendAndSend_sent _ _ _ _ _ (by simp),
    cmacFinish_of_reject aes _ _ (Card.respond_createApp aes w.link (by simp))]
  exact ⟨_, _, rfl⟩

/-! ### Where the flow comes to -/

/-- The ideal card and a host that knows the key complete the handshake in step. -/
theorem desfireAuthEv2First_inStep {c : Card} {a : App} (ha : c.app = some a) (keyNo : UInt8)
    (rndA : Block) (h : Host) :
    let r := desfireAuthEv2First aes (Card.respond aes) keyNo (a.keys keyNo).key rndA ⟨h, c⟩
    r.ret = .ok ∧ InStep r.world.host r.world.link := by
  intro r
  have h1 : Card.respond aes c (apdu 0x71 [keyNo, 0x00, 0x00]) = c.startAuth aes keyNo := by
    simp [Card.respond]
  have h2 (reply : Bytes) : Card.respond aes (c.challenged keyNo) (apdu 0xAF reply) =
      (c.challenged keyNo).finishAuth aes reply := by
    simp [Card.respond]
  obtain ⟨hret, hses, hmac, hlink⟩ := auth_honest aes (a.keys keyNo).key rndA _ (Card.respond aes)
    keyNo _ _ ⟨h, c⟩ (h1.trans (Card.startAuth_eq aes ha keyNo))
    ((h2 _).trans (Card.finishAuth_eq aes ha keyNo rndA))
  refine ⟨hret, ⟨?_, hmac⟩, ?_⟩
  · show r.world.host.session.authenticated = true
    rw [hses]
    rfl
  · show r.world.link.session = some r.world.host.session
    rw [hlink, hses]
    rfl

/-- FormatPICC is executed, but the host takes the answer for a failure: the card is one command
ahead from here on. -/
theorem desfireFormatPicc_outOfStep {w : World Card} (hs : InStep w.host w.link) :
    ∃ c, desfireFormatPicc aes (Card.respond aes) w = .ok c ∧ c.ret = .fail ∧
      c.world.host.session = w.host.session ∧
      c.world.link = w.link.format.setSession (some w.host.session.bump) := by
  have hr : Card.respond aes w.link (apdu 0xFC (cmacParams aes w.host 0xFC [] [])) =
      w.link.format.reply aes w.host.session [] := by
    simp [Card.respond, Card.secured, hs.session, unmac_cmacParams aes hs.live]
  rw [desfireFormatPicc_of_auth _ _ hs.live.authenticated, cmacAppendAndSend_sent _ _ _ _ _ (by simp),
    hr, cmacFinish_of_reject aes _ _ (Card.reply_noRoom aes _ _ _ _ (by simp))]
  exact ⟨_, rfl, rfl, by simp, by simp [Card.reply]⟩

/-! ### The two flows -/

variable (nfc : Nfc σ)

theorem desfireAuthEv2First_authenticated (keyNo : UInt8) (key rndA : Block) (w : World σ)
    (h : (desfireAuthEv2First aes nfc keyNo key rndA w).ret = .ok) :
    (desfireAuthEv2First aes nfc keyNo key rndA w).world.host.session.authenticated = true := by
  unfold desfireAuthEv2First at h ⊢
  dsimp only at h ⊢
  split at h
  · cases h
  · split at h
    · cases h
    · split at h
      · cases h
      · rename_i h1 h2 h3
        rw [if_neg h1, if_neg h2, if_neg h3]
        rfl

theorem desfireFormatPicc_authenticated {w : World σ} (hauth : w.host.session.authenticated = true) :
    ∃ c, desfireFormatPicc aes nfc w = .ok c ∧ c.world.host.session.authenticated = true := by
  obtain ⟨c, hc, hs, -, -⟩ := Op.run_of_request aes nfc .formatPicc (by simp [Op.IsAuth]) w
    (if_pos hauth) (by simp [Op.Overruns])
  refine ⟨c, hc, ?_⟩
  rw [hs, Op.next]
  split <;> exact hauth

/-- With the ideal card `leaf_personalize` ends in `ESP_FAIL`, at CreateApplication at the latest. -/
theorem leafPersonalize_fails (site : Block) (uid : Bytes) (cred : Credential)
    (rndA1 rndA2 rndA3 : Block) (mem : Vector UInt8 32) (w : World Card) :
    ∃ w', leafPersonalize aes (Card.respond aes) (some site) uid cred rndA1 rndA2 rndA3 mem w =
      .ok ⟨.fail, .null, w'⟩ := by
  simp only [leafPersonalize, leafGetSiteKey, leafDiversifyKey, cmacWithKey_eq, bind, Except.bind]
  by_cases h1 : (desfireSelectApplication (Card.respond aes) piccAid w).ret = .ok
  · by_cases h2 : (desfireAuthEv2First aes (Card.respond aes) 0 defaultKey rndA1
        (desfireSelectApplication (Card.respond aes) piccAid w).world).ret = .ok
    · have hauth := desfireAuthEv2First_authenticated aes (Card.respond aes) 0 defaultKey rndA1 _ h2
      obtain ⟨c2, hc2, hauth2⟩ := desfireFormatPicc_authenticated aes (Card.respond aes) hauth
      obtain ⟨out, w', hc3⟩ := desfireCreateApplication_fails aes leafAid 0x0F 0x82 hauth2
      simp only [h1, h2, hc2, hc3, ne_eq, not_true_eq_false, ↓reduceIte]
      exact ⟨_, rfl⟩
    · simp only [h1, h2, ne_eq, not_true_eq_false, not_false_eq_true, ↓reduceIte]
      exact ⟨_, rfl⟩
  · simp only [h1, ne_eq, not_false_eq_true, ↓reduceIte]
    exact ⟨_, rfl⟩

/-- The CMAC read of `leaf_read` never leaves 32 in `rl`: 24 bytes and a MAC are what `buf` holds. -/
theorem desfireReadData_rl {mem : Vector UInt8 32} {w : World σ} {c : Call σ EspErr}
    (hc : desfireReadData aes nfc leafFileNo 0 leafFileSize .cmac ⟨some mem.toList, some 0⟩ 32 w =
      .ok c) : c.ret ≠ .ok ∨ c.out.respLen ≠ some 32 := by
  cases hauth : w.host.session.authenticated with
  | false =>
    simp only [desfireReadData, hauth, Bool.not_false, ↓reduceIte, Except.ok.injEq] at hc
    subst hc
    simp
  | true =>
    rw [desfireReadData_cmac_of_auth _ _ hauth, cmacAppendAndSend_sent _ _ _ _ _ (by simp)] at hc
    generalize nfc w.link _ = r at hc
    cases hr : r.1.accept [0x00, 0xAF] 32 with
    | none =>
      rw [cmacFinish_of_reject aes _ _ hr] at hc
      cases hc
      simp
    | some p =>
      obtain ⟨st, d⟩ := p
      obtain ⟨-, -, hd⟩ := LinkResult.accept_eq_some.1 hr
      rw [cmacFinish_of_accept aes _ _ hr, cmacVerify_put] at hc
      split at hc
      · cases hc
        right
        simp only [Out.put, Option.map_some, ne_eq, Option.some.injEq]
        omega
      · split at hc
        · cases hc
        · split at hc
          · cases hc
            right
            simp only [ne_eq, Option.some.injEq]
            omega
          · cases hc
            simp

/-- Over any link, `leaf_read` never returns `ESP_OK` and never writes `*out`. -/
theorem leafRead_fails (site : Option Block) (uid : Bytes) (rndA : Block) (mem : Vector UInt8 32)
    (w : World σ) {r : ReadCall σ} (hr : leafRead aes nfc site uid rndA mem w = .ok r) :
    r.ret ≠ .ok ∧ r.out = none := by
  cases site with
  | none =>
    cases hr
    simp
  | some site =>
    simp only [leafRead, leafGetSiteKey, bind, Except.bind] at hr
    split at hr
    · cases hr
      simp
    split at hr
    · cases hr
      simp
    split at hr
    · cases hr
    · rename_i hc
      rw [if_pos (desfireReadData_rl aes nfc hc)] at hr
      cases hr
      simp

/-- No personalization of a card is followed by a read of its credential. -/
theorem roundTrip_never (site : Block) (uid : Bytes) (cred : Credential) (rndA : Fin 4 → Block)
    (payload buf : Vector UInt8 32) (w : World Card) :
    ¬ RoundTrip aes site uid cred rndA payload buf w := by
  rintro ⟨c, hc, hret, -⟩
  obtain ⟨w', hw'⟩ := leafPersonalize_fails aes site uid cred (rndA 0) (rndA 1) (rndA 2) payload w
  rw [hw'] at hc
  cases hc
  cases hret

theorem factoryCard_not_roundTrip :
    ¬ RoundTrip Aes128.aes128 .zero (List.replicate 7 0) ⟨0, 0, 0⟩ (fun _ => .zero) (.replicate 32 0)
      (.replicate 32 0) ⟨desfireInit, factoryCard (.replicate 7 0) fun _ => (.zero, .replicate 4 0)⟩ := by
  rintro ⟨c, hc, hret, -⟩
  obtain ⟨w', hw'⟩ := leafPersonalize_fails Aes128.aes128 .zero (List.replicate 7 0) ⟨0, 0, 0⟩ .zero
    .zero .zero (.replicate 32 0)
    ⟨desfireInit, factoryCard (.replicate 7 0) fun _ => (.zero, .replicate 4 0)⟩
  rw [hw'] at hc
  cases hc
  cases hret

end LeafReader
