import LeafReader.CardSpec
import LeafReader.Aes128

/-!
# ChangeKey

`desfire_change_key` against a card in step with the session: the card takes the request in either
branch, and ends with exactly the new key. Any answer whose status is not `OPERATION_OK` leaves the
host's session as it was.
-/

namespace LeafReader

variable (aes : Aes)

/-- The card after a ChangeKey that it accepts; that of the session's own key ends the session. -/
def Card.acceptKey (c : Card) (s : Session) (params : Bytes) : Option Card :=
  match c.app, s.unmac aes 0xC4 params with
  | some a, some body =>
    let keyNo := body.getD 0 0
    let plain := cardDecrypt aes s.kSesAuthEnc (s.cardIv aes 0xA5 0x5A) (body.drop 1)
    if keyNo = s.keyNo then
      (changedSameKey keyNo plain).map fun k => (c.setKey keyNo k).setSession none
    else (changedOtherKey keyNo (a.keys keyNo).key plain).map fun k =>
      (c.setKey keyNo k).setSession (some s.bump)
  | _, _ => none

/-- A card that answers ChangeKey with a MAC, or with a bare status word. -/
def Card.keyLink (macs : Bool) : Nfc Card := fun c a =>
  let (cmd, params) := parseApdu a
  match if cmd = 0xC4 then c.session else none with
  | none => (.answer 0x1C [], c)
  | some s =>
    match c.acceptKey aes s params with
    | none => (.answer 0x1E [], c)
    | some c' => (.answer 0x00 (if macs then s.bump.mac8 aes 0x00 [] else []), c')

/-- The ideal card accepts the same requests. -/
theorem Card.changeKey_eq (c : Card) (s : Session) (params : Bytes) :
    c.changeKey aes s params =
      match c.acceptKey aes s params with
      | none => c.refuse 0x1E
      | some c' => (.answer 0x00 (s.bump.mac8 aes 0x00 []), c') := by
  unfold changeKey acceptKey
  cases c.app with
  | none => rfl
  | some a =>
    cases s.unmac aes 0xC4 params with
    | none => rfl
    | some body =>
      dsimp only
      split
      · cases changedSameKey (body.getD 0 0) _ <;> rfl
      · cases changedOtherKey (body.getD 0 0) (a.keys (body.getD 0 0)).key _ <;> rfl

@[simp] theorem Card.app_setSession (c : Card) (s : Option Session) : (c.setSession s).app = c.app := rfl

theorem Card.app_setKey {c : Card} {a : App} (ha : c.app = some a) (keyNo : UInt8) (k : CardKey) :
    (c.setKey keyNo k).app = some { a with keys := fun n => if n = keyNo then k else a.keys n } := by
  simp only [app, setKey, setApp, ↓reduceIte]
  rw [show c.apps c.selected = some a from ha]
  rfl

/-! ### The plaintexts -/

theorem changedSameKey_plain (keyNo : UInt8) (old new : Block) (ver : UInt8) :
    changedSameKey keyNo (changeKeyPlain true keyNo old new ver) = some ⟨new, ver⟩ := by
  set crc := le32 (desfireCrc32 ([0xC4, keyNo] ++ new.toList ++ [ver])) with hcrc
  have hplain : changeKeyPlain true keyNo old new ver = pad80 (new.toList ++ [ver] ++ crc) := by
    rw [changeKeyPlain, if_pos rfl]
    exact padToBlock_eq (by simp [pad16])
  have htake : (pad80 (new.toList ++ [ver] ++ crc)).take 16 = new.toList := by
    rw [pad80, List.append_assoc, List.append_assoc, List.take_left' (by simp)]
  have hver : (pad80 (new.toList ++ [ver] ++ crc)).getD 16 0 = ver := by
    simp [pad80, List.getD_eq_getElem?_getD]
  rw [hplain, changedSameKey]
  simp only [htake, hver, ← desfireCrc32_eq, ← hcrc, ↓reduceIte, Block.ofBytes_toList']

theorem changedOtherKey_plain (keyNo : UInt8) (old new : Block) (ver : UInt8) :
    changedOtherKey keyNo old (changeKeyPlain false keyNo old new ver) = some ⟨new, ver⟩ := by
  set mixed := (new ^^^ old).toList with hmixed
  set crc1 := le32 (desfireCrc32 ([0xC4, keyNo] ++ mixed ++ [ver])) with hcrc1
  set crc2 := le32 (desfireCrc32 new.toList) with hcrc2
  have hplain : changeKeyPlain false keyNo old new ver = pad80 (mixed ++ [ver] ++ crc1 ++ crc2) := by
    rw [changeKeyPlain, if_neg (by simp)]
    exact padToBlock_eq (by simp [pad16])
  have htake : (pad80 (mixed ++ [ver] ++ crc1 ++ crc2)).take 16 = mixed := by
    rw [pad80, List.append_assoc, List.append_assoc, List.append_assoc,
      List.take_left' (by simp [hmixed])]
  have hver : (pad80 (mixed ++ [ver] ++ crc1 ++ crc2)).getD 16 0 = ver := by
    simp [pad80, hmixed, List.getD_eq_getElem?_getD]
  have hnew : Block.ofBytes mixed ^^^ old = new := by
    rw [hmixed, Block.ofBytes_toList', xor_cancel_right]
  rw [hplain, changedOtherKey]
  simp only [htake, hver, hnew, ← desfireCrc32_eq, ← hcrc1, ← hcrc2, ↓reduceIte]

/-! ### The request -/

section Request

variable {h : Host} {card : Card} {a : App} (hs : InStep h card) (ha : card.app = some a)
include hs ha

/-- The card accepts the request of either branch. -/
theorem acceptKey_request (keyNo : UInt8) (old new : Block) (ver : UInt8)
    (hold : keyNo ≠ h.session.keyNo → (a.keys keyNo).key = old) :
    card.acceptKey aes h.session (encParams aes h 0xC4 [keyNo]
        (changeKeyPlain (keyNo == h.session.keyNo) keyNo old new ver)) =
      some ((card.setKey keyNo ⟨new, ver⟩).setSession
        (if keyNo = h.session.keyNo then none else some h.session.bump)) := by
  have hlen := length_changeKeyPlain (keyNo == h.session.keyNo) keyNo old new ver
  rw [Card.acceptKey, ha, unmac_encParams aes hs.live]
  simp only [List.cons_append, List.nil_append, List.getD_cons_zero, List.drop_succ_cons, List.drop_zero,
    decrypt_encCipher aes h.session (show _ % 16 = 0 by rw [hlen])]
  by_cases hk : keyNo = h.session.keyNo
  · have hb : (keyNo == h.session.keyNo) = true := beq_iff_eq.2 hk
    rw [if_pos hk, if_pos hk, hb, changedSameKey_plain]
    rfl
  · have hb : (keyNo == h.session.keyNo) = false := beq_eq_false_iff_ne.2 hk
    rw [if_neg hk, if_neg hk, hb, hold hk, changedOtherKey_plain]
    rfl

end Request

/-- The host takes a bare status word, and an answer with the right MAC. -/
theorem desfireChangeKey_answered {σ : Type} (nfc : Nfc σ) {h : Host} (hl : h.Live) {l l' : σ}
    (keyNo : UInt8) (old new : Block) (ver : UInt8) {d : Bytes}
    (hd : d = [] ∨ d = h.session.bump.mac8 aes 0x00 [])
    (hx : nfc l (apdu 0xC4 (encParams aes h 0xC4 [keyNo]
      (changeKeyPlain (keyNo == h.session.keyNo) keyNo old new ver))) = (.answer 0x00 d, l')) :
    let c := desfireChangeKey aes nfc keyNo old new ver ⟨h, l⟩
    c.ret = .ok ∧ c.world.link = l' ∧
      c.world.host.session = (if keyNo = h.session.keyNo then { h.session with authenticated := false }
        else h.session.bump) ∧
      c.world.host.macKey = h.macKey := by
  intro c
  have hd16 : d.length ≤ 16 := by rcases hd with rfl | rfl <;> simp
  have hacc : (LinkResult.answer 0x00 d).accept [0x00] 16 = some (0x00, d) :=
    LinkResult.accept_eq_some.2 ⟨LinkResult.parse_answer _ (by omega), by simp, hd16⟩
  have hc := desfireChangeKey_sent aes nfc keyNo old new ver ⟨h, l⟩ hl.authenticated
  simp only [hx] at hc
  by_cases hk : keyNo = h.session.keyNo
  · rw [beq_iff_eq.2 hk, changeKeyTail_same aes _ hacc] at hc
    simp only [c, hc, hk, ↓reduceIte]
    exact ⟨trivial, rfl, rfl, rfl⟩
  · rw [beq_eq_false_iff_ne.2 hk, changeKeyTail_different aes _ hacc] at hc
    have hmatch : d.length < 8 ∨ MacMatches aes (World.bumpCtr ⟨h, l'⟩).host 0x00 d := by
      rcases hd with rfl | rfl
      · exact .inl (by simp)
      · exact .inr (macMatches_mac8 aes (w := World.mk h l') hl [])
    simp only [c, hc, hk, ↓reduceIte]
    exact ⟨if_pos hmatch, rfl, rfl, rfl⟩

/-- The link executes the request and the host takes the answer. -/
theorem desfireChangeKey_keyLink {h : Host} {card : Card} {a : App} (hs : InStep h card)
    (ha : card.app = some a) (macs : Bool) (keyNo : UInt8) (old new : Block) (ver : UInt8)
    (hold : keyNo ≠ h.session.keyNo → (a.keys keyNo).key = old) :
    let c := desfireChangeKey aes (Card.keyLink aes macs) keyNo old new ver ⟨h, card⟩
    c.ret = .ok ∧
      c.world.link = (card.setKey keyNo ⟨new, ver⟩).setSession
        (if keyNo = h.session.keyNo then none else some h.session.bump) ∧
      c.world.host.session = (if keyNo = h.session.keyNo then { h.session with authenticated := false }
        else h.session.bump) ∧
      c.world.host.macKey = h.macKey := by
  refine desfireChangeKey_answered aes (Card.keyLink aes macs) hs.live keyNo old new ver
    (d := if macs then h.session.bump.mac8 aes 0x00 [] else []) ?_ ?_
  · cases macs with
    | true => exact .inr rfl
    | false => exact .inl rfl
  · simp only [Card.keyLink, parseApdu_apdu, ↓reduceIte, hs.session,
      acceptKey_request aes hs ha keyNo old new ver hold]

/-- A status other than `OPERATION_OK`, or no status at all, changes nothing. -/
theorem desfireChangeKey_rejected {σ : Type} (nfc : Nfc σ) (keyNo : UInt8) (old new : Block)
    (ver : UInt8) (w : World σ)
    (hst : ∀ d, (nfc w.link (apdu 0xC4 (encParams aes w.host 0xC4 [keyNo]
      (changeKeyPlain (keyNo == w.host.session.keyNo) keyNo old new ver)))).1.parse ≠
        some (0x00, d)) :
    let c := desfireChangeKey aes nfc keyNo old new ver w
    c.ret ≠ .ok ∧ c.world.host.session = w.host.session := by
  intro c
  cases hauth : w.host.session.authenticated with
  | false =>
    have hc : c = ⟨.invalidState, .null, w⟩ := by simp [c, desfireChangeKey, hauth]
    rw [hc]
    exact ⟨by simp, rfl⟩
  | true =>
    have hrej : (nfc w.link (apdu 0xC4 (encParams aes w.host 0xC4 [keyNo]
        (changeKeyPlain (keyNo == w.host.session.keyNo) keyNo old new ver)))).1.accept [0x00] 16 =
          none := by
      refine LinkResult.accept_eq_none.2 fun st d hp hg => ?_
      obtain rfl : st = 0x00 := by simpa using hg
      exact absurd hp (hst d)
    have hc := desfireChangeKey_sent aes nfc keyNo old new ver w hauth
    rw [changeKeyTail_of_reject aes _ _ hrej] at hc
    simp only [c, hc]
    exact ⟨by simp, receive_session ..⟩

/-- ChangeKey installs exactly the requested key, on a card in step with the session whose stored key is
the `old_key` of a different-key change; any other status leaves the host's session unchanged. -/
theorem changeKey_installs (aes : Aes) (keyNo : UInt8) (old new : Block) (ver : UInt8) :
    (∀ (macs : Bool) (h : Host) (card : Card) (a : App), InStep h card → card.app = some a →
      (keyNo ≠ h.session.keyNo → (a.keys keyNo).key = old) →
      let c := desfireChangeKey aes (Card.keyLink aes macs) keyNo old new ver ⟨h, card⟩
      c.ret = .ok ∧
        (∃ a', c.world.link.app = some a' ∧ a'.keys keyNo = ⟨new, ver⟩ ∧
          (∀ n ≠ keyNo, a'.keys n = a.keys n) ∧ a'.files = a.files) ∧
        (∀ aid ≠ card.selected, c.world.link.apps aid = card.apps aid) ∧
        if keyNo = h.session.keyNo then c.world.host.session.authenticated = false
        else c.world.host.session = { h.session with cmdCtr := h.session.cmdCtr + 1 } ∧
          c.world.host.session.authenticated = true) ∧
    ∀ (σ : Type) (nfc : Nfc σ) (w : World σ),
      (∀ d, (nfc w.link (apdu 0xC4 (encParams aes w.host 0xC4 [keyNo]
        (changeKeyPlain (keyNo == w.host.session.keyNo) keyNo old new ver)))).1.parse ≠
          some (0x00, d)) →
      let c := desfireChangeKey aes nfc keyNo old new ver w
      c.ret ≠ .ok ∧ c.world.host.session = w.host.session := by
  constructor
  · intro macs h card a hs ha hold
    obtain ⟨hret, hlink, hsess, -⟩ := desfireChangeKey_keyLink aes hs ha macs keyNo old new ver hold
    refine ⟨hret, ?_, ?_, ?_⟩
    · rw [hlink, Card.app_setSession, Card.app_setKey ha]
      exact ⟨_, rfl, if_pos rfl, fun n hn => if_neg hn, rfl⟩
    · intro aid haid
      rw [hlink]
      exact if_neg haid
    · split
      · rename_i hk
        rw [hsess, if_pos hk]
      · rename_i hk
        rw [hsess, if_neg hk]
        exact ⟨rfl, hs.live.authenticated⟩
  · intro σ nfc w hst
    exact desfireChangeKey_rejected aes nfc keyNo old new ver w hst

/-- Key 1 of an application is changed in a session with key 0, and once the card turns it down. -/
theorem changeKey_installs_blank :
    let card : Card := ⟨.replicate 7 0, fun _ => some ⟨fun _ => blankKey, fun _ => none⟩, leafAid,
      some zeroHost.session, none, fun _ => (.zero, .replicate 4 0), 0⟩
    (desfireChangeKey Aes128.aes128 (Card.keyLink Aes128.aes128 false) 1 .zero defaultKey 1
        ⟨zeroHost, card⟩).ret = .ok ∧
      (desfireChangeKey Aes128.aes128 (fun c _ => (.answer 0xAE [], c)) 1 .zero defaultKey 1
        ⟨zeroHost, card⟩).ret ≠ .ok := by
  intro card
  have h := changeKey_installs Aes128.aes128 1 .zero defaultKey 1
  have hst (d : Bytes) : (LinkResult.answer 0xAE []).parse ≠ some (0x00, d) := by
    rw [LinkResult.parse_answer _ (by simp)]
    simp
  exact ⟨(h.1 false zeroHost card _ ⟨live_zeroHost, rfl⟩ rfl fun _ => rfl).1, (h.2 Card _ _ hst).1⟩

end LeafReader
