import LeafReader.CardAuth
import LeafReader.Aes128

/-!
# Mutual authentication

`desfire_auth_ev2_first` against a card that holds one key, and against any link at all. With the card
both sides end in the same session. With any link `ESP_OK` needs an answer that decrypts to the rotated
`RndA`, and a failed handshake leaves `g_session` alone.
-/

namespace LeafReader

/-- A card in the handshake, and the session it ends in. -/
inductive HandshakeCard
  | idle
  | challenged
  | done (s : Session)

/-- The card holds `key` under `keyNo`; its random numbers and capabilities are given. -/
structure HandshakeKey where
  keyNo : UInt8
  key : Block
  rndB : Block
  ti : Vector UInt8 4
  caps : Vector UInt8 12

variable (aes : Aes)

def HandshakeKey.respond (k : HandshakeKey) : Nfc HandshakeCard := fun c a =>
  let (cmd, params) := parseApdu a
  match c with
  | .challenged =>
    match if cmd = 0xAF then cardCheck aes k.key k.rndB params else none with
    | some rndA =>
      (.answer 0x00 (cardAnswer aes k.key rndA k.ti k.caps params),
        .done (cardSession aes k.key rndA k.rndB k.keyNo k.ti))
    | none => (.answer 0xAE [], .idle)
  | _ =>
    if cmd = 0x71 ∧ params = [k.keyNo, 0x00, 0x00] then
      (.answer 0xAF (cardChallenge aes k.key k.rndB).toList, .challenged)
    else (.answer 0xAE [], .idle)

theorem HandshakeKey.respond_first (k : HandshakeKey) :
    k.respond aes .idle (apdu 0x71 [k.keyNo, 0x00, 0x00]) =
      (.answer 0xAF (cardChallenge aes k.key k.rndB).toList, .challenged) := by
  simp [respond]

theorem HandshakeKey.respond_second (k : HandshakeKey) (rndA : Block) :
    let c := authChallenge aes k.key rndA (cardChallenge aes k.key k.rndB) k.rndB
    k.respond aes .challenged (apdu 0xAF c) =
      (.answer 0x00 (cardAnswer aes k.key rndA k.ti k.caps c),
        .done (cardSession aes k.key rndA k.rndB k.keyNo k.ti)) := by
  simp [respond]

theorem auth_card (k : HandshakeKey) (rndA : Block) (h : Host) :
    let c := desfireAuthEv2First aes (k.respond aes) k.keyNo k.key rndA ⟨h, .idle⟩
    c.ret = .ok ∧ c.world.host.session = cardSession aes k.key rndA k.rndB k.keyNo k.ti ∧
      c.world.link = .done c.world.host.session := by
  obtain ⟨hret, hs, -, hl⟩ := auth_honest aes k.key rndA k.rndB (k.respond aes) k.keyNo k.ti k.caps
    ⟨h, .idle⟩ (k.respond_first aes) (k.respond_second aes rndA)
  exact ⟨hret, hs, by rw [hl, hs]⟩

/-- The two answers of a link in a handshake: `E(RndB)`, and 32 bytes whose decryption, chained from the
last block of `E(RndA | RndB')`, has the rotated `RndA` at its bytes 4 to 19. -/
def ProvesKey (key rndA eRndB : Block) (r1 r2 : LinkResult) : Prop :=
  r1.parse = some (0xAF, eRndB.toList) ∧
    ∃ d, r2.parse = some (0x00, d) ∧ d.length = 32 ∧
      let sent := cardEncrypt aes key eRndB
        (rndA.toList ++ (cardRotate (aes.dec key eRndB)).toList)
      ((cardDecrypt aes key (Block.ofBytes (sent.drop 16)) d).drop 4).take 16 = (cardRotate rndA).toList

/-- The host's challenge is `E(RndA | RndB')`. -/
theorem authChallenge_eq (key rndA eRndB : Block) :
    authChallenge aes key rndA eRndB (authRndB aes key eRndB) =
      cardEncrypt aes key eRndB (rndA.toList ++ (cardRotate (aes.dec key eRndB)).toList) := by
  rw [authChallenge, authRndB, desfireAesCbcDecrypt_block, Block.ofBytes_toList', rotateLeft1_eq,
    desfireAesCbcEncrypt_eq]

theorem provesKey_of_reply {key rndA eRndB : Block} {r1 r2 : LinkResult} {plain : Bytes}
    (h1 : authReply1 r1 = some eRndB) (h2 : authReply2 aes key rndA eRndB r2 = some plain) :
    ProvesKey aes key rndA eRndB r1 r2 := by
  obtain ⟨d, hr, h32, rfl, hrnd⟩ := authReply2_eq_some aes h2
  rw [authChallenge_eq, desfireAesCbcDecrypt_eq, rotateLeft1_eq] at hrnd
  exact ⟨(LinkResult.accept_eq_some.1 (authReply1_eq_some h1)).1, d,
    (LinkResult.accept_eq_some.1 hr).1, h32, hrnd⟩

/-- Over any link, the handshake succeeds only with a proof of the key, and else changes nothing. -/
theorem auth_link {σ : Type} (nfc : Nfc σ) (keyNo : UInt8) (key rndA : Block) (w : World σ) :
    let c := desfireAuthEv2First aes nfc keyNo key rndA w
    let r1 := nfc w.link (apdu 0x71 [keyNo, 0x00, 0x00])
    (c.ret = .ok ∧ ∃ eRndB, ProvesKey aes key rndA eRndB r1.1
        (nfc r1.2 (apdu 0xAF (authChallenge aes key rndA eRndB (authRndB aes key eRndB)))).1) ∨
      c.ret = .fail ∧ c.world.host.session = w.host.session := by
  intro c r1
  rcases auth_cases aes nfc keyNo key rndA w with
    ⟨hret, hs, -⟩ | ⟨eRndB, plain, h1, h2, hret, -⟩
  · exact .inr ⟨hret, hs⟩
  · exact .inl ⟨hret, eRndB, provesKey_of_reply aes h1 h2⟩

/-- Host and card agree after a handshake with a card that holds the key; a handshake over any link
succeeds only with an answer that proves the key, and changes no field of `g_session` if it fails. -/
theorem mutual_authentication (aes : Aes) :
    (∀ (k : HandshakeKey) (rndA : Block) (h : Host),
      let c := desfireAuthEv2First aes (k.respond aes) k.keyNo k.key rndA ⟨h, .idle⟩
      let s := c.world.host.session
      c.ret = .ok ∧ c.world.link = .done s ∧ s.keyNo = k.keyNo ∧ s.ti = k.ti ∧ s.cmdCtr = 0 ∧
        s.kSesAuthEnc = cardCmac aes k.key ([0xA5, 0x5A] ++ cardVector rndA k.rndB) ∧
        s.kSesAuthMac = cardCmac aes k.key ([0x5A, 0xA5] ++ cardVector rndA k.rndB)) ∧
    ∀ (σ : Type) (nfc : Nfc σ) (keyNo : UInt8) (key rndA : Block) (w : World σ),
      let c := desfireAuthEv2First aes nfc keyNo key rndA w
      let r1 := nfc w.link (apdu 0x71 [keyNo, 0x00, 0x00])
      (c.ret = .ok → ∃ eRndB, ProvesKey aes key rndA eRndB r1.1
        (nfc r1.2 (apdu 0xAF (authChallenge aes key rndA eRndB (authRndB aes key eRndB)))).1) ∧
      (c.ret ≠ .ok → c.world.host.session = w.host.session) := by
  constructor
  · intro k rndA h
    obtain ⟨hret, hs, hl⟩ := auth_card aes k rndA h
    refine ⟨hret, hl, ?_⟩
    rw [hs]
    exact ⟨rfl, rfl, rfl, rfl, rfl⟩
  · intro σ nfc keyNo key rndA w
    rcases auth_link aes nfc keyNo key rndA w with ⟨hret, hproof⟩ | ⟨hret, hs⟩
    · exact ⟨fun _ => hproof, fun hne => absurd hret hne⟩
    · refine ⟨fun hok => ?_, fun _ => hs⟩
      rw [hret] at hok
      cases hok

/-- The card with an all-zero key answers a handshake so that its first answer parses. -/
theorem mutual_authentication_zero :
    let k : HandshakeKey := ⟨0, .zero, .zero, .replicate 4 0, .replicate 12 0⟩
    ∃ eRndB, ProvesKey Aes128.aes128 k.key .zero eRndB
      (k.respond Aes128.aes128 .idle (apdu 0x71 [k.keyNo, 0x00, 0x00])).1
      (k.respond Aes128.aes128 (k.respond Aes128.aes128 .idle (apdu 0x71 [k.keyNo, 0x00, 0x00])).2
        (apdu 0xAF (authChallenge Aes128.aes128 k.key .zero eRndB
          (authRndB Aes128.aes128 k.key eRndB)))).1 := by
  intro k
  have h := mutual_authentication Aes128.aes128
  exact (h.2 HandshakeCard (k.respond Aes128.aes128) k.keyNo k.key .zero ⟨zeroHost, .idle⟩).1
    (h.1 k .zero zeroHost).1

end LeafReader
