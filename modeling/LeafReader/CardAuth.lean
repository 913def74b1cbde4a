import LeafReader.CardCrypto
import LeafReader.OpStep

/-!
# The card's side of a command

What a card reads out of an APDU, and its half of the handshake: the two answers, the check of the
challenge and the session keys, from the layouts in the comments of `desfire_auth.c`. With a card
that holds the key, both sides end with the same session (`cardSession_eq`).
-/

namespace LeafReader

/-! ### Reading an APDU -/

/-- Command and parameters of an ISO-wrapped native command. -/
def parseApdu (a : Bytes) : UInt8 × Bytes := (a.getD 1 0, (a.drop 5).dropLast)

@[simp] theorem parseApdu_apdu (cmd : UInt8) (params : Bytes) :
    parseApdu (apdu cmd params) = (cmd, params) := by
  simp [parseApdu, apdu]

/-! ### Handshake -/

variable (aes : Aes) (key rndA rndB : Block)

def cardChallenge : Block := aes.enc key rndB

/-- `RndA`, when the decrypted reply `c` ends in `RndB` rotated left. -/
def cardCheck (c : Bytes) : Option Block :=
  let plain := cardDecrypt aes key (cardChallenge aes key rndB) c
  if c.length = 32 ∧ plain.drop 16 = (cardRotate rndB).toList then some (Block.ofBytes plain)
  else none

def cardPlain (ti : Vector UInt8 4) (caps : Vector UInt8 12) : Bytes :=
  ti.toList ++ (cardRotate rndA).toList ++ caps.toList

/-- `E(TI | RndA' | PDcap2 | PCDcap2)`, chained from the last block of the reply `c`. -/
def cardAnswer (ti : Vector UInt8 4) (caps : Vector UInt8 12) (c : Bytes) : Bytes :=
  cardEncrypt aes key (Block.ofBytes (c.drop 16)) (cardPlain rndA ti caps)

/-- `sv1` and `sv2`, without their two header bytes, as the comment writes them:
`00 01 00 80 | RndA[15..14] | (RndA[13..8] xor RndB[15..10]) | RndB[9..0] | RndA[7..0]`. -/
def cardVector : Bytes :=
  [0x00, 0x01, 0x00, 0x80] ++ rndA.toList.take 2 ++
    List.zipWith (· ^^^ ·) ((rndA.toList.drop 2).take 6) (rndB.toList.take 6) ++
    rndB.toList.drop 6 ++ rndA.toList.drop 8

def cardSession (keyNo : UInt8) (ti : Vector UInt8 4) : Session where
  keyNo := keyNo
  ti := ti
  kSesAuthEnc := cardCmac aes key ([0xA5, 0x5A] ++ cardVector rndA rndB)
  kSesAuthMac := cardCmac aes key ([0x5A, 0xA5] ++ cardVector rndA rndB)
  cmdCtr := 0
  authenticated := true

theorem sessionVector_eq (h0 h1 : UInt8) :
    sessionVector h0 h1 rndA rndB = [h0, h1] ++ cardVector rndA rndB := by
  have h2 : rndA.toList.take 2 = List.ofFn fun i : Fin 2 => rndA[i.val] :=
    List.ext_getElem (by simp) fun i _ _ => by rw [List.getElem_ofFn]; simp
  have h6 : List.zipWith (· ^^^ ·) ((rndA.toList.drop 2).take 6) (rndB.toList.take 6) =
      List.ofFn fun i : Fin 6 => rndA[2 + i.val] ^^^ rndB[i.val] :=
    List.ext_getElem (by simp) fun i _ _ => by rw [List.getElem_ofFn]; simp
  have h10 : rndB.toList.drop 6 = List.ofFn fun i : Fin 10 => rndB[6 + i.val] :=
    List.ext_getElem (by simp) fun i _ _ => by rw [List.getElem_ofFn]; simp
  have h8 : rndA.toList.drop 8 = List.ofFn fun i : Fin 8 => rndA[8 + i.val] :=
    List.ext_getElem (by simp) fun i _ _ => by rw [List.getElem_ofFn]; simp
  rw [sessionVector, cardVector, h2, h6, h10, h8]
  simp only [List.append_assoc, List.cons_append, List.nil_append]

@[simp] theorem length_cardPlain (ti : Vector UInt8 4) (caps : Vector UInt8 12) :
    (cardPlain rndA ti caps).length = 32 := by simp [cardPlain]

theorem toList_cardChallenge :
    (cardChallenge aes key rndB).toList = desfireAesCbcEncrypt aes key .zero rndB.toList := by
  rw [desfireAesCbcEncrypt_block]
  rfl

@[simp] theorem authRndB_cardChallenge : authRndB aes key (cardChallenge aes key rndB) = rndB := by
  rw [authRndB, toList_cardChallenge, decrypt_encrypt aes key .zero (by simp), Block.ofBytes_toList']

@[simp] theorem cardCheck_authChallenge :
    cardCheck aes key rndB (authChallenge aes key rndA (cardChallenge aes key rndB) rndB) =
      some rndA := by
  have hdec : desfireAesCbcDecrypt aes key (cardChallenge aes key rndB)
      (authChallenge aes key rndA (cardChallenge aes key rndB) rndB) =
        rndA.toList ++ (rotateLeft1 rndB).toList := decrypt_encrypt aes key _ (by simp)
  simp [cardCheck, ← desfireAesCbcDecrypt_eq, ← rotateLeft1_eq, hdec, length_authChallenge]

theorem length_cardAnswer (ti : Vector UInt8 4) (caps : Vector UInt8 12) (c : Bytes) :
    (cardAnswer aes key rndA ti caps c).length = 32 := by
  rw [cardAnswer, ← desfireAesCbcEncrypt_eq, length_desfireAesCbcEncrypt aes key _ (by simp),
    length_cardPlain]

@[simp] theorem authReply1_cardChallenge :
    authReply1 (.answer 0xAF (cardChallenge aes key rndB).toList) =
      some (cardChallenge aes key rndB) := by
  have h : (LinkResult.answer 0xAF (cardChallenge aes key rndB).toList).accept [0xAF] 64 =
      some (0xAF, (cardChallenge aes key rndB).toList) :=
    LinkResult.accept_eq_some.2 ⟨LinkResult.parse_answer _ (by simp), by simp, by simp⟩
  simp [authReply1, h]

/-- The host accepts the card's answer and reads `TI | RndA' | caps` out of it. -/
@[simp] theorem authReply2_cardAnswer (ti : Vector UInt8 4) (caps : Vector UInt8 12) :
    authReply2 aes key rndA (cardChallenge aes key rndB)
      (.answer 0x00 (cardAnswer aes key rndA ti caps
        (authChallenge aes key rndA (cardChallenge aes key rndB) rndB))) =
      some (cardPlain rndA ti caps) := by
  have hlen := length_cardAnswer aes key rndA ti caps
    (authChallenge aes key rndA (cardChallenge aes key rndB) rndB)
  have h := LinkResult.accept_eq_some.2 ⟨LinkResult.parse_answer 0x00
    (show (cardAnswer aes key rndA ti caps
      (authChallenge aes key rndA (cardChallenge aes key rndB) rndB)).length + 2 ≤ 280 by omega),
    show (0x00 : UInt8) ∈ [0x00] by simp, show _ ≤ 64 by omega⟩
  have hdec : desfireAesCbcDecrypt aes key
      (Block.ofBytes ((authChallenge aes key rndA (cardChallenge aes key rndB) rndB).drop 16))
      (cardAnswer aes key rndA ti caps
        (authChallenge aes key rndA (cardChallenge aes key rndB) rndB)) = cardPlain rndA ti caps :=
    decrypt_encrypt aes key _ (by simp)
  simp only [authReply2, h, authRndB_cardChallenge, hdec, hlen]
  simp [cardPlain, rotateLeft1_eq]

/-- Both sides derive the same session from a handshake in which they share the key. -/
theorem cardSession_eq (keyNo : UInt8) (ti : Vector UInt8 4) (caps : Vector UInt8 12) :
    authSession aes keyNo key rndA rndB (cardPlain rndA ti caps) =
      cardSession aes key rndA rndB keyNo ti := by
  have hti : (Vector.ofFn fun i : Fin 4 => (cardPlain rndA ti caps).getD i 0) = ti := by
    ext i hi
    simp [cardPlain, List.getD_eq_getElem?_getD, List.getElem?_append]
  simp only [authSession, cardSession, hti, sessionVector_eq, desfireCmac_eq_card]

/-- A card that holds the key completes the handshake, and the host ends with the card's session. -/
theorem auth_honest {σ : Type} (nfc : Nfc σ) (keyNo : UInt8) (ti : Vector UInt8 4)
    (caps : Vector UInt8 12) (w : World σ) {l1 l2 : σ}
    (h1 : nfc w.link (apdu 0x71 [keyNo, 0x00, 0x00]) =
      (.answer 0xAF (cardChallenge aes key rndB).toList, l1))
    (h2 : nfc l1 (apdu 0xAF (authChallenge aes key rndA (cardChallenge aes key rndB) rndB)) =
      (.answer 0x00 (cardAnswer aes key rndA ti caps
        (authChallenge aes key rndA (cardChallenge aes key rndB) rndB)), l2)) :
    let c := desfireAuthEv2First aes nfc keyNo key rndA w
    c.ret = .ok ∧ c.world.host.session = cardSession aes key rndA rndB keyNo ti ∧
      c.world.host.macKey = c.world.host.session.kSesAuthMac ∧ c.world.link = l2 := by
  have hr1 : authReply1 (nfc w.link (apdu 0x71 [keyNo, 0x00, 0x00])).1 =
      some (cardChallenge aes key rndB) := by
    rw [h1, authReply1_cardChallenge]
  have h := auth_ok aes nfc keyNo key rndA w hr1
  simp only [h1, authRndB_cardChallenge, h2] at h
  have h' := h _ (authReply2_cardAnswer aes key rndA rndB ti caps)
  rw [cardSession_eq] at h'
  exact h'

end LeafReader
