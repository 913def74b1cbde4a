import LeafReader.Desfire

/-!
# Credentials (`leaf.c`)

Key diversification, the credential payload, and the two flows. The site key is an argument: what
`leaf_get_site_key` finds in NVS. The random numbers of the handshakes and the contents of
uninitialised arrays are arguments too.
-/

namespace LeafReader

variable {σ : Type} (aes : Aes) (nfc : Nfc σ)

/-- `leaf_credential_t`. -/
structure Credential where
  facility : UInt16
  cardId : UInt32
  issueDate : UInt32
deriving DecidableEq, Repr

def leafAid : Aid := #v[0xF4, 0xEA, 0x00]

def piccAid : Aid := Vector.replicate 3 0

def leafFileNo : UInt8 := 1

def leafFileSize : UInt32 := 32

def defaultKey : Block := .zero

/-! ### Keys and payload -/

/-- The diversification input `tag | UID | AID`, with at most 7 bytes of UID. -/
def diversifyInput (tag : UInt8) (uid : Bytes) : Bytes := [tag] ++ uid.take 7 ++ leafAid.toList

/-- The read key; the key slot is saved and restored around the CMAC. -/
def leafDiversifyKey (siteKey : Block) (uid : Bytes) (h : Host) : Block × Host :=
  cmacWithKey aes siteKey (diversifyInput 0x01 uid) h

/-- The application master key, derived in `leaf_personalize` under the tag `0x02`. -/
def diversifyMaster (siteKey : Block) (uid : Bytes) (h : Host) : Block × Host :=
  cmacWithKey aes siteKey (diversifyInput 0x02 uid) h

def leafPackCredential (c : Credential) : Bytes := le16 c.facility ++ le32 c.cardId ++ le32 c.issueDate

def leafUnpackCredential (b : Bytes) : Credential where
  facility := (b.getD 0 0).toUInt16 ||| ((b.getD 1 0).toUInt16 <<< 8)
  cardId := ofLe32 (b.drop 2)
  issueDate := ofLe32 (b.drop 6)

/-- What is packed is unpacked again, whatever follows in the file. -/
theorem leafUnpackCredential_pack (c : Credential) (rest : Bytes) :
    leafUnpackCredential (leafPackCredential c ++ rest) = c := by
  have hfacility : ofLe16 (leafPackCredential c ++ rest) = c.facility := by
    rw [leafPackCredential, List.append_assoc, List.append_assoc]
    exact ofLe16_le16 c.facility _
  have hcardId : (leafPackCredential c ++ rest).drop 2 = le32 c.cardId ++ (le32 c.issueDate ++ rest) := by
    rw [leafPackCredential, List.append_assoc, List.append_assoc]
    rfl
  have hissueDate : (leafPackCredential c ++ rest).drop 6 = le32 c.issueDate ++ rest := by
    rw [leafPackCredential, List.append_assoc, List.append_assoc]
    rfl
  rw [leafUnpackCredential, hcardId, hissueDate, ofLe32_le32, ofLe32_le32]
  exact congrArg (fun facility => Credential.mk facility c.cardId c.issueDate) hfacility

def leafPayloadMac (divKey : Block) (payload : Bytes) (h : Host) : Bytes × Host :=
  let (full, h) := cmacWithKey aes divKey (payload.take 10) h
  (macTruncate full, h)

/-! ### Read flow -/

/-- `leaf_get_site_key`, from the entry found in NVS. -/
def leafGetSiteKey (site : Option Block) : Except EspErr Block :=
  match site with
  | none => .error .nvsNotFound
  | some k => .ok k

/-- Result, `*out` if it was written, and the state left. -/
structure ReadCall (σ : Type) where
  ret : EspErr
  out : Option Credential
  world : World σ

def leafRead (site : Option Block) (uid : Bytes) (rndA : Block) (mem : Vector UInt8 32) (w : World σ) :
    Except Fault (ReadCall σ) :=
  match leafGetSiteKey site with
  | .error _ => .ok ⟨.invalidState, none, w⟩
  | .ok site => do
    let (kDiv, host) := leafDiversifyKey aes site uid w.host
    let c := desfireSelectApplication nfc leafAid { w with host := host }
    if c.ret ≠ .ok then return ⟨.fail, none, c.world⟩
    let c := desfireAuthEv2First aes nfc 1 kDiv rndA c.world
    if c.ret ≠ .ok then return ⟨.fail, none, c.world⟩
    let c ← desfireReadData aes nfc leafFileNo 0 leafFileSize .cmac ⟨some mem.toList, some 0⟩ 32 c.world
    if c.ret ≠ .ok ∨ c.out.respLen ≠ some 32 then return ⟨.fail, none, c.world⟩
    let buf := c.out.bytes
    let (want, host) := leafPayloadMac aes kDiv buf c.world.host
    let w := { c.world with host := host }
    if (buf.drop 10).take 8 ≠ want then return ⟨.invalidCrc, none, w⟩
    return ⟨.ok, some (leafUnpackCredential buf), w⟩

/-! ### Personalize flow -/

/-- `mem` is the uninitialised `payload`, of which the first 18 bytes are written. -/
def leafPersonalize (site : Option Block) (uid : Bytes) (cred : Credential) (rndA1 rndA2 rndA3 : Block)
    (mem : Vector UInt8 32) (w : World σ) : Except Fault (Call σ EspErr) :=
  match leafGetSiteKey site with
  | .error _ => .ok ⟨.invalidState, .null, w⟩
  | .ok site => do
    let (kDiv, host) := leafDiversifyKey aes site uid w.host
    let c := desfireSelectApplication nfc piccAid { w with host := host }
    if c.ret ≠ .ok then return ⟨.fail, .null, c.world⟩
    let c := desfireAuthEv2First aes nfc 0 defaultKey rndA1 c.world
    if c.ret ≠ .ok then return ⟨.fail, .null, c.world⟩
    -- a failed FormatPICC is only logged
    let c ← desfireFormatPicc aes nfc c.world
    let c ← desfireCreateApplication aes nfc leafAid 0x0F 0x82 c.world
    if c.ret ≠ .ok then return ⟨.fail, .null, c.world⟩
    let c := desfireSelectApplication nfc leafAid c.world
    if c.ret ≠ .ok then return ⟨.fail, .null, c.world⟩
    let c := desfireAuthEv2First aes nfc 0 defaultKey rndA2 c.world
    if c.ret ≠ .ok then return ⟨.fail, .null, c.world⟩
    let c ← desfireCreateStdDataFile aes nfc leafFileNo .cmac 0x1000 leafFileSize c.world
    if c.ret ≠ .ok then return ⟨.fail, .null, c.world⟩
    let (kDivMaster, host) := diversifyMaster aes site uid c.world.host
    let c := desfireChangeKey aes nfc 1 defaultKey kDiv 0x01 { c.world with host := host }
    if c.ret ≠ .ok then return ⟨.fail, .null, c.world⟩
    let c := desfireChangeKey aes nfc 0 defaultKey kDivMaster 0x01 c.world
    if c.ret ≠ .ok then return ⟨.fail, .null, c.world⟩
    let c := desfireAuthEv2First aes nfc 0 kDivMaster rndA3 c.world
    if c.ret ≠ .ok then return ⟨.fail, .null, c.world⟩
    let packed := leafPackCredential cred
    let (mac8, host) := leafPayloadMac aes kDiv packed c.world.host
    let payload := packed ++ mac8 ++ mem.toList.drop 18
    desfireWriteData aes nfc leafFileNo 0 .cmac payload { c.world with host := host }

end LeafReader
