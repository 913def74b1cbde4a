import LeafReader.CardAuth
import LeafReader.Leaf

/-!
# An ideal card

A DESFire card as the comments of `desfire.c` and `desfire_enc.c` describe its wire formats:
applications with keys and files, the handshake, MAC-ed and encrypted requests, and answers that
carry the session MAC over `status | ctr + 1 | TI | data`. Two parties are in step (`InStep`) when
the card's session is the host's.
-/

namespace LeafReader

/-! ### State -/

structure CardKey where
  key : Block
  version : UInt8

structure File where
  comm : CommMode
  rights : UInt16
  data : Bytes

structure App where
  keys : UInt8 → CardKey
  files : UInt8 → Option File

/-- The card's applications (AID 000000 is the PICC itself), its session, the handshake in progress,
and the `RndB` and `TI` of its handshakes to come. -/
structure Card where
  uid : Vector UInt8 7
  apps : Aid → Option App
  selected : Aid
  session : Option Session
  pending : Option (UInt8 × Block)
  draws : Nat → Block × Vector UInt8 4
  handshakes : Nat

def blankKey : CardKey := ⟨.zero, 0⟩

namespace Card

def app (c : Card) : Option App := c.apps c.selected

def setApp (c : Card) (aid : Aid) (a : Option App) : Card :=
  { c with apps := fun x => if x = aid then a else c.apps x }

def file (c : Card) (fileNo : UInt8) : Option File := c.app.bind (·.files fileNo)

def setFile (c : Card) (fileNo : UInt8) (f : File) : Card :=
  c.setApp c.selected
    (c.app.map fun a => { a with files := fun n => if n = fileNo then some f else a.files n })

def setKey (c : Card) (keyNo : UInt8) (k : CardKey) : Card :=
  c.setApp c.selected
    (c.app.map fun a => { a with keys := fun n => if n = keyNo then k else a.keys n })

def setSession (c : Card) (s : Option Session) : Card := { c with session := s }

@[simp] theorem session_setSession (c : Card) (s : Option Session) :
    (c.setSession s).session = s := rfl

@[simp] theorem session_setFile (c : Card) (n : UInt8) (f : File) :
    (c.setFile n f).session = c.session := rfl

@[simp] theorem uid_setSession (c : Card) (s : Option Session) : (c.setSession s).uid = c.uid := rfl

@[simp] theorem uid_setFile (c : Card) (n : UInt8) (f : File) : (c.setFile n f).uid = c.uid := rfl

@[simp] theorem file_setSession (c : Card) (s : Option Session) (n : UInt8) :
    (c.setSession s).file n = c.file n := rfl

theorem file_setFile (c : Card) {n : UInt8} {f g : File} (h : c.file n = some f) (m : UInt8) :
    (c.setFile n g).file m = if m = n then some g else c.file m := by
  obtain ⟨a, ha, -⟩ := Option.bind_eq_some_iff.1 h
  simp only [file, app, setFile, setApp, ↓reduceIte]
  rw [show c.apps c.selected = some a from ha]
  simp only [Option.map_some, Option.bind_some]

end Card

/-! ### Wire formats -/

def pad80 (l : Bytes) : Bytes :=
  l ++ ((0x80 : UInt8) :: List.replicate 15 0).take ((16 - l.length % 16) % 16)

variable (aes : Aes)

/-- The 8-byte MAC of `first | ctr | TI | body` in the session `s`. -/
def Session.mac8 (s : Session) (first : UInt8) (body : Bytes) : Bytes :=
  oddBytes (cardCmac aes s.kSesAuthMac ([first] ++ le16 s.cmdCtr ++ s.ti.toList ++ body))

@[simp] theorem length_mac8 (s : Session) (first : UInt8) (body : Bytes) :
    (s.mac8 aes first body).length = 8 := List.length_ofFn

/-- The body of a request that ends in the right MAC. -/
def Session.unmac (s : Session) (cmd : UInt8) (params : Bytes) : Option Bytes :=
  let body := params.take (params.length - 8)
  if 8 ≤ params.length ∧ params.drop (params.length - 8) = s.mac8 aes cmd body then some body else none

/-- `E(payload || crc32(00 | payload) || pad)` under the card-to-host IV of `s`. -/
def Session.seal (s : Session) (payload : Bytes) : Bytes :=
  cardEncrypt aes s.kSesAuthEnc (s.cardIv aes 0x5A 0xA5)
    (pad80 (payload ++ le32 (cardCrc ([0x00] ++ payload))))

/-- The `n` data bytes under `cipher`, when checksum and padding are right. -/
def Session.unseal (s : Session) (cmd : UInt8) (header cipher : Bytes) (n : Nat) : Option Bytes :=
  let plain := cardDecrypt aes s.kSesAuthEnc (s.cardIv aes 0xA5 0x5A) cipher
  let data := plain.take n
  if plain = pad80 (data ++ le32 (cardCrc ([cmd] ++ header ++ data))) then some data else none

def changedSameKey (keyNo : UInt8) (plain : Bytes) : Option CardKey :=
  let new := plain.take 16
  let ver := plain.getD 16 0
  if plain = pad80 (new ++ [ver] ++ le32 (cardCrc ([0xC4, keyNo] ++ new ++ [ver]))) then
    some ⟨Block.ofBytes new, ver⟩
  else none

/-- New key and version in the plaintext of a ChangeKey of another key, which holds `old`. -/
def changedOtherKey (keyNo : UInt8) (old : Block) (plain : Bytes) : Option CardKey :=
  let mixed := plain.take 16
  let ver := plain.getD 16 0
  let new := Block.ofBytes mixed ^^^ old
  if plain = pad80 (mixed ++ [ver] ++ le32 (cardCrc ([0xC4, keyNo] ++ mixed ++ [ver])) ++
      le32 (cardCrc new.toList)) then some ⟨new, ver⟩
  else none

/-! ### Execution -/

/-- The bytes a ReadData at `offset` of `length` bytes names; length 0 stands for the rest. -/
def File.read (f : File) (offset length : Nat) : Option Bytes :=
  if offset + length ≤ f.data.length then
    some ((f.data.drop offset).take (if length = 0 then f.data.length else length))
  else none

def writeAt (content : Bytes) (offset : Nat) (data : Bytes) : Bytes :=
  content.take offset ++ data ++ content.drop (offset + data.length)

namespace Card

def refuse (c : Card) (st : UInt8) : LinkResult × Card := (.answer st [], c)

/-- An answer under secure messaging: the counter moves and the MAC is over its new value. -/
def reply (c : Card) (s : Session) (data : Bytes) : LinkResult × Card :=
  (.answer 0x00 (data ++ s.bump.mac8 aes 0x00 data), c.setSession (some s.bump))

def select (c : Card) (aid : Aid) : LinkResult × Card :=
  if (c.apps aid).isSome then
    (.answer 0x00 [], { c with selected := aid, session := none, pending := none })
  else ({ c with session := none, pending := none } : Card).refuse 0xA0

def startAuth (c : Card) (keyNo : UInt8) : LinkResult × Card :=
  match c.app with
  | none => c.refuse 0x40
  | some a =>
    let rndB := (c.draws c.handshakes).1
    (.answer 0xAF (cardChallenge aes (a.keys keyNo).key rndB).toList,
      { c with session := none, pending := some (keyNo, rndB) })

def finishAuth (c : Card) (reply : Bytes) : LinkResult × Card :=
  match c.app, c.pending with
  | some a, some (keyNo, rndB) =>
    let key := (a.keys keyNo).key
    match cardCheck aes key rndB reply with
    | none => ({ c with pending := none } : Card).refuse 0xAE
    | some rndA =>
      let ti := (c.draws c.handshakes).2
      (.answer 0x00 (cardAnswer aes key rndA ti (.replicate 12 0) reply),
        { c with
          session := some (cardSession aes key rndA rndB keyNo ti)
          pending := none
          handshakes := c.handshakes + 1 })
  | _, _ => c.refuse 0x1C

def createApp (c : Card) (hdr : Bytes) : Card :=
  c.setApp (Vector.ofFn fun i => hdr.getD i 0) (some ⟨fun _ => blankKey, fun _ => none⟩)

def createFile (c : Card) (hdr : Bytes) : Card :=
  c.setFile (hdr.getD 0 0)
    { comm := if hdr.getD 1 0 = 0 then .plain else if hdr.getD 1 0 = 1 then .cmac else .encrypted
      rights := (hdr.getD 2 0).toUInt16 ||| ((hdr.getD 3 0).toUInt16 <<< 8)
      data := List.replicate (ofLe24 (hdr.drop 4)) 0 }

def format (c : Card) : Card :=
  { c with apps := fun a => if a = piccAid then c.apps a else none }

/-- ReadData of a file, with the parameters the file's mode asks for. -/
def readFile (c : Card) (s : Option Session) (params : Bytes) : LinkResult × Card :=
  match c.file (params.getD 0 0) with
  | none => c.refuse 0x9E
  | some f =>
    let data := f.read (ofLe24 (params.drop 1)) (ofLe24 (params.drop 4))
    match f.comm, s with
    | .plain, _ => match data with
      | none => c.refuse 0xBE
      | some d => if params.length = 7 then (.answer 0x00 d, c) else c.refuse 0x7E
    | _, none => c.refuse 0x9D
    | mode, some s => match s.unmac aes 0xBD params, data with
      | none, _ => c.refuse 0x1E
      | some _, none => c.refuse 0xBE
      | some hdr, some d =>
        if hdr.length ≠ 7 then c.refuse 0x7E
        else c.reply aes s (if mode = .encrypted then s.bump.seal aes d else d)

/-- WriteData to a file, with the parameters the file's mode asks for. -/
def writeFile (c : Card) (s : Option Session) (params : Bytes) : LinkResult × Card :=
  let fileNo := params.getD 0 0
  let offset := ofLe24 (params.drop 1)
  let length := ofLe24 (params.drop 4)
  match c.file fileNo with
  | none => c.refuse 0x9E
  | some f =>
    let write (d : Bytes) : Card := c.setFile fileNo { f with data := writeAt f.data offset d }
    if f.data.length < offset + length then c.refuse 0xBE
    else match f.comm, s with
      | .plain, _ =>
        if params.length = 7 + length then (.answer 0x00 [], write (params.drop 7)) else c.refuse 0x7E
      | _, none => c.refuse 0x9D
      | .cmac, some s => match s.unmac aes 0x3D params with
        | none => c.refuse 0x1E
        | some body =>
          if body.length = 7 + length then (write (body.drop 7)).reply aes s [] else c.refuse 0x7E
      | .encrypted, some s => match s.unmac aes 0x3D params with
        | none => c.refuse 0x1E
        | some body => match s.unseal aes 0x3D (body.take 7) (body.drop 7) length with
          | none => c.refuse 0x1E
          | some d => (write d).reply aes s []

/-- ChangeKey: the session's own key ends the session. -/
def changeKey (c : Card) (s : Session) (params : Bytes) : LinkResult × Card :=
  match c.app, s.unmac aes 0xC4 params with
  | some a, some body =>
    let keyNo := body.getD 0 0
    let plain := cardDecrypt aes s.kSesAuthEnc (s.cardIv aes 0xA5 0x5A) (body.drop 1)
    if keyNo = s.keyNo then match changedSameKey keyNo plain with
      | none => c.refuse 0x1E
      | some k => (((c.setKey keyNo k).reply aes s []).1, (c.setKey keyNo k).setSession none)
    else match changedOtherKey keyNo (a.keys keyNo).key plain with
      | none => c.refuse 0x1E
      | some k => (c.setKey keyNo k).reply aes s []
  | _, _ => c.refuse 0x1E

/-- The commands under secure messaging other than those on files. -/
def secured (c : Card) (s : Session) (cmd : UInt8) (params : Bytes) : LinkResult × Card :=
  if cmd = 0xC4 then c.changeKey aes s params
  else match s.unmac aes cmd params with
    | none => c.refuse 0x1E
    | some body =>
      if cmd = 0xFC ∧ body.length = 0 then c.format.reply aes s []
      else if cmd = 0xCA ∧ body.length = 5 then (c.createApp body).reply aes s []
      else if cmd = 0xCD ∧ body.length = 7 then (c.createFile body).reply aes s []
      else if cmd = 0x51 ∧ body.length = 0 then c.reply aes s (s.bump.seal aes c.uid.toList)
      else c.refuse 0x1C

def respond : Nfc Card := fun c a =>
  let (cmd, params) := parseApdu a
  if cmd = 0x5A then c.select (Vector.ofFn fun i => params.getD i 0)
  else if cmd = 0x71 then c.startAuth aes (params.getD 0 0)
  else if cmd = 0xAF then c.finishAuth aes params
  else if cmd = 0xBD then c.readFile aes c.session params
  else if cmd = 0x3D then c.writeFile aes c.session params
  else match c.session with
    | some s => c.secured aes s cmd params
    | none =>
      if cmd = 0xCA ∧ params.length = 5 then (.answer 0x00 [], c.createApp params)
      else c.refuse 0x9D

end Card

/-- Host and card are in the same session, counters included. -/
structure InStep (h : Host) (c : Card) : Prop where
  live : h.Live
  session : c.session = some h.session

end LeafReader
