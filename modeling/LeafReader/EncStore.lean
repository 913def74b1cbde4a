import LeafReader.CardSpec
import LeafReader.Aes128

/-!
# Encrypted mode implements a plain file store

The abstract store is a byte string for each file number. Against an ideal card in step, every run
of encrypted writes, encrypted reads and GetCardUID within the bounds of the files succeeds, returns
what the store holds at that point, and leaves host and card in step.
-/

namespace LeafReader

/-! ### The store -/

/-- The contents of the files, by file number. -/
abbrev Store := UInt8 → Option Bytes

/-- What an operation does to the store. -/
def Op.effect (store : Store) : Op → Store
  | .writeData n offset _ data => fun m =>
    if m = n then (store n).map (writeAt · offset.toNat data) else store m
  | _ => store

/-- The encrypted operations on `store` that stay in the bounds of its files. -/
def Op.InBounds (store : Store) : Op → Prop
  | .writeData n offset .encrypted data =>
    1 ≤ data.length ∧ data.length ≤ 236 ∧ offset.toNat < 2 ^ 24 ∧
      ∃ f, store n = some f ∧ offset.toNat + data.length ≤ f.length
  | .readData n offset length .encrypted out outBuf =>
    1 ≤ length.toNat ∧ length.toNat ≤ 252 ∧ offset.toNat < 2 ^ 24 ∧ length.toNat ≤ outBuf ∧
      out.resp ≠ none ∧ out.respLen ≠ none ∧
      ∃ f, store n = some f ∧ offset.toNat + length.toNat ≤ f.length
  | .getUid _ => True
  | _ => False

/-- What an operation returns: a read the bytes of the store, GetCardUID the UID. -/
def Op.Output (store : Store) (uid : Vector UInt8 7) (out : Out) : Op → Prop
  | .readData n offset length _ _ _ =>
    ∃ f, store n = some f ∧ out.bytes = (f.drop offset.toNat).take length.toNat
  | .getUid _ => out.resp.map (·.take 7) = some uid.toList
  | _ => True

/-- A run stays in the bounds of the store as the run changes it. -/
def RunInBounds : List Op → Store → Prop
  | [], _ => True
  | op :: ops, store => op.InBounds store ∧ RunInBounds ops (op.effect store)

/-- The run of `ops` succeeds at every call, returns what `store` holds at that point, and keeps the
two command counters equal. -/
def Implements (aes : Aes) (uid : Vector UInt8 7) : List Op → Store → World Card → Prop
  | [], _, _ => True
  | op :: ops, store, w => ∃ c, op.run aes (Card.respond aes) w = .ok c ∧ c.ret = .ok ∧
      op.Output store uid c.out ∧
      c.world.link.session.map (·.cmdCtr) = some c.world.host.session.cmdCtr ∧
      Implements aes uid ops (op.effect store) c.world

/-- The encrypted files of the selected application. -/
def Card.encStore (c : Card) : Store := fun n =>
  (c.file n).bind fun f => if f.comm = .encrypted then some f.data else none

theorem Card.encStore_eq_some {c : Card} {n : UInt8} {content : Bytes}
    (h : c.encStore n = some content) :
    ∃ f, c.file n = some f ∧ f.comm = .encrypted ∧ f.data = content := by
  obtain ⟨f, hf, h'⟩ := Option.bind_eq_some_iff.1 h
  simp only [Option.ite_none_right_eq_some, Option.some.injEq] at h'
  exact ⟨f, hf, h'⟩

/-! ### What the card does with each request -/

variable (aes : Aes)

theorem Card.respond_getUid {c : Card} {h : Host} (hs : InStep h c) :
    c.respond aes (apdu 0x51 (cmacParams aes h 0x51 [] [])) =
      c.reply aes h.session (h.session.bump.seal aes c.uid.toList) := by
  simp [respond, hs.session, secured, unmac_cmacParams aes hs.live]

theorem Card.readFile_encrypted {c : Card} {h : Host} (hs : InStep h c) {n : UInt8}
    {offset length : UInt32} {f : File} (hf : c.file n = some f) (hc : f.comm = .encrypted)
    (h1 : 1 ≤ length.toNat) (h252 : length.toNat ≤ 252) (hoff : offset.toNat < 2 ^ 24)
    (hin : offset.toNat + length.toNat ≤ f.data.length) :
    c.readFile aes c.session (cmacParams aes h 0xBD (fileHeader n offset length) []) =
      c.reply aes h.session
        (h.session.bump.seal aes ((f.data.drop offset.toNat).take length.toNat)) := by
  have h0 : length.toNat ≠ 0 := by omega
  rw [Card.readFile_secured aes hs _ _ hf (by simp [hc]), Nat.mod_eq_of_lt hoff,
    Nat.mod_eq_of_lt (show length.toNat < 2 ^ 24 by omega)]
  simp only [File.read, hin, ↓reduceIte, h0, hc]

theorem toNat_length_toUInt32 {data : Bytes} (h : data.length ≤ 236) :
    data.length.toUInt32.toNat = data.length := by
  rw [Nat.toUInt32, UInt32.toNat_ofNat']
  omega

theorem Card.writeFile_encrypted {c : Card} {h : Host} (hs : InStep h c) {n : UInt8}
    {offset : UInt32} {data : Bytes} {f : File} (hf : c.file n = some f) (hc : f.comm = .encrypted)
    (h236 : data.length ≤ 236) (hoff : offset.toNat < 2 ^ 24)
    (hin : offset.toNat + data.length ≤ f.data.length) :
    let hdr := fileHeader n offset data.length.toUInt32
    c.writeFile aes c.session (encParams aes h 0x3D hdr (encPlain 0x3D hdr data)) =
      (c.setFile n { f with data := writeAt f.data offset.toNat data }).reply aes h.session [] := by
  intro hdr
  have hoff' : offset.toNat % 2 ^ 24 = offset.toNat := Nat.mod_eq_of_lt hoff
  have hlen' : data.length.toUInt32.toNat % 2 ^ 24 = data.length := by
    rw [toNat_length_toUInt32 h236, Nat.mod_eq_of_lt (by omega)]
  have hp : encParams aes h 0x3D hdr (encPlain 0x3D hdr data) = fileHeader n offset
      data.length.toUInt32 ++ (encCipher aes h.session (encPlain 0x3D hdr data) ++
        cmacSession aes h (macHead 0x3D h.session ++ hdr ++
          encCipher aes h.session (encPlain 0x3D hdr data))) := by
    rw [encParams, List.append_assoc]
  have hu := unmac_encParams aes hs.live 0x3D hdr (encPlain 0x3D hdr data)
  have hbody : (hdr ++ encCipher aes h.session (encPlain 0x3D hdr data)).take 7 = hdr := rfl
  have hcipher : (hdr ++ encCipher aes h.session (encPlain 0x3D hdr data)).drop 7 =
      encCipher aes h.session (encPlain 0x3D hdr data) := rfl
  have hd := unseal_encCipher aes h.session 0x3D hdr (show data.length ≤ 252 by omega)
  rw [hp] at hu
  rw [writeFile, hp, getD_fileHeader, ofLe24_fileHeader_offset, ofLe24_fileHeader_length, hf,
    hoff', hlen']
  simp only [hc, hs.session, hu, hbody, hcipher, hd, Nat.not_lt.2 hin, ↓reduceIte]

/-! ### One operation -/

theorem Out.bytes_put {o : Out} (hr : o.resp ≠ none) (hl : o.respLen ≠ none) (d : Bytes) :
    (o.put d).bytes = d := by
  obtain ⟨_ | r, _ | n⟩ := o
  · exact absurd rfl hr
  · exact absurd rfl hr
  · exact absurd rfl hl
  · simp [put, bytes]

theorem encStore_setFile {c : Card} {n : UInt8} {f : File} (hf : c.file n = some f)
    (hc : f.comm = .encrypted) (data : Bytes) (s : Option Session) :
    ((c.setFile n { f with data := data }).setSession s).encStore =
      fun m => if m = n then some data else c.encStore m := by
  funext m
  simp only [Card.encStore, Card.file_setSession, Card.file_setFile c hf]
  by_cases hm : m = n <;> simp [hm, hc]

/-- Both sides count a command they have both seen. -/
theorem InStep.bump {w : World Card} (hs : InStep w.host w.link) {c : Card} (st : UInt8) :
    InStep ((⟨w.host, c.setSession (some w.host.session.bump)⟩ : World Card).setStatus st).bumpCtr.host
      (c.setSession (some w.host.session.bump)) :=
  ⟨⟨hs.live.authenticated, hs.live.macKey⟩, rfl⟩

/-- The outcome of one operation: success, the store's answer, and parties that are again in step. -/
def StepsStore (op : Op) (w : World Card) : Prop :=
  ∃ c, op.run aes (Card.respond aes) w = .ok c ∧ c.ret = .ok ∧
    op.Output w.link.encStore w.link.uid c.out ∧ InStep c.world.host c.world.link ∧
    c.world.link.encStore = op.effect w.link.encStore ∧ c.world.link.uid = w.link.uid

variable {w : World Card} (hs : InStep w.host w.link)
include hs

theorem getUid_stepsStore (uid : Bytes) : StepsStore aes (.getUid uid) w := by
  have hx : w.link.respond aes (apdu 0x51 (cmacParams aes w.host 0x51 [] [])) = _ :=
    Card.respond_getUid aes hs
  have hc := desfireEncRecv_seal aes hs.live (Card.respond aes) (.buf 7) (by simp) (by simp)
    (show w.link.uid.toList.length ≤ 7 by simp) hx
  rw [Vector.length_toList] at hc
  have hrun := desfireGetUid_of_auth aes (Card.respond aes) hs.live.authenticated uid
  simp only [hc, Except.map, Out.bytes_put_buf, Vector.length_toList, ne_eq, not_true_eq_false, or_self,
    ↓reduceIte] at hrun
  refine ⟨_, by rw [Op.run, hrun], rfl, ?_, hs.bump 0x00, rfl, rfl⟩
  simp [Op.Output, Out.put]

theorem read_stepsStore {n : UInt8} {offset length : UInt32} {out : Out} {outBuf : Nat}
    (hb : (Op.readData n offset length .encrypted out outBuf).InBounds w.link.encStore) :
    StepsStore aes (.readData n offset length .encrypted out outBuf) w := by
  obtain ⟨h1, h252, hoff, hbuf, hr, hl, content, hcontent, hin⟩ := hb
  obtain ⟨f, hf, hc, rfl⟩ := Card.encStore_eq_some hcontent
  have hlen : ((f.data.drop offset.toNat).take length.toNat).length = length.toNat := by simp; omega
  have hx := Card.readFile_encrypted aes hs hf hc h1 h252 hoff hin
  rw [← Card.respond_read] at hx
  have hrecv := desfireEncRecv_seal aes hs.live (Card.respond aes) out (by simp) (by omega)
    (show ((f.data.drop offset.toNat).take length.toNat).length ≤ outBuf by omega) hx
  have h0 : ¬ (length = 0 ∨ length.toNat > outBuf) := by
    rintro (rfl | h)
    · simp at h1
    · omega
  rw [hlen] at hrecv
  refine ⟨_, by rw [Op.run, desfireReadData_encrypted_of_auth _ _ hs.live.authenticated, if_neg h0,
    hrecv, Except.map], rfl, ⟨f.data, hcontent, Out.bytes_put hr hl _⟩, hs.bump 0x00, rfl, rfl⟩

theorem write_stepsStore {n : UInt8} {offset : UInt32} {data : Bytes}
    (hb : (Op.writeData n offset .encrypted data).InBounds w.link.encStore) :
    StepsStore aes (.writeData n offset .encrypted data) w := by
  obtain ⟨h1, h236, hoff, content, hcontent, hin⟩ := hb
  obtain ⟨f, hf, hc, rfl⟩ := Card.encStore_eq_some hcontent
  have hx := Card.writeFile_encrypted aes hs hf hc h236 hoff hin
  dsimp only at hx
  rw [← Card.respond_write] at hx
  have hacc : (LinkResult.answer 0x00 ([] ++ w.host.session.bump.mac8 aes 0x00 [])).accept [0x00] 64 =
      some (0x00, [] ++ w.host.session.bump.mac8 aes 0x00 []) :=
    LinkResult.accept_eq_some.2 ⟨LinkResult.parse_answer _ (by simp), by simp, by simp⟩
  have hmac := macMatches_mac8 aes hs.live []
  set card := w.link.setFile n { f with data := writeAt f.data offset.toNat data } with hcard
  have hrun : (Op.writeData n offset .encrypted data).run aes (Card.respond aes) w =
      .ok (ofStatus ⟨some 0x00, .null, ((⟨w.host, card.setSession (some w.host.session.bump)⟩ :
        World Card).setStatus 0x00).bumpCtr⟩) := by
    rw [Op.run, desfireWriteData_encrypted_of_auth _ _ hs.live.authenticated,
      desfireEncSend_sent aes _ .null w hs.live.authenticated (length_fileHeader ..) h236, hx,
      Card.reply, encSendTail_of_accept aes _ hacc, if_pos (.inr hmac)]
    rfl
  refine ⟨_, hrun, rfl, trivial, hs.bump 0x00, ?_, rfl⟩
  show (card.setSession (some w.host.session.bump)).encStore = _
  rw [hcard, encStore_setFile hf hc]
  funext m
  simp only [Op.effect, hcontent, Option.map_some]

/-- Every operation in the bounds of the store steps it. -/
theorem op_stepsStore {op : Op} (hb : op.InBounds w.link.encStore) : StepsStore aes op w := by
  cases op with
  | writeData n offset comm data =>
    cases comm with
    | plain | cmac => exact hb.elim
    | encrypted => exact write_stepsStore aes hs hb
  | readData n offset length comm out outBuf =>
    cases comm with
    | plain | cmac => exact hb.elim
    | encrypted => exact read_stepsStore aes hs hb
  | getUid uid => exact getUid_stepsStore aes hs uid
  | _ => exact hb.elim

/-! ### Runs -/

omit hs

/-- From parties in step, every run in the bounds of the card's encrypted files implements the plain
store that holds their contents. -/
theorem encStore_implements (ops : List Op) {w : World Card} (hs : InStep w.host w.link)
    (hb : RunInBounds ops w.link.encStore) : Implements aes w.link.uid ops w.link.encStore w := by
  induction ops generalizing w with
  | nil => trivial
  | cons op ops ih =>
    obtain ⟨hop, hrest⟩ := hb
    obtain ⟨c, hc, hret, hout, hs', hstore, huid⟩ := op_stepsStore aes hs hop
    have hctr : c.world.link.session.map (·.cmdCtr) = some c.world.host.session.cmdCtr := by
      rw [hs'.session]
      rfl
    refine ⟨c, hc, hret, hout, hctr, ?_⟩
    rw [← hstore, ← huid]
    exact ih hs' (by rw [hstore]; exact hrest)

/-- A card in step with `zeroHost`, with an encrypted file of four zeroes. -/
def zeroCard (comm : CommMode) : Card where
  uid := #v[0x04, 1, 2, 3, 4, 5, 6]
  apps aid :=
    if aid = piccAid then
      some ⟨fun _ => blankKey, fun n => if n = 1 then some ⟨comm, 0, List.replicate 4 0⟩ else none⟩
    else none
  selected := piccAid
  session := some zeroHost.session
  pending := none
  draws := fun _ => (.zero, .replicate 4 0)
  handshakes := 0

/-- A write, a read across its end, and GetCardUID. -/
theorem encStore_implements_sample :
    Implements Aes128.aes128 (zeroCard .encrypted).uid
      [.writeData 1 1 .encrypted [7, 8], .readData 1 2 2 .encrypted (.buf 2) 2,
        .getUid (List.replicate 7 0)] (zeroCard .encrypted).encStore ⟨zeroHost, zeroCard .encrypted⟩ :=
  encStore_implements Aes128.aes128 _ (w := ⟨zeroHost, zeroCard .encrypted⟩) ⟨live_zeroHost, rfl⟩
    ⟨⟨by decide, by decide, by decide, List.replicate 4 0, rfl, by decide⟩,
      ⟨by decide, by decide, by decide, by decide, by decide, by decide,
        [0, 7, 8, 0], rfl, by decide⟩, trivial, trivial⟩

end LeafReader
